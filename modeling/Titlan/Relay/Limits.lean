import Titlan.Foundation.Table
import Titlan.Core

/-! # Rate limits

Two limiters that share nothing: one keyed by a per-boot hash of the source address, one by mailbox
id. Each key has one window of a minute with three counters. Instants are readings of the monotone
clock; `duration_since` is zero when the other instant is later. Where the source reads the minute
twice while it holds the limiter's lock, the later reading decides, and only that one is modelled. -/

namespace Titlan.Relay

open Foundation

/-- The part of `Config` the requests read. -/
structure Config where
  ttl : ℕ
  maxBlobBytes : ℕ
  mailboxMaxMessages : ℕ
  mailboxMaxBytes : ℕ
  maxMailboxes : ℕ
  rateCreatePerMin : ℕ
  ratePutPerMinSource : ℕ
  rateDepositPerMinSource : ℕ
  rateDepositPerMinMailbox : ℕ
  rateWsPerMinMailbox : ℕ
  limiterIdle : ℕ
  limiterMaxSources : ℕ

/-- `Window`: the counters of one key in one minute. -/
structure Window where
  minute : ℕ
  counts : Fin 3 → ℕ
  touched : ℕ

/-- `Window::fresh`. -/
def Window.fresh (minute now : ℕ) : Window := ⟨minute, fun _ => 0, now⟩

/-- `Window::admit`. -/
def Window.admitHit (w : Window) (slot : Fin 3) (limit minute now : ℕ) : Bool × Window :=
  let w := if w.minute ≠ minute then Window.fresh minute now else w
  let w := { w with touched := now }
  if limit ≤ w.counts slot then (false, w)
  else (true, { w with counts := Function.update w.counts slot (w.counts slot + 1) })

/-- The windows that have not idled for `idle`. -/
def Window.active (idle now : ℕ) (w : Window) : Option Window :=
  if now - w.touched < idle then some w else none

/-! ## Per source -/

/-- A source address. -/
inductive IpAddr
  | v4 (octets : Bytes)
  | v6 (octets : Bytes)

/-- `SourceLimiter`. -/
structure SourceLimiter where
  /-- The per-boot keyed hash. -/
  hasher : Bytes → UInt64
  map : Table UInt64 Window

namespace SourceLimiter

/-- `SourceLimiter::key`: an IPv6 source is its `/64`. -/
def key (l : SourceLimiter) : IpAddr → UInt64
  | .v4 octets => l.hasher octets
  | .v6 octets => l.hasher (octets.take 8)

/-- `SourceLimiter::admit`; `now₀` is read for the eviction of idle sources, `now` for the window. -/
def admitHit (cfg : Config) (l : SourceLimiter) (ip : IpAddr) (slot : Fin 3)
    (limit minute now₀ now : ℕ) : Bool × SourceLimiter :=
  if limit = 0 then (false, l)
  else
    let key := l.key ip
    let map :=
      if cfg.limiterMaxSources ≤ l.map.size ∧ key ∉ l.map then
        l.map.retain (Window.active cfg.limiterIdle now₀)
      else l.map
    -- saturated by active sources: shed the request of a new one
    if cfg.limiterMaxSources ≤ l.map.size ∧ key ∉ l.map ∧ cfg.limiterMaxSources ≤ map.size then
      (false, { l with map })
    else
      let out := ((map.lookup key).getD (Window.fresh minute now)).admitHit slot limit minute now
      (out.1, { l with map := map.insert key out.2 })

/-- `SourceLimiter::admit_create`. -/
def admitCreate (cfg : Config) (l : SourceLimiter) (ip : IpAddr) :
    (minute now₀ now : ℕ) → Bool × SourceLimiter :=
  l.admitHit cfg ip 0 cfg.rateCreatePerMin

/-- `SourceLimiter::admit_put`. -/
def admitPut (cfg : Config) (l : SourceLimiter) (ip : IpAddr) :
    (minute now₀ now : ℕ) → Bool × SourceLimiter :=
  l.admitHit cfg ip 2 cfg.ratePutPerMinSource

/-- `SourceLimiter::admit_deposit`. -/
def admitDeposit (cfg : Config) (l : SourceLimiter) (ip : IpAddr) :
    (minute now₀ now : ℕ) → Bool × SourceLimiter :=
  l.admitHit cfg ip 1 cfg.rateDepositPerMinSource

/-- `SourceLimiter::prune`. -/
def prune (cfg : Config) (l : SourceLimiter) (now : ℕ) : SourceLimiter :=
  { l with map := l.map.retain (Window.active cfg.limiterIdle now) }

end SourceLimiter

/-! ## Per mailbox -/

/-- `BoxLimiter`. -/
structure BoxLimiter where
  map : Table String Window

namespace BoxLimiter

/-- `BoxLimiter::admit`. -/
def admitHit (l : BoxLimiter) (mailbox : String) (slot : Fin 3) (limit minute now : ℕ) :
    Bool × BoxLimiter :=
  if limit = 0 then (false, l)
  else
    let out := ((l.map.lookup mailbox).getD (Window.fresh minute now)).admitHit slot limit minute now
    (out.1, ⟨l.map.insert mailbox out.2⟩)

/-- `BoxLimiter::admit_deposit`. -/
def admitDeposit (cfg : Config) (l : BoxLimiter) (mailbox : String) :
    (minute now : ℕ) → Bool × BoxLimiter :=
  l.admitHit mailbox 0 cfg.rateDepositPerMinMailbox

/-- `BoxLimiter::admit_ws`. -/
def admitWs (cfg : Config) (l : BoxLimiter) (mailbox : String) :
    (minute now : ℕ) → Bool × BoxLimiter :=
  l.admitHit mailbox 1 cfg.rateWsPerMinMailbox

/-- `BoxLimiter::prune`. -/
def prune (cfg : Config) (l : BoxLimiter) (now : ℕ) : BoxLimiter :=
  ⟨l.map.retain (Window.active cfg.limiterIdle now)⟩

/-- `BoxLimiter::forget`. -/
def forget (l : BoxLimiter) (mailbox : String) : BoxLimiter := ⟨l.map.erase mailbox⟩

end BoxLimiter

end Titlan.Relay
