import Mathlib.Data.List.Count
import Titlan.Relay.Server

/-! # The limiters as counters

What the limiters do, told without windows: a request is let through when fewer than its limit of
requests with its key and its slot have been let through in this minute. The limiters forget, by pruning
idle windows, by evicting them when the table is full, and by starting a new window each minute. One
clock drives the minute and the instants, and a window that has idled for a minute or longer is from a
minute that is over, so nothing forgotten was ever going to count. -/

namespace Titlan.Relay

open Foundation

/-- One clock for the minute and the instants: how many ticks a minute has, and how far into a minute
the clock started. -/
structure Clock where
  perMinute : ℕ
  positive : 0 < perMinute
  offset : ℕ

/-- The minute at an instant. -/
def Clock.minute (c : Clock) (t : ℕ) : ℕ := (c.offset + t) / c.perMinute

theorem Clock.minute_mono (c : Clock) {t t' : ℕ} (h : t ≤ t') : c.minute t ≤ c.minute t' :=
  Nat.div_le_div_right (Nat.add_le_add_left h _)

/-- A minute later it is a later minute. -/
theorem Clock.minute_lt (c : Clock) {t t' : ℕ} (h : t + c.perMinute ≤ t') : c.minute t < c.minute t' := by
  refine Nat.lt_of_succ_le (le_trans (le_of_eq ?_) (c.minute_mono h))
  unfold Clock.minute
  rw [← Nat.add_assoc, Nat.add_div_right _ c.positive]

/-! ## Windows and the history -/

section Counted

variable {κ : Type} {c : Clock} {map : Table κ Window} {admitted : List (κ × Fin 3 × ℕ)} {clock : ℕ}

/-- The history after a request: the key, the slot and the minute of each one let through. -/
def recorded (admitted : List (κ × Fin 3 × ℕ)) (k : κ) (slot : Fin 3) (minute : ℕ) (verdict : Bool) :
    List (κ × Fin 3 × ℕ) :=
  if verdict then (k, slot, minute) :: admitted else admitted

variable {minute : ℕ} {e : κ × Fin 3 × ℕ} {k : κ}

theorem mem_recorded {slot : Fin 3} {verdict : Bool}
    (he : e ∈ recorded admitted k slot minute verdict) : e ∈ admitted ∨ e = (k, slot, minute) := by
  unfold recorded at he
  split at he
  · exact (List.mem_cons.mp he).symm
  · exact .inl he

/-- Entries of other keys are those from before. -/
theorem mem_recorded_of_ne {k k' : κ} (hne : k' ≠ k) {slot : Fin 3} {verdict : Bool}
    (he : e ∈ recorded admitted k slot minute verdict) (hek : e.1 = k') : e ∈ admitted := by
  rcases mem_recorded he with he | rfl
  · exact he
  · exact absurd hek.symm hne

variable [DecidableEq κ]

/-- A request counts for its own key only. -/
theorem count_recorded_of_ne {k k' : κ} (hne : k' ≠ k) (slot slot' : Fin 3) (minute minute' : ℕ)
    (verdict : Bool) :
    (recorded admitted k slot minute verdict).count (k', slot', minute') =
      admitted.count (k', slot', minute') := by
  unfold recorded
  split
  · refine List.count_cons_of_ne fun heq => ?_
    exact hne (congrArg Prod.fst heq).symm
  · rfl

/-- The window of key `k` says what the history says, and the history has nothing later of `k`. -/
structure Window.Tells (c : Clock) (admitted : List (κ × Fin 3 × ℕ)) (k : κ) (clock : ℕ) (w : Window) :
    Prop where
  counts : ∀ slot, w.counts slot = admitted.count (k, slot, w.minute)
  last : ∀ e ∈ admitted, e.1 = k → e.2.2 ≤ w.minute
  minute : w.minute ≤ c.minute w.touched
  touched : w.touched ≤ clock

/-- Every window tells its key's history. A key without a window has no request in the present
minute. -/
structure Counted (c : Clock) (map : Table κ Window) (admitted : List (κ × Fin 3 × ℕ)) (clock : ℕ) :
    Prop where
  windows : ∀ k w, map.lookup k = some w → w.Tells c admitted k clock
  past : ∀ k, map.lookup k = none → ∀ e ∈ admitted, e.1 = k → e.2.2 < c.minute clock

theorem counted_empty (c : Clock) : Counted c (∅ : Table κ Window) [] 0 where
  windows _ _ h := by cases h
  past _ _ _ h := by cases h

theorem Window.Tells.later {w : Window} (h : w.Tells c admitted k clock) {clock' : ℕ}
    (hle : clock ≤ clock') : w.Tells c admitted k clock' :=
  ⟨h.counts, h.last, h.minute, h.touched.trans hle⟩

/-- Nothing of a key with a window is later than the present minute. -/
theorem Window.Tells.le_minute {w : Window} (h : w.Tells c admitted k clock)
    (he : e ∈ admitted) (hek : e.1 = k) : e.2.2 ≤ c.minute clock :=
  calc e.2.2 ≤ w.minute := h.last e he hek
    _ ≤ c.minute w.touched := h.minute
    _ ≤ c.minute clock := c.minute_mono h.touched

theorem Counted.later (h : Counted c map admitted clock) {clock' : ℕ} (hle : clock ≤ clock') :
    Counted c map admitted clock' where
  windows k w hw := (h.windows k w hw).later hle
  past k hk e he hek := (h.past k hk e he hek).trans_le (c.minute_mono hle)

theorem Window.active_eq_some {idle now : ℕ} {w w' : Window} (h : w.active idle now = some w') :
    w' = w ∧ now - w.touched < idle := by
  unfold Window.active at h
  split at h
  · next hlt => exact ⟨(Option.some.inj h).symm, hlt⟩
  · cases h

theorem Window.active_eq_none {idle now : ℕ} {w : Window} (h : w.active idle now = none) :
    idle ≤ now - w.touched := by
  unfold Window.active at h
  split at h
  · cases h
  · next hle => exact Nat.not_lt.mp hle

/-- Dropping the windows that have idled for a minute forgets nothing of the present minute. -/
theorem Counted.retain (h : Counted c map admitted clock) {idle now : ℕ} (hidle : c.perMinute ≤ idle)
    (hnow : now ≤ clock) : Counted c (map.retain (Window.active idle now)) admitted clock := by
  constructor
  · intro k w hw
    rw [Table.lookup_retain] at hw
    obtain ⟨w', hw', hactive⟩ := Option.bind_eq_some_iff.mp hw
    obtain ⟨rfl, -⟩ := Window.active_eq_some hactive
    exact h.windows k w hw'
  · intro k hk e he hek
    rw [Table.lookup_retain] at hk
    cases hlookup : map.lookup k with
    | none => exact h.past k hlookup e he hek
    | some w =>
      -- the window dropped was of an earlier minute
      rw [hlookup, Option.bind_some] at hk
      have hidled := Window.active_eq_none hk
      have hpos := c.positive
      have htells := h.windows k w hlookup
      calc e.2.2 ≤ w.minute := htells.last e he hek
        _ ≤ c.minute w.touched := htells.minute
        _ < c.minute clock := c.minute_lt (by omega)

/-- A key whose requests are all of earlier minutes has none in this one. -/
theorem count_eq_zero_of_lt (h : ∀ e ∈ admitted, e.1 = k → e.2.2 < minute)
    (slot : Fin 3) : admitted.count (k, slot, minute) = 0 :=
  List.count_eq_zero.mpr fun hmem => lt_irrefl _ (h _ hmem rfl)

theorem Counted.count_eq_zero (h : Counted c map admitted clock) (hk : map.lookup k = none)
    (hminute : c.minute clock ≤ minute) (slot : Fin 3) : admitted.count (k, slot, minute) = 0 :=
  count_eq_zero_of_lt (fun e he hek => (h.past k hk e he hek).trans_le hminute) slot

/-- The window a request is counted in: the key's own of this minute, or a fresh one. -/
theorem Counted.window (h : Counted c map admitted clock) (k : κ) (now : ℕ)
    (hminute : c.minute clock ≤ minute) :
    ∃ counts : Fin 3 → ℕ, (∀ slot, counts slot = admitted.count (k, slot, minute)) ∧
      ∀ slot limit, ((map.lookup k).getD (Window.fresh minute now)).admitHit slot limit minute now =
        if limit ≤ counts slot then (false, ⟨minute, counts, now⟩)
        else (true, ⟨minute, Function.update counts slot (counts slot + 1), now⟩) := by
  cases hlookup : map.lookup k with
  | none =>
    refine ⟨fun _ => 0, fun slot => (h.count_eq_zero hlookup hminute slot).symm, fun slot limit => ?_⟩
    simp [Window.admitHit, Window.fresh]
  | some w =>
    have htells := h.windows k w hlookup
    by_cases hw : w.minute = minute
    · refine ⟨w.counts, fun slot => ?_, fun slot limit => ?_⟩
      · rw [← hw]
        exact htells.counts slot
      · simp [Window.admitHit, hw]
    · have hle : w.minute ≤ minute := (htells.minute.trans (c.minute_mono htells.touched)).trans hminute
      refine ⟨fun _ => 0, fun slot => (count_eq_zero_of_lt (fun e he hek => ?_) slot).symm,
        fun slot limit => ?_⟩
      · exact (htells.last e he hek).trans_lt (lt_of_le_of_ne hle hw)
      · simp [Window.admitHit, Window.fresh, hw]

/-- The key's window is replaced by one of the present minute that counts the request. -/
theorem Counted.insert (h : Counted c map admitted clock) {slot : Fin 3} {verdict : Bool}
    {t now : ℕ} {counts : Fin 3 → ℕ} (ht : clock ≤ t) (hnow : t ≤ now)
    (hcounts : ∀ slot', counts slot' =
      (recorded admitted k slot (c.minute t) verdict).count (k, slot', c.minute t)) :
    Counted c (map.insert k ⟨c.minute t, counts, now⟩) (recorded admitted k slot (c.minute t) verdict)
      now := by
  have hlater := h.later (ht.trans hnow)
  constructor
  · intro k' w hw
    by_cases hk : k' = k
    · subst hk
      cases (AList.lookup_insert map).symm.trans hw
      refine ⟨hcounts, fun e he hek => ?_, c.minute_mono hnow, le_rfl⟩
      rcases mem_recorded he with he | rfl
      · cases hlookup : map.lookup k' with
        | none => exact ((h.past k' hlookup e he hek).trans_le (c.minute_mono ht)).le
        | some w => exact ((h.windows k' w hlookup).le_minute he hek).trans (c.minute_mono ht)
      · exact le_rfl
    · rw [AList.lookup_insert_ne hk] at hw
      have htells := hlater.windows k' w hw
      refine ⟨fun slot' => ?_, fun e he hek => ?_, htells.minute, htells.touched⟩
      · rw [count_recorded_of_ne hk]
        exact htells.counts slot'
      · exact htells.last e (mem_recorded_of_ne hk he hek) hek
  · intro k' hk' e he hek
    by_cases hk : k' = k
    · subst hk
      rw [AList.lookup_insert] at hk'
      cases hk'
    · rw [AList.lookup_insert_ne hk] at hk'
      exact hlater.past k' hk' e (mem_recorded_of_ne hk he hek) hek

/-- **Step.** A request is let through exactly if the history has room for it, and it is counted. -/
theorem Counted.hit (h : Counted c map admitted clock) (k : κ) (slot : Fin 3) (limit : ℕ) {t now : ℕ}
    (ht : clock ≤ t) (hnow : t ≤ now) {out : Bool × Window}
    (hout : ((map.lookup k).getD (Window.fresh (c.minute t) now)).admitHit slot limit (c.minute t) now =
      out) :
    (out.1 = true ↔ admitted.count (k, slot, c.minute t) < limit) ∧
      Counted c (map.insert k out.2) (recorded admitted k slot (c.minute t) out.1) now := by
  obtain ⟨counts, hcounts, hspec⟩ := h.window k now (c.minute_mono ht)
  rw [hspec] at hout
  by_cases hlimit : limit ≤ counts slot
  · rw [if_pos hlimit] at hout
    subst hout
    refine ⟨iff_of_false Bool.false_ne_true ?_, h.insert ht hnow hcounts⟩
    rw [← hcounts]
    exact Nat.not_lt.mpr hlimit
  · rw [if_neg hlimit] at hout
    subst hout
    refine ⟨iff_of_true rfl ?_, h.insert ht hnow fun slot' => ?_⟩
    · rw [← hcounts]
      exact Nat.not_le.mp hlimit
    · unfold recorded
      by_cases hslot : slot' = slot
      · subst hslot
        rw [Function.update_self, hcounts, if_pos rfl, List.count_cons_self]
      · rw [Function.update_of_ne hslot, hcounts, if_pos rfl, List.count_cons_of_ne]
        simpa using fun h => hslot h.symm

end Counted

/-! ## Calls -/

/-- A limiter that has been called: its clock, and the requests it has let through. -/
structure Metered (L κ : Type) where
  limiter : L
  clock : ℕ
  admitted : List (κ × Fin 3 × ℕ)

/-- A call of a limiter. -/
inductive Call (κ σ : Type)
  /-- A request of one kind, with the instants read for it. -/
  | request (k : κ) (kind : σ) (now : AppState.Instants)
  /-- A prune at `time`, with a reading `now` of the clock taken some time before. -/
  | prune (now time : ℕ)

/-- What a source can ask for. -/
inductive SourceKind
  | create
  | put
  | deposit

namespace SourceKind

/-- The counter of its kind. -/
def slot : SourceKind → Fin 3
  | .create => ⟨0, by decide⟩
  | .put => ⟨2, by decide⟩
  | .deposit => ⟨1, by decide⟩

/-- The limit of its kind. -/
def limit (cfg : Config) : SourceKind → ℕ
  | .create => cfg.rateCreatePerMin
  | .put => cfg.ratePutPerMinSource
  | .deposit => cfg.rateDepositPerMinSource

/-- The call of its kind. -/
def ask (cfg : Config) (l : SourceLimiter) (ip : IpAddr) (minute now₀ now : ℕ) :
    SourceKind → Bool × SourceLimiter
  | .create => l.admitCreate cfg ip minute now₀ now
  | .put => l.admitPut cfg ip minute now₀ now
  | .deposit => l.admitDeposit cfg ip minute now₀ now

theorem ask_eq (cfg : Config) (l : SourceLimiter) (ip : IpAddr) (minute now₀ now : ℕ)
    (kind : SourceKind) : kind.ask cfg l ip minute now₀ now =
      l.admitHit cfg ip kind.slot (kind.limit cfg) minute now₀ now := by
  cases kind <;> rfl

end SourceKind

/-- What a mailbox can be asked for. -/
inductive BoxKind
  | deposit
  | ws

namespace BoxKind

/-- The counter of its kind. -/
def slot : BoxKind → Fin 3
  | .deposit => ⟨0, by decide⟩
  | .ws => ⟨1, by decide⟩

/-- The limit of its kind. -/
def limit (cfg : Config) : BoxKind → ℕ
  | .deposit => cfg.rateDepositPerMinMailbox
  | .ws => cfg.rateWsPerMinMailbox

/-- The call of its kind. -/
def ask (cfg : Config) (l : BoxLimiter) (mailbox : String) (minute now : ℕ) : BoxKind → Bool × BoxLimiter
  | .deposit => l.admitDeposit cfg mailbox minute now
  | .ws => l.admitWs cfg mailbox minute now

theorem ask_eq (cfg : Config) (l : BoxLimiter) (mailbox : String) (minute now : ℕ) (kind : BoxKind) :
    kind.ask cfg l mailbox minute now =
      l.admitHit mailbox kind.slot (kind.limit cfg) minute now := by
  cases kind <;> rfl

end BoxKind

/-- When a call is made. -/
def Call.time {κ σ : Type} : Call κ σ → ℕ
  | .request _ _ now => now.t₀
  | .prune _ time => time

/-- The clock has not run backwards. -/
def Call.Timely {κ σ : Type} (clock : ℕ) : Call κ σ → Prop
  | .request _ _ now => clock ≤ now.t₀ ∧ now.t₀ ≤ now.t₁ ∧ now.t₁ ≤ now.t₂
  | .prune now time => clock ≤ time ∧ now ≤ time

instance {κ σ : Type} (clock : ℕ) : (call : Call κ σ) → Decidable (call.Timely clock)
  | .request _ _ _ => inferInstanceAs (Decidable (_ ∧ _))
  | .prune _ _ => inferInstanceAs (Decidable (_ ∧ _))

/-- One call of the source limiter. -/
def sourceStep (cfg : Config) (c : Clock) (m : Metered SourceLimiter UInt64)
    (call : Call IpAddr SourceKind) : Option (Metered SourceLimiter UInt64) :=
  if call.Timely m.clock then
    match call with
    | .request ip kind now =>
      let minute := c.minute now.t₁
      let out := kind.ask cfg m.limiter ip minute now.t₀ now.t₂
      some ⟨out.2, now.t₂, recorded m.admitted (m.limiter.key ip) kind.slot minute out.1⟩
    | .prune now time => some ⟨m.limiter.prune cfg now, time, m.admitted⟩
  else none

/-- One call of the mailbox limiter. -/
def boxStep (cfg : Config) (c : Clock) (m : Metered BoxLimiter String) (call : Call String BoxKind) :
    Option (Metered BoxLimiter String) :=
  if call.Timely m.clock then
    match call with
    | .request mailbox kind now =>
      let minute := c.minute now.t₁
      let out := kind.ask cfg m.limiter mailbox minute now.t₂
      some ⟨out.2, now.t₂, recorded m.admitted mailbox kind.slot minute out.1⟩
    | .prune now time => some ⟨m.limiter.prune cfg now, time, m.admitted⟩
  else none

/-! ## The source limiter -/

namespace SourceLimiter

variable {cfg : Config} {l : SourceLimiter} {ip : IpAddr} {slot : Fin 3} {limit minute now₀ now : ℕ}

/-- The source is new, and the table is full of sources that have not idled. -/
def Saturated (cfg : Config) (l : SourceLimiter) (ip : IpAddr) (now₀ : ℕ) : Prop :=
  l.key ip ∉ l.map ∧ cfg.limiterMaxSources ≤ (l.map.retain (Window.active cfg.limiterIdle now₀)).size

/-- The table a request meets: idle sources are evicted when a new one finds it full. -/
def evicted (cfg : Config) (l : SourceLimiter) (ip : IpAddr) (now₀ : ℕ) : Table UInt64 Window :=
  if cfg.limiterMaxSources ≤ l.map.size ∧ l.key ip ∉ l.map then
    l.map.retain (Window.active cfg.limiterIdle now₀)
  else l.map

theorem evicted_cases (cfg : Config) (l : SourceLimiter) (ip : IpAddr) (now₀ : ℕ) :
    (l.evicted cfg ip now₀ = l.map ∧ (l.key ip ∈ l.map ∨ l.map.size < cfg.limiterMaxSources)) ∨
      (l.evicted cfg ip now₀ = l.map.retain (Window.active cfg.limiterIdle now₀) ∧
        cfg.limiterMaxSources ≤ l.map.size ∧ l.key ip ∉ l.map) := by
  unfold evicted
  split
  · next h => exact .inr ⟨rfl, h⟩
  · next h =>
    refine .inl ⟨rfl, ?_⟩
    by_cases hkey : l.key ip ∈ l.map
    · exact .inl hkey
    · exact .inr (Nat.not_le.mp fun hfull => h ⟨hfull, hkey⟩)

theorem saturated_iff : (cfg.limiterMaxSources ≤ l.map.size ∧ l.key ip ∉ l.map ∧
    cfg.limiterMaxSources ≤ (l.evicted cfg ip now₀).size) ↔ l.Saturated cfg ip now₀ := by
  unfold Saturated
  constructor
  · rintro ⟨hfull, hkey, hsize⟩
    rw [evicted, if_pos ⟨hfull, hkey⟩] at hsize
    exact ⟨hkey, hsize⟩
  · rintro ⟨hkey, hsize⟩
    have hfull := hsize.trans (Table.size_retain_le _ l.map)
    rw [evicted, if_pos ⟨hfull, hkey⟩]
    exact ⟨hfull, hkey, hsize⟩

/-- The three ways a request can go. -/
theorem admitHit_cases (cfg : Config) (l : SourceLimiter) (ip : IpAddr) (slot : Fin 3)
    (limit minute now₀ now : ℕ) :
    (limit = 0 ∧ l.admitHit cfg ip slot limit minute now₀ now = (false, l)) ∨
    (limit ≠ 0 ∧ l.Saturated cfg ip now₀ ∧ l.admitHit cfg ip slot limit minute now₀ now =
      (false, { l with map := l.evicted cfg ip now₀ })) ∨
    (limit ≠ 0 ∧ ¬ l.Saturated cfg ip now₀ ∧ ∃ out,
      (((l.evicted cfg ip now₀).lookup (l.key ip)).getD (Window.fresh minute now)).admitHit slot limit
        minute now = out ∧
      l.admitHit cfg ip slot limit minute now₀ now =
        (out.1, { l with map := (l.evicted cfg ip now₀).insert (l.key ip) out.2 })) := by
  by_cases hlimit : limit = 0
  · exact .inl ⟨hlimit, by simp only [admitHit, hlimit, if_true]⟩
  · by_cases hsat : l.Saturated cfg ip now₀
    · refine .inr (.inl ⟨hlimit, hsat, ?_⟩)
      unfold admitHit
      rw [if_neg hlimit]
      exact if_pos (saturated_iff.mpr hsat)
    · refine .inr (.inr ⟨hlimit, hsat, _, rfl, ?_⟩)
      unfold admitHit
      rw [if_neg hlimit]
      exact if_neg (saturated_iff.not.mpr hsat)

/-- A source that has not idled keeps its window. -/
theorem mem_retain {idle : ℕ} {map : Table UInt64 Window} {k : UInt64} {w : Window}
    (hw : map.lookup k = some w) (hactive : now - w.touched < idle) :
    k ∈ map.retain (Window.active idle now) := by
  rw [← AList.lookup_isSome, Table.lookup_retain, hw, Option.bind_some, Window.active, if_pos hactive]
  rfl

theorem mem_evicted {k : UInt64} {w : Window} (hw : l.map.lookup k = some w)
    (hactive : now₀ - w.touched < cfg.limiterIdle) : k ∈ l.evicted cfg ip now₀ := by
  obtain ⟨heq, -⟩ | ⟨heq, -⟩ := l.evicted_cases cfg ip now₀
  · rw [heq, ← AList.lookup_isSome, hw]
    rfl
  · rw [heq]
    exact mem_retain hw hactive

/-- Room is made for a new source before it gets its window. -/
theorem size_insert_evicted (hsize : l.map.size ≤ cfg.limiterMaxSources)
    (hsat : ¬ l.Saturated cfg ip now₀) (w : Window) :
    Table.size ((l.evicted cfg ip now₀).insert (l.key ip) w) ≤ cfg.limiterMaxSources := by
  obtain ⟨heq, hroom⟩ | ⟨heq, -, hkey⟩ := l.evicted_cases cfg ip now₀
  · rw [heq]
    cases hlookup : l.map.lookup (l.key ip) with
    | some w' =>
      rw [Table.size_insert_of_some hlookup]
      exact hsize
    | none =>
      rw [Table.size_insert_of_none hlookup]
      exact hroom.resolve_left (AList.lookup_eq_none.mp hlookup)
  · rw [heq]
    have hnone : (l.map.retain (Window.active cfg.limiterIdle now₀)).lookup (l.key ip) = none := by
      rw [Table.lookup_retain, AList.lookup_eq_none.mpr hkey, Option.bind_none]
    rw [Table.size_insert_of_none hnone]
    exact Nat.not_le.mp fun hfull => hsat ⟨hkey, hfull⟩

/-- When a new source is turned away, no source has idled. -/
theorem active_of_saturated (hsize : l.map.size ≤ cfg.limiterMaxSources)
    (hsat : l.Saturated cfg ip now₀) :
    l.map.size = cfg.limiterMaxSources ∧
      ∀ k w, l.map.lookup k = some w → now₀ - w.touched < cfg.limiterIdle := by
  obtain ⟨-, hfull⟩ := hsat
  refine ⟨le_antisymm hsize (hfull.trans (Table.size_retain_le _ l.map)), fun k w hw => ?_⟩
  obtain ⟨w', hw'⟩ := Option.isSome_iff_exists.mp
    (Table.isSome_of_size_le_retain (hsize.trans hfull) hw)
  exact (Window.active_eq_some hw').2

variable {c : Clock} {admitted : List (UInt64 × Fin 3 × ℕ)} {clock : ℕ}

theorem counted_evicted (h : Counted c l.map admitted clock) (hidle : c.perMinute ≤ cfg.limiterIdle)
    (ht : clock ≤ now₀) : Counted c (l.evicted cfg ip now₀) admitted now₀ := by
  obtain ⟨heq, -⟩ | ⟨heq, -⟩ := l.evicted_cases cfg ip now₀
  · rw [heq]
    exact h.later ht
  · rw [heq]
    exact (h.later ht).retain hidle le_rfl

/-- **Step.** A request below saturation is let through exactly if the history has room for it; every
request is counted. -/
theorem admitHit_counted {t : ℕ} (h : Counted c l.map admitted clock)
    (hidle : c.perMinute ≤ cfg.limiterIdle) (ht₀ : clock ≤ now₀) (ht : now₀ ≤ t) (hnow : t ≤ now)
    {out : Bool × SourceLimiter} (hout : l.admitHit cfg ip slot limit (c.minute t) now₀ now = out) :
    (¬ l.Saturated cfg ip now₀ →
      (out.1 = true ↔ admitted.count (l.key ip, slot, c.minute t) < limit)) ∧
    Counted c out.2.map (recorded admitted (l.key ip) slot (c.minute t) out.1) now := by
  subst hout
  have hevicted : Counted c (l.evicted cfg ip now₀) admitted now₀ := counted_evicted h hidle ht₀
  obtain ⟨rfl, hout⟩ | ⟨-, hsat, hout⟩ | ⟨-, -, w, hw, hout⟩ :=
    l.admitHit_cases cfg ip slot limit (c.minute t) now₀ now
  · rw [hout]
    exact ⟨fun _ => iff_of_false Bool.false_ne_true (Nat.not_lt_zero _),
      h.later (ht₀.trans (ht.trans hnow))⟩
  · rw [hout]
    exact ⟨fun hnot => absurd hsat hnot, hevicted.later (ht.trans hnow)⟩
  · rw [hout]
    obtain ⟨hverdict, hcounted⟩ := hevicted.hit (l.key ip) slot limit ht hnow hw
    exact ⟨fun _ => hverdict, hcounted⟩

theorem admitHit_size (hsize : l.map.size ≤ cfg.limiterMaxSources) :
    (l.admitHit cfg ip slot limit minute now₀ now).2.map.size ≤ cfg.limiterMaxSources := by
  obtain ⟨-, hout⟩ | ⟨-, -, hout⟩ | ⟨-, hsat, w, -, hout⟩ :=
    l.admitHit_cases cfg ip slot limit minute now₀ now
  · rw [hout]
    exact hsize
  · rw [hout]
    obtain ⟨heq, -⟩ | ⟨heq, -⟩ := l.evicted_cases cfg ip now₀
    · exact heq ▸ hsize
    · exact heq ▸ (Table.size_retain_le _ l.map).trans hsize
  · rw [hout]
    exact size_insert_evicted hsize hsat w.2

/-- No request drops a source that has not idled. -/
theorem admitHit_keeps {k : UInt64} {w : Window} (hw : l.map.lookup k = some w)
    (hactive : now₀ - w.touched < cfg.limiterIdle) :
    k ∈ (l.admitHit cfg ip slot limit minute now₀ now).2.map := by
  obtain ⟨-, hout⟩ | ⟨-, -, hout⟩ | ⟨-, -, w', -, hout⟩ :=
    l.admitHit_cases cfg ip slot limit minute now₀ now
  · rw [hout, ← AList.lookup_isSome, hw]
    rfl
  · rw [hout]
    exact mem_evicted hw hactive
  · rw [hout]
    exact (AList.mem_insert _).mpr (.inr (mem_evicted hw hactive))

/-- A new source whose kind has a limit is only turned away at saturation. -/
theorem saturated_of_refused {t : ℕ} (h : Counted c l.map admitted clock)
    (hidle : c.perMinute ≤ cfg.limiterIdle) (ht₀ : clock ≤ now₀) (ht : now₀ ≤ t) (hnow : t ≤ now)
    (hkey : l.key ip ∉ l.map) (hlimit : limit ≠ 0)
    (hrefused : (l.admitHit cfg ip slot limit (c.minute t) now₀ now).1 = false) :
    l.Saturated cfg ip now₀ := by
  by_contra hnot
  have hverdict : (l.admitHit cfg ip slot limit (c.minute t) now₀ now).1 = true ↔ _ :=
    (admitHit_counted h hidle ht₀ ht hnow rfl).1 hnot
  have hzero : admitted.count (l.key ip, slot, c.minute t) = 0 :=
    h.count_eq_zero (AList.lookup_eq_none.mpr hkey) (c.minute_mono (ht₀.trans ht)) slot
  rw [hrefused, hzero] at hverdict
  exact Bool.false_ne_true (hverdict.mpr (Nat.pos_of_ne_zero hlimit))

end SourceLimiter

/-! ## The mailbox limiter -/

/-- **Step.** -/
theorem BoxLimiter.admitHit_counted {l : BoxLimiter} {c : Clock} {admitted : List (String × Fin 3 × ℕ)}
    {clock t now : ℕ} {mailbox : String} {slot : Fin 3} {limit : ℕ} (h : Counted c l.map admitted clock)
    (ht : clock ≤ t) (hnow : t ≤ now) {out : Bool × BoxLimiter}
    (hout : l.admitHit mailbox slot limit (c.minute t) now = out) :
    (out.1 = true ↔ admitted.count (mailbox, slot, c.minute t) < limit) ∧
    Counted c out.2.map (recorded admitted mailbox slot (c.minute t) out.1) now := by
  subst hout
  unfold BoxLimiter.admitHit
  by_cases hlimit : limit = 0
  · rw [if_pos hlimit, hlimit]
    exact ⟨iff_of_false Bool.false_ne_true (Nat.not_lt_zero _), h.later (ht.trans hnow)⟩
  · rw [if_neg hlimit]
    exact h.hit mailbox slot limit ht hnow rfl

/-! ## What the limiters are for -/

/-- What the source limiter is for, in a state with its history. -/
structure SourceExact (cfg : Config) (c : Clock) (m : Metered SourceLimiter UInt64) : Prop where
  /-- Below saturation a request is let through exactly if fewer than its limit were in this minute. -/
  verdict : ∀ ip (kind : SourceKind) now, (Call.request ip kind now).Timely m.clock →
    ¬ m.limiter.Saturated cfg ip now.t₀ →
    ((kind.ask cfg m.limiter ip (c.minute now.t₁) now.t₀ now.t₂).1 = true ↔
      m.admitted.count (m.limiter.key ip, kind.slot, c.minute now.t₁) < kind.limit cfg)
  /-- The table is bounded. -/
  size : m.limiter.map.size ≤ cfg.limiterMaxSources
  /-- A new source is turned away only when the table is full of sources that have not idled. -/
  refused : ∀ ip (kind : SourceKind) now, (Call.request ip kind now).Timely m.clock →
    m.limiter.key ip ∉ m.limiter.map → kind.limit cfg ≠ 0 →
    (kind.ask cfg m.limiter ip (c.minute now.t₁) now.t₀ now.t₂).1 = false →
    m.limiter.map.size = cfg.limiterMaxSources ∧
      ∀ k w, m.limiter.map.lookup k = some w → now.t₀ - w.touched < cfg.limiterIdle
  /-- No call drops a source that has not idled when the call is made. -/
  kept : ∀ call m', sourceStep cfg c m call = some m' → ∀ k w, m.limiter.map.lookup k = some w →
    call.time - w.touched < cfg.limiterIdle → k ∈ m'.limiter.map

/-- What the mailbox limiter is for, in a state with its history. -/
def BoxExact (cfg : Config) (c : Clock) (m : Metered BoxLimiter String) : Prop :=
  ∀ mailbox (kind : BoxKind) now, (Call.request mailbox kind now).Timely m.clock →
    ((kind.ask cfg m.limiter mailbox (c.minute now.t₁) now.t₂).1 = true ↔
      m.admitted.count (mailbox, kind.slot, c.minute now.t₁) < kind.limit cfg)

/-! ## Runs -/

section Runs

variable {cfg : Config} {c : Clock}

/-- **Step.** -/
theorem sourceStep_counted (hidle : c.perMinute ≤ cfg.limiterIdle) {m m' : Metered SourceLimiter UInt64}
    {call : Call IpAddr SourceKind}
    (h : Counted c m.limiter.map m.admitted m.clock ∧ m.limiter.map.size ≤ cfg.limiterMaxSources)
    (hstep : sourceStep cfg c m call = some m') :
    Counted c m'.limiter.map m'.admitted m'.clock ∧
      m'.limiter.map.size ≤ cfg.limiterMaxSources := by
  obtain ⟨hcounted, hsize⟩ := h
  unfold sourceStep at hstep
  split at hstep
  case isFalse => cases hstep
  next htimely =>
    cases call with
    | request ip kind now =>
      obtain ⟨ht₀, ht₁, ht₂⟩ := htimely
      cases hstep
      simp only [SourceKind.ask_eq]
      exact ⟨(SourceLimiter.admitHit_counted hcounted hidle ht₀ ht₁ ht₂ rfl).2,
        SourceLimiter.admitHit_size hsize⟩
    | prune now time =>
      obtain ⟨htime, hnow⟩ := htimely
      cases hstep
      exact ⟨(hcounted.later htime).retain hidle hnow, (Table.size_retain_le _ _).trans hsize⟩

theorem boxStep_counted (hidle : c.perMinute ≤ cfg.limiterIdle) {m m' : Metered BoxLimiter String}
    {call : Call String BoxKind} (h : Counted c m.limiter.map m.admitted m.clock)
    (hstep : boxStep cfg c m call = some m') : Counted c m'.limiter.map m'.admitted m'.clock := by
  unfold boxStep at hstep
  split at hstep
  case isFalse => cases hstep
  next htimely =>
    cases call with
    | request mailbox kind now =>
      obtain ⟨ht₀, ht₁, ht₂⟩ := htimely
      cases hstep
      simp only [BoxKind.ask_eq]
      exact (BoxLimiter.admitHit_counted h (ht₀.trans ht₁) ht₂ rfl).2
    | prune now time =>
      obtain ⟨htime, hnow⟩ := htimely
      cases hstep
      exact (h.later htime).retain hidle hnow

theorem sourceExact_of_counted (hidle : c.perMinute ≤ cfg.limiterIdle)
    {m : Metered SourceLimiter UInt64} (hcounted : Counted c m.limiter.map m.admitted m.clock)
    (hsize : m.limiter.map.size ≤ cfg.limiterMaxSources) : SourceExact cfg c m where
  verdict ip kind now htimely hsat := by
    obtain ⟨ht₀, ht₁, ht₂⟩ := htimely
    rw [SourceKind.ask_eq]
    exact (SourceLimiter.admitHit_counted hcounted hidle ht₀ ht₁ ht₂ rfl).1 hsat
  size := hsize
  refused ip kind now htimely hkey hlimit hrefused := by
    obtain ⟨ht₀, ht₁, ht₂⟩ := htimely
    rw [SourceKind.ask_eq] at hrefused
    exact SourceLimiter.active_of_saturated hsize
      (SourceLimiter.saturated_of_refused hcounted hidle ht₀ ht₁ ht₂ hkey hlimit hrefused)
  kept call m' hstep k w hw hactive := by
    unfold sourceStep at hstep
    split at hstep
    case isFalse => cases hstep
    next htimely =>
      cases call with
      | request ip kind now =>
        cases hstep
        simp only [SourceKind.ask_eq]
        exact SourceLimiter.admitHit_keeps hw hactive
      | prune now time =>
        obtain ⟨-, hnow⟩ := htimely
        cases hstep
        exact SourceLimiter.mem_retain hw (lt_of_le_of_lt (Nat.sub_le_sub_right hnow _) hactive)

/-- **The limiters are plain counters.** After any calls, with one clock and windows kept for a minute
or longer, the source limiter and the mailbox limiter answer as a counter would that never forgets. -/
theorem limiters_count (cfg : Config) (c : Clock) (hidle : c.perMinute ≤ cfg.limiterIdle) :
    (∀ hasher calls m, run (sourceStep cfg c) ⟨⟨hasher, ∅⟩, 0, []⟩ calls = some m → SourceExact cfg c m) ∧
      ∀ calls m, run (boxStep cfg c) ⟨⟨∅⟩, 0, []⟩ calls = some m → BoxExact cfg c m := by
  constructor
  · intro hasher calls m hrun
    have hinv := run_invariant
      (I := fun m => Counted c m.limiter.map m.admitted m.clock ∧
        m.limiter.map.size ≤ cfg.limiterMaxSources)
      (fun _ _ _ h (_ : True) hstep => sourceStep_counted hidle h hstep)
      ⟨counted_empty c, Nat.zero_le _⟩ (Along.of_forall fun _ _ => trivial) hrun
    exact sourceExact_of_counted hidle hinv.1 hinv.2
  · intro calls m hrun mailbox kind now htimely
    have hcounted := run_invariant (I := fun m => Counted c m.limiter.map m.admitted m.clock)
      (fun _ _ _ h (_ : True) hstep => boxStep_counted hidle h hstep)
      (counted_empty c) (Along.of_forall fun _ _ => trivial) hrun
    obtain ⟨ht₀, ht₁, ht₂⟩ := htimely
    rw [BoxKind.ask_eq]
    exact (BoxLimiter.admitHit_counted hcounted (ht₀.trans ht₁) ht₂ rfl).1

/-- A clock of seconds. -/
def seconds : Clock := ⟨60, by decide, 0⟩

/-- A request, a prune more than a minute later, and a request. -/
def pruned : List (Call IpAddr SourceKind) :=
  [.request localhost .put ⟨0, 0, 0⟩, .prune 65 70, .request localhost .put ⟨70, 70, 70⟩]

/-- A source is let through, loses its window, and is let through again. -/
theorem limiters_count_pruned :
    ∃ m, run (sourceStep smallConfig seconds) ⟨⟨fun _ => 0, ∅⟩, 0, []⟩ pruned = some m ∧
      m.admitted = [(0, 2, 1), (0, 2, 0)] ∧ SourceExact smallConfig seconds m :=
  ⟨_, rfl, rfl, (limiters_count smallConfig seconds (by decide)).1 (fun _ => 0) pruned _ rfl⟩

end Runs

end Titlan.Relay
