import Titlan.Relay.Limits
import Titlan.Relay.Wire

/-! # The relay's state

The mailbox table, the count of all queued bytes, and the two limiters. Each function here is one
critical section of the source: what it does while it holds the table's lock, or one atomic update of
the byte count. Byte counts are those of blobs in memory and do not overflow; whether a subtraction
ever asked for more than was there is kept as history. -/

namespace Titlan.Relay

open Foundation

/-- `QueuedMsg`. -/
structure QueuedMsg where
  id : MsgId
  bytes : Bytes
  depositedAt : ℕ

/-- `Mailbox`; `notify` is the connection whose wake channel is registered. -/
structure Mailbox where
  queue : List QueuedMsg
  queuedBytes : ℕ
  lastActivity : Option ℕ
  notify : Option ℕ

/-- A new mailbox. -/
def Mailbox.opened (now : ℕ) : Mailbox := ⟨[], 0, some now, none⟩

/-- The bytes of a list of messages. -/
def totalBytes (queue : List QueuedMsg) : ℕ := (queue.map fun m => m.bytes.length).sum

/-- The message's id is not among these. -/
def QueuedMsg.notAmong (ids : List Bytes) (m : QueuedMsg) : Bool := m.id.val ∉ ids

/-- The frames of a mailbox that a connection has not sent. -/
def Mailbox.unsent (m : Mailbox) (sent : List Bytes) : List Bytes :=
  (m.queue.filter (QueuedMsg.notAmong sent)).map fun m => deliveryFrame m.id m.bytes

/-- `AppState`. -/
structure AppState where
  cfg : Config
  boxes : Table String Mailbox
  globalBytes : ℕ
  srcLimiter : SourceLimiter
  boxLimiter : BoxLimiter
  /-- History: some subtraction asked for more bytes than were counted. -/
  underflowed : Bool

/-- What a request is answered with. -/
inductive Response
  /-- 201 with the id in a JSON body. -/
  | createdWith (mailboxId : String)
  /-- 201, empty. -/
  | created
  /-- 202. -/
  | accepted
  /-- 204. -/
  | noContent
  /-- 400. -/
  | badRequest
  /-- 404. -/
  | notFound
  /-- 413, from the body limit in front of the handler. -/
  | payloadTooLarge
  /-- 429 with its `Retry-After`. -/
  | tooManyRequests (retryAfter : ℕ)
  /-- 503. -/
  | serviceUnavailable
  /-- 507. -/
  | insufficientStorage
deriving DecidableEq, Repr

namespace AppState

/-- `AppState::new`. -/
def new (cfg : Config) (hasher : Bytes → UInt64) : AppState where
  cfg := cfg
  boxes := ∅
  globalBytes := 0
  srcLimiter := ⟨hasher, ∅⟩
  boxLimiter := ⟨∅⟩
  underflowed := false

/-- `global_bytes.fetch_sub`. -/
def subtractGlobal (s : AppState) (n : ℕ) : AppState :=
  { s with
    globalBytes := s.globalBytes - n
    underflowed := s.underflowed || decide (s.globalBytes < n) }

/-- `create_mailbox`: the first id drawn that is free, or none at the cap. No result while every id
drawn so far is taken. -/
def createMailbox (s : AppState) (draws : List Bytes) (now : ℕ) :
    Option (Option String × AppState) :=
  if s.cfg.maxMailboxes ≤ s.boxes.size then some (none, s)
  else
    ((draws.map encodeMailboxId).find? fun id => id ∉ s.boxes).map fun id =>
      (some id, { s with boxes := s.boxes.insert id (.opened now) })

/-- `put_mailbox`. -/
def putMailbox (s : AppState) (id : String) (now : ℕ) : Bool × AppState :=
  if s.cfg.maxMailboxes ≤ s.boxes.size then (false, s)
  else if id ∈ s.boxes then (true, s)
  else (true, { s with boxes := s.boxes.insert id (.opened now) })

/-- The instants a critical section reads, in order. -/
structure Instants where
  t₀ : ℕ
  t₁ : ℕ
  t₂ : ℕ
deriving DecidableEq, Repr

/-- `deposit`, from the table's lock on: the answer, the state, and the connection woken. -/
def queueDeposit (s : AppState) (id : String) (body : Bytes) (msgId : MsgId)
    (minute retryAfter : ℕ) (now : Instants) : Response × AppState × Option ℕ :=
  match s.boxes.lookup id with
  | none => (.notFound, s, none)
  | some mailbox =>
    let admitted := s.boxLimiter.admitDeposit s.cfg id minute now.t₀
    let s := { s with boxLimiter := admitted.2 }
    if ¬ admitted.1 then (.tooManyRequests retryAfter, s, none)
    else if s.cfg.mailboxMaxMessages ≤ mailbox.queue.length ∨
        s.cfg.mailboxMaxBytes < mailbox.queuedBytes + body.length then
      (.insufficientStorage, s, none)
    else
      (.accepted, { s with
          globalBytes := s.globalBytes + body.length
          boxes := s.boxes.insert id { mailbox with
            queuedBytes := mailbox.queuedBytes + body.length
            queue := mailbox.queue ++ [⟨msgId, body, now.t₁⟩]
            lastActivity := some now.t₂ } },
        mailbox.notify)

/-- `boxes.remove`: the bytes the mailbox held, if it existed. -/
def removeMailbox (s : AppState) (id : String) : Option ℕ × AppState :=
  ((s.boxes.lookup id).map Mailbox.queuedBytes, { s with boxes := s.boxes.erase id })

/-- The first section of `deliver`: register the connection as the mailbox's subscriber. -/
def register (s : AppState) (id : String) (tx now : ℕ) : Option AppState :=
  (s.boxes.lookup id).map fun mailbox =>
    { s with boxes := s.boxes.insert id { mailbox with notify := some tx, lastActivity := some now } }

/-- The collecting section of `deliver`: the frames not sent yet, while the connection is registered. -/
def collect (s : AppState) (id : String) (tx : ℕ) (sent : List Bytes) : Option (List Bytes) :=
  match s.boxes.lookup id with
  | none => none
  | some mailbox =>
    if mailbox.notify = some tx then
      some (mailbox.unsent sent)
    else none

/-- Remove the first message with an id. -/
def removeFirst (acked : MsgId) : List QueuedMsg → Option (QueuedMsg × List QueuedMsg)
  | [] => none
  | m :: queue =>
    if m.id = acked then some (m, queue)
    else (removeFirst acked queue).map fun out => (out.1, m :: out.2)

/-- `handle_ack`. -/
def handleAck (s : AppState) (id : String) (data : Bytes) (now : ℕ) : AppState :=
  match parseAckFrame data with
  | none => s
  | some acked =>
    match s.boxes.lookup id with
    | none => s
    | some mailbox =>
      match removeFirst acked mailbox.queue with
      | none => s
      | some (removed, queue) =>
        let s := { s with
          boxes := s.boxes.insert id { mailbox with
            queue
            queuedBytes := mailbox.queuedBytes - removed.bytes.length
            lastActivity := some now }
          underflowed := s.underflowed || decide (mailbox.queuedBytes < removed.bytes.length) }
        s.subtractGlobal removed.bytes.length

end AppState

/-! ## Sweep -/

/-- The message has outlived the TTL. -/
def QueuedMsg.expired (ttl now : ℕ) (m : QueuedMsg) : Bool := ttl < now - m.depositedAt

namespace Mailbox

/-- The messages a sweep pops off the front of the queue. -/
def popped (ttl now : ℕ) (m : Mailbox) : List QueuedMsg := m.queue.takeWhile (QueuedMsg.expired ttl now)

/-- The messages a sweep leaves. -/
def kept (ttl now : ℕ) (m : Mailbox) : List QueuedMsg := m.queue.dropWhile (QueuedMsg.expired ttl now)

/-- The bytes a sweep drops. -/
def dropped (ttl now : ℕ) (m : Mailbox) : ℕ := totalBytes (m.popped ttl now)

/-- The mailbox has been idle for longer than the TTL. -/
def idle (ttl now : ℕ) (m : Mailbox) : Bool :=
  match m.lastActivity with
  | some last => ttl < now - last
  | none => false

/-- What a sweep does to one mailbox: pop what has expired, then keep the mailbox unless it is idle. -/
def sweep (ttl now : ℕ) (m : Mailbox) : Option Mailbox :=
  if m.idle ttl now then none
  else some { m with queue := m.kept ttl now, queuedBytes := m.queuedBytes - m.dropped ttl now }

end Mailbox

/-- The part of `sweep` under the table's lock, at the instant read before it. -/
def AppState.sweepBoxes (s : AppState) (now : ℕ) : AppState :=
  let dropped := s.boxes.total (Mailbox.dropped s.cfg.ttl now)
  { s with
    boxes := s.boxes.retain (Mailbox.sweep s.cfg.ttl now)
    globalBytes := s.globalBytes - dropped
    underflowed := s.underflowed || decide (s.globalBytes < dropped) ||
      s.boxes.entries.any fun row => row.2.queuedBytes < row.2.dropped s.cfg.ttl now }

end Titlan.Relay
