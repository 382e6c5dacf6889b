import Titlan.Foundation.Run
import Titlan.Relay.State

/-! # The relay serving requests

Every request is a task of its own, and a task's state says what it still has to do: between two of its
steps it holds no lock, so anything else may run. A subscription's task is the connection's delivery
loop. `perform` is one step of one task; a run is any interleaving of steps of any number of tasks with
new requests and timer ticks.

What the operating system and the network decide comes with the step: the readings of the clocks, the
random bytes, whether a frame could be written, what the socket yields. The monotone clock never runs
backwards. -/

namespace Titlan.Relay

open Foundation

/-! ## Tasks -/

/-- A subscriber's connection. -/
structure Connection where
  mailbox : String
  /-- `sent`: the message ids already sent on it. -/
  sent : List Bytes
  /-- History: the frames written to the socket, in order. -/
  frames : List Bytes
  /-- History: the batches collected, in order. -/
  batches : List (List Bytes)

/-- Where the delivery loop of a connection is. -/
inductive Phase
  | collect
  | send (rest : List Bytes)
  /-- Parked: waiting for a wake or for the client. -/
  | wait
  /-- Draining what the client has already sent. -/
  | drain

/-- What a task still has to do. -/
inductive Task
  /-- `create_mailbox`: the source limit, then the table. -/
  | createAdmit (ip : IpAddr)
  | createInsert
  /-- `deposit`: the checks in front of the lock, then the table. -/
  | depositAdmit (ip : IpAddr) (id : String) (body : Bytes)
  | depositQueue (id : String) (body : Bytes)
  /-- `put_mailbox`: the source limit, then the table. -/
  | putAdmit (ip : IpAddr) (id : String)
  | putInsert (id : String)
  /-- `delete_mailbox`: the table, the byte count, the limiter. -/
  | deleteRemove (id : String)
  | deleteSubtract (id : String) (bytes : ℕ)
  | deleteForget (id : String)
  /-- `subscribe`: the table, the mailbox's limit; then `deliver`. -/
  | subscribeLook (id : String)
  | subscribeAdmit (id : String)
  | deliverRegister (id : String)
  | deliver (c : Connection) (phase : Phase)
  /-- `sweep`: the clock, the table, the limiters. -/
  | sweepStart
  | sweepBoxes (now : ℕ)
  | pruneSources (now : ℕ)
  | pruneBoxes (now : ℕ)
  | answered (r : Response)
  | closed (c : Connection)
  | swept

/-- A request. -/
inductive Request
  | create (ip : IpAddr)
  | deposit (ip : IpAddr) (id : String) (body : Bytes)
  | put (ip : IpAddr) (id : String)
  | delete (id : String)
  | subscribe (id : String)

/-- The task a request starts. -/
def Request.task : Request → Task
  | .create ip => .createAdmit ip
  | .deposit ip id body => .depositAdmit ip id body
  | .put ip id => .putAdmit ip id
  | .delete id => .deleteRemove id
  | .subscribe id => .subscribeLook id

/-- What a wait on the socket or the wake channel ends with. -/
inductive SocketEvent
  | wake
  | binary (data : Bytes)
  | close
  | other
  | failed
  | nothing

/-- What the outside decides about one step. -/
structure Env where
  /-- The readings of the monotone clock. -/
  now : AppState.Instants
  minute : ℕ
  retryAfter : ℕ
  /-- The ids drawn for a new mailbox. -/
  draws : List Bytes
  msgId : MsgId
  written : Bool
  event : SocketEvent

/-! ## The server -/

/-- The relay with its tasks. A task's number also names its wake channel. -/
structure Server where
  app : AppState
  tasks : List Task
  /-- The wakes in each connection's channel. -/
  wakes : ℕ → ℕ
  clock : ℕ
  /-- History: the deposits answered 202, in order, with their mailbox. -/
  accepted : List (String × QueuedMsg)

/-- One step of the system. -/
inductive Label
  | request (r : Request)
  /-- The sweep's timer fires. -/
  | tick
  | act (n : ℕ) (e : Env)

namespace Server

/-- The relay at start. -/
def start (cfg : Config) (hasher : Bytes → UInt64) : Server where
  app := .new cfg hasher
  tasks := []
  wakes _ := 0
  clock := 0
  accepted := []

/-- Task `n` goes on as `task` over the state `app`. -/
def become (s : Server) (n : ℕ) (app : AppState) (task : Task) : Server :=
  { s with app, tasks := s.tasks.set n task }

/-- What task `n` has become. -/
theorem become_tasks {s : Server} {n : ℕ} (ht : n < s.tasks.length) (app : AppState) (t : Task) :
    (s.become n app t).tasks[n]? = some t := by
  simp [become, ht]

/-- Put a wake into a connection's channel, if there is one to wake. -/
def wake (s : Server) (tx : Option ℕ) : Server :=
  { s with wakes := fun i => s.wakes i + if tx = some i then 1 else 0 }

/-- Take a wake out of a connection's channel. -/
def takeWake (s : Server) (tx : ℕ) : Server :=
  { s with wakes := Function.update s.wakes tx (s.wakes tx - 1) }

/-- `deposit`, up to the lock. -/
def depositAdmit (s : Server) (n : ℕ) (e : Env) (ip : IpAddr) (id : String) (body : Bytes) : Server :=
  if s.app.cfg.maxBlobBytes < body.length then s.become n s.app (.answered .payloadTooLarge)
  else if ¬ mailboxIdShapeOk id then s.become n s.app (.answered .notFound)
  else
    let out := s.app.srcLimiter.admitDeposit s.app.cfg ip e.minute e.now.t₀ e.now.t₁
    let app := { s.app with srcLimiter := out.2 }
    if ¬ out.1 then s.become n app (.answered (.tooManyRequests e.retryAfter))
    else if ¬ depositAdmissible body then s.become n app (.answered .badRequest)
    else s.become n app (.depositQueue id body)

/-- `deposit`, from the lock on. -/
def depositQueue (s : Server) (n : ℕ) (e : Env) (id : String) (body : Bytes) : Server :=
  let out := s.app.queueDeposit id body e.msgId e.minute e.retryAfter e.now
  let s' := (s.become n out.2.1 (.answered out.1)).wake out.2.2
  if out.1 = .accepted then
    { s' with accepted := s.accepted ++ [(id, ⟨e.msgId, body, e.now.t₁⟩)] }
  else s'

/-- The delivery loop: one step of a connection. -/
def deliver (s : Server) (n : ℕ) (e : Env) (c : Connection) : Phase → Option Server
  | .collect =>
    match s.app.collect c.mailbox n c.sent with
    | none => some (s.become n s.app (.closed c))
    | some batch =>
      some (s.become n s.app (.deliver { c with batches := c.batches ++ [batch] } (.send batch)))
  | .send [] => some (s.become n s.app (.deliver c .wait))
  | .send (frame :: rest) =>
    if e.written then
      some (s.become n s.app (.deliver
        { c with sent := frameId frame :: c.sent, frames := c.frames ++ [frame] } (.send rest)))
    else some (s.become n s.app (.closed c))
  | .wait =>
    match e.event with
    | .wake => if s.wakes n = 0 then none else some ((s.takeWake n).become n s.app (.deliver c .collect))
    | .binary data => some (s.become n (s.app.handleAck c.mailbox data e.now.t₀) (.deliver c .drain))
    | .close | .failed => some (s.become n s.app (.closed c))
    | .other => some (s.become n s.app (.deliver c .collect))
    | .nothing => none
  | .drain =>
    match e.event with
    | .binary data => some (s.become n (s.app.handleAck c.mailbox data e.now.t₀) (.deliver c .drain))
    | .close => some (s.become n s.app (.closed c))
    | .other => some (s.become n s.app (.deliver c .drain))
    | .failed | .nothing => some (s.become n s.app (.deliver c .collect))
    | .wake => none

/-- One step of task `n`. -/
def perform (s : Server) (n : ℕ) (e : Env) : Task → Option Server
  | .createAdmit ip =>
    let out := s.app.srcLimiter.admitCreate s.app.cfg ip e.minute e.now.t₀ e.now.t₁
    some (s.become n { s.app with srcLimiter := out.2 }
      (if out.1 then .createInsert else .answered (.tooManyRequests e.retryAfter)))
  | .createInsert =>
    (s.app.createMailbox e.draws e.now.t₀).map fun out =>
      s.become n out.2 (.answered (out.1.elim .serviceUnavailable .createdWith))
  | .depositAdmit ip id body => some (s.depositAdmit n e ip id body)
  | .depositQueue id body => some (s.depositQueue n e id body)
  | .putAdmit ip id =>
    if ¬ mailboxIdShapeOk id then some (s.become n s.app (.answered .badRequest))
    else
      let out := s.app.srcLimiter.admitPut s.app.cfg ip e.minute e.now.t₀ e.now.t₁
      some (s.become n { s.app with srcLimiter := out.2 }
        (if out.1 then .putInsert id else .answered (.tooManyRequests e.retryAfter)))
  | .putInsert id =>
    let out := s.app.putMailbox id e.now.t₀
    some (s.become n out.2 (.answered (if out.1 then .created else .serviceUnavailable)))
  | .deleteRemove id =>
    if ¬ mailboxIdShapeOk id then some (s.become n s.app (.answered .noContent))
    else
      let out := s.app.removeMailbox id
      some (s.become n out.2 (out.1.elim (.answered .noContent) (.deleteSubtract id)))
  | .deleteSubtract id bytes => some (s.become n (s.app.subtractGlobal bytes) (.deleteForget id))
  | .deleteForget id =>
    some (s.become n { s.app with boxLimiter := s.app.boxLimiter.forget id } (.answered .noContent))
  | .subscribeLook id =>
    if ¬ mailboxIdShapeOk id ∨ id ∉ s.app.boxes then some (s.become n s.app (.answered .notFound))
    else some (s.become n s.app (.subscribeAdmit id))
  | .subscribeAdmit id =>
    let out := s.app.boxLimiter.admitWs s.app.cfg id e.minute e.now.t₀
    some (s.become n { s.app with boxLimiter := out.2 }
      (if out.1 then .deliverRegister id else .answered (.tooManyRequests e.retryAfter)))
  | .deliverRegister id =>
    match s.app.register id n e.now.t₀ with
    | none => some (s.become n s.app (.closed ⟨id, [], [], []⟩))
    | some app => some (s.become n app (.deliver ⟨id, [], [], []⟩ .collect))
  | .deliver c phase => s.deliver n e c phase
  | .sweepStart => some (s.become n s.app (.sweepBoxes e.now.t₀))
  | .sweepBoxes now => some (s.become n (s.app.sweepBoxes now) (.pruneSources now))
  | .pruneSources now =>
    some (s.become n { s.app with srcLimiter := s.app.srcLimiter.prune s.app.cfg now } (.pruneBoxes now))
  | .pruneBoxes now =>
    some (s.become n { s.app with boxLimiter := s.app.boxLimiter.prune s.app.cfg now } .swept)
  | .answered _ | .closed _ | .swept => none

/-- One step of the system. -/
def step (s : Server) : Label → Option Server
  | .request r => some { s with tasks := s.tasks ++ [r.task] }
  | .tick => some { s with tasks := s.tasks ++ [.sweepStart] }
  | .act n e =>
    if s.clock ≤ e.now.t₀ ∧ e.now.t₀ ≤ e.now.t₁ ∧ e.now.t₁ ≤ e.now.t₂ then
      (s.tasks[n]?).bind fun task =>
        (s.perform n e task).map fun s' => { s' with clock := e.now.t₂ }
    else none

end Server

/-! ## A small relay

For runs on concrete inputs. -/

/-- Generous limits, and a TTL of ten. -/
def smallConfig : Config where
  ttl := 10
  maxBlobBytes := 64
  mailboxMaxMessages := 8
  mailboxMaxBytes := 64
  maxMailboxes := 4
  rateCreatePerMin := 9
  ratePutPerMinSource := 9
  rateDepositPerMinSource := 9
  rateDepositPerMinMailbox := 9
  rateWsPerMinMailbox := 9
  limiterIdle := 60
  limiterMaxSources := 4

/-- The relay at start, with a constant hash. -/
def smallRelay : Server := .start smallConfig fun _ => 0

/-- A source. -/
def localhost : IpAddr := .v4 [127, 0, 0, 1]

/-- A mailbox id. -/
def idA : String := "AAAAAAAAAAAAAAAAAAAAAAAAAAAAAAAAAAAAAAAAAAA"

/-- A message id. -/
def msgIdOf (b : UInt8) : MsgId := ⟨List.replicate 16 b, rfl⟩

/-- A blob the relay admits. -/
def blobOf (b : UInt8) : Bytes := [0x54, 0x5A, 0x43, 0x41, 1, 2, 0, 0, b]

/-- Every reading of the clock in a step is `t`, every write succeeds, and the message id drawn is
`b`. -/
def envAt (t : ℕ) (b : UInt8) (event : SocketEvent) : Env where
  now := ⟨t, t, t⟩
  minute := 0
  retryAfter := 60
  draws := []
  msgId := msgIdOf b
  written := true
  event := event

/-- A request comes in, and its task `k` takes `n` steps at time `t`, in which the message id drawn is
`b`. -/
def served (r : Request) (k n t : ℕ) (b : UInt8 := 0) : List Label :=
  .request r :: List.replicate n (.act k (envAt t b .nothing))

end Titlan.Relay
