import Titlan.Device.State

/-! # Sending with cancellation

A client's outgoing chats, when its calls may be dropped while they wait. For this a deposit is two
steps: the relay processes the request, and the response arrives; either may not happen, and in between
the call may be cancelled. Any number of `send_chat` calls and conversation listeners run side by side
over one store that never fails, sharing the conversation's flush lock. A dropped call releases the lock
if it holds it, as dropping the guard does, and a request is only processed while its call is pending.

Which row a deposit is for is read off the program: it is the row the call goes on to mark as sent when
the deposit is accepted. -/

namespace Titlan.Outbox

open Foundation

variable {C : Carrier}

/-! ## Deposits in two steps -/

/-- The engine's operations, with a deposit split. -/
inductive Op (C : Carrier)
  | plain (o : Titlan.Op C)
  /-- The relay may process the request. -/
  | submit (row : Option ℕ) (relayUrl : C.Relay) (id : C.Id) (wire : C.Wire)
  /-- The response may arrive. -/
  | response (row : Option ℕ) (processed : Option DepositOutcome)

/-- What an operation returns: whether and how the relay processed a request, and what the caller of a
deposit is told. -/
@[reducible] def Op.Answer : Op C → Type
  | .plain o => o.Answer
  | .submit _ _ _ _ => Option DepositOutcome
  | .response _ _ => Result DepositOutcome

/-- The signature of calls that can be dropped while they wait. -/
@[reducible] def sig (C : Carrier) : Signature := ⟨Op C, Op.Answer⟩

/-- The row a program is about to mark as sent. -/
def markedRow {α : Type} : EngineM C α → Option ℕ
  | .op (.store (.markMessageSent id)) _ => some id
  | _ => none

/-- A deposit as two steps. -/
def deposit (row : Option ℕ) (relayUrl : C.Relay) (id : C.Id) (wire : C.Wire) :
    Program (sig C) (Result DepositOutcome) :=
  .op (.submit row relayUrl id wire) fun processed => .op (.response row processed) .ret

/-- An engine's operation in a program that goes on with `k`. -/
def serve {α : Type} : (o : Titlan.Op C) → (o.Answer → EngineM C α) → Program (sig C) o.Answer
  | .relay (.deposit relayUrl id wire), k => deposit (markedRow (k (.ok .accepted))) relayUrl id wire
  | o, _ => Program.perform (S := sig C) (.plain o)

/-- An engine's program with its deposits split. -/
def split {α : Type} (p : EngineM C α) : Program (sig C) α := p.elaborate serve

/-- The operations a call waits at. -/
def Op.awaits : Op C → Bool
  | .plain (.ram .lockFlush) => true
  | .plain (.relay _) | .plain (.socket _) => true
  | .submit _ _ _ _ | .response _ _ => true
  | _ => false

/-! ## The shared state -/

/-- The calls: `send_chat`s and conversation listeners. -/
inductive Caller
  | sender (n : ℕ)
  | listener (n : ℕ)
deriving DecidableEq, Repr

/-- A chat deposit the relay has processed. -/
structure Processed (C : Carrier) where
  row : ℕ
  wire : C.Wire
  outcome : DepositOutcome

/-- The client, who holds the flush lock, and the history of its chat deposits. -/
structure Client (C : Carrier) where
  device : Device C
  holder : Option Caller
  /-- History: the chat deposits the relay has processed, in order. -/
  log : List (Processed C)

/-- The rows of the deposits the relay has accepted, in order. -/
def Client.accepted (s : Client C) : List ℕ :=
  (s.log.filter fun d => d.outcome = .accepted).map Processed.row

/-- What the outside decides about one operation. -/
structure Choice (C : Carrier) where
  /-- What relays, the socket and the random generator answer. -/
  turn : Turn C
  /-- Whether and how the relay processes a deposit. -/
  processed : Option DepositOutcome
  /-- The error a caller is told instead of the response, if the response is lost. -/
  lost : Option CoreError

section Perform

variable [C.Comparable]

/-- The deposit enters the history if it is a chat's and the relay has processed it. -/
def Client.record (s : Client C) (row : Option ℕ) (wire : C.Wire) (processed : Option DepositOutcome) :
    Client C :=
  match row, processed with
  | some row, some outcome => { s with log := s.log ++ [⟨row, wire, outcome⟩] }
  | _, _ => s

/-- The effect of one operation of a call. No result while it has to wait. -/
def perform (E : Engine C) (i : Caller) (c : Choice C) (s : Client C) :
    (o : Op C) → Option (o.Answer × Client C)
  | .plain (.ram .lockFlush) =>
    if s.holder = none then some ((), { s with holder := some i }) else none
  | .plain (.ram .unlockFlush) => some ((), { s with holder := none })
  | .plain o =>
    let out := s.device.perform E ⟨none, c.turn.answer⟩ o
    some (out.1, { s with device := out.2 })
  | .submit row _ _ wire => some (c.processed, s.record row wire c.processed)
  | .response _ processed =>
    match c.lost, processed with
    | some e, _ => some (.error e, s)
    | none, some outcome => some (.ok outcome, s)
    | none, none => none

/-! ## Runs -/

/-- The calls over the shared state. -/
abbrev Sys (C : Carrier) := Threads Caller (sig C) (Client C)

/-- One step of a run. -/
inductive Label (C : Carrier)
  | act (i : Caller) (c : Choice C)
  /-- The application sends a chat on a sender that is at rest. -/
  | sendChat (n : ℕ) (text : C.Text)
  /-- Sync is started: a listener at rest may take `fuel` turns. -/
  | startListener (n fuel : ℕ)
  /-- A call is dropped where it waits. -/
  | drop (i : Caller)
  | reroute (relayUrl : C.Relay) (inbox : Option C.Id)

/-- Release the flush lock if the call holds it. -/
def Client.release (s : Client C) (i : Caller) : Client C :=
  if s.holder = some i then { s with holder := none } else s

/-- Other send coordinates. -/
def Client.reroute (s : Client C) (relayUrl : C.Relay) (inbox : Option C.Id) : Client C :=
  { s with device := { s.device with
      convo := { s.device.convo with relayUrl, mailboxSend := inbox } } }

/-- What a call runs. -/
def sender (E : Engine C) (text : C.Text) : Program (sig C) Unit :=
  split (E.sendChat text >>= fun _ => pure ())

/-- A listener's program. -/
def listener (E : Engine C) (fuel : ℕ) : Program (sig C) Unit := split (E.conversationListener fuel)

/-- One step of the system. -/
def step (E : Engine C) (w : Sys C) : Label C → Option (Sys C)
  | .act i c =>
    match w.todo i with
    | .ret _ => none
    | .op o k => (perform E i c w.shared o).map fun out => (w.move out.2).start i (k out.1)
  | .sendChat n text =>
    match w.todo (.sender n) with
    | .ret _ => some (w.start (.sender n) (sender E text))
    | .op _ _ => none
  | .startListener n fuel =>
    match w.todo (.listener n) with
    | .ret _ => some (w.start (.listener n) (listener E fuel))
    | .op _ _ => none
  | .drop i =>
    match w.todo i with
    | .ret _ => none
    | .op o _ => if o.awaits then some ((w.move (w.shared.release i)).start i (.ret ())) else none
  | .reroute relayUrl inbox => some (w.move (w.shared.reroute relayUrl inbox))

/-- A client with no call under way. -/
def start (d : Device C) : Sys C where
  shared := ⟨d, none, []⟩
  todo _ := .ret ()

end Perform

end Titlan.Outbox
