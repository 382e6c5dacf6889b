import Titlan.Foundation.Program
import Titlan.Recovery

/-! # What the relay engine does to the world

The engine's code (`relay_client::Engine` and its listeners) is written as programs over one effect
signature. An operation is what the code does atomically: one locked access to the `Store`, one locked
access to one of the engine's in-memory maps, one relay request, one step of the inbox socket, or one
callback into the application. Between two operations anything else may run.

The programs are those of *one conversation* of one client; the conversation id every call of the
source carries is therefore left out, and so are the fields of a row no modelled function reads (TLS
pin, label, contributions, timestamps). They are generic in the representation of relay URLs, mailbox
ids, payloads and ciphertexts (`Carrier`): bytes and strings for the wire formats, symbolic ids for
the two-party protocol. -/

namespace Titlan

open Foundation

/-- The representations the engine's programs are generic in. -/
structure Carrier where
  Relay : Type
  Id : Type
  Root : Type
  Contribution : Type
  Nonce : Type
  /-- Chat payloads. -/
  Text : Type
  Session : Type
  /-- Sealed envelopes, as a relay carries them. -/
  Wire : Type

/-- Routes and nonces can be compared. -/
class Carrier.Comparable (C : Carrier) where
  [relay : DecidableEq C.Relay]
  [id : DecidableEq C.Id]
  [nonce : DecidableEq C.Nonce]

attribute [reducible, instance] Carrier.Comparable.relay Carrier.Comparable.id Carrier.Comparable.nonce

/-- A decrypted inner frame as far as an inbox tells frames apart: what the receivers' dispatch and the
payload codecs make of type, version and payload. -/
inductive Frame (Relay Id Contribution Nonce Text : Type)
  /-- A chat frame, of whatever version. -/
  | chat (typeVersion : UInt8) (text : Text)
  /-- A well-formed `mailbox-update/1`. -/
  | mailboxUpdateV1 (relay : Relay) (inbox : Id)
  /-- A well-formed `mailbox-update/2`, the pairing handoff. -/
  | mailboxUpdateV2 (relay : Relay) (inbox : Id) (contribution : Contribution)
  /-- A well-formed `mailbox-update/3`. -/
  | mailboxUpdateV3 (relay : Relay) (inbox : Id)
  /-- A well-formed `recovery-hello` payload. -/
  | recoveryHello (generation : ℕ) (nonce : Nonce)
  /-- Anything else: acked and discarded. -/
  | discarded
deriving DecidableEq, Repr

/-- The frames over a carrier. -/
abbrev Carrier.Frame (C : Carrier) : Type :=
  Titlan.Frame C.Relay C.Id C.Contribution C.Nonce C.Text

/-- `chat/1`, the only chat version the client writes. -/
def chatV1 {C : Carrier} (text : C.Text) : C.Frame := .chat 1 text

/-- The libsignal calls that advance a stored session. -/
inductive SessionCall (C : Carrier)
  | encrypt (frame : C.Frame)
  | decrypt (wire : C.Wire)

/-! ## Rows and in-memory entries -/

/-- A conversation's routing row (`storage::Conversation`). -/
structure Conversation (C : Carrier) where
  peerAddress : String
  /-- The relay the peer's inbox is on. -/
  relayUrl : C.Relay
  /-- The peer's inbox, where this party deposits. -/
  mailboxSend : Option C.Id
  /-- This party's inbox, where it subscribes. -/
  mailboxRecv : Option C.Id

/-- A conversation's recovery columns (`storage::RecoveryRecord`). -/
structure RecoveryRecord (C : Carrier) where
  role : Option UInt8
  root : Option C.Root
  ownGen : ℕ
  peerGen : ℕ

/-- Which side wrote a message row. -/
inductive Direction
  | outgoing
  | incoming
deriving DecidableEq, Repr

/-- A message row's status: `0` pending, `1` sent, `2` received. -/
inductive Status
  | pending
  | sent
  | received
deriving DecidableEq, Repr

/-- A row of the message table. -/
structure StoredMessage (C : Carrier) where
  id : ℕ
  direction : Direction
  frame : C.Frame
  status : Status

/-- An offerer that has announced `F_A` and waits for `F_B` (`OffererAwaitingFb`). Held in memory
only. -/
structure OffererAwaitingFb (C : Carrier) where
  /-- The fresh inbox the offerer will receive on. -/
  fA : C.Id
  /-- The derived inbox it is still subscribed to. -/
  derivedRecv : C.Id

/-- Length of the ring of hellos seen. -/
def helloRingLen : ℕ := 512

/-- `mark_hello_seen` on the ring: whether the hello is new, and the ring after it. -/
def markHelloSeen {Nonce : Type} [DecidableEq Nonce] (ring : List (ℕ × Nonce)) (generation : ℕ)
    (nonce : Nonce) : Bool × List (ℕ × Nonce) :=
  if (generation, nonce) ∈ ring then (false, ring)
  else
    let ring' := ring ++ [(generation, nonce)]
    (true, ring'.drop (ring'.length - helloRingLen))

/-! ## Outcomes -/

/-- `http::DepositOutcome`. -/
inductive DepositOutcome
  /-- 202: queued. -/
  | accepted
  /-- 404: the mailbox is gone. -/
  | notFound
  | other (status : ℕ)
deriving DecidableEq, Repr

namespace DepositOutcome

/-- The relay will never accept the blob. -/
def GivesUp (outcome : DepositOutcome) : Prop := outcome = .other 400 ∨ outcome = .other 413

/-- The relay accepted the deposit, or will never accept it. -/
def Final (outcome : DepositOutcome) : Prop := outcome = .accepted ∨ outcome.GivesUp

end DepositOutcome

/-- `http::PutOutcome`. -/
inductive PutOutcome
  /-- 201: the mailbox exists after the call. -/
  | created
  /-- 503: the relay is at capacity. -/
  | atCap
  /-- 429: pacing. -/
  | rateLimited
  | other (status : ℕ)
deriving DecidableEq, Repr

/-- `ws::Connected`. -/
inductive Connected
  | ok
  | notFound
  | unreachable
deriving DecidableEq, Repr

/-- What the inbox socket yields next: `Ok(Some(Delivery))`, `Ok(Some(Idle))`, or its end
(`Ok(None)` and `Err(_)`). -/
inductive Event (C : Carrier)
  | delivery (msgId : ℕ) (envelope : C.Wire)
  /-- A keepalive round trip. -/
  | idle
  | closed

/-- `ConnectionState`; the delay of `Backoff` is timing and left out. -/
inductive ConnectionState
  | connecting
  | online
  | offline
  | backoff
  | recovering
  | rePairRequired
deriving DecidableEq, Repr

/-- Callbacks into the application. -/
inductive Notice (C : Carrier)
  /-- `on_message`. -/
  | message (row : StoredMessage C)
  /-- `emit_state`. -/
  | state (s : ConnectionState)
  /-- `emit_storage_error`. -/
  | storageError
  /-- `emit_permanent_send_failure`. -/
  | permanentSendFailure (id : ℕ)
  /-- `emit_needs_repair`. -/
  | needsRepair

/-! ## The signature -/

/-- Accesses to the `Store`, each under its own acquisition of the store mutex. The two accesses to a
session carry the libsignal call they belong to, which nothing reads. -/
inductive StoreOp (C : Carrier)
  | getConversation
  | recoveryState
  | setConversationSend (relay : C.Relay) (inbox : C.Id)
  | setConversationRecv (inbox : C.Id)
  | setRecoveryRoot (peerContribution : C.Contribution) (root : C.Root)
  | setRecoveryGenerations (own peer : ℕ)
  | pendingChat
  | insertMessage (direction : Direction) (frame : C.Frame) (status : Status)
  | markMessageSent (id : ℕ)
  | loadSession (peer : String) (call : SessionCall C)
  | storeSession (peer : String) (call : SessionCall C) (session : C.Session)

/-- Accesses to the engine's in-memory state, each under its map's lock. -/
inductive RamOp (C : Carrier)
  /-- `rotation.remove(conv)`. -/
  | takeRotation
  /-- `rotation.insert(conv, …)`. -/
  | insertRotation (entry : OffererAwaitingFb C)
  | markHelloSeen (generation : ℕ) (nonce : C.Nonce)
  /-- `exhaustion.entry(conv).or_insert(new).is_exhausted()`. -/
  | cyclesExhausted
  /-- `exhaustion.entry(conv).or_insert(new).note_probe_cycle()`. -/
  | noteProbeCycle
  /-- `exhaustion.get_mut(conv).map(reset)`. -/
  | resetExhaustion
  /-- Sixteen bytes of the OS random generator. -/
  | drawNonce
  /-- Acquire the conversation's flush lock. -/
  | lockFlush
  /-- Release it. -/
  | unlockFlush

/-- Requests to a relay. -/
inductive RelayOp (C : Carrier)
  /-- `POST /v1/mailboxes` on this party's own relay. -/
  | createMailbox
  /-- `PUT /v1/mailboxes/{id}`. -/
  | putMailbox (relay : C.Relay) (id : C.Id)
  /-- `POST /v1/mailboxes/{id}/messages`. -/
  | deposit (relay : C.Relay) (id : C.Id) (wire : C.Wire)
  /-- `DELETE /v1/mailboxes/{id}` on this party's own relay. -/
  | deleteMailbox (id : C.Id)

/-- The inbox socket. -/
inductive SocketOp (C : Carrier)
  | subscribe (id : C.Id)
  | next
  /-- `next` under the deadline of the pairing handoff; no answer when the deadline comes first. -/
  | nextBeforeDeadline
  /-- Whether that deadline has passed. -/
  | deadlinePassed
  | ack (msgId : ℕ)

/-- Everything an engine program does. -/
inductive Op (C : Carrier)
  | store (o : StoreOp C)
  | ram (o : RamOp C)
  | relay (o : RelayOp C)
  | socket (o : SocketOp C)
  | notify (n : Notice C)

/-- What a store access returns. -/
@[reducible] def StoreOp.Answer {C : Carrier} : StoreOp C → Type
  | .getConversation => Result (Option (Conversation C))
  | .recoveryState => Result (Option (RecoveryRecord C))
  | .setConversationSend _ _ => Result Unit
  | .setConversationRecv _ => Result Unit
  | .setRecoveryRoot _ _ => Result Unit
  | .setRecoveryGenerations _ _ => Result Unit
  | .pendingChat => Result (List (ℕ × C.Frame))
  | .insertMessage _ _ _ => Result (StoredMessage C)
  | .markMessageSent _ => Result Unit
  | .loadSession _ _ => Result (Option C.Session)
  | .storeSession _ _ _ => Result Unit

/-- What an in-memory access returns. -/
@[reducible] def RamOp.Answer {C : Carrier} : RamOp C → Type
  | .takeRotation => Option (OffererAwaitingFb C)
  | .insertRotation _ => Unit
  | .markHelloSeen _ _ => Bool
  | .cyclesExhausted => Bool
  | .noteProbeCycle => Unit
  | .resetExhaustion => Unit
  | .drawNonce => C.Nonce
  | .lockFlush => Unit
  | .unlockFlush => Unit

/-- What a relay request returns. -/
@[reducible] def RelayOp.Answer {C : Carrier} : RelayOp C → Type
  | .createMailbox => Result C.Id
  | .putMailbox _ _ => Result PutOutcome
  | .deposit _ _ _ => Result DepositOutcome
  | .deleteMailbox _ => Result Unit

/-- What the socket returns. -/
@[reducible] def SocketOp.Answer {C : Carrier} : SocketOp C → Type
  | .subscribe _ => Connected
  | .next => Event C
  | .nextBeforeDeadline => Option (Event C)
  | .deadlinePassed => Bool
  | .ack _ => Unit

/-- What an operation returns. -/
@[reducible] def Op.Answer {C : Carrier} : Op C → Type
  | .store o => o.Answer
  | .ram o => o.Answer
  | .relay o => o.Answer
  | .socket o => o.Answer
  | .notify _ => Unit

/-- The engine's effect signature. -/
@[reducible] def engineSig (C : Carrier) : Signature := ⟨Op C, Op.Answer⟩

/-- An engine program. -/
abbrev EngineM (C : Carrier) := Program (engineSig C)

/-- The program that performs one operation. -/
abbrev Op.program {C : Carrier} (o : Op C) : EngineM C o.Answer :=
  Program.perform (S := engineSig C) o

/-- One store access. -/
abbrev store {C : Carrier} (o : StoreOp C) : EngineM C o.Answer :=
  Program.perform (S := engineSig C) (.store o)

/-- One in-memory access. -/
abbrev ram {C : Carrier} (o : RamOp C) : EngineM C o.Answer :=
  Program.perform (S := engineSig C) (.ram o)

/-- One relay request. -/
abbrev relay {C : Carrier} (o : RelayOp C) : EngineM C o.Answer :=
  Program.perform (S := engineSig C) (.relay o)

/-- One step of the inbox socket. -/
abbrev socket {C : Carrier} (o : SocketOp C) : EngineM C o.Answer :=
  Program.perform (S := engineSig C) (.socket o)

/-- One callback. -/
abbrev notify {C : Carrier} (n : Notice C) : EngineM C Unit :=
  Program.perform (S := engineSig C) (.notify n)

end Titlan
