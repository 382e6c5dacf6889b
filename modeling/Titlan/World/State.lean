import Mathlib.Logic.Function.Basic
import Titlan.Engine.Blocks

/-! # Two parties and a relay

The shared state of the two-party protocol: one relay's mailbox table, and for each party the rows of
its database and the entries of its in-memory maps for the conversation. Ids are symbolic: a derived id
is its owner and generation, a relay-generated id is a number that is never handed out again, so
distinct derivations never collide with each other or with generated ids. The libsignal ratchet is a
parameter (`Sealing`), assumed to seal any frame and to open any envelope.

`perform` is the effect of one operation of one party. A delivered message stays queued until it is
acked. When the relay loses a mailbox, what it had already pushed into the subscriber's socket can
still be read there. -/

namespace Titlan.World

open Foundation

/-! ## Symbolic representations -/

/-- A mailbox id. -/
inductive MailboxId
  /-- The derived inbox of a party at a generation. -/
  | derived (owner : Role) (generation : ℕ)
  /-- An id generated by the relay. -/
  | generated (n : ℕ)
deriving DecidableEq, Repr

/-- A frame over symbolic ids. -/
abbrev Frame := Titlan.Frame Unit MailboxId Unit ℕ ℕ

/-- The libsignal ratchet of the two parties. That it refuses an envelope it has opened before is left
out here; `Device.Crash` is about it. -/
class Sealing where
  Session : Type
  Wire : Type
  messageEncrypt : Option Session → Frame → Result (Session × Wire)
  messageDecrypt : Option Session → Wire → Result (Session × Result Frame)
  /-- The frame in an envelope. -/
  content : Wire → Frame
  /-- A stored session seals any frame. -/
  seals : ∀ session frame, ∃ session' wire, messageEncrypt (some session) frame = .ok (session', wire)
  /-- The frame in an envelope is the one that was sealed. -/
  sealed : ∀ {session frame session' wire}, messageEncrypt session frame = .ok (session', wire) →
    content wire = frame
  /-- A stored session opens any envelope. -/
  opens : ∀ session wire, ∃ session', messageDecrypt (some session) wire = .ok (session', .ok (content wire))

export Sealing (content)

variable [Sealing]

/-- One relay, one root; a nonce and a text are numbers. -/
abbrev carrier : Carrier := ⟨Unit, MailboxId, Unit, Unit, ℕ, ℕ, Sealing.Session, Sealing.Wire⟩

/-- The engine both parties run. -/
def engine : Engine carrier where
  myRelay := ()
  deriveMailboxId _ owner generation := .derived owner generation
  deriveRoot _ _ := ()
  messageEncrypt := Sealing.messageEncrypt
  messageDecrypt := Sealing.messageDecrypt

/-- A rotation handoff. -/
abbrev handoff (inbox : MailboxId) : Frame := .mailboxUpdateV3 () inbox

/-- A recovery hello. -/
abbrev hello (generation nonce : ℕ) : Frame := .recoveryHello generation nonce

/-! ## State -/

/-- A message in a mailbox queue. -/
structure Queued where
  id : ℕ
  wire : Sealing.Wire

/-- The frame in its envelope. -/
abbrev Queued.frame (m : Queued) : Frame := content m.wire

/-- An inbox socket. -/
inductive Conn
  /-- Subscribed to a mailbox, with the message being handled, if any. -/
  | live (box : MailboxId) (current : Option ℕ)
  /-- The relay is gone; what it had pushed can still be read. -/
  | dead (buffered : List Queued)

/-- One party: its database rows and its in-memory entries for the conversation. -/
structure Party where
  convo : Conversation carrier
  recovery : RecoveryRecord carrier
  messages : List (StoredMessage carrier)
  session : Sealing.Session
  /-- The `rotation` map's entry. -/
  rotation : Option (OffererAwaitingFb carrier)
  /-- The ring of hellos seen, oldest first. -/
  helloSeen : List (ℕ × ℕ)
  /-- The `exhaustion` map's entry. -/
  exhaustion : Option ExhaustionTracker
  flushLocked : Bool
  conn : Option Conn
  /-- Whether `conversation-needs-repair` has been reported. -/
  needsRepair : Bool
  /-- History: the inboxes this party had the relay generate. -/
  minted : List MailboxId

/-- The relay and both parties. -/
structure St where
  /-- The relay's mailbox table: the queue of each existing mailbox. -/
  boxes : MailboxId → Option (List Queued)
  nextBox : ℕ
  nextMsg : ℕ
  /-- History: the frame of every deposit the relay accepted. -/
  log : List (MailboxId × Frame)
  nextNonce : ℕ
  nextRow : ℕ
  /-- The next chat text; texts are numbered so that those of different rows stay apart. -/
  nextText : ℕ
  party : Role → Party

namespace St

/-- Change one party. -/
def modify (s : St) (p : Role) (f : Party → Party) : St :=
  { s with party := Function.update s.party p (f (s.party p)) }

/-- Replace one mailbox's queue, or remove or create the mailbox. -/
def setBox (s : St) (b : MailboxId) (q : Option (List Queued)) : St :=
  { s with boxes := Function.update s.boxes b q }

variable (s : St)

@[simp] theorem modify_party_self (p : Role) (f : Party → Party) :
    (s.modify p f).party p = f (s.party p) := by
  simp [modify]

@[simp] theorem modify_party_peer (p : Role) (f : Party → Party) :
    (s.modify p f).party p.peer = s.party p.peer := by
  simp [modify]

theorem modify_party_of_ne {p q : Role} (f : Party → Party) (h : q ≠ p) :
    (s.modify p f).party q = s.party q := by
  simp [modify, Function.update_of_ne h]

@[simp] theorem modify_boxes (p : Role) (f : Party → Party) : (s.modify p f).boxes = s.boxes := rfl

@[simp] theorem setBox_boxes_self (b : MailboxId) (q : Option (List Queued)) :
    (s.setBox b q).boxes b = q := by
  simp [setBox]

theorem setBox_boxes_of_ne {b c : MailboxId} (q : Option (List Queued)) (h : c ≠ b) :
    (s.setBox b q).boxes c = s.boxes c := by
  simp [setBox, Function.update_of_ne h]

end St

/-! ## Effects -/

/-- What the environment decides about a wait on the socket. -/
inductive Choice
  | deliver
  | idle
  | closed
deriving DecidableEq, Repr

/-- Store accesses. -/
def performStore (p : Role) (s : St) : (o : StoreOp carrier) → o.Answer × St
  | .getConversation => (.ok (some (s.party p).convo), s)
  | .recoveryState => (.ok (some (s.party p).recovery), s)
  | .setConversationSend relayUrl inbox =>
    (.ok (), s.modify p fun x =>
      { x with convo := { x.convo with relayUrl, mailboxSend := some inbox } })
  | .setConversationRecv inbox =>
    (.ok (), s.modify p fun x => { x with convo := { x.convo with mailboxRecv := some inbox } })
  | .setRecoveryRoot _ root =>
    (.ok (), s.modify p fun x => { x with recovery := { x.recovery with root := some root } })
  | .setRecoveryGenerations ownGen peerGen =>
    (.ok (), s.modify p fun x => { x with recovery := { x.recovery with ownGen, peerGen } })
  | .pendingChat =>
    (.ok (((s.party p).messages.filter fun m => m.direction = .outgoing ∧ m.status = .pending).map
      fun m => (m.id, m.frame)), s)
  | .insertMessage direction frame status =>
    (.ok ⟨s.nextRow, direction, frame, status⟩,
      { s.modify p fun x =>
          { x with messages := x.messages ++ [⟨s.nextRow, direction, frame, status⟩] }
        with nextRow := s.nextRow + 1 })
  | .markMessageSent id =>
    (.ok (), s.modify p fun x => { x with
      messages := x.messages.map fun m => if m.id = id then { m with status := .sent } else m })
  | .loadSession _ _ => (.ok (some (s.party p).session), s)
  | .storeSession _ _ session => (.ok (), s.modify p fun x => { x with session })

/-- Accesses to the in-memory maps; no effect while the flush lock is held by another caller. -/
def performRam (p : Role) (s : St) : (o : RamOp carrier) → Option (o.Answer × St)
  | .takeRotation => some ((s.party p).rotation, s.modify p fun x => { x with rotation := none })
  | .insertRotation entry => some ((), s.modify p fun x => { x with rotation := some entry })
  | .markHelloSeen generation nonce =>
    let seen := markHelloSeen (s.party p).helloSeen generation nonce
    some (seen.1, s.modify p fun x => { x with helloSeen := seen.2 })
  | .cyclesExhausted =>
    let tracker := (s.party p).exhaustion.getD .new
    some (tracker.isExhausted, s.modify p fun x => { x with exhaustion := some tracker })
  | .noteProbeCycle =>
    some ((), s.modify p fun x =>
      { x with exhaustion := some (x.exhaustion.getD .new).noteProbeCycle })
  | .resetExhaustion =>
    some ((), s.modify p fun x => { x with exhaustion := x.exhaustion.map .reset })
  | .drawNonce => some (s.nextNonce, { s with nextNonce := s.nextNonce + 1 })
  | .lockFlush =>
    if (s.party p).flushLocked then none
    else some ((), s.modify p fun x => { x with flushLocked := true })
  | .unlockFlush => some ((), s.modify p fun x => { x with flushLocked := false })

/-- Relay requests; the relay serves every one of them. -/
def performRelay (p : Role) (s : St) : (o : RelayOp carrier) → o.Answer × St
  | .createMailbox =>
    let id := MailboxId.generated s.nextBox
    (.ok id, { (s.setBox id (some [])).modify p fun x => { x with minted := x.minted ++ [id] }
      with nextBox := s.nextBox + 1 })
  | .putMailbox _ id =>
    (.ok .created, match s.boxes id with
      | some _ => s
      | none => s.setBox id (some []))
  | .deposit _ id wire =>
    match s.boxes id with
    | none => (.ok .notFound, s)
    | some queue =>
      (.ok .accepted, { s.setBox id (some (queue ++ [⟨s.nextMsg, wire⟩])) with
        nextMsg := s.nextMsg + 1
        log := s.log ++ [(id, content wire)] })
  | .deleteMailbox id => (.ok (), s.setBox id none)

/-- The inbox socket. Waiting under the pairing deadline is no part of this protocol. -/
def performSocket (p : Role) (c : Choice) (s : St) : (o : SocketOp carrier) → Option (o.Answer × St)
  | .subscribe id =>
    match s.boxes id with
    | none => some (.notFound, s.modify p fun x => { x with conn := none })
    | some _ => some (.ok, s.modify p fun x => { x with conn := some (.live id none) })
  | .next =>
    match (s.party p).conn, c with
    | some (.live box _), .deliver =>
      match s.boxes box with
      | some (m :: _) => some (.delivery m.id m.wire,
          s.modify p fun x => { x with conn := some (.live box (some m.id)) })
      | _ => none
    | some (.live _ _), .idle => some (.idle, s)
    | some (.live box _), .closed =>
      match s.boxes box with
      | none => some (.closed, s.modify p fun x => { x with conn := none })
      | some _ => none
    | some (.dead (m :: buffered)), .deliver =>
      some (.delivery m.id m.wire, s.modify p fun x => { x with conn := some (.dead buffered) })
    | some (.dead _), .closed => some (.closed, s.modify p fun x => { x with conn := none })
    | _, _ => none
  | .ack id =>
    match (s.party p).conn with
    | some (.live box _) =>
      some ((), (s.setBox box ((s.boxes box).map fun queue => queue.filter fun m => m.id ≠ id)).modify p
        fun x => { x with conn := some (.live box none) })
    | _ => some ((), s)
  | .nextBeforeDeadline => none
  | .deadlinePassed => none

/-- The effect of one operation of party `p`. -/
def perform (p : Role) (c : Choice) (s : St) : (o : Op carrier) → Option (o.Answer × St)
  | .store o => some (performStore p s o)
  | .ram o => performRam p s o
  | .relay o => some (performRelay p s o)
  | .socket o => performSocket p c s o
  | .notify .needsRepair => some ((), s.modify p fun x => { x with needsRepair := true })
  | .notify _ => some ((), s)

/-! ## Sealing and opening -/

/-- Accesses to the stored session, which succeed. -/
def sessions : Contract (engineSig carrier) where
  performs
    | .store (.loadSession _ _) | .store (.storeSession _ _ _) => True
    | _ => False
  answers
    | .store (.loadSession _ _), r => ∃ session, r = .ok (some session)
    | .store (.storeSession _ _ _), r => r = .ok ()
    | _, _ => True

theorem answers_sessions {p : Role} {c : Choice} {s s' : St} {o : Op carrier} {r : o.Answer}
    (ho : sessions.performs o) (h : perform p c s o = some (r, s')) : sessions.answers o r := by
  cases o with
  | store o =>
    cases o with
    | loadSession _ _ => cases h; exact ⟨_, rfl⟩
    | storeSession _ _ _ => cases h; exact rfl
    | _ => exact ho.elim
  | _ => exact ho.elim

/-- `encrypt_message` seals the frame. -/
theorem kept_encryptMessage (peer : String) (f : Frame) :
    sessions.Kept (fun r => ∃ wire, r = .ok wire ∧ content wire = f) (engine.encryptMessage peer f) := by
  refine Contract.kept_step trivial ?_
  rintro _ ⟨session, rfl⟩
  obtain ⟨session', wire, hseal⟩ := Sealing.seals session f
  simp only [engine, hseal]
  refine Contract.kept_step trivial ?_
  rintro _ rfl
  exact ⟨wire, rfl, Sealing.sealed hseal⟩

/-- `decrypt_message` opens the envelope. -/
theorem kept_decryptMessage (peer : String) (wire : Sealing.Wire) :
    sessions.Kept (fun r => r = .ok (content wire)) (engine.decryptMessage peer wire) := by
  refine Contract.kept_step trivial ?_
  rintro _ ⟨session, rfl⟩
  obtain ⟨session', hopen⟩ := Sealing.opens session wire
  simp only [engine, hopen]
  refine Contract.kept_step trivial ?_
  rintro _ rfl
  rfl

/-! ## Operations that move nothing -/

/-- Operations that read, or write only counters, the flush lock, the hello ring, the exhaustion tracker
and the report. -/
def Idle : Op carrier → Prop
  | .store .getConversation | .store .recoveryState | .store .pendingChat => True
  | .store (.loadSession _ _) | .store (.storeSession _ _ _) => True
  | .ram (.markHelloSeen _ _) | .ram .cyclesExhausted | .ram .noteProbeCycle => True
  | .ram .resetExhaustion | .ram .drawNonce | .ram .lockFlush | .ram .unlockFlush => True
  | .notify _ => True
  | _ => False

theorem idle_of_sessions {o : Op carrier} (ho : sessions.performs o) : Idle o := by
  cases o with
  | store o => cases o <;> first | exact ho.elim | trivial
  | _ => exact ho.elim

/-- The mailboxes, the other party, and this party's rows, rotation, socket and history are as they
were. -/
structure Unmoved (p : Role) (s s' : St) : Prop where
  boxes : s'.boxes = s.boxes
  nextBox : s'.nextBox = s.nextBox
  nextMsg : s'.nextMsg = s.nextMsg
  nextRow : s'.nextRow = s.nextRow
  log : s'.log = s.log
  peer : s'.party p.peer = s.party p.peer
  convo : (s'.party p).convo = (s.party p).convo
  recovery : (s'.party p).recovery = (s.party p).recovery
  messages : (s'.party p).messages = (s.party p).messages
  rotation : (s'.party p).rotation = (s.party p).rotation
  conn : (s'.party p).conn = (s.party p).conn
  minted : (s'.party p).minted = (s.party p).minted

theorem Unmoved.refl (p : Role) (s : St) : Unmoved p s s := by
  constructor <;> rfl

/-- Changing other fields of the party moves nothing. -/
theorem Unmoved.of_modify {p : Role} {s : St} {f : Party → Party}
    (h : ∀ x, (f x).convo = x.convo ∧ (f x).recovery = x.recovery ∧ (f x).messages = x.messages ∧
      (f x).rotation = x.rotation ∧ (f x).conn = x.conn ∧ (f x).minted = x.minted) :
    Unmoved p s (s.modify p f) := by
  obtain ⟨h₁, h₂, h₃, h₄, h₅, h₆⟩ := h (s.party p)
  constructor <;> first | rfl | simp [*]

theorem unmoved_of_idle {p : Role} {c : Choice} {s s' : St} {o : Op carrier} {r : o.Answer}
    (ho : Idle o) (h : perform p c s o = some (r, s')) : Unmoved p s s' := by
  cases o with
  | store o =>
    cases o with
    | storeSession _ _ _ => cases h; exact .of_modify fun _ => ⟨rfl, rfl, rfl, rfl, rfl, rfl⟩
    | _ => first | exact ho.elim | (cases h; exact .refl p s)
  | relay o => cases o <;> exact ho.elim
  | socket o => cases o <;> exact ho.elim
  | notify n =>
    cases n with
    | needsRepair => cases h; exact .of_modify fun _ => ⟨rfl, rfl, rfl, rfl, rfl, rfl⟩
    | _ => cases h; exact .refl p s
  | ram o =>
    cases o with
    | takeRotation => exact ho.elim
    | insertRotation _ => exact ho.elim
    | drawNonce =>
      cases h
      constructor <;> rfl
    | lockFlush =>
      simp only [perform, performRam] at h
      split at h
      · cases h
      · cases h; exact .of_modify fun _ => ⟨rfl, rfl, rfl, rfl, rfl, rfl⟩
    | _ => cases h; exact .of_modify fun _ => ⟨rfl, rfl, rfl, rfl, rfl, rfl⟩

end Titlan.World
