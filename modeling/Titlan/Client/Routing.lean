import Titlan.Codec.MailboxId
import Titlan.Foundation.Contract
import Titlan.Foundation.Run
import Titlan.Pairing.Rows

/-! # The mailbox ids a client stores

Ids enter the conversation table from relays that create mailboxes, from the derivation, and from the
peer's control frames. The first two have the shape of a mailbox id. The parsers of control frames take any
43 bytes of UTF-8, so a peer can have an id stored that no relay takes; only the inbox a party receives on
is out of its reach.

The engine's programs are followed by a contract: the ids they store are good as long as the ids they are
given are. Nothing is assumed about anything else they are answered. -/

namespace Titlan.Client

open Foundation Contract

/-! ## Engine programs -/

section Engine

variable {C : Carrier} (E : Engine C) (sends recvs : C.Id → Prop)

/-- The inbox a frame names, if it names one, may be sent to. -/
def NamesInbox : C.Frame → Prop
  | .mailboxUpdateV1 _ inbox => sends inbox
  | .mailboxUpdateV2 _ inbox _ => sends inbox
  | .mailboxUpdateV3 _ inbox => sends inbox
  | _ => True

/-- The ids an operation stores are good. A rotation's own fresh inbox is stored once its answer comes. -/
def StoresGood : Op C → Prop
  | .store (.setConversationSend _ inbox) => sends inbox
  | .store (.setConversationRecv inbox) => recvs inbox
  | .ram (.insertRotation entry) => recvs entry.fA
  | _ => True

/-- The ids an answer brings are good: those of new mailboxes, of a rotation begun earlier, and of the
frame that a loaded session opens an envelope to. -/
def BringsGood : (o : Op C) → o.Answer → Prop
  | .store (.loadSession _ (.decrypt wire)), r => ∀ session session' frame, r = .ok session →
      E.messageDecrypt session wire = .ok (session', .ok frame) → NamesInbox sends frame
  | .ram .takeRotation, r => ∀ entry, r = some entry → recvs entry.fA
  | .relay .createMailbox, r => ∀ id, r = .ok id → recvs id
  | _, _ => True

/-- What the engine's programs owe and are owed. -/
def routing : Contract (engineSig C) := ⟨StoresGood sends recvs, BringsGood E sends recvs⟩

/-- Every derived id is good. -/
structure DerivesGood : Prop where
  sends : ∀ root role g, sends (E.deriveMailboxId root role g)
  recvs : ∀ root role g, recvs (E.deriveMailboxId root role g)

variable {E sends recvs}

/-- Programs that only send store no id. -/
theorem kept_of_sending {α : Type} {p : EngineM C α} (h : Composed E.Sending p) :
    (routing E sends recvs).Keeps p := by
  refine kept_of_composed (h.expand fun _ q hq => ?_)
  cases hq with
  | plain o ho =>
    refine Engine.each_op o ?_
    cases o with
    | store o => cases o <;> first | exact ho.elim | exact trivial
    | ram o => cases o <;> first | exact ho.elim | exact trivial
    | _ => trivial
  | encrypt peer frame => exact Engine.each_encryptMessage peer frame trivial fun _ => trivial

theorem kept_flushPending : (routing E sends recvs).Keeps E.flushPending :=
  kept_of_sending Engine.sending_flushPending

variable (convo : Conversation C)

theorem kept_announce (inbox : C.Id) (frame : C.Frame) :
    (routing E sends recvs).Keeps (E.announce convo inbox frame) :=
  kept_of_sending (Engine.sending_announce convo inbox frame)

theorem kept_putCreate (relayUrl : C.Relay) (id : C.Id) :
    (routing E sends recvs).Keeps (Engine.putCreate relayUrl id) := by
  refine kept_step trivial fun outcome _ => ?_
  split <;> trivial

theorem kept_probe (root : C.Root) (peer : Role) (hello : C.Frame)
    (window : List ℕ) : (routing E sends recvs).Keeps (E.probe convo root peer hello window) := by
  induction window with
  | nil => trivial
  | cons k window ih =>
    refine (kept_putCreate _ _).bind fun created _ => ?_
    cases created with
    | false => exact ih
    | true => exact (kept_announce _ _ _).bind fun _ _ => ih

theorem kept_enterRecoveryGen (hd : DerivesGood E sends recvs) (convo : Conversation C) (ownRole : UInt8)
    (root : C.Root) (g peerGen : ℕ) :
    (routing E sends recvs).Keeps (E.enterRecoveryGen convo ownRole root g peerGen) := by
  refine (kept_putCreate _ _).bind fun created _ => ?_
  cases created with
  | false => trivial
  | true =>
    refine kept_step (hd.recvs _ _ _) fun set _ => ?_
    cases set with
    | error e => trivial
    | ok _ =>
      refine ⟨trivial, fun nonce _ => (kept_probe _ _ _ _ _).bind fun _ _ => ?_⟩
      exact ⟨hd.sends _ _ _, fun _ _ => ⟨trivial, fun _ _ => trivial⟩⟩

theorem kept_recoverV1 : (routing E sends recvs).Keeps (E.recoverV1 convo) := by
  refine kept_step trivial fun created hcreated => ?_
  cases created with
  | error e => trivial
  | ok newInbox =>
    refine kept_step (hcreated newInbox rfl) fun set _ => ?_
    cases set with
    | error e => trivial
    | ok _ =>
      dsimp only
      split
      · trivial
      · refine (kept_of_sending (Engine.sending_encryptMessage _ _)).bind fun wire _ => ?_
        cases wire with
        | error e => trivial
        | ok wire =>
          refine kept_step trivial fun outcome _ => ?_
          split <;> trivial

theorem kept_recover (hd : DerivesGood E sends recvs) :
    (routing E sends recvs).Keeps E.recover := by
  refine kept_step trivial fun convo? _ => ?_
  split
  · refine kept_step trivial fun rec? _ => ?_
    split
    · refine kept_step trivial fun exhausted _ => ?_
      dsimp only
      split
      · trivial
      · refine (kept_enterRecoveryGen hd _ _ _ _ _).bind fun entered _ => ?_
        cases entered with
        | false => trivial
        | true => exact ⟨trivial, fun _ _ => trivial⟩
    · exact kept_recoverV1 _
  · trivial

theorem kept_initiateRotation (ownRole : UInt8) (root : C.Root) (generation : ℕ) :
    (routing E sends recvs).Keeps (E.initiateRotation convo ownRole root generation) := by
  refine kept_step trivial fun created hcreated => ?_
  cases created with
  | error e => trivial
  | ok fA =>
    exact (kept_announce _ _ _).bind fun _ _ => ⟨hcreated fA rfl, fun _ _ => trivial⟩

theorem kept_handleRecoveryHello (hd : DerivesGood E sends recvs) (reportedGen : ℕ) (nonce : C.Nonce) :
    (routing E sends recvs).Keeps (E.handleRecoveryHello reportedGen nonce) := by
  refine kept_step trivial fun fresh _ => ?_
  cases fresh with
  | false => trivial
  | true =>
    refine kept_step trivial fun rec? _ => ?_
    dsimp only
    split
    · refine kept_step trivial fun _ _ => kept_step trivial fun _ _ => kept_step trivial fun convo? _ => ?_
      split
      · split
        · exact kept_enterRecoveryGen hd _ _ _ _ _
        · split
          · exact kept_initiateRotation _ _ _ _
          · exact kept_flushPending.bind fun _ _ => trivial
      · trivial
    · trivial

theorem kept_finishRotation {awaiting : OffererAwaitingFb C} {inbox : C.Id} (hfA : recvs awaiting.fA)
    (hinbox : sends inbox) (relayUrl : C.Relay) :
    (routing E sends recvs).Keeps (E.finishRotation awaiting relayUrl inbox) :=
  ⟨hinbox, fun _ _ => ⟨hfA, fun _ _ => ⟨trivial, fun _ _ => kept_flushPending.bind fun _ _ => trivial⟩⟩⟩

theorem kept_answerRotation {inbox : C.Id} (hinbox : sends inbox) (relayUrl : C.Relay) :
    (routing E sends recvs).Keeps (E.answerRotation relayUrl inbox) := by
  refine kept_step trivial fun rec? _ => ?_
  dsimp only
  split
  · refine kept_step trivial fun convo? _ => ?_
    split
    · refine kept_step hinbox fun _ _ => kept_step trivial fun created hcreated => ?_
      cases created with
      | error e => trivial
      | ok fB =>
        refine kept_step (hcreated fB rfl) fun set _ => ?_
        cases set with
        | error e => trivial
        | ok _ =>
          exact (kept_announce _ _ _).bind fun _ _ =>
            (kept_of_sending (Engine.sending_retire _)).bind fun _ _ =>
            kept_flushPending.bind fun _ _ => trivial
    · trivial
  · trivial

/-- **The dispatch of a frame** stores good ids if the frame names a good one. -/
theorem kept_dispatch (hd : DerivesGood E sends recvs) {frame : C.Frame} (hframe : NamesInbox sends frame) :
    (routing E sends recvs).Keeps (E.dispatch frame) := by
  cases frame with
  | chat typeVersion text =>
    refine kept_step trivial fun row _ => ?_
    cases row with
    | error e => trivial
    | ok row => exact ⟨trivial, fun _ _ => trivial⟩
  | mailboxUpdateV1 relayUrl inbox => exact ⟨hframe, fun _ _ => kept_flushPending.bind fun _ _ => trivial⟩
  | mailboxUpdateV2 relayUrl inbox contribution => trivial
  | mailboxUpdateV3 relayUrl inbox =>
    refine kept_step trivial fun awaiting hawaiting => ?_
    cases awaiting with
    | some awaiting => exact kept_finishRotation (hawaiting awaiting rfl) hframe relayUrl
    | none => exact kept_answerRotation hframe relayUrl
  | recoveryHello generation nonce => exact kept_handleRecoveryHello hd generation nonce
  | discarded => trivial

/-- What is decrypted names a good inbox, if it names one. -/
theorem kept_decryptMessage (peer : String) (wire : C.Wire) :
    (routing E sends recvs).Kept (fun r => ∀ frame, r = .ok frame → NamesInbox sends frame)
      (E.decryptMessage peer wire) := by
  refine kept_step trivial fun loaded hloaded => ?_
  cases loaded with
  | error e => exact fun frame h => (by cases h)
  | ok session =>
    dsimp only
    split
    · exact fun frame h => (by cases h)
    · rename_i session' opened hopened
      refine kept_step trivial fun stored _ => ?_
      cases stored with
      | error e => exact fun frame h => (by cases h)
      | ok _ =>
        intro frame h
        subst h
        exact hloaded session session' frame rfl hopened

theorem kept_handleIncoming (hd : DerivesGood E sends recvs) (peerAddr : String) (envelope : C.Wire) :
    (routing E sends recvs).Keeps (E.handleIncoming peerAddr envelope) := by
  refine (kept_decryptMessage peerAddr envelope).bind fun opened hopened => ?_
  cases opened with
  | error e => trivial
  | ok frame => exact kept_dispatch hd (hopened frame rfl)

theorem kept_deliveryLoop (hd : DerivesGood E sends recvs) (peerAddr : String) (fuel : ℕ) :
    (routing E sends recvs).Keeps (E.deliveryLoop peerAddr fuel) := by
  induction fuel with
  | zero => trivial
  | succ fuel ih =>
    refine kept_step trivial fun event _ => ?_
    cases event with
    | closed => trivial
    | idle => exact kept_flushPending.bind fun _ _ => ih
    | delivery msgId envelope =>
      refine (kept_handleIncoming hd _ _).bind fun changed _ => ⟨trivial, fun _ _ => ?_⟩
      cases changed with
      | true => trivial
      | false => exact ih

/-- **The listener**, for any number of turns. -/
theorem kept_conversationListener (hd : DerivesGood E sends recvs) (fuel : ℕ) :
    (routing E sends recvs).Keeps (E.conversationListener fuel) := by
  induction fuel with
  | zero => trivial
  | succ fuel ih =>
    refine kept_step trivial fun convo? _ => ?_
    split
    · split
      · trivial
      · refine kept_step trivial fun _ _ => kept_step trivial fun connected _ => ?_
        cases connected with
        | ok =>
          refine ⟨trivial, fun _ _ => kept_flushPending.bind fun _ _ =>
            (kept_deliveryLoop hd _ _).bind fun exit _ => ?_⟩
          cases exit with
          | outOfFuel => trivial
          | changed => exact ih
          | closed => exact ⟨trivial, fun _ _ => ⟨trivial, fun _ _ => ih⟩⟩
        | notFound =>
          refine (kept_recover hd).bind fun outcome _ => ?_
          cases outcome with
          | oneSided => exact ⟨trivial, fun _ _ => ih⟩
          | total => exact ⟨trivial, fun _ _ => ⟨trivial, fun _ _ => trivial⟩⟩
          | needsRepair => exact ⟨trivial, fun _ _ => ⟨trivial, fun _ _ => trivial⟩⟩
          | failed => exact ih
        | unreachable => exact ⟨trivial, fun _ _ => ⟨trivial, fun _ _ => ih⟩⟩
    · trivial

theorem kept_sendChat (text : C.Text) : (routing E sends recvs).Keeps (E.sendChat text) := by
  refine kept_step trivial fun row _ => ?_
  cases row with
  | error e => trivial
  | ok row => exact kept_flushPending.bind fun _ _ => trivial

theorem kept_handoffLoop (peerAddr : String) (bContrib : C.Contribution) (fuel : ℕ) :
    (routing E sends recvs).Keeps (E.handoffLoop peerAddr bContrib fuel) := by
  induction fuel with
  | zero => trivial
  | succ fuel ih =>
    refine kept_step trivial fun passed _ => ?_
    cases passed with
    | true => trivial
    | false =>
      refine kept_step trivial fun event _ => ?_
      rcases event with _ | (⟨msgId, envelope⟩ | _ | _)
      · trivial
      · refine (kept_decryptMessage peerAddr envelope).bind fun opened hopened => ?_
        split
        · -- the handoff: the inbox it names is stored
          refine kept_step (hopened _ rfl) fun set _ => ?_
          cases set with
          | error e => trivial
          | ok _ =>
            refine kept_step trivial fun root _ => ?_
            cases root with
            | error e => trivial
            | ok _ => exact ⟨trivial, fun _ _ => trivial⟩
        · exact ⟨trivial, fun _ _ => ih⟩
      · exact ih
      · trivial

/-- **The responder's wait for the handoff.** -/
theorem kept_awaitInboxHandoffV2 (peerAddr : String) (myInbox : C.Id) (bContrib : C.Contribution)
    (fuel : ℕ) : (routing E sends recvs).Keeps
      (E.awaitInboxHandoffV2 peerAddr myInbox bContrib fuel) := by
  induction fuel with
  | zero => trivial
  | succ fuel ih =>
    refine kept_step trivial fun connected _ => ?_
    cases connected with
    | ok =>
      refine (kept_handoffLoop peerAddr bContrib fuel).bind fun exit _ => ?_
      cases exit with
      | returned result => trivial
      | disconnected => exact ih
      | outOfFuel => trivial
    | notFound => trivial
    | unreachable =>
      refine kept_step trivial fun passed _ => ?_
      cases passed with
      | true => trivial
      | false => exact ih

end Engine

/-! ## The handshake -/

section Handshake

variable {C : PairingCarrier} (L : PairingLib C) (sends recvs : C.Id → Prop)

/-- The ids in a routing row are good. -/
structure RoutesGood {C : Carrier} (sends recvs : C.Id → Prop) (convo : Conversation C) : Prop where
  send : ∀ id, convo.mailboxSend = some id → sends id
  recv : ∀ id, convo.mailboxRecv = some id → recvs id

/-- The ids an operation of the handshake stores are good. -/
def PairingStoresGood : PairingOp C → Prop
  | .createRoutedConversation convo => RoutesGood sends recvs convo
  | .about _ o => StoresGood sends recvs o
  | _ => True

/-- The ids an answer to it brings are good. -/
def PairingBringsGood : (o : PairingOp C) → o.Answer → Prop
  | .decryptSetupFromUnknown _, r => ∀ peer inner ack, r = .ok (peer, inner) →
      L.readFrame inner = .pairAck ack → sends ack.inboxId
  | .call (.relay .createMailbox), r => ∀ id, r = .ok id → recvs id
  | .about _ o, r => BringsGood L.engine sends recvs o r
  | _, _ => True

/-- What the client's programs owe and are owed. -/
def pairingRouting : Contract (pairingSig C) :=
  ⟨PairingStoresGood sends recvs, PairingBringsGood L sends recvs⟩

variable {L sends recvs}

/-- An engine program keeps its contract for whichever conversation it runs. -/
theorem kept_aboutConversation {α : Type} {post : α → Prop} {p : EngineM C.toCarrier α}
    (h : (routing L.engine sends recvs).Kept post p) (conv : ConversationId) :
    (pairingRouting L sends recvs).Kept post (aboutConversation conv p) := by
  refine Kept.rename (d := pairingRouting L sends recvs) ?_ ?_ h
  · exact fun _ ho => ho
  · exact fun _ _ hr => hr

/-- Whatever a fallible program returns, what follows keeps the contract. -/
theorem kept_attempt {α β : Type} {p : PairingM C (Result α)} {f : α → PairingM C (Result β)}
    (hp : (pairingRouting L sends recvs).Keeps p)
    (hf : ∀ a, (pairingRouting L sends recvs).Keeps (f a)) :
    (pairingRouting L sends recvs).Keeps (p.attempt f) :=
  (hp.mono fun _ _ _ _ => trivial).attempt (fun _ => trivial) fun a (_ : True) => hf a

/-- A new inbox, and what follows. -/
theorem kept_createMailbox {β : Type} {f : C.Id → PairingM C (Result β)}
    (hf : ∀ id, recvs id → (pairingRouting L sends recvs).Keeps (f id)) :
    (pairingRouting L sends recvs).Keeps
      ((pairing (.call (.relay .createMailbox))).attempt f) :=
  Kept.attempt (kept_perform (c := pairingRouting L sends recvs) (o := .call (.relay .createMailbox)) trivial)
    (fun _ => trivial) hf

theorem kept_op {o : PairingOp C} (ho : PairingStoresGood sends recvs o) :
    (pairingRouting L sends recvs).Keeps (pairing o) :=
  (kept_perform (c := pairingRouting L sends recvs) ho).trivial

theorem kept_finishPairing (offer : C.Offer) (peerAddr : String) (myInbox : C.Id) (conv : ConversationId)
    (bContrib : C.Contribution) (wire : C.Wire) (fuel : ℕ) :
    (pairingRouting L sends recvs).Keeps
      (L.finishPairing offer peerAddr myInbox conv bContrib wire fuel) := by
  refine kept_step trivial fun outcome _ => ?_
  rcases outcome with e | (_ | _ | status)
  · trivial
  · refine (kept_aboutConversation (kept_awaitInboxHandoffV2 _ _ _ _) conv).bind fun result _ => ?_
    rcases result with _ | (e | _) <;> trivial
  · trivial
  · trivial

/-- **The responder's call**: the row it inserts has only its own inbox. -/
theorem kept_beginPairingFromOffer (payload : C.Payload) (fuel : ℕ) :
    (pairingRouting L sends recvs).Keeps (L.beginPairingFromOffer payload fuel) := by
  refine kept_step trivial fun now _ => ?_
  split
  · trivial
  · rename_i offer _
    refine kept_attempt (kept_op trivial) fun peerAddr => kept_createMailbox fun myInbox hinbox => ?_
    have hrow : RoutesGood sends recvs
        (⟨peerAddr, offer.relayUrl, none, some myInbox⟩ : Conversation C.toCarrier) := by
      constructor
      · intro id h
        cases h
      · rintro id ⟨⟩
        exact hinbox
    refine kept_attempt (kept_op hrow) fun conv => kept_step trivial fun bContrib _ => ?_
    refine kept_attempt (kept_op trivial) fun _ => kept_attempt (kept_op trivial) fun myBundle =>
      kept_attempt (kept_op trivial) fun wire => ?_
    exact kept_finishPairing _ _ _ _ _ _ _

/-- **The offerer's handler** from a verified `pair-ack/2` on: the row has the inbox the peer names and
its own. -/
theorem kept_completePairing {ack : C.PairAck} (hack : sends ack.inboxId) (pairingInbox : C.Id)
    (peerAddr : String) :
    (pairingRouting L sends recvs).Keeps (L.completePairing pairingInbox peerAddr ack) := by
  refine kept_createMailbox fun myInbox hinbox => ?_
  have hrow : RoutesGood sends recvs
      (⟨peerAddr, ack.relayUrl, some ack.inboxId, some myInbox⟩ : Conversation C.toCarrier) := by
    constructor
    · rintro id ⟨⟩
      exact hack
    · rintro id ⟨⟩
      exact hinbox
  refine kept_attempt (kept_op hrow) fun conv => kept_step trivial fun aContrib _ => ?_
  refine kept_attempt (kept_op trivial) fun _ => kept_attempt (kept_op trivial) fun _ =>
    kept_step trivial fun _ _ => ?_
  exact kept_attempt (kept_op trivial) fun wire => kept_attempt (kept_op trivial) fun _ =>
    kept_step trivial fun _ _ => trivial

variable [DecidableEq C.Proof] (pairingInbox : C.Id) (secret : C.Secret)

theorem kept_handlePairAckV2 (envelope : C.Wire) :
    (pairingRouting L sends recvs).Keeps (L.handlePairAckV2 pairingInbox secret envelope) := by
  refine kept_step trivial fun opened hopened => ?_
  rcases opened with e | ⟨peer, inner⟩
  · trivial
  · dsimp only
    split
    · trivial
    · trivial
    · rename_i ack hack
      split
      · trivial
      · exact kept_completePairing (hopened peer inner ack rfl hack) pairingInbox peer

theorem kept_pairingLoop (fuel : ℕ) :
    (pairingRouting L sends recvs).Keeps (L.pairingLoop pairingInbox secret fuel) := by
  induction fuel with
  | zero => trivial
  | succ fuel ih =>
    refine kept_step trivial fun event _ => ?_
    cases event with
    | closed => trivial
    | idle => exact ih
    | delivery msgId envelope =>
      refine (kept_handlePairAckV2 pairingInbox secret envelope).bind fun handled _ => ?_
      split
      · exact kept_step trivial fun _ _ => trivial
      · exact kept_step trivial fun _ _ => kept_step trivial fun _ _ => trivial
      · exact kept_step trivial fun _ _ => ih

theorem kept_pairingListenerV2 (fuel : ℕ) :
    (pairingRouting L sends recvs).Keeps (L.pairingListenerV2 pairingInbox secret fuel) := by
  induction fuel with
  | zero => trivial
  | succ fuel ih =>
    refine kept_step trivial fun connected _ => ?_
    cases connected with
    | ok =>
      refine (kept_pairingLoop pairingInbox secret fuel).bind fun exit _ => ?_
      cases exit with
      | finished => trivial
      | disconnected => exact ih
      | outOfFuel => trivial
    | notFound => trivial
    | unreachable => exact ih

theorem kept_exportOffer (bundle : C.Bundle) (fuel : ℕ) :
    (pairingRouting L sends recvs).Keeps (L.exportOffer bundle fuel) := by
  refine kept_createMailbox fun pairingInbox _ => kept_step trivial fun secret _ =>
    kept_step trivial fun issuedAt _ => kept_attempt (kept_op trivial) fun _ => ?_
  exact (kept_pairingListenerV2 pairingInbox secret fuel).bind fun _ _ => trivial

end Handshake

/-! ## A client and its database -/

section Process

variable {C : PairingCarrier} (L : PairingLib C)

/-- What a client runs. -/
inductive Task (C : PairingCarrier)
  | exportOffer (bundle : C.Bundle) (fuel : ℕ)
  | beginPairingFromOffer (payload : C.Payload) (fuel : ℕ)
  | conversationListener (conv : ConversationId) (fuel : ℕ)
  | sendChat (conv : ConversationId) (text : C.Text)

/-- A client's database, the part of its memory that holds mailbox ids, and its tasks. -/
structure Process (C : PairingCarrier) where
  table : Pairing.ConversationTable C
  rotation : ConversationId → Option (OffererAwaitingFb C.toCarrier)
  /-- The tasks begun, each with what it has left to do. -/
  tasks : List (PairingM C Unit)

/-- A step of a client. -/
inductive Step (C : PairingCarrier)
  | start (task : Task C)
  | act (n : ℕ) (t : Pairing.PairingTurn C)
  | cancel (n : ℕ)
  /-- The process is killed and started again: the database is kept. -/
  | restart

namespace Process

/-- A client that has never run. -/
def fresh : Process C := ⟨[], fun _ => none, []⟩

/-- The effect of one operation. -/
def perform (t : Pairing.PairingTurn C) (s : Process C) : (o : PairingOp C) → o.Answer × Process C
  | .about conv (.ram .takeRotation) =>
    (s.rotation conv, { s with rotation := Function.update s.rotation conv none })
  | .about conv (.ram (.insertRotation entry)) =>
    ((), { s with rotation := Function.update s.rotation conv (some entry) })
  | o => ((s.table.perform t o).1, { s with table := (s.table.perform t o).2 })

/-- The answer the next operation of a task gets in this step, if the step is one, has `P`. -/
def Answered (P : (o : PairingOp C) → o.Answer → Prop) (s : Process C) : Step C → Prop
  | .act n t => ∀ o k, s.tasks[n]? = some (.op o k) → P o (s.perform t o).1
  | _ => True

variable (sends recvs : C.Id → Prop)

/-- The frames opened name good inboxes, if they name one. -/
def FramesGood : (o : PairingOp C) → o.Answer → Prop
  | .decryptSetupFromUnknown _, r => ∀ peer inner ack, r = .ok (peer, inner) →
      L.readFrame inner = .pairAck ack → sends ack.inboxId
  | .about _ (.store (.loadSession _ (.decrypt wire))), r => ∀ session session' frame, r = .ok session →
      L.engine.messageDecrypt session wire = .ok (session', .ok frame) → NamesInbox sends frame
  | _, _ => True

/-- Any frame names an inbox that may be sent to, if any inbox may. -/
theorem framesGood_of_forall (hsends : ∀ id, sends id) (o : PairingOp C) (r : o.Answer) :
    FramesGood L sends o r := by
  unfold FramesGood
  split
  · exact fun _ _ ack _ _ => hsends ack.inboxId
  · intro _ _ frame _ _
    unfold NamesInbox
    split <;> first | exact hsends _ | trivial
  · trivial

/-- The mailboxes created have good ids. -/
def CreatesGood : (o : PairingOp C) → o.Answer → Prop
  | .call (.relay .createMailbox), r => ∀ id, r = .ok id → recvs id
  | .about _ (.relay .createMailbox), r => ∀ id, r = .ok id → recvs id
  | _, _ => True

theorem Answered.mono {P Q : (o : PairingOp C) → o.Answer → Prop} (h : ∀ o r, P o r → Q o r) {s : Process C}
    {l : Step C} (hl : Answered P s l) : Answered Q s l := by
  cases l with
  | act n t => exact fun o k htask => h o _ (hl o k htask)
  | _ => trivial

theorem answered_of_forall {P : (o : PairingOp C) → o.Answer → Prop} (h : ∀ o r, P o r) (s : Process C)
    (l : Step C) : Answered P s l := by
  cases l with
  | act n t => exact fun o _ _ => h o _
  | _ => trivial

/-- Every id the client holds is good, and no task will store another. -/
structure Good (s : Process C) : Prop where
  rows : ∀ row ∈ s.table, RoutesGood sends recvs row.convo
  rotation : ∀ conv entry, s.rotation conv = some entry → recvs entry.fA
  tasks : ∀ p ∈ s.tasks, (pairingRouting L sends recvs).Kept (fun _ => True) p

variable {L sends recvs} {s s' : Process C}

theorem good_fresh : (fresh : Process C).Good L sends recvs := by
  refine ⟨?_, ?_, ?_⟩
  · intro row h
    cases h
  · intro conv entry h
    cases h
  · intro p h
    cases h

/-- What an operation is answered within a run. -/
theorem Good.answer (hs : s.Good L sends recvs) {t : Pairing.PairingTurn C} {o : PairingOp C}
    (hframes : FramesGood L sends o (s.perform t o).1) (hcreates : CreatesGood recvs o (s.perform t o).1) :
    PairingBringsGood L sends recvs o (s.perform t o).1 := by
  unfold PairingBringsGood
  split
  · exact hframes
  · exact hcreates
  · unfold BringsGood
    split
    · exact hframes
    · exact hs.rotation _
    · exact hcreates
    · trivial
  · trivial

/-- An access to a row that stores good ids keeps those of the row good. -/
theorem routesGood_access {row row' : Pairing.ConversationRow C} {o : StoreOp C.toCarrier} {r : o.Answer}
    (hrow : RoutesGood sends recvs row.convo) (ho : StoresGood sends recvs (.store o))
    (haccess : row.access o = some (r, row')) : RoutesGood sends recvs row'.convo := by
  cases o with
  | setConversationSend relayUrl inbox =>
    cases haccess
    refine ⟨?_, hrow.recv⟩
    rintro id ⟨⟩
    exact ho
  | setConversationRecv inbox =>
    cases haccess
    refine ⟨hrow.send, ?_⟩
    rintro id ⟨⟩
    exact ho
  | getConversation | recoveryState | setRecoveryRoot _ _ | setRecoveryGenerations _ _ =>
    cases haccess
    exact hrow
  | _ => cases haccess

/-- What an operation leaves in the table. -/
theorem rows_perform {table : Pairing.ConversationTable C} {o : PairingOp C} (t : Pairing.PairingTurn C)
    (hrows : ∀ row ∈ table, RoutesGood sends recvs row.convo) (ho : PairingStoresGood sends recvs o) :
    ∀ row ∈ (table.perform t o).2, RoutesGood sends recvs row.convo := by
  cases o with
  | createRoutedConversation convo =>
    simp only [Pairing.ConversationTable.perform]
    split
    · exact hrows
    · intro row hrow
      rcases mem_concat hrow with hrow | rfl
      · exact hrows row hrow
      · exact ho
  | setRecoveryPairing conv role contribution =>
    simp only [Pairing.ConversationTable.perform]
    split
    · exact hrows
    · intro row hrow
      obtain ⟨k, hk⟩ := List.mem_iff_getElem?.mp hrow
      rw [List.getElem?_modify] at hk
      obtain ⟨old, hold, rfl⟩ := Option.map_eq_some_iff.mp hk
      have hgood := hrows old (List.mem_of_getElem? hold)
      -- the routing columns are not those it sets
      split <;> exact hgood
  | about conv o =>
    cases o with
    | store o =>
      simp only [Pairing.ConversationTable.perform]
      split
      · exact hrows
      · unfold Pairing.ConversationTable.access
        cases haccess : table[conv]?.bind fun row => row.access o with
        | none => exact hrows
        | some out =>
          obtain ⟨old, hold, hout⟩ := Option.bind_eq_some_iff.mp haccess
          intro row hrow
          rcases List.mem_or_eq_of_mem_set hrow with hrow | rfl
          · exact hrows row hrow
          · exact routesGood_access (hrows old (List.mem_of_getElem? hold)) ho hout
    | _ => exact hrows
  | _ => exact hrows

/-- An operation within the contract. -/
theorem Good.perform (hs : s.Good L sends recvs) (t : Pairing.PairingTurn C) {o : PairingOp C}
    (ho : PairingStoresGood sends recvs o) :
    (∀ row ∈ (s.perform t o).2.table, RoutesGood sends recvs row.convo) ∧
      ∀ conv entry, (s.perform t o).2.rotation conv = some entry → recvs entry.fA := by
  have hother : ∀ table, (∀ row ∈ table, RoutesGood sends recvs row.convo) →
      (∀ row ∈ ({ s with table } : Process C).table, RoutesGood sends recvs row.convo) ∧
        ∀ conv entry, s.rotation conv = some entry → recvs entry.fA :=
    fun table htable => ⟨htable, hs.rotation⟩
  cases o with
  | about conv o =>
    cases o with
    | ram o =>
      cases o with
      | takeRotation =>
        refine ⟨hs.rows, fun conv' entry h => ?_⟩
        by_cases hconv : conv' = conv
        · subst hconv
          rw [show (s.perform t (.about conv' (.ram .takeRotation))).2.rotation conv' = none from
            Function.update_self ..] at h
          cases h
        · rw [show (s.perform t (.about conv (.ram .takeRotation))).2.rotation conv' = s.rotation conv' from
            Function.update_of_ne hconv ..] at h
          exact hs.rotation conv' entry h
      | insertRotation new =>
        refine ⟨hs.rows, fun conv' entry h => ?_⟩
        by_cases hconv : conv' = conv
        · subst hconv
          rw [show (s.perform t (.about conv' (.ram (.insertRotation new)))).2.rotation conv' = some new from
            Function.update_self ..] at h
          cases h
          exact ho
        · rw [show (s.perform t (.about conv (.ram (.insertRotation new)))).2.rotation conv' =
            s.rotation conv' from Function.update_of_ne hconv ..] at h
          exact hs.rotation conv' entry h
      | _ => exact hother _ (rows_perform t hs.rows ho)
    | _ => exact hother _ (rows_perform t hs.rows ho)
  | _ => exact hother _ (rows_perform t hs.rows ho)

variable [DecidableEq C.Proof]

/-- The program of a task. -/
def program (L : PairingLib C) : Task C → PairingM C Unit
  | .exportOffer bundle fuel => L.exportOffer bundle fuel >>= fun _ => .ret ()
  | .beginPairingFromOffer payload fuel => L.beginPairingFromOffer payload fuel >>= fun _ => .ret ()
  | .conversationListener conv fuel => aboutConversation conv (L.engine.conversationListener fuel)
  | .sendChat conv text => aboutConversation conv (L.engine.sendChat text) >>= fun _ => .ret ()

/-- One step. -/
def step (L : PairingLib C) (s : Process C) : Step C → Option (Process C)
  | .start task => some { s with tasks := s.tasks ++ [program L task] }
  | .act n t =>
    match s.tasks[n]? with
    | some (.op o k) =>
      some { (s.perform t o).2 with tasks := s.tasks.set n (k (s.perform t o).1) }
    | _ => none
  | .cancel n => some { s with tasks := s.tasks.set n (.ret ()) }
  | .restart => some ⟨s.table, fun _ => none, []⟩

theorem kept_task (hd : DerivesGood L.engine sends recvs) (task : Task C) :
    (pairingRouting L sends recvs).Keeps (program L task) := by
  cases task with
  | exportOffer bundle fuel => exact (kept_exportOffer bundle fuel).bind fun _ _ => trivial
  | beginPairingFromOffer payload fuel =>
    exact (kept_beginPairingFromOffer payload fuel).bind fun _ _ => trivial
  | conversationListener conv fuel => exact kept_aboutConversation (kept_conversationListener hd fuel) conv
  | sendChat conv text =>
    exact (kept_aboutConversation (kept_sendChat text) conv).bind fun _ _ => trivial

/-- **Step lemma.** -/
theorem Good.step (hd : DerivesGood L.engine sends recvs) {l : Step C} (hs : s.Good L sends recvs)
    (hl : Answered (FramesGood L sends) s l ∧ Answered (CreatesGood recvs) s l)
    (hstep : step L s l = some s') : s'.Good L sends recvs := by
  cases l with
  | start task =>
    cases hstep
    refine ⟨hs.rows, hs.rotation, fun p hp => ?_⟩
    rcases mem_concat hp with hp | rfl
    · exact hs.tasks p hp
    · exact kept_task hd task
  | act n t =>
    rw [Process.step] at hstep
    split at hstep
    · rename_i o k htask
      cases hstep
      obtain ⟨ho, hk⟩ := hs.tasks _ (List.mem_of_getElem? htask)
      obtain ⟨hrows, hrotation⟩ := hs.perform t ho
      refine ⟨hrows, hrotation, fun p hp => ?_⟩
      rcases List.mem_or_eq_of_mem_set hp with hp | rfl
      · exact hs.tasks p hp
      · exact hk _ (hs.answer (hl.1 o k htask) (hl.2 o k htask))
    · cases hstep
  | cancel n =>
    cases hstep
    refine ⟨hs.rows, hs.rotation, fun p hp => ?_⟩
    rcases List.mem_or_eq_of_mem_set hp with hp | rfl
    · exact hs.tasks p hp
    · trivial
  | restart =>
    cases hstep
    refine ⟨hs.rows, ?_, ?_⟩
    · intro conv entry h
      cases h
    · intro p h
      cases h

/-- **Run lemma.** -/
theorem good_run (hd : DerivesGood L.engine sends recvs) {steps : List (Step C)}
    (hrun : run (Process.step L) fresh steps = some s)
    (hframes : Along (Process.step L) (Answered (FramesGood L sends)) fresh steps)
    (hcreates : Along (Process.step L) (Answered (CreatesGood recvs)) fresh steps) :
    s.Good L sends recvs :=
  run_invariant (fun _ _ _ hs hl hstep => Good.step hd hs hl hstep) good_fresh (hframes.and hcreates) hrun

end Process

end Process

/-! ## Over the wire formats -/

/-- What becomes of a request for a mailbox at a relay of this repository: it is lost or refused, or it is
answered with an id encoded from 32 bytes drawn, or with none. -/
inductive RelayAnswered : Result String → Prop
  | lost (e : CoreError) : RelayAnswered (.error e)
  | answered (drawn : Option Bytes) (hdrawn : ∀ raw, drawn = some raw → raw.length = 32) :
    RelayAnswered (createMailbox (.ok (Relay.createMailboxResponse (drawn.map Relay.encodeMailboxId))))

/-- A mailbox created this way has an id of the shape the relay checks. -/
theorem RelayAnswered.shapeOk {r : Result String} {id : String} (h : RelayAnswered r) (hr : r = .ok id) :
    Relay.mailboxIdShapeOk id = true := by
  cases h with
  | lost e => cases hr
  | answered drawn hdrawn =>
    cases drawn with
    | none => cases hr
    | some raw =>
      have hshape : Relay.mailboxIdShapeOk (Relay.encodeMailboxId raw) = true := by
        rw [← base64urlNopad_eq_encodeMailboxId]
        exact mailboxIdShapeOk_base64urlNopad (hdrawn raw rfl)
      rw [Option.map_some, createMailbox_createMailboxResponse hshape] at hr
      cases hr
      exact hshape

variable {Session : Type}

/-- Relays answer requests for mailboxes as this repository's do. -/
def CreatesAsRelay : (o : PairingOp (bytePairingCarrier Session)) → o.Answer → Prop
  | .call (.relay .createMailbox), r => RelayAnswered r
  | .about _ (.relay .createMailbox), r => RelayAnswered r
  | _, _ => True

theorem CreatesAsRelay.good {o : PairingOp (bytePairingCarrier Session)} {r : o.Answer}
    (h : CreatesAsRelay o r) :
    Process.CreatesGood (fun id : String => Relay.mailboxIdShapeOk id = true) o r := by
  unfold Process.CreatesGood
  split
  · exact fun _ hr => RelayAnswered.shapeOk h hr
  · exact fun _ hr => RelayAnswered.shapeOk h hr
  · trivial

/-- **Stored ids are usable mailbox ids, as far as the peer's frames name usable ones.** In every run of a
client, from an empty database on: the inbox it receives on always has the shape the relay checks; the one
it sends to has it if every control frame opened in the run that names an inbox names one of that shape. -/
theorem stored_ids_usable (lib : Libsignal Session) (verifySignature : Bytes → Result (Bytes → Bytes → Bool))
    (profile : PaddingProfile) (myRelay : String)
    (hhmac : ∀ key input, (lib.hmacSha256 key input).length = 32)
    (steps : List (Step (bytePairingCarrier Session))) (s : Process (bytePairingCarrier Session))
    (hrun : run (Process.step (bytePairing lib verifySignature profile myRelay)) Process.fresh steps = some s)
    (hrelay : Along (Process.step (bytePairing lib verifySignature profile myRelay))
      (Process.Answered CreatesAsRelay) Process.fresh steps) :
    (∀ row ∈ s.table, ∀ id, row.convo.mailboxRecv = some id → Relay.mailboxIdShapeOk id = true) ∧
    (Along (Process.step (bytePairing lib verifySignature profile myRelay))
        (Process.Answered (Process.FramesGood (bytePairing lib verifySignature profile myRelay)
          fun id => Relay.mailboxIdShapeOk id = true)) Process.fresh steps →
      ∀ row ∈ s.table, ∀ id, row.convo.mailboxSend = some id → Relay.mailboxIdShapeOk id = true) := by
  have hderived : ∀ root role g, Relay.mailboxIdShapeOk (deriveMailboxId lib.hmacSha256 root role g) = true :=
    fun root role g => mailboxIdShapeOk_base64urlNopad (hhmac root _)
  have hcreates : Along (Process.step (bytePairing lib verifySignature profile myRelay))
      (Process.Answered (Process.CreatesGood fun id : String => Relay.mailboxIdShapeOk id = true))
      Process.fresh steps :=
    hrelay.mono fun _ _ => Process.Answered.mono fun _ _ => CreatesAsRelay.good
  constructor
  · -- whatever the frames name, it is only sent to
    intro row hrow id hid
    have hgood : s.Good (bytePairing lib verifySignature profile myRelay) (fun _ => True)
        (fun id : String => Relay.mailboxIdShapeOk id = true) :=
      Process.good_run ⟨fun _ _ _ => trivial, hderived⟩ hrun
        (.of_forall (Process.answered_of_forall (Process.framesGood_of_forall _ _ fun _ => trivial))) hcreates
    exact (hgood.rows row hrow).recv id hid
  · intro hframes row hrow id hid
    have hgood := Process.good_run ⟨hderived, hderived⟩ hrun hframes hcreates
    exact (hgood.rows row hrow).send id hid

/-- The handshake of a client whose MAC gives zeros. -/
def zeroPairing : PairingLib (bytePairingCarrier Unit) :=
  bytePairing { plainLib with hmacSha256 := fun _ _ => List.replicate 32 0 } (fun _ => .ok fun _ _ => true)
    smallProfile "wss://relay"

/-- The id of a relay that drew zeros. -/
def zeroId : String := Relay.encodeMailboxId (List.replicate 32 0)

/-- An outside in which every envelope a pairing inbox gets opens to one frame; a relay draws zeros for a
mailbox, and takes what is deposited. -/
def openingTo (inner : InnerFrame) : (o : PairingOp (bytePairingCarrier Unit)) → o.Answer
  | .decryptSetupFromUnknown _ => .ok ("peer", inner)
  | .call (.relay .createMailbox) => .ok zeroId
  | o => Pairing.deliveringAck (.ok .accepted) o

/-- A client that shows an offer, and handles the first envelope up to the insert of the conversation. -/
def offering (inner : InnerFrame) : List (Step (bytePairingCarrier Unit)) :=
  .start (.exportOffer [] 4) :: List.replicate 9 (.act 0 ⟨none, openingTo inner⟩)

/-- A `pair-ack/2` with an empty bundle and relay whose inbox is one letter, forty-three times. -/
def ackNaming (letter : UInt8) : InnerFrame :=
  ⟨.pairAck, pairAckV2, [pairAckV2, 0, 0, 0, 0] ++ List.replicate mailboxIdLen letter ++
    List.replicate (recoveryContribLen + proofLen) 0⟩

/-- What holds of every answer of such a run holds along it. -/
theorem offering_answered {inner : InnerFrame}
    {P : (o : PairingOp (bytePairingCarrier Unit)) → o.Answer → Prop}
    (h : ∀ (s : Process (bytePairingCarrier Unit)) o, P o (s.perform ⟨none, openingTo inner⟩ o).1) :
    Along (Process.step zeroPairing) (Process.Answered P) Process.fresh (offering inner) := by
  refine .of_forall_mem fun s l hl => ?_
  rcases List.mem_cons.mp hl with rfl | hl
  · trivial
  · obtain rfl := List.eq_of_mem_replicate hl
    exact fun o _ _ => h s o

theorem offering_creates (inner : InnerFrame) :
    Along (Process.step zeroPairing) (Process.Answered CreatesAsRelay) Process.fresh (offering inner) := by
  refine offering_answered fun s o => ?_
  cases o with
  | call o =>
    cases o with
    | relay o =>
      cases o with
      | createMailbox =>
        have hshape : Relay.mailboxIdShapeOk (Relay.encodeMailboxId (List.replicate 32 0)) = true := by
          decide +kernel
        have hzero := RelayAnswered.answered (some (List.replicate 32 0)) (by rintro raw ⟨⟩; rfl)
        rw [Option.map_some, createMailbox_createMailboxResponse hshape] at hzero
        exact hzero
      | _ => trivial
    | _ => trivial
  | about conv o =>
    cases o with
    | relay o =>
      cases o with
      | createMailbox => exact .lost _
      | _ => trivial
    | _ => trivial
  | _ => trivial

theorem offering_frames {inner : InnerFrame}
    (h : ∀ ack, @readPairingFrame Unit inner = .pairAck ack → Relay.mailboxIdShapeOk ack.inboxId = true) :
    Along (Process.step zeroPairing) (Process.Answered (Process.FramesGood zeroPairing
      fun id => Relay.mailboxIdShapeOk id = true)) Process.fresh (offering inner) := by
  refine offering_answered fun s o => ?_
  cases o with
  | decryptSetupFromUnknown envelope =>
    rintro peer inner ack ⟨⟩ hack
    exact h ack hack
  | about conv o =>
    cases o with
    | store o =>
      cases o with
      | loadSession peer call =>
        cases call with
        | decrypt wire =>
          -- no session is stored
          intro session session' frame hloaded _
          have herror : (s.perform ⟨none, openingTo inner⟩
              (.about conv (.store (.loadSession peer (.decrypt wire))))).1 = .error .badDbKey := by
            simp only [Process.perform, Pairing.ConversationTable.perform, Pairing.ConversationTable.access]
            cases s.table[conv]? <;> rfl
          rw [herror] at hloaded
          cases hloaded
        | encrypt frame => trivial
      | _ => trivial
    | _ => trivial
  | _ => trivial

/-- The inbox of the letters `A` is stored, and is one a relay takes. -/
theorem letters_stored :
    ∃ s, run (Process.step zeroPairing) Process.fresh (offering (ackNaming 65)) = some s ∧
      (∃ row ∈ s.table, row.convo.mailboxSend = some (String.ofList (List.replicate 43 'A'))) ∧
      ∀ row ∈ s.table, ∀ id, row.convo.mailboxSend = some id → Relay.mailboxIdShapeOk id = true := by
  have hstored : (run (Process.step zeroPairing) Process.fresh (offering (ackNaming 65))).map
      (fun s => s.table.map fun row => row.convo.mailboxSend) =
        some [some (String.ofList (List.replicate 43 'A'))] := by
    decide +kernel
  obtain ⟨s, hrun, htable⟩ := Option.map_eq_some_iff.mp hstored
  have hparse : parsePairAckV2 (ackNaming 65).payload =
      .ok ⟨[], "", String.ofList (List.replicate 43 'A'), List.replicate 32 0, List.replicate 32 0⟩ := by
    decide +kernel
  have hack : ∀ ack, @readPairingFrame Unit (ackNaming 65) = .pairAck ack →
      Relay.mailboxIdShapeOk ack.inboxId = true := by
    intro ack hack
    rw [readPairingFrame, if_pos ⟨rfl, rfl⟩, hparse] at hack
    cases hack
    decide +kernel
  refine ⟨s, hrun, ?_, (stored_ids_usable _ _ _ _ (fun _ _ => rfl) _ s hrun (offering_creates _)).2
    (offering_frames hack)⟩
  have hmem : some (String.ofList (List.replicate 43 'A')) ∈ s.table.map fun row => row.convo.mailboxSend := by
    rw [htable]
    exact List.mem_singleton_self _
  exact List.mem_map.mp hmem

/-- **A peer can have an id stored that no relay takes**: forty-three slashes. -/
theorem slashes_stored :
    ∃ s, run (Process.step zeroPairing) Process.fresh (offering (ackNaming 47)) = some s ∧
      Along (Process.step zeroPairing) (Process.Answered CreatesAsRelay) Process.fresh
        (offering (ackNaming 47)) ∧
      ∃ row ∈ s.table, ∃ id, row.convo.mailboxSend = some id ∧ Relay.mailboxIdShapeOk id = false := by
  have hstored : (run (Process.step zeroPairing) Process.fresh (offering (ackNaming 47))).map
      (fun s => s.table.map fun row => row.convo.mailboxSend) =
        some [some (String.ofList (List.replicate 43 '/'))] := by
    decide +kernel
  obtain ⟨s, hrun, htable⟩ := Option.map_eq_some_iff.mp hstored
  have hmem : some (String.ofList (List.replicate 43 '/')) ∈ s.table.map fun row => row.convo.mailboxSend := by
    rw [htable]
    exact List.mem_singleton_self _
  obtain ⟨row, hrow, hsend⟩ := List.mem_map.mp hmem
  exact ⟨s, hrun, offering_creates _, row, hrow, _, hsend, by decide +kernel⟩

end Titlan.Client
