import Titlan.Engine.Listener
import Titlan.Foundation.Contract
import Titlan.Foundation.RelyGuarantee

/-! # What the engine's programs are put together from

A call of `encrypt_message` or `decrypt_message` is two accesses to the session table with a pure step
in between; every other operation stands on its own. The handlers behind the dispatch of a frame are
put together from plain operations, `encrypt_message` and whole flushes: they neither read the inbox
socket nor add message rows. The receive loops and `send_chat` add the rest. An assertion that each kind
of block preserves is therefore preserved by the whole program. The coarser kinds of blocks below are
broken up into the finer ones, so each program is taken apart once. -/

namespace Titlan

open Foundation

variable {C : Carrier}

/-- Operations outside the session table. -/
def Op.Standalone : Op C → Prop
  | .store (.loadSession _ _) | .store (.storeSession _ _ _) => False
  | _ => True

/-- Standalone operations that use neither the socket nor the hello ring and write no message row. -/
def Op.Plain : Op C → Prop
  | .store (.loadSession _ _) | .store (.storeSession _ _ _) => False
  | .store (.insertMessage _ _ _) => False
  | .ram (.markHelloSeen _ _) => False
  | .socket _ => False
  | _ => True

/-- Plain operations outside a flush. -/
def Op.Aside : Op C → Prop
  | .store (.loadSession _ _) | .store (.storeSession _ _ _) => False
  | .store (.insertMessage _ _ _) | .store .pendingChat | .store (.markMessageSent _) => False
  | .ram (.markHelloSeen _ _) | .ram .lockFlush | .ram .unlockFlush => False
  | .socket _ => False
  | _ => True

theorem Op.Aside.plain {o : Op C} (h : o.Aside) : o.Plain := by
  cases o with
  | store o => cases o <;> trivial
  | ram o => cases o <;> trivial
  | socket o => exact h
  | _ => trivial

/-- The plain operations of sending: they neither touch a routing row nor an in-memory entry. -/
def Op.Sends : Op C → Prop
  | .store .getConversation | .store .pendingChat | .store (.markMessageSent _) => True
  | .ram .lockFlush | .ram .unlockFlush => True
  | .relay (.deposit _ _ _) | .relay (.deleteMailbox _) => True
  | .notify _ => True
  | _ => False

theorem Op.Sends.plain {o : Op C} (h : o.Sends) : o.Plain := by
  cases o with
  | store o => cases o <;> trivial
  | ram o => cases o <;> trivial
  | socket o => exact h
  | _ => trivial

theorem Op.Plain.standalone {o : Op C} (h : o.Plain) : o.Standalone := by
  cases o with
  | store o => cases o <;> first | exact h | trivial
  | _ => trivial

/-- The generation a hello reports. -/
def Frame.hello? {Relay Id Contribution Nonce Text : Type} :
    Frame Relay Id Contribution Nonce Text → Option ℕ
  | .recoveryHello g _ => some g
  | _ => none

/-- Operations outside the session table and the recovery state; the rows they add are no hellos. -/
def Op.Routes : Op C → Prop
  | .store (.loadSession _ _) | .store (.storeSession _ _ _) => False
  | .store (.setRecoveryRoot _ _) | .store (.setRecoveryGenerations _ _) => False
  | .store (.insertMessage _ frame _) => frame.hello? = none
  | .ram .cyclesExhausted | .ram .noteProbeCycle | .ram .resetExhaustion => False
  | _ => True

namespace Engine

variable (E : Engine C)

/-- The blocks of a handler. -/
inductive Handling : (β : Type) → EngineM C β → Prop
  | plain (o : Op C) (ho : o.Plain) : Handling o.Answer o.program
  | encrypt (peer : String) (frame : C.Frame) : Handling (Result C.Wire) (E.encryptMessage peer frame)

/-- The blocks of sending what is pending, and of announcing an inbox. -/
inductive Sending : (β : Type) → EngineM C β → Prop
  | plain (o : Op C) (ho : o.Sends) : Sending o.Answer o.program
  | encrypt (peer : String) (frame : C.Frame) : Sending (Result C.Wire) (E.encryptMessage peer frame)

/-- The blocks of a handler, with its flushes whole. -/
inductive Serving : (β : Type) → EngineM C β → Prop
  | aside (o : Op C) (ho : o.Aside) : Serving o.Answer o.program
  | encrypt (peer : String) (frame : C.Frame) : Serving (Result C.Wire) (E.encryptMessage peer frame)
  | flush : Serving (Result Unit) E.flushPending

/-- The blocks of what a handler does besides recovery. -/
inductive Routing (E : Engine C) : (β : Type) → EngineM C β → Prop
  | plain (o : Op C) (ho : o.Routes) : Routing E o.Answer o.program
  | encrypt (peer : String) (frame : C.Frame) (hframe : frame.hello? = none) :
    Routing E (Result C.Wire) (E.encryptMessage peer frame)
  | flush : Routing E (Result Unit) E.flushPending

/-- The blocks of the receive loops and of `send_chat`, with their flushes whole. -/
inductive Running : (β : Type) → EngineM C β → Prop
  | serving {β : Type} {p : EngineM C β} (h : E.Serving β p) : Running β p
  | markHelloSeen (generation : ℕ) (nonce : C.Nonce) :
    Running Bool (ram (.markHelloSeen generation nonce))
  | saveOutgoing (frame : C.Frame) :
    Running (Result (StoredMessage C)) (store (.insertMessage .outgoing frame .pending))
  | saveIncoming (frame : C.Frame) :
    Running (Result (StoredMessage C)) (store (.insertMessage .incoming frame .received))
  | socket (o : SocketOp C) : Running o.Answer (Titlan.socket o)
  | decrypt (peer : String) (wire : C.Wire) : Running (Result C.Frame) (E.decryptMessage peer wire)

/-- The blocks of the dispatch of a control frame. -/
inductive Dispatching : (β : Type) → EngineM C β → Prop
  | handling {β : Type} {p : EngineM C β} (h : E.Handling β p) : Dispatching β p
  | markHelloSeen (generation : ℕ) (nonce : C.Nonce) :
    Dispatching Bool (ram (.markHelloSeen generation nonce))

/-- The blocks of the receive loops and of `send_chat`. -/
inductive Calling : (β : Type) → EngineM C β → Prop
  | standalone (o : Op C) (ho : o.Standalone) : Calling o.Answer o.program
  | encrypt (peer : String) (frame : C.Frame) : Calling (Result C.Wire) (E.encryptMessage peer frame)
  | decrypt (peer : String) (wire : C.Wire) : Calling (Result C.Frame) (E.decryptMessage peer wire)

variable {E}

theorem Handling.calling {β : Type} {p : EngineM C β} (h : E.Handling β p) : E.Calling β p := by
  cases h with
  | plain o ho => exact .standalone o ho.standalone
  | encrypt peer frame => exact .encrypt peer frame

theorem Sending.handling {β : Type} {p : EngineM C β} (h : E.Sending β p) : E.Handling β p := by
  cases h with
  | plain o ho => exact .plain o ho.plain
  | encrypt peer frame => exact .encrypt peer frame

variable (o : Op C)

theorem sending_plain (ho : o.Sends) : Composed E.Sending o.program :=
  .of_block (.plain o ho)

variable (peer : String) (frame : C.Frame)

theorem sending_encryptMessage : Composed E.Sending (E.encryptMessage peer frame) :=
  .of_block (.encrypt peer frame)

variable {α : Type}

theorem handling_of_sending {p : EngineM C α} (h : Composed E.Sending p) : Composed E.Handling p :=
  h.mono fun _ _ => Sending.handling

theorem handling_plain (ho : o.Plain) : Composed E.Handling o.program :=
  .of_block (.plain o ho)

theorem handling_encryptMessage : Composed E.Handling (E.encryptMessage peer frame) :=
  .of_block (.encrypt peer frame)

theorem calling_standalone (ho : o.Standalone) : Composed E.Calling o.program :=
  .of_block (.standalone o ho)

theorem calling_of_handling {p : EngineM C α} (h : Composed E.Handling p) : Composed E.Calling p :=
  h.mono fun _ _ => Handling.calling

variable {P : Op C → Prop}

theorem each_op (ho : P o) : Composed (Each (S := engineSig C) P) o.program :=
  .of_block (Each.op (S := engineSig C) o ho)

/-- `encrypt_message` is two accesses to the session table. -/
theorem each_encryptMessage (hload : P (.store (.loadSession peer (.encrypt frame))))
    (hstore : ∀ session, P (.store (.storeSession peer (.encrypt frame) session))) :
    Composed (Each (S := engineSig C) P) (E.encryptMessage peer frame) := by
  refine (each_op _ hload).bind fun loaded => ?_
  cases loaded with
  | error e => exact .ret _
  | ok session =>
    dsimp only
    split
    · exact .ret _
    · refine (each_op _ (hstore _)).bind fun stored => ?_
      cases stored <;> exact .ret _

/-- So is `decrypt_message`. -/
theorem each_decryptMessage (wire : C.Wire) (hload : P (.store (.loadSession peer (.decrypt wire))))
    (hstore : ∀ session, P (.store (.storeSession peer (.decrypt wire) session))) :
    Composed (Each (S := engineSig C) P) (E.decryptMessage peer wire) := by
  refine (each_op _ hload).bind fun loaded => ?_
  cases loaded with
  | error e => exact .ret _
  | ok session =>
    dsimp only
    split
    · exact .ret _
    · refine (each_op _ (hstore _)).bind fun stored => ?_
      cases stored <;> exact .ret _

/-! ## Steps that several kinds share -/

section Shared

variable {B : (β : Type) → EngineM C β → Prop} {convo : Conversation C}

theorem composed_announce {inbox : C.Id} {frame : C.Frame}
    (hseal : Composed B (E.encryptMessage convo.peerAddress frame))
    (hdeposit : ∀ wire, Composed B (relay (.deposit convo.relayUrl inbox wire))) :
    Composed B (E.announce convo inbox frame) := by
  refine hseal.bind fun wire => ?_
  cases wire with
  | error e => exact .ret _
  | ok wire => exact (hdeposit wire).bind fun _ => .ret _

theorem composed_retire (hdelete : ∀ inbox, Composed B (relay (.deleteMailbox inbox)))
    (inbox : Option C.Id) : Composed B (Engine.retire inbox) := by
  cases inbox with
  | none => exact .ret _
  | some inbox => exact (hdelete inbox).bind fun _ => .ret _

theorem composed_putCreate {relayUrl : C.Relay} {id : C.Id}
    (hput : Composed B (relay (.putMailbox relayUrl id))) : Composed B (Engine.putCreate relayUrl id) := by
  refine hput.bind fun outcome => ?_
  split <;> exact .ret _

theorem composed_probe {hello : C.Frame} (hput : ∀ id, Composed B (relay (.putMailbox convo.relayUrl id)))
    (hannounce : ∀ inbox, Composed B (E.announce convo inbox hello)) (root : C.Root) (peer : Role)
    (window : List ℕ) : Composed B (E.probe convo root peer hello window) := by
  induction window with
  | nil => exact .ret _
  | cons k window ih =>
    refine (composed_putCreate (hput _)).bind fun created => ?_
    cases created with
    | false => exact ih
    | true => exact (hannounce _).bind fun _ => ih

end Shared

/-! ## Sending -/

variable (convo : Conversation C)

theorem sending_depositPending (mailbox : C.Id) (pending : List (ℕ × C.Frame)) :
    Composed E.Sending (E.depositPending convo mailbox pending) := by
  induction pending with
  | nil => exact .ret _
  | cons row rest ih =>
    obtain ⟨msgId, frame⟩ := row
    refine (sending_encryptMessage convo.peerAddress frame).bind fun wire => ?_
    cases wire with
    | error e => exact .ret _
    | ok wire =>
      refine (sending_plain _ (by trivial)).bind fun outcome => ?_
      rcases outcome with e | (_ | _ | status)
      · exact .ret _
      · refine (sending_plain _ (by trivial)).bind fun marked => ?_
        cases marked with
        | error e => exact .ret _
        | ok _ => exact ih
      · exact .ret _
      · dsimp only
        split
        · exact (sending_plain _ (by trivial)).bind fun _ =>
            (sending_plain _ (by trivial)).bind fun _ => ih
        · exact .ret _

theorem sending_flushPending : Composed E.Sending E.flushPending := by
  refine (sending_plain _ (by trivial)).bind fun _ => Composed.bind ?_ fun _ =>
    (sending_plain _ (by trivial)).bind fun _ => .ret _
  refine (sending_plain _ (by trivial)).bind fun convo? => ?_
  rcases convo? with e | (_ | convo)
  · exact (sending_plain _ (by trivial)).bind fun _ => .ret _
  · exact .ret _
  · dsimp only
    split
    · exact .ret _
    · refine (sending_plain _ (by trivial)).bind fun pending => ?_
      cases pending with
      | error e => exact (sending_plain _ (by trivial)).bind fun _ => .ret _
      | ok pending => exact sending_depositPending _ _ _

variable (inbox : C.Id)

theorem sending_announce (frame : C.Frame) : Composed E.Sending (E.announce convo inbox frame) :=
  composed_announce (sending_encryptMessage _ _) fun _ => sending_plain _ trivial

theorem sending_retire (inbox : Option C.Id) : Composed E.Sending (Engine.retire inbox) :=
  composed_retire (fun _ => sending_plain _ trivial) inbox

/-! ## Handlers -/

theorem serving_aside (ho : o.Aside) : Composed E.Serving o.program :=
  .of_block (.aside o ho)

theorem serving_encryptMessage : Composed E.Serving (E.encryptMessage peer frame) :=
  .of_block (.encrypt peer frame)

theorem serving_flushPending : Composed E.Serving E.flushPending :=
  .of_block .flush

theorem serving_announce (frame : C.Frame) : Composed E.Serving (E.announce convo inbox frame) :=
  composed_announce (serving_encryptMessage _ _) fun _ => serving_aside _ trivial

variable (relayUrl : C.Relay)

theorem serving_putCreate (id : C.Id) : Composed E.Serving (Engine.putCreate relayUrl id) :=
  composed_putCreate (serving_aside _ trivial)

theorem serving_probe (root : C.Root) (peer : Role) (hello : C.Frame) (window : List ℕ) :
    Composed E.Serving (E.probe convo root peer hello window) :=
  composed_probe (fun _ => serving_aside _ trivial) (fun _ => serving_announce _ _ _) root peer window

theorem serving_enterRecoveryGen (ownRole : UInt8) (root : C.Root)
    (g peerGen : ℕ) : Composed E.Serving (E.enterRecoveryGen convo ownRole root g peerGen) := by
  refine (serving_putCreate _ _).bind fun created => ?_
  cases created with
  | false => exact .ret _
  | true =>
    refine (serving_aside _ (by trivial)).bind fun set => ?_
    cases set with
    | error e => exact .ret _
    | ok _ =>
      exact (serving_aside _ (by trivial)).bind fun _ => (serving_probe _ _ _ _ _).bind fun _ =>
        (serving_aside _ (by trivial)).bind fun _ =>
        (serving_aside _ (by trivial)).bind fun _ => .ret _

/-! ## Handlers that are not about recovery -/

/-- The blocks of a handler that leaves the recovery state alone. -/
abbrev Rerouting (E : Engine C) (β : Type) (p : EngineM C β) : Prop := E.Serving β p ∧ E.Routing β p

theorem routing_plain (ho : o.Routes) : Composed E.Routing o.program :=
  .of_block (.plain o ho)

theorem routing_flushPending : Composed E.Routing E.flushPending := .of_block .flush

theorem rerouting_op (ho : o.Aside ∧ o.Routes) : Composed E.Rerouting o.program :=
  .of_block ⟨.aside o ho.1, .plain o ho.2⟩

theorem rerouting_encryptMessage (hframe : frame.hello? = none) :
    Composed E.Rerouting (E.encryptMessage peer frame) :=
  .of_block ⟨.encrypt peer frame, .encrypt peer frame hframe⟩

theorem rerouting_flushPending : Composed E.Rerouting E.flushPending := .of_block ⟨.flush, .flush⟩

theorem rerouting_announce {frame : C.Frame} (hframe : frame.hello? = none) :
    Composed E.Rerouting (E.announce convo inbox frame) :=
  composed_announce (rerouting_encryptMessage _ _ hframe) fun _ => rerouting_op _ ⟨trivial, trivial⟩

theorem rerouting_retire (inbox : Option C.Id) : Composed E.Rerouting (Engine.retire inbox) :=
  composed_retire (fun _ => rerouting_op _ ⟨trivial, trivial⟩) inbox

theorem rerouting_initiateRotation (ownRole : UInt8) (root : C.Root)
    (generation : ℕ) : Composed E.Rerouting (E.initiateRotation convo ownRole root generation) := by
  refine (rerouting_op _ (by trivial)).bind fun created => ?_
  cases created with
  | error e => exact .ret _
  | ok fA =>
    exact (rerouting_announce _ _ rfl).bind fun _ =>
      (rerouting_op _ (by trivial)).bind fun _ => .ret _

theorem rerouting_recoverV1 : Composed E.Rerouting (E.recoverV1 convo) := by
  refine (rerouting_op _ (by trivial)).bind fun created => ?_
  cases created with
  | error e => exact .ret _
  | ok newInbox =>
    refine (rerouting_op _ (by trivial)).bind fun set => ?_
    cases set with
    | error e => exact .ret _
    | ok _ =>
      dsimp only
      split
      · exact .ret _
      · refine (rerouting_encryptMessage _ _ rfl).bind fun wire => ?_
        cases wire with
        | error e => exact .ret _
        | ok wire =>
          refine (rerouting_op _ (by trivial)).bind fun outcome => ?_
          split <;> exact .ret _

theorem rerouting_finishRotation (awaiting : OffererAwaitingFb C) (relayUrl : C.Relay)
    (inbox : C.Id) : Composed E.Rerouting (E.finishRotation awaiting relayUrl inbox) :=
  (rerouting_op _ (by trivial)).bind fun _ => (rerouting_op _ (by trivial)).bind fun _ =>
    (rerouting_op _ (by trivial)).bind fun _ => rerouting_flushPending.bind fun _ => .ret _

theorem rerouting_answerRotation : Composed E.Rerouting (E.answerRotation relayUrl inbox) := by
  refine (rerouting_op _ (by trivial)).bind fun rec? => ?_
  split
  · refine (rerouting_op _ (by trivial)).bind fun convo? => ?_
    split
    · refine (rerouting_op _ (by trivial)).bind fun _ =>
        (rerouting_op _ (by trivial)).bind fun created => ?_
      cases created with
      | error e => exact .ret _
      | ok fB =>
        refine (rerouting_op _ (by trivial)).bind fun set => ?_
        cases set with
        | error e => exact .ret _
        | ok _ =>
          exact (rerouting_announce _ _ rfl).bind fun _ => (rerouting_retire _).bind fun _ =>
            rerouting_flushPending.bind fun _ => .ret _
    · exact .ret _
  · exact .ret _

theorem rerouting_handleRotation : Composed E.Rerouting (E.handleRotation relayUrl inbox) := by
  refine (rerouting_op _ (by trivial)).bind fun awaiting => ?_
  cases awaiting with
  | some awaiting => exact rerouting_finishRotation _ _ _
  | none => exact rerouting_answerRotation _ _

variable {convo} {inbox} {relayUrl}

theorem serving_of_rerouting {p : EngineM C α} (h : Composed E.Rerouting p) : Composed E.Serving p :=
  h.mono fun _ _ => And.left

theorem routing_of_rerouting {p : EngineM C α} (h : Composed E.Rerouting p) : Composed E.Routing p :=
  h.mono fun _ _ => And.right

theorem serving_recover : Composed E.Serving E.recover := by
  refine (serving_aside _ (by trivial)).bind fun convo? => ?_
  split
  · refine (serving_aside _ (by trivial)).bind fun rec? => ?_
    split
    · refine (serving_aside _ (by trivial)).bind fun exhausted => ?_
      dsimp only
      split
      · exact .ret _
      · refine (serving_enterRecoveryGen _ _ _ _ _).bind fun entered => ?_
        cases entered with
        | false => exact .ret _
        | true => exact (serving_aside _ (by trivial)).bind fun _ => .ret _
    · exact serving_of_rerouting (rerouting_recoverV1 _)
  · exact .ret _

/-- A hello is checked for replay first; what follows is a handler, and a replay ends there. -/
theorem handleRecoveryHello_eq (reportedGen : ℕ) (nonce : C.Nonce) :
    ∃ k, E.handleRecoveryHello reportedGen nonce = ram (.markHelloSeen reportedGen nonce) >>= k ∧
      k false = .ret false ∧ ∀ fresh, Composed E.Serving (k fresh) := by
  refine ⟨_, rfl, rfl, fun fresh => ?_⟩
  cases fresh with
  | false => exact .ret _
  | true =>
    refine (serving_aside _ (by trivial)).bind fun rec? => ?_
    split
    · refine (serving_aside _ (by trivial)).bind fun _ =>
        (serving_aside _ (by trivial)).bind fun _ =>
        (serving_aside _ (by trivial)).bind fun convo? => ?_
      split
      · split
        · exact serving_enterRecoveryGen _ _ _ _ _
        · split
          · exact serving_of_rerouting (rerouting_initiateRotation _ _ _ _)
          · exact serving_flushPending.bind fun _ => .ret _
      · exact .ret _
    · exact .ret _

/-! ## Handlers taken apart -/

theorem handling_flushPending : Composed E.Handling E.flushPending :=
  handling_of_sending sending_flushPending

theorem handling_of_serving {p : EngineM C α} (h : Composed E.Serving p) :
    Composed E.Handling p := by
  refine h.expand fun _ q hq => ?_
  cases hq with
  | aside o ho => exact handling_plain o ho.plain
  | encrypt peer frame => exact handling_encryptMessage peer frame
  | flush => exact handling_flushPending

theorem handling_recover : Composed E.Handling E.recover := handling_of_serving serving_recover

/-- **The dispatch of control frames**: a frame that is no chat is handled without the socket and
without new message rows. -/
theorem dispatching_dispatch {frame : C.Frame}
    (h : ∀ typeVersion text, frame ≠ .chat typeVersion text) :
    Composed E.Dispatching (E.dispatch frame) := by
  have hlift : ∀ {p : EngineM C Bool}, Composed E.Serving p → Composed E.Dispatching p :=
    fun hp => (handling_of_serving hp).mono fun _ _ => .handling
  cases frame with
  | chat typeVersion text => exact absurd rfl (h typeVersion text)
  | mailboxUpdateV1 relayUrl inbox =>
    exact hlift ((serving_aside _ (by trivial)).bind fun _ => serving_flushPending.bind fun _ => .ret _)
  | mailboxUpdateV2 relayUrl inbox contribution => exact .ret _
  | mailboxUpdateV3 relayUrl inbox => exact hlift (serving_of_rerouting (rerouting_handleRotation _ _))
  | recoveryHello generation nonce =>
    obtain ⟨k, hk, -, hrest⟩ := handleRecoveryHello_eq (E := E) generation nonce
    rw [Engine.dispatch, hk]
    exact .block _ _ (.markHelloSeen generation nonce) fun fresh => hlift (hrest fresh)
  | discarded => exact .ret _

/-! ## Callers -/

theorem running_of_serving {p : EngineM C α} (h : Composed E.Serving p) : Composed E.Running p :=
  h.mono fun _ _ => .serving

theorem running_aside (ho : o.Aside) : Composed E.Running o.program :=
  running_of_serving (serving_aside o ho)

theorem running_flushPending : Composed E.Running E.flushPending :=
  running_of_serving serving_flushPending

theorem running_sendChat (text : C.Text) : Composed E.Running (E.sendChat text) := by
  refine .block _ _ (.saveOutgoing (chatV1 text)) fun row => ?_
  cases row with
  | error e => exact .ret _
  | ok row => exact running_flushPending.bind fun _ => .ret _

theorem running_dispatch : Composed E.Running (E.dispatch frame) := by
  cases frame with
  | chat typeVersion text =>
    refine .block _ _ (.saveIncoming (.chat typeVersion text)) fun row => ?_
    cases row with
    | error e => exact .ret _
    | ok row => exact (running_aside _ (by trivial)).bind fun _ => .ret _
  | mailboxUpdateV1 relayUrl inbox =>
    exact (running_aside _ (by trivial)).bind fun _ => running_flushPending.bind fun _ => .ret _
  | mailboxUpdateV2 relayUrl inbox contribution => exact .ret _
  | mailboxUpdateV3 relayUrl inbox =>
    exact running_of_serving (serving_of_rerouting (rerouting_handleRotation _ _))
  | recoveryHello generation nonce =>
    obtain ⟨k, hk, -, hrest⟩ := handleRecoveryHello_eq (E := E) generation nonce
    rw [Engine.dispatch, hk]
    exact .block _ _ (.markHelloSeen generation nonce) fun fresh => running_of_serving (hrest fresh)
  | discarded => exact .ret _

theorem running_handleIncoming (peerAddr : String) (envelope : C.Wire) :
    Composed E.Running (E.handleIncoming peerAddr envelope) := by
  refine .block _ _ (.decrypt peerAddr envelope) fun frame => ?_
  cases frame with
  | error e => exact .ret _
  | ok frame => exact running_dispatch frame

theorem running_deliveryLoop (peerAddr : String) (fuel : ℕ) :
    Composed E.Running (E.deliveryLoop peerAddr fuel) := by
  induction fuel with
  | zero => exact .ret _
  | succ fuel ih =>
    refine .block _ _ (.socket .next) fun event => ?_
    cases event with
    | closed => exact .ret _
    | idle => exact running_flushPending.bind fun _ => ih
    | delivery msgId envelope =>
      refine (running_handleIncoming _ _).bind fun changed =>
        .block _ _ (.socket (.ack msgId)) fun _ => ?_
      cases changed with
      | true => exact .ret _
      | false => exact ih

/-- **The listener**, for any number of turns. -/
theorem running_conversationListener (fuel : ℕ) :
    Composed E.Running (E.conversationListener fuel) := by
  induction fuel with
  | zero => exact .ret _
  | succ fuel ih =>
    have hpause : Composed E.Running (do
        notify (.state .offline)
        notify (.state .backoff)
        E.conversationListener fuel) :=
      (running_aside _ (by trivial)).bind fun _ => (running_aside _ (by trivial)).bind fun _ => ih
    refine (running_aside _ (by trivial)).bind fun convo? => ?_
    split
    · split
      · exact .ret _
      · refine (running_aside _ (by trivial)).bind fun _ =>
          .block _ _ (.socket (.subscribe _)) fun connected => ?_
        cases connected with
        | ok =>
          refine (running_aside _ (by trivial)).bind fun _ => running_flushPending.bind fun _ =>
            (running_deliveryLoop _ _).bind fun exit => ?_
          cases exit with
          | outOfFuel => exact .ret _
          | changed => exact ih
          | closed => exact hpause
        | notFound =>
          refine (running_of_serving serving_recover).bind fun outcome => ?_
          cases outcome with
          | oneSided => exact (running_aside _ (by trivial)).bind fun _ => ih
          | total =>
            exact (running_aside _ (by trivial)).bind fun _ => running_aside _ trivial
          | needsRepair =>
            exact (running_aside _ (by trivial)).bind fun _ => running_aside _ trivial
          | failed => exact ih
        | unreachable => exact hpause
    · exact .ret _

/-! ## Callers taken apart -/

theorem calling_of_running {p : EngineM C α} (h : Composed E.Running p) : Composed E.Calling p := by
  refine h.expand fun _ q hq => ?_
  cases hq with
  | serving h => exact calling_of_handling (handling_of_serving (.of_block h))
  | markHelloSeen generation nonce => exact calling_standalone (.ram (.markHelloSeen _ _)) trivial
  | saveOutgoing frame => exact calling_standalone (.store (.insertMessage _ _ _)) trivial
  | saveIncoming frame => exact calling_standalone (.store (.insertMessage _ _ _)) trivial
  | socket o => exact calling_standalone (.socket o) trivial
  | decrypt peer wire => exact .of_block (.decrypt peer wire)

theorem calling_sendChat (text : C.Text) : Composed E.Calling (E.sendChat text) :=
  calling_of_running (running_sendChat text)

theorem calling_conversationListener (fuel : ℕ) :
    Composed E.Calling (E.conversationListener fuel) :=
  calling_of_running (running_conversationListener fuel)

/-! ## The frames a flush seals -/

section Flushing

variable (E) {q : C.Frame → Prop}

/-- A flush of rows that have `q` seals no other frames, and deposits no other envelopes. -/
def flushing (q : C.Frame → Prop) : Contract (engineSig C) where
  performs
    | .store (.loadSession _ call) | .store (.storeSession _ call _) => ∃ frame, call = .encrypt frame ∧ q frame
    | .relay (.deposit _ _ wire) => ∃ frame session session',
        E.messageEncrypt session frame = .ok (session', wire) ∧ q frame
    | .store .getConversation | .store .pendingChat | .store (.markMessageSent _) => True
    | .ram .lockFlush | .ram .unlockFlush | .notify _ => True
    | _ => False
  answers
    | .store .pendingChat, r => ∀ rows, r = .ok rows → ∀ row ∈ rows, q row.2
    | _, _ => True

variable {E}

open Contract in
theorem kept_depositPending (convo : Conversation C) (mailbox : C.Id) {pending : List (ℕ × C.Frame)}
    (h : ∀ row ∈ pending, q row.2) : (E.flushing q).Keeps (E.depositPending convo mailbox pending) := by
  induction pending with
  | nil => trivial
  | cons row rest ih =>
    obtain ⟨msgId, frame⟩ := row
    have hframe : q frame := h _ List.mem_cons_self
    have hrest := ih fun row hrow => h row (List.mem_cons_of_mem _ hrow)
    rw [depositPending, encryptMessage, Program.bind_assoc]
    refine kept_step ⟨frame, rfl, hframe⟩ fun loaded _ => ?_
    cases loaded with
    | error e => trivial
    | ok session =>
      dsimp only
      split
      · trivial
      · next session' wire hseal =>
        rw [Program.bind_assoc]
        refine kept_step ⟨frame, rfl, hframe⟩ fun stored _ => ?_
        cases stored with
        | error e => trivial
        | ok _ =>
          refine kept_step ⟨frame, session, session', hseal, hframe⟩ fun outcome _ => ?_
          rcases outcome with e | (_ | _ | status)
          · trivial
          · refine kept_step trivial fun marked _ => ?_
            cases marked with
            | error e => trivial
            | ok _ => exact hrest
          · trivial
          · dsimp only
            split
            · exact ⟨trivial, fun _ _ => ⟨trivial, fun _ _ => hrest⟩⟩
            · trivial

open Contract in
theorem kept_flushPending (q : C.Frame → Prop) : (E.flushing q).Keeps E.flushPending := by
  refine kept_step trivial fun _ _ => Kept.bind (m := fun _ => True) ?_ fun _ _ => ⟨trivial, fun _ _ => trivial⟩
  refine kept_step trivial fun convo? _ => ?_
  rcases convo? with e | (_ | convo)
  · exact ⟨trivial, fun _ _ => trivial⟩
  · trivial
  · dsimp only
    split
    · trivial
    · refine kept_step trivial fun pending hpending => ?_
      cases pending with
      | error e => exact ⟨trivial, fun _ _ => trivial⟩
      | ok pending => exact kept_depositPending _ _ (hpending pending rfl)

end Flushing

/-! ## One assertion kept by a listener -/

section Keeping

variable {σ : Type} {S : Setting (engineSig C) σ} {a : σ → Prop} {peer : String}

/-- **Listener rule.** What handlers, subscriptions and delivery loops keep, the listener keeps, when the
row it reads names the peer its deliveries are opened with. -/
theorem triple_listener (hstable : Stable S a)
    (hcheck : ∀ s, a s → S.check (.store .getConversation) s)
    (hread : ∀ s row s', a s → S.exec (.store .getConversation) s row s' → S.guar s s' ∧
      a s' ∧ ∀ convo, row = .ok (some convo) → convo.peerAddress = peer)
    (hhandling : ∀ {α : Type} {p : EngineM C α}, Composed E.Handling p → Triple S a p fun _ => a)
    (hsubscribe : ∀ recv, Triple S a (socket (.subscribe recv)) fun _ => a)
    (hloop : ∀ fuel, Triple S a (E.deliveryLoop peer fuel) fun _ => a) (fuel : ℕ) :
    Triple S a (E.conversationListener fuel) fun _ => a := by
  have hret : Triple S a (.ret ()) fun _ => a := triple_ret hstable fun _ h => h
  have hnotify : ∀ {p : EngineM C Unit} (n : Notice C), Triple S a p (fun _ => a) →
      Triple S a (notify n >>= fun _ => p) fun _ => a :=
    fun n hp => triple_bind (hhandling (handling_plain (.notify n) trivial)) fun _ => hp
  induction fuel with
  | zero => exact hret
  | succ fuel ih =>
    have hpause := hnotify (.state .offline) (hnotify (.state .backoff) ih)
    rw [Engine.conversationListener]
    refine triple_perform hstable hcheck hread fun row => ?_
    split
    · rename_i convo
      refine fun w hw => (?_ : Triple S a _ fun _ => a) w hw.1
      rw [hw.2 convo rfl]
      split
      · exact hret
      · refine hnotify _ (triple_bind (hsubscribe _) fun connected => ?_)
        cases connected with
        | ok =>
          refine hnotify _ (triple_bind (hhandling handling_flushPending) fun _ => ?_)
          refine triple_bind (hloop fuel) fun exit => ?_
          cases exit with
          | outOfFuel => exact hret
          | changed => exact ih
          | closed => exact hpause
        | notFound =>
          refine triple_bind (hhandling handling_recover) fun outcome => ?_
          have hreport := hnotify (.state .rePairRequired) (hnotify .needsRepair hret)
          cases outcome with
          | oneSided => exact hnotify _ ih
          | total => exact hreport
          | needsRepair => exact hreport
          | failed => exact ih
        | unreachable => exact hpause
    · exact hret.of_pre fun _ h => h.1

end Keeping

end Engine

end Titlan
