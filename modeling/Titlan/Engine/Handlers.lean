import Titlan.Engine.Sending

/-! # Receiving, recovery and rotation

The handlers behind a conversation inbox: dispatch of a decrypted frame, recovery after the inbox is
gone (`recover`, with its v1 and v2 branches), convergence on a `recovery-hello`, and the two legs of
the rotation to fresh inboxes. Errors the source discards with `let _ =` are discarded here too. -/

namespace Titlan

open Foundation

/-- `relay_client::Recovery`. -/
inductive RecoveryOutcome
  | oneSided
  | total
  | needsRepair
  | failed
deriving DecidableEq, Repr

namespace Engine

variable {C : Carrier} (E : Engine C)

/-- `put_create`: whether the mailbox exists after the request. -/
def putCreate (relayUrl : C.Relay) (id : C.Id) : EngineM C Bool := do
  match ← relay (.putMailbox relayUrl id) with
  | .ok .created => return true
  | _ => return false

/-- Seal a control frame and deposit it, whatever comes of either:
`if let Ok(wire) = encrypt_message(…) { let _ = deposit(…) }`. -/
def announce (convo : Conversation C) (inbox : C.Id) (frame : C.Frame) : EngineM C Unit := do
  match ← E.encryptMessage convo.peerAddress frame with
  | .error _ => return ()
  | .ok wire =>
    let _ ← relay (.deposit convo.relayUrl inbox wire)

/-- The probe loop of `enter_recovery_gen`: create the peer's derived inbox at each generation of the
window and leave a hello in it. -/
def probe (convo : Conversation C) (root : C.Root) (peer : Role) (hello : C.Frame) :
    List ℕ → EngineM C Unit
  | [] => return ()
  | k :: window => do
    let peerInbox := E.deriveMailboxId root peer k
    if ← putCreate convo.relayUrl peerInbox then
      E.announce convo peerInbox hello
    probe convo root peer hello window

/-- `enter_recovery_gen`. -/
def enterRecoveryGen (convo : Conversation C) (ownRole : UInt8) (root : C.Root) (g peerGen : ℕ) :
    EngineM C Bool := do
  let own := roleFromU8 ownRole
  let peer := roleFromU8 (peerRoleU8 ownRole)
  let ownRecv := E.deriveMailboxId root own g
  if ← putCreate E.myRelay ownRecv then
    match ← store (.setConversationRecv ownRecv) with
    | .error _ => return false
    | .ok () =>
      let nonce ← ram .drawNonce
      E.probe convo root peer (.recoveryHello g nonce) (GenerationState.outboundWindow ⟨g, peerGen⟩)
      let _ ← store (.setConversationSend convo.relayUrl (E.deriveMailboxId root peer g))
      let _ ← store (.setRecoveryGenerations g peerGen)
      return true
  else
    return false

/-- `recover_v1`. -/
def recoverV1 (convo : Conversation C) : EngineM C RecoveryOutcome := do
  match ← relay .createMailbox with
  | .error _ => return .failed
  | .ok newInbox =>
    match ← store (.setConversationRecv newInbox) with
    | .error _ => return .failed
    | .ok () =>
      match convo.mailboxSend with
      | none => return .total
      | some send =>
        match ← E.encryptMessage convo.peerAddress (.mailboxUpdateV1 E.myRelay newInbox) with
        | .error _ => return .failed
        | .ok wire =>
          match ← relay (.deposit convo.relayUrl send wire) with
          | .ok .accepted => return .oneSided
          | .ok .notFound => return .total
          | _ => return .failed

/-- `recover_v2`. -/
def recoverV2 (convo : Conversation C) (ownRole : UInt8) (root : C.Root) (ownGen peerGen : ℕ) :
    EngineM C RecoveryOutcome := do
  let exhaustedCycles ← ram .cyclesExhausted
  if exhaustedCycles || GenerationState.isExhausted ⟨ownGen, peerGen⟩ then
    return .needsRepair
  else
    let g := saturatingAdd32 ownGen 1
    if ← E.enterRecoveryGen convo ownRole root g peerGen then
      ram .noteProbeCycle
      return .oneSided
    else
      return .failed

/-- `recover`: derived mailboxes where the conversation has a recovery root, else the v1 update. -/
def recover : EngineM C RecoveryOutcome := do
  match ← store .getConversation with
  | .ok (some convo) =>
    match ← store .recoveryState with
    | .ok (some ⟨some role, some root, ownGen, peerGen⟩) =>
      E.recoverV2 convo role root ownGen peerGen
    | _ => E.recoverV1 convo
  | _ => return .failed

/-- `initiate_rotation`: mint `F_A`, announce it in the responder's derived inbox, remember that `F_B`
is awaited, and stay subscribed. -/
def initiateRotation (convo : Conversation C) (ownRole : UInt8) (root : C.Root) (generation : ℕ) :
    EngineM C Bool := do
  let derivedRecv := E.deriveMailboxId root (roleFromU8 ownRole) generation
  let peerDerived := E.deriveMailboxId root (roleFromU8 (peerRoleU8 ownRole)) generation
  match ← relay .createMailbox with
  | .error _ => return false
  | .ok fA =>
    E.announce convo peerDerived (.mailboxUpdateV3 E.myRelay fA)
    ram (.insertRotation ⟨fA, derivedRecv⟩)
    return false

/-- `handle_recovery_hello`, behind its payload parser. -/
def handleRecoveryHello (reportedGen : ℕ) (nonce : C.Nonce) : EngineM C Bool := do
  if ← ram (.markHelloSeen reportedGen nonce) then
    match ← store .recoveryState with
    | .ok (some ⟨some role, some root, ownGen, peerGen⟩) =>
      ram .resetExhaustion
      let (bumped, gs) := GenerationState.converge ⟨ownGen, peerGen⟩ reportedGen
      let _ ← store (.setRecoveryGenerations gs.own gs.peer)
      match ← store .getConversation with
      | .ok (some convo) =>
        if bumped then
          E.enterRecoveryGen convo role root gs.own gs.peer
        else if reportedGen = gs.own ∧ role = roleOfferer then
          E.initiateRotation convo role root gs.own
        else
          let _ ← E.flushPending
          return false
      | _ => return false
    | _ => return false
  else
    return false

/-- The offerer's half of `handle_rotation`: the awaited `F_B` has come. -/
def finishRotation (awaiting : OffererAwaitingFb C) (relayUrl : C.Relay) (inbox : C.Id) :
    EngineM C Bool := do
  let _ ← store (.setConversationSend relayUrl inbox)
  let _ ← store (.setConversationRecv awaiting.fA)
  let _ ← relay (.deleteMailbox awaiting.derivedRecv)
  let _ ← E.flushPending
  return true

/-- Delete the inbox the conversation was on, if it had one. -/
def retire : Option C.Id → EngineM C Unit
  | none => return ()
  | some inbox => do
    let _ ← relay (.deleteMailbox inbox)

/-- The responder's half of `handle_rotation`: adopt `F_A`, mint `F_B`, answer into the offerer's
derived inbox, retire the own derived inbox. It runs whenever no `F_B` is awaited, whatever the
stored role. -/
def answerRotation (relayUrl : C.Relay) (inbox : C.Id) : EngineM C Bool := do
  match ← store .recoveryState with
  | .ok (some ⟨some role, some root, ownGen, _⟩) =>
    match ← store .getConversation with
    | .ok (some convo) =>
      let offererDerived := E.deriveMailboxId root (roleFromU8 (peerRoleU8 role)) ownGen
      let _ ← store (.setConversationSend relayUrl inbox)
      match ← relay .createMailbox with
      | .error _ => return false
      | .ok fB =>
        match ← store (.setConversationRecv fB) with
        | .error _ => return false
        | .ok () =>
          E.announce convo offererDerived (.mailboxUpdateV3 E.myRelay fB)
          retire convo.mailboxRecv
          let _ ← E.flushPending
          return true
    | _ => return false
  | _ => return false

/-- `handle_rotation`, behind its payload parser. -/
def handleRotation (relayUrl : C.Relay) (inbox : C.Id) : EngineM C Bool := do
  match ← ram .takeRotation with
  | some awaiting => E.finishRotation awaiting relayUrl inbox
  | none => E.answerRotation relayUrl inbox

/-- The dispatch of `handle_incoming` on a decrypted frame. Returns `true` when this side's
`mailbox_recv` changed and the listener must re-subscribe. -/
def dispatch : C.Frame → EngineM C Bool
  | .chat typeVersion text => do
    match ← store (.insertMessage .incoming (.chat typeVersion text) .received) with
    | .ok row => notify (.message row)
    | .error _ => pure ()
    return false
  | .mailboxUpdateV3 relayUrl inbox => E.handleRotation relayUrl inbox
  | .mailboxUpdateV1 relayUrl inbox => do
    let _ ← store (.setConversationSend relayUrl inbox)
    let _ ← E.flushPending
    return false
  | .recoveryHello generation nonce => E.handleRecoveryHello generation nonce
  | .mailboxUpdateV2 _ _ _ => return false
  | .discarded => return false

/-- `handle_incoming`. -/
def handleIncoming (peerAddr : String) (envelope : C.Wire) : EngineM C Bool := do
  match ← E.decryptMessage peerAddr envelope with
  | .error _ => return false
  | .ok frame => E.dispatch frame

end Engine

end Titlan
