import Titlan.World.Agreement

/-! # Convergence and rotation

Two paired parties that have lost their inboxes and have come together on derived inboxes of one
generation go on to inboxes the relay generates when the offerer handles the responder's hello of that
generation. It does, as long as three things do not happen. One: the offerer is raised to the generation by
a hello of the responder's; the copy of that hello in its new inbox carries the same nonce, and the ring
drops it. Two: the offerer creates the inbox the responder is on, and has lost without noticing, at the
responder's generation; the responder's own hello is lost. Three: the responder enters a generation outside
its own outbound window, and leaves no hello there. -/

namespace Titlan.World

open Foundation

section

variable [Sealing]

/-! ## Statement -/

/-- The step hands a hello to the ring. -/
def receivesHello (w : Sys) : Label → Bool
  | .act i _ =>
    match (w.todo i).next? with
    | some (.ram (.markHelloSeen _ _)) => true
    | _ => false
  | _ => false

/-- Whether a hello has been received since the relay's last restart. -/
def heardSinceLoss (heard : Bool) (w : Sys) : List Label → Bool
  | [] => heard
  | l :: ls =>
    let heard' := match l with
      | .relayRestart _ => false
      | _ => heard || receivesHello w l
    match step w l with
    | none => heard'
    | some w' => heardSinceLoss heard' w' ls

/-- Two parties that have come to rest at one generation, with a hello received since the last loss, are on
inboxes the relay generated. -/
def RotationFollows (w : Sys) (ls : List Label) (w' : Sys) : Prop :=
  AtRest w' → (w'.shared.party .offerer).recovery.ownGen = (w'.shared.party .responder).recovery.ownGen →
    heardSinceLoss false w ls → ∀ p, ∃ n, w'.shared.recv p = some (.generated n)

/-- The operation the step performs, if any, is timely and aligned. -/
def AlignedStep (w : Sys) : Label → Prop
  | .act i _ => ∀ o ∈ (w.todo i).next?, Timely i.party w.shared o ∧ Aligned i.party w.shared o
  | _ => True

instance (p : Role) (s : St) : (o : Op carrier) → Decidable (Aligned p s o)
  | .ram (.markHelloSeen r _) =>
    inferInstanceAs (Decidable (p = .offerer → r ≤ (s.party p).recovery.ownGen))
  | .relay (.putMailbox _ (.derived .responder k)) => inferInstanceAs (Decidable
      (p = .offerer → s.recv .responder = some (.derived .responder k) →
        s.boxes (.derived .responder k) = none → k < s.generation p))
  | .store (.setConversationRecv (.derived _ g)) => inferInstanceAs (Decidable
      (p = .responder → g ∈ GenerationState.outboundWindow ⟨g, (s.party p).recovery.peerGen⟩))
  | .ram .takeRotation | .ram (.insertRotation _) | .ram .cyclesExhausted | .ram .noteProbeCycle
  | .ram .resetExhaustion | .ram .drawNonce | .ram .lockFlush | .ram .unlockFlush => .isTrue trivial
  | .relay (.putMailbox _ (.derived .offerer _)) | .relay (.putMailbox _ (.generated _))
  | .relay .createMailbox | .relay (.deposit _ _ _) | .relay (.deleteMailbox _) => .isTrue trivial
  | .store (.setConversationRecv (.generated _)) => .isTrue trivial
  | .store .getConversation | .store .recoveryState | .store (.setConversationSend _ _)
  | .store (.setRecoveryRoot _ _) | .store (.setRecoveryGenerations _ _) | .store .pendingChat
  | .store (.insertMessage _ _ _) | .store (.markMessageSent _) | .store (.loadSession _ _)
  | .store (.storeSession _ _ _) => .isTrue trivial
  | .socket _ | .notify _ => .isTrue trivial

instance (w : Sys) : (l : Label) → Decidable (AlignedStep w l)
  | .act i _ => inferInstanceAs (Decidable
      (∀ o ∈ (w.todo i).next?, Timely i.party w.shared o ∧ Aligned i.party w.shared o))
  | .sendChat _ _ | .relayRestart _ | .sweep _ _ | .clientRestart _ _ => .isTrue trivial

/-! ## Rotation -/

end

/-! ### A hello that is dropped as a replay -/

/-- Both parties subscribe; the relay restarts twice, and each time the responder recovers alone, to
generation 2; the offerer recovers to generation 1, handles the responder's hello there and is raised to
generation 2; it drops the copy of the hello in its new inbox; the responder handles the offerer's two
hellos. -/
def raisedByHello : List Label :=
  acts (.listener .offerer) 8 ++ acts (.listener .responder) 8 ++ restart :: reconnects .responder 39 ++
    restart :: reconnects .responder 39 ++ reconnects .offerer 39 ++ acts (.listener .offerer) 43 ++
    acts (.listener .responder) 26

end Titlan.World
