import Titlan.Engine.Listener

/-! # A counting ratchet

A ratchet simple enough to run: it counts what it sends, lists what it received, and opens an envelope
once. With it come the answers of a store and a relay where everything succeeds. -/

namespace Titlan

/-- Plain representations: a session is its sending counter and the messages received. -/
abbrev countingCarrier : Carrier :=
  ⟨Unit, Unit, Unit, Unit, Unit, ℕ, ℕ × List ℕ, ℕ⟩

instance : countingCarrier.Comparable where

/-- The counting ratchet. -/
def countingEngine : Engine countingCarrier where
  myRelay := ()
  deriveMailboxId _ _ _ := ()
  deriveRoot _ _ := ()
  messageEncrypt session? _ :=
    match session? with
    | none => .error (.signal "session not found")
    | some (n, received) => .ok ((n + 1, received), n)
  messageDecrypt session? wire :=
    match session? with
    | none => .error (.signal "session not found")
    | some (n, received) =>
      if wire ∈ received then .error .replay
      else .ok ((n, wire :: received), .ok (.chat 1 wire))

/-- A store and a relay where everything succeeds: the pending rows as given, and message `100` in
the inbox. -/
def calmOracle (pending : List (ℕ × countingCarrier.Frame)) : (o : Op countingCarrier) → o.Answer
  | .store .getConversation => .ok (some ⟨"peer", (), some (), some ()⟩)
  | .store .recoveryState => .ok none
  | .store (.setConversationSend _ _) => .ok ()
  | .store (.setConversationRecv _) => .ok ()
  | .store (.setRecoveryRoot _ _) => .ok ()
  | .store (.setRecoveryGenerations _ _) => .ok ()
  | .store .pendingChat => .ok pending
  | .store (.insertMessage direction frame status) => .ok ⟨0, direction, frame, status⟩
  | .store (.markMessageSent _) => .ok ()
  | .store (.loadSession _ _) => .ok none
  | .store (.storeSession _ _ _) => .ok ()
  | .ram .takeRotation => none
  | .ram (.insertRotation _) => ()
  | .ram (.markHelloSeen _ _) => true
  | .ram .cyclesExhausted => false
  | .ram .noteProbeCycle => ()
  | .ram .resetExhaustion => ()
  | .ram .drawNonce => ()
  | .ram .lockFlush => ()
  | .ram .unlockFlush => ()
  | .relay .createMailbox => .ok ()
  | .relay (.putMailbox _ _) => .ok .created
  | .relay (.deposit _ _ _) => .ok .accepted
  | .relay (.deleteMailbox _) => .ok ()
  | .socket (.subscribe _) => .ok
  | .socket .next => .delivery 0 100
  | .socket .nextBeforeDeadline => none
  | .socket .deadlinePassed => false
  | .socket (.ack _) => ()
  | .notify _ => ()

end Titlan
