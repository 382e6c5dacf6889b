import Titlan.Engine.Handlers

/-! # The receive loops

`conversation_listener` subscribes to the conversation's inbox, handles and then acks every delivery,
and recovers when the inbox is gone. `await_inbox_handoff_v2` is the responder's loop during pairing:
it waits on its own new inbox for the peer's handoff.

Both loops run for ever in the source; here each turn costs one unit of `fuel`, and a listener whose
fuel is spent is at rest. Statements about them hold for every amount of fuel, so they cover every
finite run. Backoff delays are timing and left out. `stop_sync` is not modelled: cancellation drops a
listener at one of its waits. -/

namespace Titlan

open Foundation

/-- Why the delivery loop of a subscription was left. -/
inductive LoopExit
  /-- The handler moved `mailbox_recv`. -/
  | changed
  | closed
  | outOfFuel
deriving DecidableEq, Repr

namespace Engine

variable {C : Carrier} (E : Engine C)

/-- The delivery loop of one subscription: flush on a keepalive, handle and then ack a delivery. -/
def deliveryLoop (peerAddr : String) : ℕ → EngineM C LoopExit
  | 0 => return .outOfFuel
  | fuel + 1 => do
    match ← socket .next with
    | .closed => return .closed
    | .idle =>
      let _ ← E.flushPending
      deliveryLoop peerAddr fuel
    | .delivery msgId envelope =>
      let changed ← E.handleIncoming peerAddr envelope
      socket (.ack msgId)
      if changed then
        return .changed
      else
        deliveryLoop peerAddr fuel

/-- `conversation_listener`. -/
def conversationListener : ℕ → EngineM C Unit
  | 0 => return ()
  | fuel + 1 => do
    match ← store .getConversation with
    | .ok (some convo) =>
      match convo.mailboxRecv with
      | none => return ()
      | some recv =>
        notify (.state .connecting)
        match ← socket (.subscribe recv) with
        | .ok =>
          notify (.state .online)
          let _ ← E.flushPending
          match ← E.deliveryLoop convo.peerAddress fuel with
          | .outOfFuel => return ()
          | .changed => conversationListener fuel
          | .closed =>
            notify (.state .offline)
            notify (.state .backoff)
            conversationListener fuel
        | .notFound =>
          match ← E.recover with
          | .oneSided =>
            notify (.state .recovering)
            conversationListener fuel
          | .total | .needsRepair =>
            notify (.state .rePairRequired)
            notify .needsRepair
          | .failed => conversationListener fuel
        | .unreachable =>
          notify (.state .offline)
          notify (.state .backoff)
          conversationListener fuel
    | _ => return ()

/-- How the responder's wait for the handoff goes on after one subscription. -/
inductive HandoffExit
  | returned (result : Result Unit)
  | disconnected
  | outOfFuel

/-- The delivery loop of `await_inbox_handoff_v2`. A delivery that is not the handoff is acked and
forgotten. -/
def handoffLoop (peerAddr : String) (bContrib : C.Contribution) : ℕ → EngineM C HandoffExit
  | 0 => return .outOfFuel
  | fuel + 1 => do
    if ← socket .deadlinePassed then
      return .returned (.error (.network "pairing handoff timed out"))
    else
      match ← socket .nextBeforeDeadline with
      | none => return .returned (.error (.network "pairing handoff timed out"))
      | some .closed => return .disconnected
      | some .idle => handoffLoop peerAddr bContrib fuel
      | some (.delivery msgId envelope) =>
        match ← E.decryptMessage peerAddr envelope with
        | .ok (.mailboxUpdateV2 relayUrl inbox aContrib) =>
          match ← store (.setConversationSend relayUrl inbox) with
          | .error e => return .returned (.error e)
          | .ok () =>
            match ← store (.setRecoveryRoot aContrib (E.deriveRoot aContrib bContrib)) with
            | .error e => return .returned (.error e)
            | .ok () =>
              socket (.ack msgId)
              return .returned (.ok ())
        | _ =>
          socket (.ack msgId)
          handoffLoop peerAddr bContrib fuel

/-- `await_inbox_handoff_v2`; no result when the model's fuel is spent. -/
def awaitInboxHandoffV2 (peerAddr : String) (myInbox : C.Id) (bContrib : C.Contribution) :
    ℕ → EngineM C (Option (Result Unit))
  | 0 => return none
  | fuel + 1 => do
    match ← socket (.subscribe myInbox) with
    | .ok =>
      match ← E.handoffLoop peerAddr bContrib fuel with
      | .returned result => return some result
      | .disconnected => awaitInboxHandoffV2 peerAddr myInbox bContrib fuel
      | .outOfFuel => return none
    | .notFound => return some (.error .pairingUnavailable)
    | .unreachable =>
      if ← socket .deadlinePassed then
        return some (.error (.network "relay unreachable during pairing"))
      else
        awaitInboxHandoffV2 peerAddr myInbox bContrib fuel

end Engine

end Titlan
