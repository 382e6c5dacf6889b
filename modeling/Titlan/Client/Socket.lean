import Titlan.Relay.Wire

/-! # The client's end of a subscription

A subscription reads delivery frames from its WebSocket, sends acks, and keeps the socket alive: after an
interval of silence it sends a ping, and a pong that is not there within a grace period is a transport
error. `next` is a loop that waits on the socket and returns at the first event; `turn` is one pass of it,
on what the wait yields. Everything that leaves or enters the socket, and every return, is noted. -/

namespace Titlan.Client

open Relay (MsgId)

/-! ## Frames -/

/-- What `next` yields (`ws::Event`). -/
inductive SocketEvent
  | delivery (messageId : MsgId) (envelope : Bytes)
  /-- A ping was answered: the socket is live and idle. -/
  | idle

/-- A delivery frame, taken apart: the `Message::Binary` branch of `next`. -/
def readDelivery (data : Bytes) : Result (MsgId × Bytes) :=
  if h : data.length < 17 ∨ data.head? ≠ some 0x01 then
    .error (.malformed "bad relay delivery frame")
  else
    .ok (⟨(data.drop 1).take 16, by simp; omega⟩, data.drop 17)

/-- The frame that `Subscription::ack` sends. -/
def ackFrame (messageId : MsgId) : Bytes := 0x02 :: messageId.val

/-- A frame is read as the id and the envelope it was made of. -/
theorem readDelivery_deliveryFrame (messageId : MsgId) (envelope : Bytes) :
    readDelivery (Relay.deliveryFrame messageId envelope) = .ok (messageId, envelope) := by
  obtain ⟨id, hid⟩ := messageId
  have hread : ¬((Relay.deliveryFrame ⟨id, hid⟩ envelope).length < 17 ∨
      (Relay.deliveryFrame ⟨id, hid⟩ envelope).head? ≠ some 0x01) := by
    simp [Relay.deliveryFrame, hid]
  rw [readDelivery, dif_neg hread]
  simp [Relay.deliveryFrame, ← hid]

/-! ## The loop -/

/-- `KeepaliveTiming`, in milliseconds. -/
structure KeepaliveTiming where
  /-- Silence before a ping. -/
  interval : ℕ
  /-- Pong deadline after a ping. -/
  grace : ℕ
deriving DecidableEq, Repr

/-- `KeepaliveTiming::production`. -/
def KeepaliveTiming.production : KeepaliveTiming := ⟨55000, 10000⟩

/-- An open subscription, without its socket. -/
structure Subscription where
  timing : KeepaliveTiming
  /-- A ping is in flight and its pong is due within the grace period. -/
  awaitingPong : Bool
deriving DecidableEq, Repr

/-- `Subscription::new`. -/
def Subscription.new (timing : KeepaliveTiming) : Subscription := ⟨timing, false⟩

/-- A WebSocket message (`tungstenite::Message`). -/
inductive Message
  | binary (data : Bytes)
  | ping (payload : Bytes)
  | pong (payload : Bytes)
  | close
  /-- Text, and frames of no type of their own. -/
  | other
deriving DecidableEq, Repr

/-- What a wait on the socket yields. -/
inductive Waited
  /-- The time is over. A ping would be sent with this result. -/
  | elapsed (send : Except String Unit)
  | message (message : Message)
  | ended
  | failed (error : String)

/-- How a call of `next` returns, by the place it returns from. -/
inductive Exit
  /-- A binary frame, as it was read. -/
  | delivery (read : Result (MsgId × Bytes))
  | idle
  | closed
  /-- No pong within the grace period. -/
  | timeout
  | transport (error : String)

/-- The value `next` returns. -/
def Exit.value : Exit → Result (Option SocketEvent)
  | .delivery (.ok (messageId, envelope)) => .ok (some (.delivery messageId envelope))
  | .delivery (.error e) => .error e
  | .idle => .ok (some .idle)
  | .closed => .ok none
  | .timeout => .error (.network "keepalive timeout")
  | .transport error => .error (.network error)

/-- What can be noted of a subscription from outside. -/
inductive Note
  | silence (wait : ℕ)
  | received (message : Message)
  | sentPing
  | sentPong (payload : Bytes)
  | returned (exit : Exit)

/-- How long the loop waits. -/
def Subscription.wait (s : Subscription) : ℕ :=
  if s.awaitingPong then s.timing.grace else s.timing.interval

/-- One pass of the loop of `next`: what is noted, the subscription after it, and how it returns if it
does. -/
def Subscription.turn (s : Subscription) : Waited → List Note × Subscription × Option Exit
  | .elapsed send =>
    if s.awaitingPong then
      ([.silence s.wait], s, some .timeout)
    else
      match send with
      | .ok () => ([.silence s.wait, .sentPing], { s with awaitingPong := true }, none)
      -- the error leaves before the flag is set
      | .error e => ([.silence s.wait], s, some (.transport e))
  | .message (.binary data) =>
    ([.received (.binary data)], { s with awaitingPong := false }, some (.delivery (readDelivery data)))
  | .message (.pong payload) =>
    if s.awaitingPong then
      ([.received (.pong payload)], { s with awaitingPong := false }, some .idle)
    else
      ([.received (.pong payload)], s, none)
  | .message (.ping payload) => ([.received (.ping payload), .sentPong payload], s, none)
  | .message .close => ([.received .close], s, some .closed)
  | .message .other => ([.received .other], s, none)
  | .ended => ([], s, some .closed)
  | .failed e => ([], s, some (.transport e))

/-- `Subscription::next`, on what its waits yield: how it returns, the subscription after it, what was
noted, and what it has not read. Nothing if it is still waiting at the end. -/
def Subscription.next (s : Subscription) : List Waited → Option (Exit × Subscription × List Note × List Waited)
  | [] => none
  | w :: ws =>
    match s.turn w with
    | (notes, s', some exit) => some (exit, s', notes ++ [.returned exit], ws)
    | (notes, s', none) => do
      let (exit, s'', later, rest) ← s'.next ws
      return (exit, s'', notes ++ later, rest)

/-- So many calls of `next` one after the other, each run to completion. -/
def Subscription.calls (s : Subscription) : ℕ → List Waited → Option (Subscription × List Note × List Waited)
  | 0, ws => some (s, [], ws)
  | n + 1, ws => do
    let (_, s', notes, ws') ← s.next ws
    let (s'', later, rest) ← s'.calls n ws'
    return (s'', notes ++ later, rest)

end Titlan.Client
