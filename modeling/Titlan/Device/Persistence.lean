import Titlan.Device.State

/-! # Ack after persist

A relay forgets a message once it is acked, so a chat has to be a row of the message table by then.
Two loops ack: the conversation listener, after `handle_incoming`, and the responder's wait for the
pairing handoff. Each is run against an arbitrary sequence of deliveries and storage failures, watched
by a monitor that remembers the delivery being handled: what it was, under which session it came in,
how many rows there were, and whether a storage access has failed since. -/

namespace Titlan

open Foundation

/-- The delivery being handled. -/
structure Handled (C : Carrier) where
  msgId : ℕ
  envelope : C.Wire
  /-- The conversation's session when it was delivered. -/
  session : Option C.Session
  /-- The number of message rows when it was delivered. -/
  before : ℕ
  /-- Whether a storage access has failed since. -/
  failed : Bool

/-- A client and the monitor. -/
structure Watched (C : Carrier) where
  device : Device C
  handling : Option (Handled C)

/-- The frame an envelope decrypts to under a session. -/
def Engine.opens {C : Carrier} (E : Engine C) (session : Option C.Session) (envelope : C.Wire) :
    Option C.Frame :=
  match E.messageDecrypt session envelope with
  | .ok (_, .ok frame) => some frame
  | _ => none

/-- The frame has been stored as a received message since the delivery. -/
def Handled.Stored {C : Carrier} (m : Handled C) (d : Device C) (frame : C.Frame) : Prop :=
  ∃ row ∈ d.messages.drop m.before, row.direction = .incoming ∧ row.frame = frame

/-- The loops that receive and ack. -/
inductive ReceiveLoop (C : Carrier)
  | conversation (fuel : ℕ)
  /-- `await_inbox_handoff_v2` on the responder's inbox. -/
  | handoff (inbox : C.Id) (contribution : C.Contribution) (fuel : ℕ)

/-- What a loop runs, for a conversation with `peer`. -/
def ReceiveLoop.program {C : Carrier} (E : Engine C) (peer : String) : ReceiveLoop C → EngineM C Unit
  | .conversation fuel => E.conversationListener fuel
  | .handoff inbox contribution fuel =>
    E.awaitInboxHandoffV2 peer inbox contribution fuel >>= fun _ => pure ()

/-- The loop is the conversation listener. -/
def ReceiveLoop.persists {C : Carrier} : ReceiveLoop C → Bool
  | .conversation _ => true
  | .handoff _ _ _ => false

namespace Watched

variable {C : Carrier}

/-- A delivery comes in. -/
def receive (w : Watched C) (msgId : ℕ) (envelope : C.Wire) : Handled C where
  msgId := msgId
  envelope := envelope
  session := w.device.sessions w.device.convo.peerAddress
  before := w.device.messages.length
  failed := false

/-- What the monitor makes of an operation and its answer. -/
def note (w : Watched C) (t : Turn C) : (o : Op C) → o.Answer → Option (Handled C)
  | .socket .next, .delivery msgId envelope => some (w.receive msgId envelope)
  | .socket .nextBeforeDeadline, some (.delivery msgId envelope) => some (w.receive msgId envelope)
  | .store _, _ => w.handling.map fun m => { m with failed := m.failed || t.fault.isSome }
  | _, _ => w.handling

variable {w : Watched C} {t : Turn C}

/-- Only the socket brings a new delivery. -/
theorem note_of_not_socket {o : Op C} {r : o.Answer} {m : Handled C}
    (ho : ∀ o', o ≠ .socket o') (h : w.handling = some m) :
    ∃ failed, w.note t o r = some { m with failed := failed } := by
  cases o with
  | store o => exact ⟨m.failed || t.fault.isSome, by simp [note, h]⟩
  | socket o => exact absurd rfl (ho o)
  | _ => exact ⟨m.failed, by simp [note, h]⟩

/-! ## Where a delivery stands -/

/-- Ready to ack message `id`: it is the one being handled, and if it is a chat, it is stored exactly
when the loop is one that persists and no storage access has failed. -/
def Settled (E : Engine C) (persists : Bool) (id : ℕ) (w : Watched C) : Prop :=
  ∃ m, w.handling = some m ∧ m.msgId = id ∧
    ∀ text, E.opens m.session m.envelope = some (chatV1 text) →
      (m.Stored w.device (chatV1 text) ↔ persists = true ∧ m.failed = false)

/-- The conversation is with `peer`, and message `id`, which opens to `frame?`, is being handled. -/
def Handles (E : Engine C) (peer : String) (id : ℕ) (frame? : Option C.Frame) (w : Watched C) : Prop :=
  w.device.convo.peerAddress = peer ∧
    ∃ m, w.handling = some m ∧ m.msgId = id ∧ E.opens m.session m.envelope = frame?

/-- Message `id` has just come in. -/
def Begun (peer : String) (id : ℕ) (envelope : C.Wire) (w : Watched C) : Prop :=
  w.device.convo.peerAddress = peer ∧
    w.handling = some ⟨id, envelope, w.device.sessions peer, w.device.messages.length, false⟩

/-- `decrypt_message` has returned on message `id`, and no row has been written for it: a frame is what
the envelope opens to, and without one it does not open or the storage has failed. -/
def Decrypted (E : Engine C) (peer : String) (id : ℕ) (r : Result C.Frame) (w : Watched C) : Prop :=
  w.device.convo.peerAddress = peer ∧
    ∃ m, w.handling = some m ∧ m.msgId = id ∧ m.before = w.device.messages.length ∧
      match r with
      | .ok frame => E.opens m.session m.envelope = some frame ∧ m.failed = false
      | .error _ => E.opens m.session m.envelope = none ∨ m.failed = true

theorem not_stored {m : Handled C} {d : Device C} (h : m.before = d.messages.length)
    (frame : C.Frame) : ¬ m.Stored d frame := by
  rintro ⟨row, hrow, -⟩
  rw [h, List.drop_length] at hrow
  cases hrow

variable {E : Engine C} {persists : Bool} {peer : String} {id : ℕ} {frame? : Option C.Frame}

/-- A message that was not opened is settled. -/
theorem Decrypted.settled_of_error {e : CoreError}
    (h : Decrypted E peer id (.error e) w) : Settled E persists id w := by
  obtain ⟨-, m, hm, hid, hbefore, hcase⟩ := h
  refine ⟨m, hm, hid, fun text hopens => ?_⟩
  rcases hcase with hnone | hfailed
  · rw [hnone] at hopens
    cases hopens
  · exact iff_of_false (not_stored hbefore _) (by simp [hfailed])

/-- For a loop that stores nothing, every message is settled. -/
theorem Decrypted.settled_of_forgotten {r : Result C.Frame}
    (h : Decrypted E peer id r w) : Settled E false id w := by
  obtain ⟨-, m, hm, hid, hbefore, -⟩ := h
  exact ⟨m, hm, hid, fun text _ => iff_of_false (not_stored hbefore _) (by simp)⟩

/-- A message that opens to something else than a chat is settled. -/
theorem Handles.settled (h : Handles E peer id frame? w)
    (hframe : ∀ text, frame? ≠ some (chatV1 text)) : Settled E persists id w := by
  obtain ⟨-, m, hm, hid, hopens⟩ := h
  exact ⟨m, hm, hid, fun text hchat => absurd (hopens.symm.trans hchat) (hframe text)⟩

/-! ## Monitored runs -/

variable [C.Comparable]

/-- The effect of one operation in one turn, monitored. -/
def perform (E : Engine C) (t : Turn C) (w : Watched C) (o : Op C) : o.Answer × Watched C :=
  let out := w.device.perform E t o
  (out.1, ⟨out.2, w.note t o out.1⟩)

/-- One turn of a monitored program. -/
def step (E : Engine C) (x : Watched C × EngineM C Unit) (t : Turn C) :
    Option (Watched C × EngineM C Unit) :=
  match x.2 with
  | .ret _ => none
  | .op o k =>
    let out := x.1.perform E t o
    some (out.2, k out.1)

/-- A monitored loop on its own: every ack finds its message settled. -/
def watching (E : Engine C) (persists : Bool) : Setting (engineSig C) (Watched C) where
  exec o w r w' := ∃ t, w.perform E t o = (r, w')
  check o w := match o with
    | .socket (.ack id) => Settled E persists id w
    | _ => True
  rely _ _ := False
  guar _ _ := True

theorem stable_watching (I : Watched C → Prop) : Stable (watching E persists) I :=
  fun _ _ h _ => h.elim

/-! ## What an operation leaves alone -/

theorem Handles.perform {o : Op C} (h : Handles E peer id frame? w)
    (ho : ∀ o', o ≠ .socket o') : Handles E peer id frame? (w.perform E t o).2 := by
  obtain ⟨hpeer, m, hm, hid, hopens⟩ := h
  obtain ⟨failed, hnote⟩ := note_of_not_socket (t := t) (r := (w.device.perform E t o).1) ho hm
  exact ⟨(Device.peerAddress_perform E t w.device o).trans hpeer, _, hnote, hid, hopens⟩

variable {α : Type}

/-- An operation off the socket keeps what is being handled. -/
theorem triple_handles {o : Op C} {k : o.Answer → EngineM C α}
    {post : α → Watched C → Prop} (ho : ∀ o', o ≠ .socket o')
    (hk : ∀ r, Triple (watching E persists) (Handles E peer id frame?) (k r) post) :
    Triple (watching E persists) (Handles E peer id frame?) (o.program >>= k) post := by
  refine triple_perform (m := fun _ => Handles E peer id frame?) (stable_watching _) ?_ ?_ hk
  · intro w _
    cases o with
    | socket o' => exact absurd rfl (ho o')
    | _ => trivial
  · rintro w r w' h ⟨t, ht⟩
    cases ht
    exact ⟨trivial, h.perform ho⟩

theorem triple_handles_encrypt (address : String) (frame : C.Frame) :
    Triple (watching E persists) (Handles E peer id frame?) (E.encryptMessage address frame)
      fun _ => Handles E peer id frame? := by
  have hret : ∀ r : Result C.Wire, Triple (watching E persists) (Handles E peer id frame?) (.ret r)
      fun _ => Handles E peer id frame? :=
    fun r => triple_ret (stable_watching _) fun _ h => h
  rw [Engine.encryptMessage]
  refine triple_handles (fun _ h => by cases h) fun loaded => ?_
  cases loaded with
  | error e => exact hret _
  | ok session =>
    dsimp only
    split
    · exact hret _
    · refine triple_handles (fun _ h => by cases h) fun stored => ?_
      cases stored <;> exact hret _

/-- The dispatch of a control frame keeps what is being handled. -/
theorem triple_handles_dispatch {frame : C.Frame}
    (h : ∀ typeVersion text, frame ≠ .chat typeVersion text) :
    Triple (watching E persists) (Handles E peer id frame?) (E.dispatch frame)
      fun _ => Handles E peer id frame? := by
  refine (Engine.dispatching_dispatch h).triple (stable_watching _) fun _ q hq => ?_
  have hop : ∀ o : Op C, (∀ o', o ≠ .socket o') →
      Triple (watching E persists) (Handles E peer id frame?) o.program
        fun _ => Handles E peer id frame? :=
    fun o ho => triple_handles ho fun r => triple_ret (stable_watching _) fun _ h => h
  cases hq with
  | handling hq =>
    cases hq with
    | plain o ho =>
      refine hop o ?_
      rintro o' rfl
      exact ho
    | encrypt address frame => exact triple_handles_encrypt address frame
  | markHelloSeen generation nonce => exact hop _ fun _ h => by cases h

/-! ## Handling one delivery -/

/-- A storage access that fails leaves the client as it was and is noted. -/
theorem perform_store_of_fault {e : CoreError} (h : t.fault = some e) (w : Watched C)
    (o : StoreOp C) : w.perform E t (.store o) =
      (o.failWith e, ⟨w.device, w.handling.map fun m => { m with failed := true }⟩) := by
  simp [Watched.perform, Device.perform, note, h]

/-- A storage access that succeeds is not noted. -/
theorem perform_store_of_none (h : t.fault = none) (w : Watched C) (o : StoreOp C) :
    w.perform E t (.store o) =
      ((w.device.performStore o).1, ⟨(w.device.performStore o).2, w.handling⟩) := by
  simp [Watched.perform, Device.perform, note, h]

/-- `decrypt_message` on the message that has just come in. -/
theorem triple_decrypt (envelope : C.Wire) :
    Triple (watching E persists) (Begun peer id envelope) (E.decryptMessage peer envelope)
      (Decrypted E peer id) := by
  have hret : ∀ r : Result C.Frame, Triple (watching E persists) (Decrypted E peer id r) (.ret r)
      (Decrypted E peer id) :=
    fun r => triple_ret (stable_watching _) fun _ h => h
  rw [Engine.decryptMessage]
  refine triple_perform (m := fun r w => match r with
    | .ok session => Begun peer id envelope w ∧ session = w.device.sessions peer
    | .error e => Decrypted E peer id (.error e) w) (stable_watching _) (fun _ _ => trivial) ?_ ?_
  · rintro w r w' ⟨hpeer, hm⟩ ⟨t, ht⟩
    refine ⟨trivial, ?_⟩
    cases hfault : t.fault with
    | some e =>
      rw [perform_store_of_fault hfault] at ht
      cases ht
      exact ⟨hpeer, _, by rw [hm]; rfl, rfl, rfl, .inr rfl⟩
    | none =>
      rw [perform_store_of_none hfault] at ht
      cases ht
      exact ⟨⟨hpeer, hm⟩, rfl⟩
  · intro loaded
    cases loaded with
    | error e => exact hret _
    | ok session =>
      dsimp only
      split
      · -- the envelope does not open: nothing is stored
        rename_i e he
        refine (hret (.error e)).of_pre ?_
        rintro w ⟨⟨hpeer, hm⟩, rfl⟩
        refine ⟨hpeer, _, hm, rfl, rfl, .inl ?_⟩
        simp [Engine.opens, he]
      · rename_i session' frame he
        refine triple_perform (m := fun r w => match r with
          | .ok _ => Decrypted E peer id frame w
          | .error e => Decrypted E peer id (.error e) w) (stable_watching _)
          (fun _ _ => trivial) ?_ ?_
        · rintro w r w' ⟨⟨hpeer, hm⟩, rfl⟩ ⟨t, ht⟩
          refine ⟨trivial, ?_⟩
          cases hfault : t.fault with
          | some e =>
            rw [perform_store_of_fault hfault] at ht
            cases ht
            exact ⟨hpeer, _, by rw [hm]; rfl, rfl, rfl, .inr rfl⟩
          | none =>
            rw [perform_store_of_none hfault] at ht
            cases ht
            refine ⟨hpeer, _, hm, rfl, rfl, ?_⟩
            cases frame with
            | ok frame => exact ⟨by simp [Engine.opens, he], rfl⟩
            | error e => exact .inl (by simp [Engine.opens, he])
        · intro stored
          cases stored with
          | error e => exact hret _
          | ok _ => exact hret _

/-- What `handle_incoming` leaves of the message that has just come in. -/
def Answered (E : Engine C) (peer : String) (id : ℕ) (w : Watched C) : Prop :=
  w.device.convo.peerAddress = peer ∧ Settled E true id w

/-- The dispatch of a chat writes its row, unless the storage fails. -/
theorem triple_dispatch_chat (typeVersion : UInt8) (text : C.Text) :
    Triple (watching E persists) (Decrypted E peer id (.ok (.chat typeVersion text)))
      (E.dispatch (.chat typeVersion text)) fun _ => Answered E peer id := by
  have hret : ∀ b : Bool, Triple (watching E persists) (Answered E peer id) (.ret b)
      fun _ => Answered E peer id :=
    fun b => triple_ret (stable_watching _) fun _ h => h
  rw [Engine.dispatch]
  refine triple_perform (m := fun _ => Answered E peer id) (stable_watching _) (fun _ _ => trivial) ?_ ?_
  · rintro w r w' ⟨hpeer, m, hm, hid, hbefore, hopens, hfailed⟩ ⟨t, ht⟩
    refine ⟨trivial, ?_⟩
    cases hfault : t.fault with
    | some e =>
      rw [perform_store_of_fault hfault] at ht
      cases ht
      refine ⟨hpeer, { m with failed := true }, by rw [hm]; rfl, hid, fun text' _ => ?_⟩
      exact iff_of_false (not_stored hbefore _) (by simp)
    | none =>
      rw [perform_store_of_none hfault] at ht
      cases ht
      refine ⟨hpeer, m, hm, hid, fun text' hchat => ?_⟩
      have hframe : Frame.chat typeVersion text = chatV1 text' :=
        Option.some.inj (hopens.symm.trans hchat)
      rw [← hframe]
      refine iff_of_true ⟨⟨w.device.messages.length, .incoming, .chat typeVersion text, .received⟩,
        ?_, rfl, rfl⟩ ⟨rfl, hfailed⟩
      rw [hbefore]
      simp [Device.performStore]
  · intro row
    cases row with
    | error e => exact hret _
    | ok row =>
      refine triple_perform (m := fun _ => Answered E peer id) (stable_watching _) (fun _ _ => trivial) ?_
        fun _ => hret _
      rintro w r w' ⟨hpeer, hsettled⟩ ⟨t, ht⟩
      cases ht
      exact ⟨trivial, hpeer, hsettled⟩

/-- **`handle_incoming` settles the message.** -/
theorem triple_handleIncoming (envelope : C.Wire) :
    Triple (watching E persists) (Begun peer id envelope) (E.handleIncoming peer envelope)
      fun _ => Answered E peer id := by
  refine triple_bind (triple_decrypt envelope) fun r => ?_
  cases r with
  | error e =>
    refine triple_ret (stable_watching _) fun w h => ?_
    exact ⟨h.1, h.settled_of_error⟩
  | ok frame =>
    by_cases hchat : ∃ typeVersion text, frame = .chat typeVersion text
    · obtain ⟨typeVersion, text, rfl⟩ := hchat
      exact triple_dispatch_chat typeVersion text
    · have hne : ∀ typeVersion text, frame ≠ .chat typeVersion text :=
        fun typeVersion text h => hchat ⟨typeVersion, text, h⟩
      have hdispatch : Triple (watching E persists) (Handles E peer id (some frame))
          (E.dispatch frame) fun _ => Handles E peer id (some frame) := triple_handles_dispatch hne
      refine hdispatch.mono ?_ ?_
      · rintro w ⟨hpeer, m, hm, hid, -, hopens, -⟩
        exact ⟨hpeer, m, hm, hid, hopens⟩
      · intro _ w h
        exact ⟨h.1, h.settled fun text heq => hne 1 text (Option.some.inj heq)⟩

/-! ## The loops -/

/-- The conversation is with `peer`. -/
def With (peer : String) (w : Watched C) : Prop := w.device.convo.peerAddress = peer

/-- Every operation but an ack may be performed at any time. -/
theorem triple_with {o : Op C} {k : o.Answer → EngineM C α}
    {post : α → Watched C → Prop} (ho : ∀ msgId, o ≠ .socket (.ack msgId))
    (hk : ∀ r, Triple (watching E persists) (With peer) (k r) post) :
    Triple (watching E persists) (With peer) (o.program >>= k) post := by
  refine triple_perform (m := fun _ => With peer) (stable_watching _) ?_ ?_ hk
  · intro w _
    cases o with
    | socket o =>
      cases o with
      | ack msgId => exact absurd rfl (ho msgId)
      | _ => trivial
    | _ => trivial
  · rintro w r w' h ⟨t, ht⟩
    cases ht
    exact ⟨trivial, (Device.peerAddress_perform E t w.device o).trans h⟩

theorem triple_with_ret (a : α) :
    Triple (watching E persists) (With peer) (.ret a) fun _ => With peer :=
  triple_ret (stable_watching _) fun _ h => h

/-- Handlers run between deliveries, for a flush or a recovery. -/
theorem triple_with_handling {p : EngineM C α} (h : Composed E.Handling p) :
    Triple (watching E persists) (With peer) p fun _ => With peer := by
  refine h.triple (stable_watching _) fun _ q hq => ?_
  cases hq with
  | plain o ho =>
    refine triple_with ?_ triple_with_ret
    rintro msgId rfl
    exact ho
  | encrypt address frame =>
    rw [Engine.encryptMessage]
    refine triple_with (fun _ h => by cases h) fun loaded => ?_
    cases loaded with
    | error e => exact triple_with_ret _
    | ok session =>
      dsimp only
      split
      · exact triple_with_ret _
      · refine triple_with (fun _ h => by cases h) fun stored => ?_
        cases stored <;> exact triple_with_ret _

/-- What is known once the socket has answered: a delivery has started the monitor. -/
def Came (peer : String) : Option (Event C) → Watched C → Prop
  | some (.delivery msgId envelope), w => Begun peer msgId envelope w
  | _, w => With peer w

/-- A delivery starts the monitor. -/
theorem triple_next {k : Event C → EngineM C α} {post : α → Watched C → Prop}
    (hdelivery : ∀ msgId envelope,
      Triple (watching E persists) (Begun peer msgId envelope) (k (.delivery msgId envelope)) post)
    (hidle : Triple (watching E persists) (With peer) (k .idle) post)
    (hclosed : Triple (watching E persists) (With peer) (k .closed) post) :
    Triple (watching E persists) (With peer) (socket .next >>= k) post := by
  refine triple_perform (m := fun r => Came peer (some r)) (stable_watching _) (fun _ _ => trivial)
    ?_ ?_
  · rintro w r w' h ⟨t, ht⟩
    cases ht
    refine ⟨trivial, ?_⟩
    simp only [Device.perform]
    unfold Came
    split
    · rename_i msgId envelope hanswer
      refine ⟨h, ?_⟩
      rw [Option.some.inj hanswer]
      simp [note, receive, show w.device.convo.peerAddress = peer from h]
    · exact h
  · intro r
    cases r with
    | delivery msgId envelope => exact hdelivery msgId envelope
    | idle => exact hidle
    | closed => exact hclosed

/-- So does a delivery before the deadline. -/
theorem triple_nextBeforeDeadline {k : Option (Event C) → EngineM C α} {post : α → Watched C → Prop}
    (hdelivery : ∀ msgId envelope, Triple (watching E persists) (Begun peer msgId envelope)
      (k (some (.delivery msgId envelope))) post)
    (hother : ∀ r, (∀ msgId envelope, r ≠ some (.delivery msgId envelope)) →
      Triple (watching E persists) (With peer) (k r) post) :
    Triple (watching E persists) (With peer) (socket .nextBeforeDeadline >>= k) post := by
  refine triple_perform (m := Came peer) (stable_watching _) (fun _ _ => trivial) ?_ ?_
  · rintro w r w' h ⟨t, ht⟩
    cases ht
    refine ⟨trivial, ?_⟩
    simp only [Device.perform]
    unfold Came
    split
    · rename_i msgId envelope hanswer
      refine ⟨h, ?_⟩
      rw [hanswer]
      simp [note, receive, show w.device.convo.peerAddress = peer from h]
    · exact h
  · intro r
    rcases r with _ | (_ | _ | _)
    · exact hother none fun _ _ h => by cases h
    · exact hdelivery _ _
    · exact hother _ fun _ _ h => by cases h
    · exact hother _ fun _ _ h => by cases h

/-- An ack of a settled message. -/
theorem triple_ack {k : Unit → EngineM C α} {post : α → Watched C → Prop}
    (hk : Triple (watching E persists) (With peer) (k ()) post) :
    Triple (watching E persists) (fun w => With peer w ∧ Settled E persists id w)
      (socket (.ack id) >>= k) post := by
  refine triple_perform (m := fun _ => With peer) (stable_watching _) (fun w h => h.2) ?_ fun _ => hk
  rintro w r w' h ⟨t, ht⟩
  cases ht
  exact ⟨trivial, h.1⟩

theorem triple_deliveryLoop (fuel : ℕ) :
    Triple (watching E true) (With peer) (E.deliveryLoop peer fuel) fun _ => With peer := by
  induction fuel with
  | zero => exact triple_with_ret _
  | succ fuel ih =>
    rw [Engine.deliveryLoop]
    refine triple_next (fun msgId envelope => ?_) ?_ ?_
    · refine triple_bind (triple_handleIncoming envelope) fun changed => ?_
      refine triple_ack ?_
      cases changed with
      | true => exact triple_with_ret _
      | false => exact ih
    · exact triple_bind (triple_with_handling Engine.handling_flushPending) fun _ => ih
    · exact triple_with_ret _

theorem triple_conversationListener (fuel : ℕ) :
    Triple (watching E true) (With peer) (E.conversationListener fuel) fun _ => With peer := by
  refine Engine.triple_listener (stable_watching _) (fun _ _ => trivial) ?_ triple_with_handling
    (fun _ => triple_with (fun _ h => by cases h) triple_with_ret) triple_deliveryLoop fuel
  rintro w r w' h ⟨t, ht⟩
  refine ⟨trivial, ?_⟩
  cases hfault : t.fault with
  | some e =>
    rw [perform_store_of_fault hfault] at ht
    cases ht
    exact ⟨h, fun _ h => by cases h⟩
  | none =>
    rw [perform_store_of_none hfault] at ht
    cases ht
    refine ⟨h, fun convo hconvo => ?_⟩
    cases hconvo
    exact h

/-- The wait for the handoff acks whatever else comes in, and stores nothing. -/
theorem triple_handoffLoop (contribution : C.Contribution) (fuel : ℕ) :
    Triple (watching E false) (With peer) (E.handoffLoop peer contribution fuel)
      fun _ => With peer := by
  induction fuel with
  | zero => exact triple_with_ret _
  | succ fuel ih =>
    rw [Engine.handoffLoop]
    refine triple_with (fun _ h => by cases h) fun passed => ?_
    cases passed with
    | true => exact triple_with_ret _
    | false =>
      refine triple_nextBeforeDeadline (fun msgId envelope => ?_) fun r hr => ?_
      · refine triple_bind (triple_decrypt envelope) fun opened => ?_
        split
        · -- the handoff itself: no chat
          rename_i relayUrl inbox theirs
          suffices h : Triple (watching E false) (Handles E peer msgId
              (some (.mailboxUpdateV2 relayUrl inbox theirs))) _ _ by
            refine h.of_pre ?_
            rintro w ⟨hpeer, m, hm, hid, -, hopens, -⟩
            exact ⟨hpeer, m, hm, hid, hopens⟩
          refine triple_handles (fun _ h => by cases h) fun sent => ?_
          cases sent with
          | error e => exact triple_ret (stable_watching _) fun _ h => h.1
          | ok _ =>
            refine triple_handles (fun _ h => by cases h) fun rooted => ?_
            cases rooted with
            | error e => exact triple_ret (stable_watching _) fun _ h => h.1
            | ok _ =>
              refine (triple_ack (triple_with_ret _)).of_pre fun w h => ⟨h.1, ?_⟩
              exact h.settled fun _ heq => by cases heq
        · exact (triple_ack ih).of_pre fun w h => ⟨h.1, h.settled_of_forgotten⟩
      · rcases r with _ | (_ | _ | _)
        · exact triple_with_ret _
        · exact absurd rfl (hr _ _)
        · exact ih
        · exact triple_with_ret _

theorem triple_awaitInboxHandoffV2 (inbox : C.Id) (contribution : C.Contribution) (fuel : ℕ) :
    Triple (watching E false) (With peer) (E.awaitInboxHandoffV2 peer inbox contribution fuel)
      fun _ => With peer := by
  induction fuel with
  | zero => exact triple_with_ret _
  | succ fuel ih =>
    rw [Engine.awaitInboxHandoffV2]
    refine triple_with (fun _ h => by cases h) fun connected => ?_
    cases connected with
    | ok =>
      refine triple_bind (triple_handoffLoop contribution fuel) fun exit => ?_
      cases exit with
      | returned result => exact triple_with_ret _
      | disconnected => exact ih
      | outOfFuel => exact triple_with_ret _
    | notFound => exact triple_with_ret _
    | unreachable =>
      refine triple_with (fun _ h => by cases h) fun passed => ?_
      cases passed with
      | true => exact triple_with_ret _
      | false => exact ih

/-- Both loops settle every message before they ack it. -/
theorem triple_program (loop : ReceiveLoop C) :
    Triple (watching E loop.persists) (With peer) (loop.program E peer) fun _ => With peer := by
  cases loop with
  | conversation fuel => exact triple_conversationListener fuel
  | handoff inbox contribution fuel =>
    exact triple_bind (triple_awaitInboxHandoffV2 inbox contribution fuel) fun _ =>
      triple_with_ret _

/-- A turn keeps a monitored program safe. -/
theorem safe_step {x y : Watched C × EngineM C Unit}
    (h : Safe (watching E persists) (fun _ _ => True) x.2 x.1) (hstep : step E x t = some y) :
    Safe (watching E persists) (fun _ _ => True) y.2 y.1 := by
  obtain ⟨w, p⟩ := x
  cases p with
  | ret a => cases hstep
  | op o k =>
    cases hstep
    exact (h.step ⟨t, rfl⟩).2

end Watched

open Watched

variable {C : Carrier} [C.Comparable]

/-- **An acked chat is stored exactly when the conversation listener handled it and the storage did not
fail.** In every run of a receive loop, for every sequence of deliveries and storage failures: whenever
it is about to ack, it acks the message being handled, and if that opens to a `chat/1` frame under the
conversation's session, the frame is a row by then if and only if the loop is the conversation listener
and no storage access has failed since the delivery. -/
theorem chat_stored_at_ack_iff (E : Engine C) (loop : ReceiveLoop C) (d : Device C)
    (ts : List (Turn C)) (w : Watched C) (p : EngineM C Unit) (id : ℕ)
    (hrun : run (Watched.step E) (⟨d, none⟩, loop.program E d.convo.peerAddress) ts = some (w, p))
    (hack : p.next? = some (.socket (.ack id))) :
    ∃ m, w.handling = some m ∧ m.msgId = id ∧
      ∀ text, E.opens m.session m.envelope = some (chatV1 text) →
        (m.Stored w.device (chatV1 text) ↔ loop.persists = true ∧ m.failed = false) := by
  have hstart : Safe (watching E loop.persists) (fun _ _ => True)
      (loop.program E d.convo.peerAddress) ⟨d, none⟩ :=
    ((triple_program loop).mono (fun _ h => h) fun _ _ _ => trivial) _ rfl
  have hsafe := run_invariant (I := fun x => Safe (watching E loop.persists) (fun _ _ => True) x.2 x.1)
    (fun _ _ _ h (_ : True) hstep => safe_step h hstep) hstart (Along.of_forall fun _ _ => trivial) hrun
  cases p with
  | ret a => cases hack
  | op o k =>
    cases hack
    exact hsafe.check

/-! ## A chat that is acked and gone -/

/-- Message `100` arrives, on either loop. -/
def arriving : (o : Op countingCarrier) → o.Answer
  | .socket .nextBeforeDeadline => some (.delivery 0 100)
  | o => calmOracle [] o

/-- A turn in which the storage works. -/
def calmTurn : Turn countingCarrier := ⟨none, arriving⟩

/-- A turn in which it fails. -/
def failingTurn : Turn countingCarrier := ⟨some (.storage "database or disk is full"), arriving⟩

/-- The run ends about to ack a `chat/1` that has not been stored since it was delivered. -/
def AcksUnstored (loop : ReceiveLoop countingCarrier) (ts : List (Turn countingCarrier)) : Prop :=
  ∃ w p id m text,
    run (Watched.step countingEngine) (⟨freshDevice, none⟩, loop.program countingEngine "peer") ts =
        some (w, p) ∧
      p.next? = some (.socket (.ack id)) ∧ w.handling = some m ∧ m.msgId = id ∧
      countingEngine.opens m.session m.envelope = some (chatV1 text) ∧
      ¬ m.Stored w.device (chatV1 text)

/-- **Chats are acked without being stored.** The conversation listener opens message `100`, its row is
refused by the storage, and the message is acked all the same. The responder's wait for the handoff
opens it, takes no interest, and acks it with the storage in order. -/
theorem acks_unstored_chat :
    AcksUnstored (.conversation 2) (List.replicate 11 calmTurn ++ [failingTurn]) ∧
      AcksUnstored (.handoff () () 2) (List.replicate 5 calmTurn) := by
  exact ⟨⟨_, _, 0, ⟨0, 100, some (0, []), 0, true⟩, 100, rfl, rfl, rfl, rfl, rfl, not_stored rfl _⟩,
    ⟨_, _, 0, ⟨0, 100, some (0, []), 0, false⟩, 100, rfl, rfl, rfl, rfl, rfl, not_stored rfl _⟩⟩

/-- With the storage in order, the listener has stored message `100` when it acks it. -/
theorem calm_listener_stores_before_ack :
    ∃ w p m, run (Watched.step countingEngine) (⟨freshDevice, none⟩,
        (ReceiveLoop.conversation 2).program countingEngine "peer") (List.replicate 13 calmTurn) =
        some (w, p) ∧
      p.next? = some (.socket (.ack 0)) ∧ w.handling = some m ∧ m.msgId = 0 ∧
      m.Stored w.device (chatV1 100) := by
  refine ⟨_, _, ⟨0, 100, some (0, []), 0, false⟩, rfl, rfl, rfl, rfl, ?_⟩
  obtain ⟨m, hm, -, hstored⟩ := chat_stored_at_ack_iff countingEngine (.conversation 2) freshDevice
    (List.replicate 13 calmTurn) _ _ 0 rfl rfl
  cases hm
  exact (hstored 100 rfl).mpr ⟨rfl, rfl⟩

end Titlan
