import Mathlib.Data.List.Dedup
import Mathlib.Data.List.Perm.Subperm
import Titlan.Device.State

/-! # Crashes of the receive loop

A relay keeps a message until it is acked and delivers it again after a reconnect, and a process killed
at any point starts again on its database. Opening an envelope advances the stored session, after which
libsignal refuses the same envelope as a duplicate; the row is written by a later, separate commit. The
storage does not fail here. The relay's part is the list of messages that still wait for an ack; what it
and the other relays answer otherwise is arbitrary. -/

namespace Titlan

open Foundation

/-- What libsignal documents about opening envelopes: one that the peer sealed opens as long as it has
not been opened, and not again. -/
structure OpeningLaws {C : Carrier} (E : Engine C) where
  /-- The frame in an envelope, for the envelopes the peer sealed. -/
  content : C.Wire → Option C.Frame
  /-- The envelopes a session has opened. -/
  opened : C.Session → Set C.Wire
  /-- A sealed envelope opens. -/
  decrypt_new : ∀ {s wire frame}, content wire = some frame → wire ∉ opened s →
    ∃ s', E.messageDecrypt (some s) wire = .ok (s', .ok frame)
  /-- No envelope opens twice. -/
  decrypt_again : ∀ {s wire}, wire ∈ opened s → ∃ e, E.messageDecrypt (some s) wire = .error e
  /-- Opening records the envelope and nothing else. -/
  decrypt_opened : ∀ {s wire s' r}, E.messageDecrypt (some s) wire = .ok (s', r) →
    opened s' = insert wire (opened s)
  /-- Sealing opens nothing. -/
  encrypt_opened : ∀ {s frame s' wire}, E.messageEncrypt (some s) frame = .ok (s', wire) →
    opened s' = opened s

/-- A client and the messages its relay holds for it. -/
structure Served (C : Carrier) where
  device : Device C
  /-- The messages accepted for the inbox and not yet acked. -/
  waiting : List (ℕ × C.Wire)
  nextId : ℕ
  /-- History: the envelopes acked. -/
  acked : List C.Wire

namespace Served

variable {C : Carrier}

/-- The relay accepts an envelope. -/
def accept (w : Served C) (wire : C.Wire) : Served C :=
  { w with waiting := w.waiting ++ [(w.nextId, wire)], nextId := w.nextId + 1 }

/-- The relay forgets a message once it is acked. -/
def settle (w : Served C) : Op C → Served C
  | .socket (.ack id) => { w with
      waiting := w.waiting.filter fun x => x.1 ≠ id
      acked := w.acked ++ (w.waiting.filter fun x => x.1 = id).map Prod.snd }
  | _ => w

/-- Only waiting messages are delivered. -/
def delivers [DecidableEq C.Wire] (w : Served C) : (o : Op C) → o.Answer → Bool
  | .socket .next, .delivery msgId envelope => (msgId, envelope) ∈ w.waiting
  | _, _ => true

/-- A killed process loses what was in memory. -/
def forget (w : Served C) : Served C :=
  { w with device := { w.device with rotation := none, helloSeen := [], exhaustion := none } }

end Served

/-- What happens in the life of a client. -/
inductive Life (C : Carrier)
  | act (answer : (o : Op C) → o.Answer)
  | accept (wire : C.Wire)
  /-- The process is killed and started again; its new listener may take `fuel` turns. -/
  | restart (fuel : ℕ)

namespace Served

variable {C : Carrier} [C.Comparable]
  [DecidableEq C.Wire]

/-- The effect of one operation of the listener. -/
def perform (E : Engine C) (answer : (o : Op C) → o.Answer) (w : Served C) (o : Op C) :
    Option (o.Answer × Served C) :=
  let out := w.device.perform E ⟨none, answer⟩ o
  if w.delivers o out.1 then some (out.1, { w.settle o with device := out.2 }) else none

/-- One step in the life of a client. -/
def step (E : Engine C) (x : Served C × EngineM C Unit) : Life C → Option (Served C × EngineM C Unit)
  | .act answer =>
    match x.2 with
    | .ret _ => none
    | .op o k => (x.1.perform E answer o).map fun out => (out.2, k out.1)
  | .accept wire => some (x.1.accept wire, x.2)
  | .restart fuel => some (x.1.forget, E.conversationListener fuel)

end Served

/-- The program is about to write the row of a received message. -/
def savesNext {C : Carrier} {α : Type} (p : EngineM C α) : Bool :=
  match p.next? with
  | some (.store (.insertMessage .incoming _ _)) => true
  | _ => false

/-- The process is not killed between the opening of a message and the writing of its row. -/
def WholeSave {C : Carrier} (x : Served C × EngineM C Unit) : Life C → Prop
  | .restart _ => savesNext x.2 = false
  | _ => True

instance {C : Carrier} (x : Served C × EngineM C Unit) : (l : Life C) → Decidable (WholeSave x l)
  | .act _ => .isTrue trivial
  | .accept _ => .isTrue trivial
  | .restart _ => inferInstanceAs (Decidable (savesNext x.2 = false))

namespace Served

variable {C : Carrier} [DecidableEq C.Wire] [DecidableEq C.Frame] {E : Engine C} (L : OpeningLaws E)

/-- How many received messages of the table carry the frame. -/
def received (d : Device C) (frame : C.Frame) : ℕ :=
  d.messages.countP fun row => row.direction = .incoming ∧ row.frame = frame

/-- How many of the envelopes carry the frame. -/
def carrying (wires : List C.Wire) (frame : C.Frame) : ℕ :=
  wires.countP fun wire => L.content wire = some frame

/-- **Every acked chat is stored**: of each `chat/1` frame the table holds as many received rows as
different envelopes with it have been acked. -/
def ChatsStored (w : Served C) : Prop :=
  ∀ text, carrying L w.acked.dedup (chatV1 text) ≤ received w.device (chatV1 text)

/-- The client is at session `s`, whose opened chats are each a row of its own, except the envelope of
which the row is still to be written. `kept` lists the envelopes with a row. -/
structure Booked (d : Device C) (gap : Option C.Wire) (s : C.Session) (kept : List C.Wire) : Prop where
  session : d.sessions d.convo.peerAddress = some s
  nodup : kept.Nodup
  opened : ∀ wire ∈ kept, wire ∈ L.opened s
  open_gap : ∀ wire ∈ gap, wire ∈ L.opened s ∧ wire ∉ kept
  booked : ∀ wire text, wire ∈ L.opened s → wire ∉ gap → L.content wire = some (chatV1 text) →
    wire ∈ kept
  rows : ∀ text, carrying L kept (chatV1 text) ≤ received d (chatV1 text)

/-- The client has a session, and every chat it has opened is a row of its own. -/
def CaughtUp (d : Device C) : Prop := ∃ s kept, Booked L d none s kept

/-- The books between two operations of the listener: the client's, what has been acked has been opened,
and message ids are not used twice. -/
structure Books (gap : Option C.Wire) (w : Served C) : Prop where
  booked : ∃ s kept, Booked L w.device gap s kept ∧
    ∀ wire ∈ w.acked, ∀ text, L.content wire = some (chatV1 text) → wire ∈ L.opened s ∧ wire ∉ gap
  ids : ∀ x ∈ w.waiting, x.1 < w.nextId
  distinct : ∀ x ∈ w.waiting, ∀ y ∈ w.waiting, x.1 = y.1 → x = y

variable {L} {w : Served C} {gap : Option C.Wire}

/-- Where the books are in order, every acked chat is stored. -/
theorem Books.chatsStored (h : Books L gap w) : ChatsStored L w := by
  intro text
  obtain ⟨s, kept, hbooked, hacked⟩ := h.booked
  refine Nat.le_trans ?_ (hbooked.rows text)
  have hsub : (w.acked.dedup.filter fun wire => L.content wire = some (chatV1 text)).Subperm
      (kept.filter fun wire => L.content wire = some (chatV1 text)) := by
    refine List.subperm_of_subset ((List.nodup_dedup _).filter _) fun wire hwire => ?_
    simp only [List.mem_filter, List.mem_dedup, decide_eq_true_eq] at hwire ⊢
    obtain ⟨hopened, hgap⟩ := hacked wire hwire.1 text hwire.2
    exact ⟨hbooked.booked wire text hopened hgap hwire.2, hwire.2⟩
  simpa only [carrying, List.countP_eq_length_filter] using hsub.length_le

omit [DecidableEq C.Wire] in
theorem Booked.congr {d d' : Device C} {s : C.Session} {kept : List C.Wire}
    (h : Booked L d gap s kept) (hpeer : d'.convo.peerAddress = d.convo.peerAddress)
    (hsession : d'.sessions d.convo.peerAddress = d.sessions d.convo.peerAddress)
    (hrows : ∀ frame, received d frame ≤ received d' frame) : Booked L d' gap s kept where
  __ := h
  session := by rw [hpeer, hsession, h.session]
  rows text := Nat.le_trans (h.rows text) (hrows _)

omit [DecidableEq C.Wire] in
/-- The books survive a change of the client that keeps its session and its received rows. -/
theorem Books.congr {d : Device C} (h : Books L gap w)
    (hpeer : d.convo.peerAddress = w.device.convo.peerAddress)
    (hsession : d.sessions w.device.convo.peerAddress = w.device.sessions w.device.convo.peerAddress)
    (hrows : ∀ frame, received w.device frame ≤ received d frame) :
    Books L gap { w with device := d } := by
  obtain ⟨s, kept, hbooked, hacked⟩ := h.booked
  exact ⟨⟨s, kept, hbooked.congr hpeer hsession hrows, hacked⟩, h.ids, h.distinct⟩

omit [DecidableEq C.Wire] in
theorem Books.accept (h : Books L gap w) (wire : C.Wire) : Books L gap (w.accept wire) := by
  have hmem : ∀ x ∈ (w.accept wire).waiting, x ∈ w.waiting ∨ x = (w.nextId, wire) := fun _ => mem_concat
  refine ⟨h.booked, fun x hx => ?_, fun x hx y hy hxy => ?_⟩
  · rcases hmem x hx with hx | rfl
    · exact Nat.lt_succ_of_lt (h.ids x hx)
    · exact Nat.lt_succ_self _
  · rcases hmem x hx with hx | rfl <;> rcases hmem y hy with hy | rfl
    · exact h.distinct x hx y hy hxy
    · exact absurd hxy (Nat.ne_of_lt (h.ids x hx))
    · exact absurd hxy.symm (Nat.ne_of_lt (h.ids y hy))
    · rfl

/-! ## The listener keeps the books -/

variable [C.Comparable]

/-- The listener while the relay goes on accepting: the acked chats are stored at every moment, and the
books are closed but before the insert of a received row. -/
def serving (L : OpeningLaws E) : Setting (engineSig C) (Served C) where
  exec o w r w' := ∃ answer, w.perform E answer o = some (r, w')
  check o w := ChatsStored L w ∧ (savesNext (.op o .ret : EngineM C o.Answer) = false →
    Books L none w)
  rely w w' := ∃ wire, w' = w.accept wire
  guar _ _ := True

/-- The books are closed, and the message being handled, if there is one, waits for its ack and is
opened if it is a chat. -/
def Closed (L : OpeningLaws E) (peer : String) (current : Option (ℕ × C.Wire)) (w : Served C) :
    Prop :=
  w.device.convo.peerAddress = peer ∧ Books L none w ∧ ∀ x ∈ current, x ∈ w.waiting ∧
    ∀ s text, w.device.sessions peer = some s → L.content x.2 = some (chatV1 text) →
      x.2 ∈ L.opened s

variable {peer : String} {current : Option (ℕ × C.Wire)}

theorem stable_closed : Stable (serving L) (Closed L peer current) := by
  rintro w w' ⟨wire, rfl⟩ ⟨hpeer, hbooks, hcurrent⟩
  refine ⟨hpeer, hbooks.accept wire, fun x hx => ?_⟩
  exact ⟨List.mem_append_left _ (hcurrent x hx).1, (hcurrent x hx).2⟩

omit [DecidableEq C.Frame] in
/-- The effect of an operation that neither takes a delivery nor acks one. -/
theorem perform_of_aside {w w' : Served C} {o : Op C} {r : o.Answer}
    {answer : (o : Op C) → o.Answer} (hnext : o ≠ .socket .next) (hack : ∀ i, o ≠ .socket (.ack i))
    (h : w.perform E answer o = some (r, w')) :
    w.device.perform E ⟨none, answer⟩ o = (r, w'.device) ∧ w' = { w with device := w'.device } := by
  have hdelivers : w.delivers o (w.device.perform E ⟨none, answer⟩ o).1 = true := by
    unfold delivers
    split
    · exact absurd rfl hnext
    · rfl
  have hsettle : w.settle o = w := by
    unfold settle
    split
    · exact absurd rfl (hack _)
    · rfl
  simp only [perform, hdelivers, if_true, hsettle, Option.some.injEq, Prod.mk.injEq] at h
  obtain ⟨rfl, rfl⟩ := h
  exact ⟨rfl, rfl⟩

omit [DecidableEq C.Wire] in
theorem received_perform {o : Op C} (t : Turn C) (d : Device C)
    (ho : ∀ direction frame status, o ≠ .store (.insertMessage direction frame status))
    (frame : C.Frame) : received (d.perform E t o).2 frame = received d frame := by
  obtain ⟨f, hf, hmessages⟩ := d.messages_perform E t ho
  rw [received, hmessages, List.countP_map, received]
  congr
  funext row
  simp [(hf row).1, (hf row).2]

variable {α : Type}

/-- Operations that neither open, save nor ack a message keep the books. -/
theorem triple_closed {o : Op C} {k : o.Answer → EngineM C α}
    {post : α → Served C → Prop} (ho : o.Standalone) (hnext : o ≠ .socket .next)
    (hack : ∀ i, o ≠ .socket (.ack i))
    (hinsert : ∀ direction frame status, o ≠ .store (.insertMessage direction frame status))
    (hk : ∀ r, Triple (serving L) (Closed L peer current) (k r) post) :
    Triple (serving L) (Closed L peer current) (o.program >>= k) post := by
  refine triple_perform (m := fun _ => Closed L peer current) stable_closed ?_ ?_ hk
  · exact fun w h => ⟨h.2.1.chatsStored, fun _ => h.2.1⟩
  · rintro w r w' ⟨hpeer, hbooks, hcurrent⟩ ⟨answer, h⟩
    obtain ⟨hd, hw⟩ := perform_of_aside hnext hack h
    have hpeer' := w.device.peerAddress_perform E ⟨none, answer⟩ o
    have hsessions := w.device.sessions_perform E ⟨none, answer⟩ (o := o) fun _ _ _ h => by
      subst h
      exact ho
    rw [hd] at hpeer' hsessions
    refine ⟨trivial, hpeer'.trans hpeer, ?_, ?_⟩
    · rw [hw]
      refine hbooks.congr hpeer' (by rw [hsessions]) fun frame => ?_
      rw [← received_perform ⟨none, answer⟩ w.device hinsert frame, hd]
    · rw [hsessions, hw]
      exact hcurrent

theorem triple_closed_ret (a : α) :
    Triple (serving L) (Closed L peer current) (.ret a) fun _ => Closed L peer current :=
  triple_ret stable_closed fun _ h => h

theorem triple_closed_notify {n : Notice C} {k : Unit → EngineM C α} {post : α → Served C → Prop}
    (hk : ∀ r, Triple (serving L) (Closed L peer current) (k r) post) :
    Triple (serving L) (Closed L peer current) (notify n >>= k) post :=
  triple_closed trivial (fun h => by cases h) (fun _ h => by cases h) (fun _ _ _ h => by cases h) hk

omit [DecidableEq C.Wire] [C.Comparable] in
/-- The books do not mind a session that has opened the same. -/
theorem Books.setSession {s s' : C.Session} (h : Books L none w)
    (hs : w.device.sessions w.device.convo.peerAddress = some s) (hopened : L.opened s' = L.opened s) :
    Books L none { w with device := { w.device with
      sessions := Function.update w.device.sessions w.device.convo.peerAddress (some s') } } := by
  obtain ⟨s₀, kept, hbooked, hacked⟩ := h.booked
  obtain rfl := Option.some.inj (hs.symm.trans hbooked.session)
  refine ⟨⟨s', kept, ⟨?_, hbooked.nodup, ?_, ?_, ?_, hbooked.rows⟩, ?_⟩, h.ids, h.distinct⟩
  · exact Function.update_self _ _ _
  all_goals rw [hopened]
  · exact hbooked.opened
  · exact hbooked.open_gap
  · exact hbooked.booked
  · exact hacked

/-- Sealing a frame keeps the books. -/
theorem triple_closed_encrypt (address : String) (frame : C.Frame) :
    Triple (serving L) (Closed L peer current) (E.encryptMessage address frame)
      fun _ => Closed L peer current := by
  rw [Engine.encryptMessage]
  refine triple_perform (m := fun r w => Closed L peer current w ∧
    ∀ session, r = .ok session → w.device.sessions address = session) stable_closed
    (fun w h => ⟨h.2.1.chatsStored, fun _ => h.2.1⟩) ?_ fun loaded => ?_
  · rintro w r w' h ⟨answer, hperform⟩
    cases hperform
    refine ⟨trivial, h, fun session heq => ?_⟩
    cases heq
    rfl
  · cases loaded with
    | error e => exact (triple_closed_ret _).of_pre fun _ h => h.1
    | ok session =>
      dsimp only
      split
      · exact (triple_closed_ret _).of_pre fun _ h => h.1
      · rename_i session' wire hseal
        refine triple_perform (m := fun _ => Closed L peer current) ?_
          (fun w h => ⟨h.1.2.1.chatsStored, fun _ => h.1.2.1⟩) ?_ fun stored => ?_
        · rintro w w' ⟨wire, rfl⟩ h
          exact ⟨stable_closed _ _ ⟨wire, rfl⟩ h.1, h.2⟩
        · rintro w r w' ⟨⟨rfl, hbooks, hcurrent⟩, hsession⟩ ⟨answer, hperform⟩
          cases hperform
          refine ⟨trivial, ?_⟩
          by_cases hto : address = w.device.convo.peerAddress
          · -- the conversation's own session: it was loaded, so the step is from it
            subst hto
            obtain ⟨s, kept, hbooked, -⟩ := hbooks.booked
            obtain rfl : some s = session := hbooked.session.symm.trans (hsession _ rfl)
            have hopened := L.encrypt_opened hseal
            refine ⟨rfl, hbooks.setSession hbooked.session hopened, fun x hx => ?_⟩
            refine ⟨(hcurrent x hx).1, fun s₁ text hs₁ hx₁ => ?_⟩
            have hself : Function.update w.device.sessions w.device.convo.peerAddress (some session')
                w.device.convo.peerAddress = some session' := Function.update_self _ _ _
            obtain rfl : session' = s₁ := Option.some.inj (hself.symm.trans hs₁)
            rw [hopened]
            exact (hcurrent x hx).2 s text hbooked.session hx₁
          · have hother : Function.update w.device.sessions address (some session')
                w.device.convo.peerAddress = w.device.sessions w.device.convo.peerAddress :=
              Function.update_of_ne (Ne.symm hto) _ _
            refine ⟨rfl, hbooks.congr rfl hother fun _ => Nat.le_refl _, fun x hx => ?_⟩
            refine ⟨(hcurrent x hx).1, fun s₁ text hs₁ hx₁ => ?_⟩
            exact (hcurrent x hx).2 s₁ text (hother.symm.trans hs₁) hx₁
        · cases stored <;> exact triple_closed_ret _

/-- Handlers keep the books. -/
theorem triple_closed_dispatching {p : EngineM C α} (h : Composed E.Dispatching p) :
    Triple (serving L) (Closed L peer current) p fun _ => Closed L peer current := by
  refine h.triple stable_closed fun _ q hq => ?_
  cases hq with
  | handling hq =>
    cases hq with
    | plain o ho =>
      refine triple_closed ho.standalone ?_ ?_ ?_ triple_closed_ret
      · rintro rfl
        exact ho
      · rintro i rfl
        exact ho
      · rintro direction frame status rfl
        exact ho
    | encrypt address frame => exact triple_closed_encrypt address frame
  | markHelloSeen generation nonce =>
    exact triple_closed trivial (fun h => by cases h) (fun _ h => by cases h)
      (fun _ _ _ h => by cases h) triple_closed_ret

theorem triple_closed_handling {p : EngineM C α} (h : Composed E.Handling p) :
    Triple (serving L) (Closed L peer current) p fun _ => Closed L peer current :=
  triple_closed_dispatching (h.mono fun _ _ => .handling)

/-! ## One delivery -/

variable {id : ℕ} {wire : C.Wire}

/-- A message has just been delivered. -/
def Arrived (L : OpeningLaws E) (peer : String) (x : ℕ × C.Wire) (w : Served C) : Prop :=
  w.device.convo.peerAddress = peer ∧ Books L none w ∧ x ∈ w.waiting

/-- A chat has been opened and its row is still to be written. -/
def Unsaved (L : OpeningLaws E) (peer : String) (x : ℕ × C.Wire) (text : C.Text) (w : Served C) :
    Prop :=
  w.device.convo.peerAddress = peer ∧ Books L (some x.2) w ∧ x ∈ w.waiting ∧
    L.content x.2 = some (chatV1 text)

variable {x : ℕ × C.Wire}

theorem stable_arrived : Stable (serving L) (Arrived L peer x) := by
  rintro w w' ⟨wire, rfl⟩ ⟨hpeer, hbooks, hx⟩
  exact ⟨hpeer, hbooks.accept wire, List.mem_append_left _ hx⟩

theorem stable_unsaved {text : C.Text} : Stable (serving L) (Unsaved L peer x text) := by
  rintro w w' ⟨wire, rfl⟩ ⟨hpeer, hbooks, hx, hcontent⟩
  exact ⟨hpeer, hbooks.accept wire, List.mem_append_left _ hx, hcontent⟩

/-- How `decrypt_message` leaves a delivered message: opened with its row still to be written, or with
the books closed. -/
def Decided (L : OpeningLaws E) (peer : String) (x : ℕ × C.Wire) (r : Result C.Frame)
    (w : Served C) : Prop :=
  (∃ text, r = .ok (chatV1 text) ∧ Unsaved L peer x text w) ∨ Closed L peer (some x) w

theorem stable_decided {r : Result C.Frame} : Stable (serving L) (Decided L peer x r) := by
  rintro w w' hrely (⟨text, hr, h⟩ | h)
  · exact .inl ⟨text, hr, stable_unsaved w w' hrely h⟩
  · exact .inr (stable_closed w w' hrely h)

omit [DecidableEq C.Wire] [C.Comparable] in
/-- The books after an envelope has been opened and the session stored. -/
theorem Books.opening {s s' : C.Session} {r : Result C.Frame} (h : Books L none w)
    (hs : w.device.sessions w.device.convo.peerAddress = some s)
    (hopen : E.messageDecrypt (some s) wire = .ok (s', r))
    (hgap : gap = some wire ∨ gap = none ∧ ∀ text, L.content wire ≠ some (chatV1 text)) :
    Books L gap { w with device := { w.device with
      sessions := Function.update w.device.sessions w.device.convo.peerAddress (some s') } } := by
  obtain ⟨s₀, kept, hbooked, hacked⟩ := h.booked
  obtain rfl := Option.some.inj (hs.symm.trans hbooked.session)
  have hopened := L.decrypt_opened hopen
  have hnew : wire ∉ L.opened s := by
    intro hmem
    obtain ⟨e, he⟩ := L.decrypt_again hmem
    rw [hopen] at he
    cases he
  refine ⟨⟨s', kept, ⟨Function.update_self _ _ _, hbooked.nodup, ?_, ?_, ?_, hbooked.rows⟩, ?_⟩,
    h.ids, h.distinct⟩
  all_goals rw [hopened]
  · exact fun x hx => .inr (hbooked.opened x hx)
  · intro x hx
    rcases hgap with rfl | ⟨rfl, -⟩
    · cases hx
      exact ⟨.inl rfl, fun hkept => hnew (hbooked.opened _ hkept)⟩
    · cases hx
  · rintro x text (rfl | hx) hnotgap hcontent
    · rcases hgap with rfl | ⟨-, hnone⟩
      · exact absurd rfl hnotgap
      · exact absurd hcontent (hnone text)
    · exact hbooked.booked x text hx (fun h => by cases h) hcontent
  · intro x hx text hcontent
    obtain ⟨hx', -⟩ := hacked x hx text hcontent
    refine ⟨.inr hx', fun hxgap => ?_⟩
    rcases hgap with rfl | ⟨rfl, -⟩
    · cases hxgap
      exact hnew hx'
    · cases hxgap

/-- `decrypt_message` on a delivered message. -/
theorem triple_decrypt :
    Triple (serving L) (Arrived L peer (id, wire)) (E.decryptMessage peer wire)
      (Decided L peer (id, wire)) := by
  have hret : ∀ r : Result C.Frame, Triple (serving L) (Decided L peer (id, wire) r) (.ret r)
      (Decided L peer (id, wire)) :=
    fun r => triple_ret stable_decided fun _ h => h
  rw [Engine.decryptMessage]
  refine triple_perform (m := fun r w => Arrived L peer (id, wire) w ∧
    r = .ok (w.device.sessions peer)) stable_arrived
    (fun w h => ⟨h.2.1.chatsStored, fun _ => h.2.1⟩) ?_ fun loaded => ?_
  · rintro w r w' h ⟨answer, hperform⟩
    cases hperform
    exact ⟨trivial, h, rfl⟩
  · cases loaded with
    | error e =>
      rintro w ⟨-, h⟩
      cases h
    | ok session =>
      dsimp only
      split
      · -- refused: of the peer's envelopes only those already opened are
        rename_i e he
        refine (hret (.error e)).of_pre ?_
        rintro w ⟨⟨rfl, hbooks, hx⟩, hsession⟩
        refine .inr ⟨rfl, hbooks, fun x hx' => ?_⟩
        obtain rfl := Option.some.inj hx'
        refine ⟨hx, fun s text hs hcontent => ?_⟩
        by_contra hnew
        obtain ⟨s', hs'⟩ := L.decrypt_new hcontent hnew
        obtain rfl := Except.ok.inj (hsession.trans (congrArg Except.ok hs))
        rw [he] at hs'
        cases hs'
      · rename_i session' frame he
        refine triple_perform (m := fun r w => r = .ok () ∧ Decided L peer (id, wire) frame w) ?_
          (fun w h => ⟨h.1.2.1.chatsStored, fun _ => h.1.2.1⟩) ?_ fun stored => ?_
        · rintro w w' ⟨other, rfl⟩ h
          exact ⟨stable_arrived _ _ ⟨other, rfl⟩ h.1, h.2⟩
        · rintro w r w' ⟨⟨rfl, hbooks, hx⟩, hsession⟩ ⟨answer, hperform⟩
          cases hperform
          refine ⟨trivial, rfl, ?_⟩
          obtain ⟨s, kept, hbooked, -⟩ := hbooks.booked
          obtain rfl := Except.ok.inj (hsession.trans (congrArg Except.ok hbooked.session))
          have hself : Function.update w.device.sessions w.device.convo.peerAddress (some session')
              w.device.convo.peerAddress = some session' := Function.update_self _ _ _
          by_cases hchat : ∃ text, L.content wire = some (chatV1 text)
          · obtain ⟨text, htext⟩ := hchat
            have hnew : wire ∉ L.opened s := by
              intro hmem
              obtain ⟨e, he'⟩ := L.decrypt_again hmem
              rw [he] at he'
              cases he'
            obtain ⟨s', hs'⟩ := L.decrypt_new htext hnew
            rw [he] at hs'
            cases hs'
            exact .inl ⟨text, rfl, rfl, hbooks.opening hbooked.session he (.inl rfl), hx, htext⟩
          · have hnone : ∀ text, L.content wire ≠ some (chatV1 text) := fun text h => hchat ⟨text, h⟩
            refine .inr ⟨rfl, hbooks.opening hbooked.session he (.inr ⟨rfl, hnone⟩), fun x hx' => ?_⟩
            obtain rfl := Option.some.inj hx'
            exact ⟨hx, fun _ text _ hcontent => absurd hcontent (hnone text)⟩
        · cases stored with
          | error e =>
            rintro w ⟨h, -⟩
            cases h
          | ok _ => exact (hret frame).of_pre fun _ h => h.2

omit [DecidableEq C.Wire] [C.Comparable] in
/-- A new received row counts for its frame. -/
theorem received_append (d : Device C) (i : ℕ) (f frame : C.Frame) (status : Status) :
    received { d with messages := d.messages ++ [⟨i, .incoming, f, status⟩] } frame =
      received d frame + if f = frame then 1 else 0 := by
  simp [received, List.countP_append, List.countP_singleton]

omit [DecidableEq C.Wire] [C.Comparable] in
/-- Writing the missing row closes the books. -/
theorem Books.saving {text : C.Text} (h : Books L (some wire) w)
    (hcontent : L.content wire = some (chatV1 text)) (i : ℕ) (status : Status) :
    Books L none { w with device := { w.device with
      messages := w.device.messages ++ [⟨i, .incoming, chatV1 text, status⟩] } } := by
  obtain ⟨s, kept, hbooked, hacked⟩ := h.booked
  obtain ⟨hopened, hnew⟩ := hbooked.open_gap wire rfl
  refine ⟨⟨s, wire :: kept, ⟨hbooked.session, List.nodup_cons.mpr ⟨hnew, hbooked.nodup⟩, ?_,
    fun _ h => (by cases h), ?_, ?_⟩, ?_⟩, h.ids, h.distinct⟩
  · intro x hx
    rcases List.mem_cons.mp hx with rfl | hx
    · exact hopened
    · exact hbooked.opened x hx
  · intro x text' hx _ hx'
    by_cases hxw : x = wire
    · exact hxw ▸ List.mem_cons_self
    · refine List.mem_cons_of_mem _ (hbooked.booked x text' hx ?_ hx')
      exact fun h => hxw (Option.some.inj h).symm
  · intro text'
    have hrows := hbooked.rows text'
    rw [received_append, carrying, List.countP_cons, ← carrying, hcontent]
    by_cases heq : chatV1 text = (chatV1 text' : C.Frame)
    · simpa [heq] using hrows
    · simpa [heq] using hrows
  · exact fun x hx text' hx' => ⟨(hacked x hx text' hx').1, fun h => by cases h⟩

/-- A chat's row is written, and the books are closed. -/
theorem triple_dispatch_chat (typeVersion : UInt8) (text : C.Text) :
    Triple (serving L) (Decided L peer x (.ok (.chat typeVersion text)))
      (E.dispatch (.chat typeVersion text)) fun _ => Closed L peer (some x) := by
  rw [Engine.dispatch]
  refine triple_perform (m := fun _ => Closed L peer (some x)) stable_decided ?_ ?_ fun row => ?_
  · refine fun w h => ⟨?_, fun hsaves => by cases hsaves⟩
    rcases h with ⟨text', -, h⟩ | h
    · exact h.2.1.chatsStored
    · exact h.2.1.chatsStored
  · rintro w r w' h ⟨answer, hperform⟩
    cases hperform
    refine ⟨trivial, ?_⟩
    rcases h with ⟨text', hframe, hpeer, hbooks, hx, hcontent⟩ | ⟨hpeer, hbooks, hx⟩
    · obtain ⟨s, kept, hbooked, -⟩ := hbooks.booked
      obtain ⟨hopened, -⟩ := hbooked.open_gap x.2 rfl
      have hframe' : Frame.chat typeVersion text = chatV1 text' := Except.ok.inj hframe
      refine ⟨hpeer, ?_, fun y hy => ?_⟩
      · have hsaved := hbooks.saving hcontent w.device.messages.length .received
        rw [← hframe'] at hsaved
        exact hsaved
      · cases hy
        refine ⟨hx, fun s₁ _ hs₁ _ => ?_⟩
        have hs : w.device.sessions peer = some s := hpeer ▸ hbooked.session
        obtain rfl := Option.some.inj (hs.symm.trans hs₁)
        exact hopened
    · refine ⟨hpeer, hbooks.congr rfl rfl fun frame => ?_, hx⟩
      exact Nat.le_trans (Nat.le_add_right _ _)
        (Nat.le_of_eq (received_append w.device w.device.messages.length _ frame .received).symm)
  · cases row with
    | error e => exact triple_closed_ret _
    | ok row =>
      exact triple_closed_notify fun _ => triple_closed_ret _

/-- **`handle_incoming` closes the books on the message.** -/
theorem triple_handleIncoming :
    Triple (serving L) (Arrived L peer (id, wire)) (E.handleIncoming peer wire)
      fun _ => Closed L peer (some (id, wire)) := by
  refine triple_bind triple_decrypt fun r => ?_
  have hclosed : (∀ text, r ≠ .ok (chatV1 text)) → ∀ w, Decided L peer (id, wire) r w →
      Closed L peer (some (id, wire)) w := by
    rintro hr w (⟨text, htext, -⟩ | h)
    · exact absurd htext (hr text)
    · exact h
  cases r with
  | error e => exact (triple_closed_ret _).of_pre (hclosed fun _ h => by cases h)
  | ok frame =>
    by_cases hchat : ∃ typeVersion text, frame = .chat typeVersion text
    · obtain ⟨typeVersion, text, rfl⟩ := hchat
      exact triple_dispatch_chat typeVersion text
    · have hne : ∀ typeVersion text, frame ≠ .chat typeVersion text :=
        fun typeVersion text h => hchat ⟨typeVersion, text, h⟩
      refine (triple_closed_dispatching (Engine.dispatching_dispatch hne)).of_pre (hclosed ?_)
      exact fun text h => hne 1 text (Except.ok.inj h)

/-- An ack of a message the books are closed on. -/
theorem triple_ack {k : Unit → EngineM C α} {post : α → Served C → Prop}
    (hk : Triple (serving L) (Closed L peer none) (k ()) post) :
    Triple (serving L) (Closed L peer (some (id, wire))) (socket (.ack id) >>= k) post := by
  refine triple_perform (m := fun _ => Closed L peer none) stable_closed
    (fun w h => ⟨h.2.1.chatsStored, fun _ => h.2.1⟩) ?_ fun _ => hk
  rintro w r w' ⟨hpeer, hbooks, hcurrent⟩ ⟨answer, hperform⟩
  cases hperform
  obtain ⟨hwaits, hopened⟩ := hcurrent (id, wire) rfl
  obtain ⟨s, kept, hbooked, hacked⟩ := hbooks.booked
  refine ⟨trivial, hpeer, ⟨⟨s, kept, hbooked, ?_⟩, ?_, ?_⟩, fun _ h => by cases h⟩
  · intro x hx text hcontent
    rcases List.mem_append.mp hx with hx | hx
    · exact hacked x hx text hcontent
    · -- the id names the delivered message only
      obtain ⟨⟨i, x'⟩, hy, rfl⟩ := List.mem_map.mp hx
      obtain ⟨hmem, hi⟩ := List.mem_filter.mp hy
      obtain ⟨-, rfl⟩ := Prod.mk.inj (hbooks.distinct _ hmem _ hwaits (of_decide_eq_true hi))
      refine ⟨hopened s text ?_ hcontent, fun h => by cases h⟩
      exact hpeer ▸ hbooked.session
  · exact fun x hx => hbooks.ids x (List.mem_filter.mp hx).1
  · exact fun x hx y hy => hbooks.distinct x (List.mem_filter.mp hx).1 y (List.mem_filter.mp hy).1

/-- A delivery is a waiting message. -/
theorem triple_next {k : Event C → EngineM C α} {post : α → Served C → Prop}
    (hdelivery : ∀ msgId envelope, Triple (serving L) (Arrived L peer (msgId, envelope))
      (k (.delivery msgId envelope)) post)
    (hidle : Triple (serving L) (Closed L peer none) (k .idle) post)
    (hclosed : Triple (serving L) (Closed L peer none) (k .closed) post) :
    Triple (serving L) (Closed L peer none) (socket .next >>= k) post := by
  refine triple_perform (m := fun r w => match r with
    | .delivery msgId envelope => Arrived L peer (msgId, envelope) w
    | _ => Closed L peer none w) stable_closed (fun w h => ⟨h.2.1.chatsStored, fun _ => h.2.1⟩) ?_ ?_
  · rintro w r w' h ⟨answer, hperform⟩
    simp only [Served.perform] at hperform
    split at hperform
    · rename_i hdelivers
      obtain ⟨hr, rfl⟩ := Prod.mk.inj (Option.some.inj hperform)
      rw [hr] at hdelivers
      refine ⟨trivial, ?_⟩
      split
      · exact ⟨h.1, h.2.1, of_decide_eq_true hdelivers⟩
      · exact h
    · cases hperform
  · intro r
    cases r with
    | delivery msgId envelope => exact hdelivery msgId envelope
    | idle => exact hidle
    | closed => exact hclosed

theorem triple_deliveryLoop (fuel : ℕ) :
    Triple (serving L) (Closed L peer none) (E.deliveryLoop peer fuel) fun _ => Closed L peer none := by
  induction fuel with
  | zero => exact triple_closed_ret _
  | succ fuel ih =>
    rw [Engine.deliveryLoop]
    refine triple_next (fun msgId envelope => ?_) ?_ ?_
    · refine triple_bind triple_handleIncoming fun changed => triple_ack ?_
      cases changed with
      | true => exact triple_closed_ret _
      | false => exact ih
    · exact triple_bind (triple_closed_handling Engine.handling_flushPending) fun _ => ih
    · exact triple_closed_ret _

theorem triple_conversationListener (fuel : ℕ) :
    Triple (serving L) (Closed L peer none) (E.conversationListener fuel)
      fun _ => Closed L peer none := by
  refine Engine.triple_listener stable_closed (fun w h => ⟨h.2.1.chatsStored, fun _ => h.2.1⟩) ?_
    triple_closed_handling (fun _ => triple_closed (by trivial) (fun h => by cases h)
      (fun _ h => by cases h) (fun _ _ _ h => by cases h) triple_closed_ret) triple_deliveryLoop fuel
  rintro w r w' h ⟨answer, hperform⟩
  cases hperform
  refine ⟨trivial, h, fun convo hconvo => ?_⟩
  cases hconvo
  exact h.1

/-! ## Whole lives -/

/-- The conversation is with `peer`, and its listener is safe from here on. -/
def Alive (L : OpeningLaws E) (peer : String) (x : Served C × EngineM C Unit) : Prop :=
  x.1.device.convo.peerAddress = peer ∧ Safe (serving L) (fun _ => Closed L peer none) x.2 x.1

theorem alive_of_closed (h : Closed L peer none w) (fuel : ℕ) :
    Alive L peer (w, E.conversationListener fuel) :=
  ⟨h.1, triple_conversationListener fuel w h⟩

theorem Alive.chatsStored {x : Served C × EngineM C Unit} (h : Alive L peer x) :
    ChatsStored L x.1 := by
  obtain ⟨w, p⟩ := x
  cases p with
  | ret a => exact h.2.post_ret.2.1.chatsStored
  | op o k => exact h.2.check.1

/-- Between the operations of a save the books are open, elsewhere they are closed. -/
theorem Alive.books {x : Served C × EngineM C Unit} (h : Alive L peer x)
    (hsaves : savesNext x.2 = false) : Books L none x.1 := by
  obtain ⟨w, p⟩ := x
  cases p with
  | ret a => exact h.2.post_ret.2.1
  | op o k => exact h.2.check.2 hsaves

theorem Alive.step {x y : Served C × EngineM C Unit} {l : Life C} (h : Alive L peer x)
    (hwhole : WholeSave x l) (hstep : Served.step E x l = some y) : Alive L peer y := by
  obtain ⟨w, p⟩ := x
  cases l with
  | act answer =>
    cases p with
    | ret a => cases hstep
    | op o k =>
      obtain ⟨⟨r, w'⟩, hperform, rfl⟩ := Option.map_eq_some_iff.mp hstep
      refine ⟨?_, (h.2.step ⟨answer, hperform⟩).2⟩
      have hpeer := w.device.peerAddress_perform E ⟨none, answer⟩ o
      simp only [Served.perform] at hperform
      split at hperform
      · cases hperform
        exact hpeer.trans h.1
      · cases hperform
  | accept wire =>
    cases hstep
    exact ⟨h.1, h.2.of_rely ⟨wire, rfl⟩⟩
  | restart fuel =>
    cases hstep
    have hbooks : Books L none w.forget := (h.books hwhole).congr rfl rfl fun _ => Nat.le_refl _
    exact alive_of_closed (w := w.forget) ⟨h.1, hbooks, fun _ h => by cases h⟩ fuel

end Served

open Served

variable {C : Carrier} [C.Comparable]
  [DecidableEq C.Wire] [DecidableEq C.Frame]

/-- **Crashes lose no received chat as long as none falls between the opening of a chat and the commit
of its row.** For every client that is caught up, and every life of it in which the process may be
killed and restarted at any other point: in every state reached, every chat acked to the relay is
stored. A message that is not acked keeps being delivered. -/
theorem acked_chats_stored {E : Engine C} (L : OpeningLaws E) (d : Device C) (hstart : CaughtUp L d)
    (fuel : ℕ) (ls : List (Life C)) (x : Served C × EngineM C Unit)
    (hwhole : Along (Served.step E) WholeSave (⟨d, [], 0, []⟩, E.conversationListener fuel) ls)
    (hrun : run (Served.step E) (⟨d, [], 0, []⟩, E.conversationListener fuel) ls = some x) :
    ChatsStored L x.1 := by
  obtain ⟨s, kept, hbooked⟩ := hstart
  have hbooks : Books L none (⟨d, [], 0, []⟩ : Served C) :=
    ⟨⟨s, kept, hbooked, fun _ h => (by cases h)⟩, fun _ h => (by cases h), fun _ h => (by cases h)⟩
  have halive : Alive L d.convo.peerAddress (⟨d, [], 0, []⟩, E.conversationListener fuel) :=
    alive_of_closed ⟨rfl, hbooks, fun _ h => by cases h⟩ fuel
  exact (run_invariant (fun _ _ _ h hok hstep => h.step hok hstep) halive hwhole hrun).chatsStored

/-! ## A crash in between -/

/-- The counting ratchet opens each envelope once. -/
def countingOpening : OpeningLaws countingEngine where
  content wire := some (.chat 1 wire)
  opened s := { wire | wire ∈ s.2 }
  decrypt_new {s wire frame} hcontent hnew := by
    cases hcontent
    exact ⟨(s.1, wire :: s.2), by simp [countingEngine, show wire ∉ s.2 from hnew]⟩
  decrypt_again {s wire} hmem := ⟨.replay, by simp [countingEngine, show wire ∈ s.2 from hmem]⟩
  decrypt_opened h := by
    simp only [countingEngine] at h
    split at h
    · cases h
    · simp only [Except.ok.injEq, Prod.mk.injEq] at h
      rw [← h.1]
      exact Set.ext fun x => List.mem_cons
  encrypt_opened h := by
    simp only [countingEngine, Except.ok.injEq, Prod.mk.injEq] at h
    rw [← h.1]

theorem freshDevice_caughtUp : CaughtUp countingOpening freshDevice :=
  ⟨(0, []), [], rfl, List.nodup_nil, fun _ h => (by cases h), fun _ h => (by cases h),
    fun _ _ h => (by cases h), fun _ => Nat.zero_le _⟩

/-- The relay accepts message `100`; the listener connects, is delivered it and takes `n` more
operations, is killed and restarted, connects and handles what it is delivered, up to the ack. -/
def killedAfter (n : ℕ) : List (Life countingCarrier) :=
  .accept 100 :: List.replicate (9 + n) (.act (calmOracle [])) ++ .restart 2 ::
    List.replicate 11 (.act (calmOracle []))

/-- **A crash between opening and saving loses a chat.** The listener has loaded and stored the session
when it is killed. Message `100` is delivered again, refused as a duplicate and acked: it is in no row
and the relay has forgotten it. -/
theorem crash_loses_chat :
    ∃ x, run (Served.step countingEngine) (⟨freshDevice, [], 0, []⟩,
        countingEngine.conversationListener 2) (killedAfter 2) = some x ∧
      ¬ ChatsStored countingOpening x.1 := by
  refine ⟨_, rfl, fun hstored => ?_⟩
  exact absurd (hstored (100 : ℕ)) (by decide)

/-- Killed one operation later, the listener finds message `100` refused but stored. -/
theorem crash_after_save_keeps_chat :
    ∃ x, run (Served.step countingEngine) (⟨freshDevice, [], 0, []⟩,
        countingEngine.conversationListener 2) (killedAfter 3) = some x ∧
      x.1.acked = [100] ∧ ChatsStored countingOpening x.1 := by
  exact ⟨_, rfl, rfl, acked_chats_stored countingOpening freshDevice freshDevice_caughtUp 2
    (killedAfter 3) _ (by decide) rfl⟩

end Titlan
