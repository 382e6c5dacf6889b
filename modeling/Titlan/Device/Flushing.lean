import Titlan.Device.Attempt
import Titlan.Foundation.Queue

/-! # What a flush settles

`flush_pending` seals and deposits the pending rows in order. A row leaves the queue once the relay has
accepted its envelope or has said that it never will, with 400 or 413. At any other answer, and at a row
that cannot be sealed, the flush ends, and that row and every row behind it stay pending. -/

namespace Titlan

open Foundation

variable {C : Carrier}

/-! ## The queue -/

/-- A client that can send: the peer's inbox is known, there is a session, and a row's id is its place. -/
structure Device.Ready (d : Device C) : Prop where
  mailbox : d.convo.mailboxSend.isSome
  session : (d.sessions d.convo.peerAddress).isSome
  numbered : d.messages.map (·.id) = List.range d.messages.length

theorem marked_nil (rows : List (StoredMessage C)) : marked (· ∈ []) rows = rows := by
  simp [marked]

theorem marked_marked (id : ℕ) (ids : List ℕ) (rows : List (StoredMessage C)) :
    marked (· ∈ ids) (marked (· = id) rows) = marked (· ∈ id :: ids) rows := by
  simp only [marked, List.map_map]
  refine List.map_congr_left fun m _ => ?_
  by_cases hid : m.id = id <;> by_cases hids : m.id ∈ ids <;> simp [hid, hids]

theorem ids_marked (p : ℕ → Prop) [DecidablePred p] (rows : List (StoredMessage C)) :
    (marked p rows).map (·.id) = rows.map (·.id) := by
  rw [marked, List.map_map]
  refine List.map_congr_left fun m _ => ?_
  show (if p m.id then { m with status := .sent } else m : StoredMessage C).id = m.id
  split <;> rfl

/-- The rows of a numbered table that are still pending once the first ones are marked. -/
theorem pending_marked {d d' : Device C} {gone rest : List (ℕ × C.Frame)}
    (hnumbered : d.messages.map (·.id) = List.range d.messages.length)
    (hpending : d.pending = gone ++ rest)
    (hmessages : d'.messages = marked (· ∈ gone.map Prod.fst) d.messages) : d'.pending = rest := by
  have hnodup : (d.pending.map Prod.fst).Nodup := by
    rw [Device.pending, List.map_map]
    refine List.Nodup.sublist (List.Sublist.map StoredMessage.id List.filter_sublist) ?_
    rw [hnumbered]
    exact List.nodup_range
  rw [hpending] at hnodup
  rw [← filter_notMem_served hnodup, ← hpending, Device.pending, hmessages, filter_marked,
    Device.pending, List.filter_map]
  rfl

/-! ## Answers -/

variable {A : C.Wire → Result DepositOutcome → Prop} {ts : List (Turn C)} {E : Engine C} {d d' : Device C}

/-- No storage access fails, and deposits are answered as `A` says. -/
def Answering (A : C.Wire → Result DepositOutcome → Prop) (ts : List (Turn C)) : Prop :=
  ∀ t ∈ ts, t.fault = none ∧
    ∀ relayUrl id wire, A wire (t.answer (.relay (.deposit relayUrl id wire)))

theorem Answering.calm (h : Answering A ts) : Calm ts := fun t ht => (h t ht).1

theorem Answering.of_append {ts₁ ts₂ : List (Turn C)} (h : Answering A (ts₁ ++ ts₂)) :
    Answering A ts₁ ∧ Answering A ts₂ :=
  ⟨fun t ht => h t (List.mem_append_left _ ht), fun t ht => h t (List.mem_append_right _ ht)⟩

theorem Answering.of_cons {t : Turn C} (h : Answering A (t :: ts)) : Answering A ts :=
  fun t' ht' => h t' (List.mem_cons_of_mem t ht')

/-- The frame was sealed, and its deposit was answered so. -/
def Answered (E : Engine C) (A : C.Wire → Result DepositOutcome → Prop) (frame : C.Frame)
    (answer : Result DepositOutcome) : Prop :=
  ∃ session session' wire, E.messageEncrypt (some session) frame = .ok (session', wire) ∧ A wire answer

/-- The frame could not be sealed, or the answer left it open. -/
def Open (E : Engine C) (A : C.Wire → Result DepositOutcome → Prop) (frame : C.Frame) : Prop :=
  (∃ session e, E.messageEncrypt (some session) frame = .error e) ∨
    ∃ answer, Answered E A frame answer ∧ ∀ outcome, answer = .ok outcome → ¬ outcome.Final

/-- What the loop over `pending` has done: some rows in front were answered for good and are marked, and the
next is left open. -/
structure Flushed (E : Engine C) (A : C.Wire → Result DepositOutcome → Prop) (peer : String)
    (pending : List (ℕ × C.Frame)) (d d' : Device C) : Prop where
  convo : d'.convo = d.convo
  session : (d'.sessions peer).isSome
  rows : ∃ gone rest, pending = gone ++ rest ∧
    d'.messages = marked (· ∈ gone.map Prod.fst) d.messages ∧
    (∀ x ∈ gone, ∃ outcome, Answered E A x.2 (.ok outcome) ∧ outcome.Final) ∧
    ∀ x, rest.head? = some x → Open E A x.2

section Flushed

variable {peer : String} {x : ℕ × C.Frame} {pending : List (ℕ × C.Frame)} {d₁ : Device C}

/-- The loop ends at a row. -/
theorem Flushed.stop (hconvo : d'.convo = d.convo) (hmessages : d'.messages = d.messages)
    (hsession : (d'.sessions peer).isSome) (hopen : Open E A x.2) :
    Flushed E A peer (x :: pending) d d' := by
  refine ⟨hconvo, hsession, [], x :: pending, rfl, ?_, fun _ hx => (by cases hx), fun y hy => ?_⟩
  · rw [hmessages]
    exact (marked_nil _).symm
  · cases hy
    exact hopen

/-- A row is marked, and the loop goes on. -/
theorem Flushed.next (h : Flushed E A peer pending d₁ d') (hconvo : d₁.convo = d.convo)
    (hmessages : d₁.messages = marked (· = x.1) d.messages) {outcome : DepositOutcome}
    (hanswered : Answered E A x.2 (.ok outcome)) (hfinal : outcome.Final) :
    Flushed E A peer (x :: pending) d d' := by
  obtain ⟨gone, rest, rfl, hmarked, hgone, hrest⟩ := h.rows
  refine ⟨h.convo.trans hconvo, h.session, x :: gone, rest, rfl, ?_, fun y hy => ?_, hrest⟩
  · rw [hmarked, hmessages, marked_marked]
    rfl
  · obtain rfl | hy := List.mem_cons.mp hy
    · exact ⟨outcome, hanswered, hfinal⟩
    · exact hgone y hy

end Flushed

/-! ## The loop -/

variable [C.Comparable]

/-- `encrypt_message` over a session. -/
theorem exec_encryptMessage {peer : String} {frame : C.Frame} {sealed : Result C.Wire}
    (hcalm : Calm ts) (hsession : (d.sessions peer).isSome)
    (h : Device.exec E (E.encryptMessage peer frame) ts d = some (sealed, d')) :
    d'.convo = d.convo ∧ d'.messages = d.messages ∧ (d'.sessions peer).isSome ∧
      ∃ session, sealed = (E.messageEncrypt (some session) frame).map Prod.snd := by
  obtain ⟨session, hsession'⟩ := Option.isSome_iff_exists.mp hsession
  rw [Engine.encryptMessage] at h
  obtain ⟨loading, ts₁, rfl, hcalm₁, h₁⟩ := exec_store_bind hcalm h
  simp only [Device.performStore, hsession'] at h₁
  cases hout : E.messageEncrypt (some session) frame with
  | ok out =>
    obtain ⟨session', wire⟩ := out
    rw [hout] at h₁
    obtain ⟨storing, ts₂, rfl, -, h₂⟩ := exec_store_bind hcalm₁ h₁
    obtain ⟨-, rfl, rfl⟩ := Device.exec_ret_eq h₂
    exact ⟨rfl, rfl, by simp [Device.performStore], session, by rw [hout]; rfl⟩
  | error e =>
    rw [hout] at h₁
    obtain ⟨-, rfl, rfl⟩ := Device.exec_ret_eq h₁
    exact ⟨rfl, rfl, hsession, session, by rw [hout]; rfl⟩

variable {result : Result Unit}

theorem exec_depositPending {convo : Conversation C} {mailbox : C.Id} {pending : List (ℕ × C.Frame)}
    (hts : Answering A ts) (hsession : (d.sessions convo.peerAddress).isSome)
    (h : Device.exec E (E.depositPending convo mailbox pending) ts d = some (result, d')) :
    Flushed E A convo.peerAddress pending d d' := by
  induction pending generalizing ts d with
  | nil =>
    obtain ⟨-, -, rfl⟩ := Device.exec_ret_eq h
    exact ⟨rfl, hsession, [], [], rfl, (marked_nil _).symm, fun _ hx => (by cases hx),
      fun _ hx => (by cases hx)⟩
  | cons x pending ih =>
    obtain ⟨msgId, frame⟩ := x
    rw [Engine.depositPending] at h
    obtain ⟨ts₁, ts₂, sealed, d₁, rfl, hsealing, h₁⟩ := Device.exec_bind h
    obtain ⟨hts₁, hts₂⟩ := hts.of_append
    obtain ⟨hconvo₁, hmessages₁, hsession₁, session, hsealed⟩ :=
      exec_encryptMessage hts₁.calm hsession hsealing
    cases hout : E.messageEncrypt (some session) frame with
    | error e =>
      rw [hout] at hsealed
      subst hsealed
      obtain ⟨-, -, rfl⟩ := Device.exec_ret_eq h₁
      exact .stop hconvo₁ hmessages₁ hsession₁ (.inl ⟨session, e, hout⟩)
    | ok out =>
      obtain ⟨session', wire⟩ := out
      rw [hout] at hsealed
      subst hsealed
      cases ts₂ with
      | nil => cases h₁
      | cons depositing ts₃ =>
        have hts₃ := hts₂.of_cons
        have hA := (hts₂ depositing List.mem_cons_self).2 convo.relayUrl mailbox wire
        change Device.exec E (relay _ >>= _) _ _ = _ at h₁
        rw [relay, Device.exec_perform_bind] at h₁
        simp only [Device.perform] at h₁
        generalize depositing.answer (.relay (.deposit convo.relayUrl mailbox wire)) = answer at h₁ hA
        have hanswered : Answered E A frame answer := ⟨session, session', wire, hout, hA⟩
        -- an answer that is not final ends the flush, and after one that is it goes on
        have hstop : (∀ outcome, answer = .ok outcome → ¬ outcome.Final) → d' = d₁ →
            Flushed E A convo.peerAddress ((msgId, frame) :: pending) d d' := by
          rintro hopen rfl
          exact .stop hconvo₁ hmessages₁ hsession₁ (.inr ⟨answer, hanswered, hopen⟩)
        cases answer with
        | error e =>
          obtain ⟨-, -, rfl⟩ := Device.exec_ret_eq h₁
          exact hstop (fun _ heq => by cases heq) rfl
        | ok outcome =>
          have hnext : ∀ {d₂ : Device C} {ts₄ : List (Turn C)},
              Device.exec E (E.depositPending convo mailbox pending) ts₄ d₂ = some (result, d') →
              outcome.Final → Answering A ts₄ → d₂.convo = d₁.convo → d₂.sessions = d₁.sessions →
              d₂.messages = marked (· = msgId) d₁.messages →
              Flushed E A convo.peerAddress ((msgId, frame) :: pending) d d' := by
            intro d₂ ts₄ hrest hfinal hts₄ hconvo hsessions hmessages
            exact (ih hts₄ (hsessions ▸ hsession₁) hrest).next (hconvo.trans hconvo₁)
              (hmessages₁ ▸ hmessages) hanswered hfinal
          cases outcome with
          | accepted =>
            obtain ⟨marking, ts₄, rfl, -, h₂⟩ := exec_store_bind hts₃.calm h₁
            exact hnext h₂ (.inl rfl) hts₃.of_cons rfl rfl rfl
          | notFound =>
            obtain ⟨-, -, rfl⟩ := Device.exec_ret_eq h₁
            exact hstop (fun _ heq => by cases heq; rintro (h | h | h) <;> cases h) rfl
          | other status =>
            change Device.exec E (if status = 400 ∨ status = 413 then _ else _) _ _ = _ at h₁
            split at h₁
            next hstatus =>
              obtain ⟨marking, ts₄, rfl, -, h₂⟩ := exec_store_bind hts₃.calm h₁
              cases ts₄ with
              | nil => cases h₂
              | cons notifying ts₅ =>
                exact hnext h₂ (.inr (hstatus.imp (congrArg _) (congrArg _))) hts₃.of_cons.of_cons
                  rfl rfl rfl
            next hstatus =>
              obtain ⟨-, -, rfl⟩ := Device.exec_ret_eq h₁
              refine hstop (fun _ heq => ?_) rfl
              cases heq
              rintro (h | h | h) <;> cases h
              · exact hstatus (.inl rfl)
              · exact hstatus (.inr rfl)

/-- **A completed flush.** The pending rows are those that were answered for good and those that are left, and
the flush has stopped at the first of these because it could not seal it or because the answer left it
open. -/
theorem exec_flushPending (hts : Answering A ts) (hready : d.Ready)
    (h : Device.exec E E.flushPending ts d = some (result, d')) :
    d'.Ready ∧ ∃ gone, d.pending = gone ++ d'.pending ∧
      (∀ x ∈ gone, ∃ outcome, Answered E A x.2 (.ok outcome) ∧ outcome.Final) ∧
      ∀ x, d'.pending.head? = some x → Open E A x.2 := by
  obtain ⟨mailbox, hmailbox⟩ := Option.isSome_iff_exists.mp hready.mailbox
  rw [Engine.flushPending] at h
  obtain ⟨locking, ts₁, rfl, h₁⟩ := exec_ram_bind h
  obtain ⟨ts₂, ts₃, flushed, d₁, rfl, hlocked, h₂⟩ := Device.exec_bind h₁
  obtain ⟨unlocking, ts₄, rfl, h₃⟩ := exec_ram_bind h₂
  obtain ⟨-, -, rfl⟩ := Device.exec_ret_eq h₃
  rw [Engine.flushLocked] at hlocked
  obtain ⟨reading, ts₅, rfl, hcalm₅, h₄⟩ := exec_store_bind hts.of_cons.of_append.1.calm hlocked
  simp only [Device.performStore, Device.performRam, hmailbox] at h₄
  obtain ⟨listing, ts₆, rfl, -, h₅⟩ := exec_store_bind hcalm₅ h₄
  have hdeposit : Device.exec E (E.depositPending d.convo mailbox d.pending) ts₆ d = some (flushed, d') :=
    h₅
  have hflushed := exec_depositPending hts.of_cons.of_append.1.of_cons.of_cons hready.session hdeposit
  obtain ⟨gone, rest, hpending, hmessages, hgone, hrest⟩ := hflushed.rows
  have hnumbered : d'.messages.map (·.id) = List.range d'.messages.length := by
    rw [hmessages, ids_marked, hready.numbered, marked, List.length_map]
  have hleft := pending_marked hready.numbered hpending hmessages
  refine ⟨⟨?_, ?_, hnumbered⟩, gone, hleft ▸ hpending, hgone, hleft ▸ hrest⟩
  · rw [hflushed.convo]
    exact hready.mailbox
  · rw [hflushed.convo]
    exact hflushed.session

end Titlan
