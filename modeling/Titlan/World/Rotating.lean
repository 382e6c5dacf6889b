import Titlan.World.Hearing

/-! # Handling a handoff

`handle_rotation`, operation by operation. The responder adopts the offered inbox, moves to one it has
generated and answers; the offerer, which remembers what it offered, adopts the answer and moves. Either
deletes the derived inbox it has left and is then at rest on a generated inbox. -/

namespace Titlan.World.Refinement

open Foundation

variable [Sealing] {ρ : Course} {p : Role} {b inbox : MailboxId} {m : Queued} {s s' : St} {k n x y : ℕ}

/-! ## The end of a rotation -/

/-- The party has left its derived inbox `k` for the generated inbox `n`. -/
structure Left (ρ : Course) (p : Role) (k n : ℕ) (s : St) : Prop where
  recv : (ρ.view s).OnGenerated p n
  own : (ρ.view s).own p = k
  rotated : (ρ.view s).Rotated n p
  seen : ∀ e ∈ (s.party p).helloSeen, e.1 ≤ k
  lone : p = .responder → (s.party p).rotation = none

theorem lasts_left : Lasts ρ p (Left ρ p k n) := by
  intro s s' hg _ ho h
  refine ⟨ho.recv_eq.trans h.recv, ho.own_eq.trans h.own, ?_, ?_, ?_⟩
  · rcases ho.view with heq | henv
    · rw [heq]
      exact h.rotated
    · exact henv.rotated hg.inv h.recv h.rotated
  · rw [ho.helloSeen]
    exact h.seen
  · rw [ho.rotation]
    exact h.lone

/-- It is at rest. -/
theorem Left.between (h : Left ρ p k n s) : Between ρ p s := by
  have hrecv : s.recv p = some (.generated n) := h.recv
  refine ⟨⟨.generated n h.recv h.rotated, ?_, h.lone, ?_, fun _ _ j hj => ?_⟩, ?_⟩
  · rw [View.eff_of_generated h.recv, h.own]
    exact h.seen
  · rintro - rfl g hm
    have hrecv' := hm.recv
    rw [h.recv] at hrecv'
    cases hrecv'
  · rw [hrecv] at hj
    cases hj
  · rintro rfl j hj
    rw [hrecv] at hj
    cases hj

/-- The handoff has moved the party. -/
theorem Left.handled (h : Left ρ p k n s) (hm : m.frame = handoff inbox)
    (hopen : Open ρ p (.derived p k) m s) : Handled ρ p (.derived p k) m true s := by
  refine ⟨h.between, hopen, fun r n' hf => ?_, fun _ hrecv => ?_, fun _ _ j _ hf => ?_⟩
  · rw [hm] at hf
    cases hf
  · have hrecv' : s.recv p = some (.generated n) := h.recv
    rw [hrecv] at hrecv'
    cases hrecv'
  · rw [hm] at hf
    cases hf

/-- Deleting the inbox that was left. -/
theorem Left.retire (h : Left ρ p k n s) :
    View.Step ρ.regime p (ρ.view s) (ρ.view (s.setBox (.derived p k) none)) ∧
      Left ρ p k n (s.setBox (.derived p k) none) := by
  have hview := view_setBox (ρ := ρ) s (.derived p k) none
  refine ⟨?_, ⟨h.recv, h.own, ?_, h.seen, h.lone⟩⟩
  · rw [hview]
    refine .retire k ?_
    rw [View.floor_of_generated h.recv, h.own]
    exact Nat.lt_succ_self k
  · rw [hview]
    exact h.rotated.retire

/-- Deleting the inbox that was left, and the closing flush, end a rotation. -/
theorem triple_retire (hm : m.frame = handoff inbox) :
    GoodTriple ρ (.listener p) (fun s => (∃ n, Left ρ p k n s) ∧ Open ρ p (.derived p k) m s)
      (.op (.relay (.deleteMailbox (.derived p k))) fun _ => engine.flushPending >>= fun _ => .ret true)
      fun changed s => Good ρ s ∧ Handled ρ p (.derived p k) m changed s := by
  have hlasts : Lasts ρ p fun s => (∃ n, Left ρ p k n s) ∧ Open ρ p (.derived p k) m s := by
    rintro s s' hg hg' ho ⟨⟨n, hn⟩, hopen⟩
    exact ⟨⟨n, lasts_left s s' hg hg' ho hn⟩, lasts_open s s' hg hg' ho hopen⟩
  have hguarded : ∀ s, (∃ n, Left ρ p k n s) ∧ Open ρ p (.derived p k) m s → Guarded ρ p s := by
    rintro s ⟨⟨n, hn⟩, -⟩
    exact hn.between.guarded
  have hstays := hlasts.stays hguarded
  refine triple_own (e := fun _ s => (∃ n, Left ρ p k n s) ∧ Open ρ p (.derived p k) m s) hlasts trivial
    (fun s _ hs => ⟨(by simp), hguarded s hs, (by simp)⟩) ?_ fun _ => ?_
  · rintro s c r s' hg ⟨⟨n, hn⟩, hopen⟩ - h
    have hconn := perform_conn (by simp) h
    cases h
    obtain ⟨hstep, hleft⟩ := hn.retire
    exact ⟨.inr hstep, fun _ hlater => ⟨⟨n, hleft⟩, hopen.own hconn hlater hstep.log_subset⟩⟩
  refine triple_bind (triple_flushPending hstays) fun _ => ?_
  refine triple_return hstays ?_
  rintro s hg ⟨⟨n, hn⟩, hopen⟩
  exact ⟨hg, hn.handled hm hopen⟩

/-! ## The offerer's half -/

/-- The offerer on its derived inbox `k` has offered `x` and has the answer. -/
structure Finishing (ρ : Course) (k x : ℕ) (answer : MailboxId) (s : St) : Prop where
  recv : (ρ.view s).recv .offerer = some (.derived .offerer k)
  own : (ρ.view s).own .offerer = k
  offered : (ρ.view s).Offered k (.generated x)
  answered : (ρ.view s).Answered k answer
  seen : ∀ e ∈ (s.party .offerer).helloSeen, e.1 ≤ k

theorem lasts_finishing : Lasts ρ .offerer (Finishing ρ k x inbox) := by
  intro s s' _ _ ho h
  refine ⟨ho.recv_eq.trans h.recv, ho.own_eq.trans h.own, ho.log_subset h.offered,
    ho.log_subset h.answered, ?_⟩
  rw [ho.helloSeen]
  exact h.seen

/-- The offerer that handles an answer remembers its offer. -/
theorem Handling.finishing (h : Handling ρ .offerer b m s) (hg : Good ρ s) (hm : m.frame = handoff inbox) :
    ∃ k x, b = .derived .offerer k ∧
      (s.party .offerer).rotation = some ⟨.generated x, .derived .offerer k⟩ ∧
        Finishing ρ k x inbox s := by
  have hlogged := h.logged (by rw [hm]; rfl)
  rw [hm] at hlogged
  obtain ⟨k, rfl, hd⟩ := h.toSettled.derived_of_logged hg h.recv hlogged
  obtain ⟨z, hz, -⟩ := hg.inv.matched k inbox hlogged
  obtain ⟨-, x, -, rfl⟩ := hg.inv.offered k z hz
  refine ⟨k, x, rfl, hd.awaiting rfl _ hz, hd.recv, hd.own, hz, hlogged, fun e he => ?_⟩
  have hle := h.seen e he
  rwa [View.eff_of_derived hd.recv] at hle

/-- The offerer's half of `handle_rotation`. -/
theorem triple_finishRotation (hm : m.frame = handoff inbox) :
    GoodTriple ρ (.listener .offerer) (fun s => Finishing ρ k x inbox s ∧
        Held ρ .offerer (.derived .offerer k) m s)
      (engine.finishRotation ⟨.generated x, .derived .offerer k⟩ () inbox)
      fun changed s => Good ρ s ∧ Handled ρ .offerer (.derived .offerer k) m changed s := by
  have hF : Framed ρ .offerer (Held ρ .offerer (.derived .offerer k) m) := framed_held
  refine triple_step (o := .store (.setConversationSend () inbox))
    (e := fun _ s => Finishing ρ k x inbox s ∧ (ρ.view s).send .offerer = some inbox) hF lasts_finishing
    trivial (by simp) (by simp) (by simp) ?_ fun _ => ?_
  · rintro s c r s' hg ⟨hs, -⟩ - h
    obtain ⟨-, hseen, -⟩ := memory_eq_iff.mp (perform_memory h (by simp) (by simp))
    cases h
    have hview := view_setSend (ρ := ρ) s .offerer () inbox
    refine ⟨.inr (hview ▸ .setSend k inbox hs.recv), fun _ _ => ⟨⟨?_, ?_, ?_, ?_, ?_⟩, ?_⟩⟩
    · rw [hview]
      exact hs.recv
    · rw [hview]
      exact hs.own
    · rw [hview]
      exact hs.offered
    · rw [hview]
      exact hs.answered
    · rw [hseen]
      exact hs.seen
    · rw [hview]
      simp [View.setSend]
  have hlasts : Lasts ρ .offerer fun s => Finishing ρ k x inbox s ∧
      (ρ.view s).send .offerer = some inbox :=
    lasts_finishing.and (lasts_view fun _ _ h _ hs => h.send_eq.trans hs)
  refine triple_step (o := .store (.setConversationRecv (.generated x)))
    (e := fun _ s => ∃ n, Left ρ .offerer k n s) hF hlasts trivial (by simp) (by simp) (by simp) ?_
    fun _ => (triple_retire hm).of_pre fun s hs => ⟨hs.1, hs.2.1, hs.2.2.1⟩
  rintro s c r s' hg ⟨⟨hs, hsend⟩, -⟩ - h
  obtain ⟨-, hseen, -⟩ := memory_eq_iff.mp (perform_memory h (by simp) (by simp))
  cases h
  have hview := view_setRecv (ρ := ρ) s .offerer (.generated x)
  refine ⟨.inr (hview ▸ .finish k x inbox rfl hs.recv hs.own hs.offered hs.answered),
    fun _ _ => ⟨x, ?_, ?_, ?_, ?_, (by simp)⟩⟩
  · rw [hview]
    exact View.recv_setRecv_self
  · rw [hview]
    exact hs.own
  · rw [hview]
    have hown : ((ρ.view s).setRecv .offerer (.generated x)).own .offerer = k := hs.own
    rw [View.Rotated, hown]
    exact ⟨hs.offered, inbox, hs.answered, hsend⟩
  · rw [hseen]
    exact hs.seen

/-! ## The responder's half -/

/-- The responder on its derived inbox `k` has the offer of `x`. -/
structure Replying (ρ : Course) (k x : ℕ) (s : St) : Prop where
  recv : (ρ.view s).recv .responder = some (.derived .responder k)
  own : (ρ.view s).own .responder = k
  offered : (ρ.view s).Offered k (.generated x)
  seen : ∀ e ∈ (s.party .responder).helloSeen, e.1 ≤ k
  lone : (s.party .responder).rotation = none

theorem Replying.same (h : Replying ρ k x s)
    (hrecv : (ρ.view s').recv .responder = (ρ.view s).recv .responder)
    (hown : (ρ.view s').own .responder = (ρ.view s).own .responder)
    (hlog : (ρ.view s).log ⊆ (ρ.view s').log)
    (hrotation : (s'.party .responder).rotation = (s.party .responder).rotation)
    (hseen : (s'.party .responder).helloSeen = (s.party .responder).helloSeen) : Replying ρ k x s' :=
  ⟨hrecv.trans h.recv, hown.trans h.own, hlog h.offered, by rw [hseen]; exact h.seen, hrotation.trans h.lone⟩

theorem lasts_replying : Lasts ρ .responder (Replying ρ k x) := fun _ _ _ _ ho h =>
  h.same ho.recv_eq ho.own_eq ho.log_subset ho.rotation ho.helloSeen

/-- The responder that handles an offer. -/
theorem Handling.replying (h : Handling ρ .responder b m s) (hg : Good ρ s) (hm : m.frame = handoff inbox) :
    ∃ k x, b = .derived .responder k ∧ inbox = .generated x ∧ Replying ρ k x s := by
  have hlogged := h.logged (by rw [hm]; rfl)
  rw [hm] at hlogged
  obtain ⟨k, rfl, hd⟩ := h.toSettled.derived_of_logged hg h.recv hlogged
  obtain ⟨-, x, -, rfl⟩ := hg.inv.offered k inbox hlogged
  refine ⟨k, x, rfl, rfl, hd.recv, hd.own, hlogged, fun e he => ?_, h.lone rfl⟩
  have hle := h.seen e he
  rwa [View.eff_of_derived hd.recv] at hle

/-- The responder has adopted the offered inbox `x`. -/
def Adopted (ρ : Course) (k x : ℕ) (s : St) : Prop :=
  Replying ρ k x s ∧ (ρ.view s).send .responder = some (.generated x)

theorem lasts_adopted : Lasts ρ .responder (Adopted ρ k x) :=
  lasts_replying.and (lasts_view fun _ _ h _ hs => h.send_eq.trans hs)

/-- The offerer's inbox exists when the responder generates its own. -/
theorem Replying.live (h : Replying ρ k x s) (hg : Good ρ s)
    (hallows : ρ.Allows .responder s (.relay .createMailbox)) :
    (ρ.view s).Live (.derived .offerer k) := by
  by_cases hκ : ρ.regime.Lossy
  · have hlive := hallows.timely hκ rfl
    have hown : (s.party .responder).recovery.ownGen = k := h.own
    rw [hown] at hlive
    exact live_view.mpr hlive
  · obtain ⟨g, hkept⟩ := hg.kept hκ
    exact hkept.offerer_live hg.inv h.recv

/-- Generating the inbox to answer with. -/
theorem Adopted.mint (h : Adopted ρ k x s) (hg : Good ρ s)
    (hallows : ρ.Allows .responder s (.relay .createMailbox)) :
    Adopted ρ k x (s.mint .responder) ∧
      View.Answering k x s.nextBox (ρ.view (s.mint .responder)) := by
  have hview := view_mint (ρ := ρ) s .responder
  have hself := s.mint_party_self .responder
  refine ⟨⟨h.1.same ?_ ?_ ?_ ?_ ?_, ?_⟩, ?_⟩
  · rw [hview]
    rfl
  · rw [hview]
    rfl
  · rw [hview]
    exact List.Subset.refl _
  · rw [hself]
  · rw [hself]
  · rw [hview]
    exact h.2
  · rw [hview]
    exact hg.inv.answering h.1.recv h.1.offered (h.1.live hg hallows)

/-- The responder has moved to the generated inbox `y`, and is about to answer with it. -/
structure Replies (ρ : Course) (k x y : ℕ) (s : St) : Prop where
  recv : (ρ.view s).OnGenerated .responder y
  own : (ρ.view s).own .responder = k
  send : (ρ.view s).send .responder = some (.generated x)
  answering : View.Answering k x y (ρ.view s)
  seen : ∀ e ∈ (s.party .responder).helloSeen, e.1 ≤ k
  lone : (s.party .responder).rotation = none

theorem lasts_answering : Lasts ρ .responder fun s => View.Answering k x y (ρ.view s) :=
  lasts_view fun _ _ h _ ha => h.answering ha

theorem lasts_replies : Lasts ρ .responder (Replies ρ k x y) := by
  intro s s' hg hg' ho h
  refine ⟨ho.recv_eq.trans h.recv, ho.own_eq.trans h.own, ho.send_eq.trans h.send,
    lasts_answering s s' hg hg' ho h.answering, ?_, ho.rotation.trans h.lone⟩
  rw [ho.helloSeen]
  exact h.seen

/-- Without losses the generated inbox exists when the responder moves to it. -/
theorem Adopted.kept (h : Adopted ρ k x s) (ha : View.Answering k x y (ρ.view s)) (hg : Good ρ s)
    (hκ : ¬ ρ.regime.Lossy) : (ρ.view s).Live (.generated y) := by
  obtain ⟨g, hkept⟩ := hg.kept hκ
  have hkg : k = g := (View.eff_of_derived h.1.recv).symm.trans (hkept.eff _)
  exact ha.together.mp (hkept.offered _ (hkg ▸ h.1.offered))

/-- The answer waits for the offerer, if its inbox exists. -/
theorem Replies.left (h : Replies ρ k x y s) (hview : (ρ.view s').OnGenerated .responder y)
    (hown : (ρ.view s').own .responder = (ρ.view s).own .responder)
    (hparty : s'.party .responder = s.party .responder)
    (hwaits : (ρ.view s').Live (.generated y) →
      (ρ.view s').Waits (.derived .offerer k) (handoff (.generated y))) : Left ρ .responder k y s' := by
  refine ⟨hview, hown.trans h.own, fun hl _ => ?_, ?_, fun _ => ?_⟩
  · rw [hown, h.own]
    exact hwaits hl
  · rw [hparty]
    exact h.seen
  · rw [hparty]
    exact h.lone

/-- The responder's half of `handle_rotation`. -/
theorem triple_answerRotation (hm : m.frame = handoff (.generated x)) :
    GoodTriple ρ (.listener .responder) (fun s => Replying ρ k x s ∧
        Held ρ .responder (.derived .responder k) m s)
      (engine.answerRotation () (.generated x))
      fun changed s => Good ρ s ∧ Handled ρ .responder (.derived .responder k) m changed s := by
  have hF : Framed ρ .responder (Held ρ .responder (.derived .responder k) m) := framed_held
  refine triple_idle (o := .store .recoveryState) (i := .listener .responder)
    (e := fun r => ∃ peer, r = .ok (some ⟨some Role.responder.code, some (), k, peer⟩))
    (hF.stays lasts_replying) trivial (by simp) ?_ ?_
  · rintro s c r s' hg ⟨hs, -⟩ h
    cases h
    obtain ⟨hrole, hroot⟩ := hg.rooted .responder
    refine ⟨(s.party .responder).recovery.peerGen, ?_⟩
    rw [← hrole, ← hroot, ← hs.own]
    rfl
  rintro _ ⟨peer, rfl⟩
  refine triple_idle (o := .store .getConversation) (i := .listener .responder)
    (e := fun r => ∃ convo, r = .ok (some convo) ∧ convo.mailboxRecv = some (.derived .responder k))
    (hF.stays lasts_replying) trivial (by simp) ?_ ?_
  · rintro s c r s' hg ⟨hs, -⟩ h
    cases h
    exact ⟨_, rfl, hs.recv⟩
  rintro _ ⟨convo, rfl, hconvo⟩
  refine triple_step (o := .store (.setConversationSend () (.generated x)))
    (e := fun _ s => Adopted ρ k x s) hF lasts_replying trivial (by simp) (by simp) (by simp) ?_ fun _ => ?_
  · rintro s c r s' hg ⟨hs, -⟩ - h
    obtain ⟨hrotation, hseen, -⟩ := memory_eq_iff.mp (perform_memory h (by simp) (by simp))
    cases h
    have hview := view_setSend (ρ := ρ) s .responder () (.generated x)
    refine ⟨.inr (hview ▸ .setSend k _ hs.recv), fun _ _ => ⟨hs.same ?_ ?_ ?_ hrotation hseen, ?_⟩⟩
    · rw [hview]
      rfl
    · rw [hview]
      rfl
    · rw [hview]
      exact List.Subset.refl _
    · rw [hview]
      simp [View.setSend]
  refine triple_step (o := .relay .createMailbox)
    (e := fun r s => ∃ y, r = .ok (.generated y) ∧ Adopted ρ k x s ∧ View.Answering k x y (ρ.view s)) hF
    lasts_adopted trivial (by simp) (by simp) (by simp) ?_ fun r => ?_
  · rintro s c r s' hg ⟨hs, -⟩ hallows h
    cases h
    refine ⟨.inr ?_, fun _ _ => ⟨s.nextBox, rfl, hs.mint hg hallows⟩⟩
    exact view_mint (ρ := ρ) s .responder ▸ .mint
  rintro s ⟨hg, ⟨y, rfl, hs⟩, hheld⟩
  refine (triple_step (o := .store (.setConversationRecv (.generated y)))
    (e := fun r s => r = .ok () ∧ Replies ρ k x y s) hF (lasts_adopted.and lasts_answering)
    trivial (by simp) (by simp) (by simp) ?_ fun r => ?_) s ⟨hg, hs, hheld⟩
  · rintro s c r s' hg ⟨⟨hs, ha⟩, -⟩ - h
    obtain ⟨hrotation, hseen, -⟩ := memory_eq_iff.mp (perform_memory h (by simp) (by simp))
    cases h
    have hview := view_setRecv (ρ := ρ) s .responder (.generated y)
    refine ⟨.inr ?_, fun _ _ => ⟨rfl, ?_, ?_, ?_, ?_, ?_, hrotation.trans hs.1.lone⟩⟩
    · rw [hview]
      exact .settle k x y rfl hs.1.recv hs.1.own hs.1.offered ha.spent.2 ha.waiting (hs.kept ha hg)
    · rw [hview]
      exact View.recv_setRecv_self
    · rw [hview]
      exact hs.1.own
    · rw [hview]
      exact hs.2
    · rw [hview]
      exact ha.settle hs.1.own
    · rw [hseen]
      exact hs.1.seen
  rintro s ⟨hg, ⟨rfl, hs⟩, hheld⟩
  refine triple_bind (triple_announce (b := .derived .offerer k) (f := handoff (.generated y))
    (e := Left ρ .responder k y) hF lasts_replies lasts_left rfl convo ?_ ?_) (fun _ => ?_) s ⟨hg, hs, hheld⟩
  · intro s hg hs _ hnone
    exact hs.left hs.recv rfl rfl fun hl => absurd (hs.answering.waiting hl).2 hnone
  · intro s l wire hwire hg hs _ hl
    have hview := view_deposit_control (ρ := ρ) (s := s) (b := .derived .offerer k) (l := l)
      (show isRecovery (content wire) by rw [hwire]; rfl)
    constructor
    · rw [hview]
      exact .answer k x y _ _ rfl hs.recv hs.own hs.answering.spent.2 hs.send hs.answering.offer
        hs.answering.together (view_boxes hl) hwire
    · intro _ _
      refine hs.left hs.recv rfl rfl fun _ => ?_
      rw [hview, ← hwire]
      exact View.waits_deposit_self
  rw [hconvo]
  exact (triple_retire hm).of_pre fun s hs => ⟨hs.1, ⟨y, hs.2.1⟩, hs.2.2.1⟩

/-- `handle_rotation` deals with the handoff. -/
theorem triple_handleRotation (hm : m.frame = handoff inbox) :
    GoodTriple ρ (.listener p) (Handling ρ p b m)
      (engine.handleRotation () inbox) fun changed s => Good ρ s ∧ Handled ρ p b m changed s := by
  have hF : Framed ρ p (Held ρ p b m) := framed_held
  have hc : isRecovery m.frame := by rw [hm]; rfl
  have hview : ∀ s : St, ρ.view (s.modify p fun x => { x with rotation := none }) = ρ.view s :=
    fun s => view_modify_same rfl rfl
  have hself : ∀ s : St, (s.modify p fun x => { x with rotation := none }).party p =
      { s.party p with rotation := none } := fun s => s.modify_party_self p _
  rw [Engine.handleRotation, Program.perform_bind]
  cases p with
  | offerer =>
    refine (triple_step (o := .ram .takeRotation)
      (e := fun r s => ∃ k x, b = .derived .offerer k ∧
        r = some ⟨.generated x, .derived .offerer k⟩ ∧ Finishing ρ k x inbox s)
      hF lasts_handling trivial (by simp) (by simp) ?_ ?_ fun r => ?_).of_pre
      fun s hs => ⟨hs.1, hs.2, hs.2.held hc⟩
    · rintro - s hg ⟨hs, -⟩ hnone
      obtain ⟨k, x, -, hsome, -⟩ := hs.finishing hg hm
      rw [hnone] at hsome
      cases hsome
    · rintro s c r s' hg ⟨hs, -⟩ - h
      cases h
      obtain ⟨k, x, rfl, hsome, hfin⟩ := hs.finishing hg hm
      refine ⟨.inl (hview s), fun _ _ => ⟨k, x, rfl, hsome, ?_, ?_, ?_, ?_, ?_⟩⟩
      · rw [hview]
        exact hfin.recv
      · rw [hview]
        exact hfin.own
      · rw [hview]
        exact hfin.offered
      · rw [hview]
        exact hfin.answered
      · rw [hself]
        exact hfin.seen
    · rintro s ⟨hg, ⟨k, x, rfl, rfl, hs⟩, hheld⟩
      exact triple_finishRotation hm s ⟨hg, hs, hheld⟩
  | responder =>
    refine (triple_step (o := .ram .takeRotation)
      (e := fun r s => ∃ k x, b = .derived .responder k ∧ inbox = .generated x ∧ r = none ∧
        Replying ρ k x s)
      hF lasts_handling trivial (by simp) (by simp) (fun _ _ _ _ _ => rfl) ?_ fun r => ?_).of_pre
      fun s hs => ⟨hs.1, hs.2, hs.2.held hc⟩
    · rintro s c r s' hg ⟨hs, -⟩ - h
      cases h
      obtain ⟨k, x, rfl, rfl, hrep⟩ := hs.replying hg hm
      refine ⟨.inl (hview s), fun _ _ => ⟨k, x, rfl, rfl, hs.lone rfl, hrep.same ?_ ?_ ?_ ?_ ?_⟩⟩
      · rw [hview]
      · rw [hview]
      · rw [hview]
        exact List.Subset.refl _
      · rw [hself, hrep.lone]
      · rw [hself]
    · rintro s ⟨hg, ⟨k, x, rfl, rfl, rfl, hs⟩, hheld⟩
      exact triple_answerRotation hm s ⟨hg, hs, hheld⟩

end Titlan.World.Refinement
