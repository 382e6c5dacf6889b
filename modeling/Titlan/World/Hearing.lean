import Titlan.World.Recovering

/-! # Handling a hello

`handle_recovery_hello`, operation by operation. A hello the ring holds is dropped; one of a later
generation moves the party there; one of the offerer's own generation makes it offer a generated inbox.
The handler is entered by a party at rest with an open message, and leaves it at rest so that the message
may be acked. -/

namespace Titlan.World.Refinement

open Foundation

variable [Sealing] {ρ : Course} {p : Role} {b : MailboxId} {m : Queued} {s s' : St} {g k r n : ℕ}

/-! ## Where control frames are read -/

/-- A control frame is read on the derived inbox the party rests on. -/
theorem Settled.derived_of_logged {f : Frame} (h : Settled ρ p s) (hg : Good ρ s) (hrecv : s.recv p = some b)
    (hf : (b, f) ∈ (ρ.view s).log) :
    ∃ k, b = .derived p k ∧ View.Derived p (s.party p).rotation k (ρ.view s) := by
  obtain ⟨q, j, rfl, -⟩ := hg.traced.sorts b f hf
  have hrecv' : (ρ.view s).recv p = some (.derived q j) := hrecv
  cases h.rest with
  | derived k hd =>
    refine ⟨k, ?_, hd⟩
    rw [hd.recv] at hrecv'
    exact (Option.some.inj hrecv').symm
  | generated n hn =>
    rw [View.OnGenerated, hrecv'] at hn
    cases hn

theorem backlog_congr (hconn : (s'.party .offerer).conn = (s.party .offerer).conn)
    (hbox : (ρ.view s').boxes (.derived .offerer k) = (ρ.view s).boxes (.derived .offerer k)) :
    backlog ρ s' k = backlog ρ s k := by
  rw [backlog, backlog, hconn]
  simp only [View.unread, hbox]

/-- An own operation that accepts no hello and reads none. -/
theorem Affords.same {u u' : ℕ → ℕ}
    (ha : Affords ρ (fun k => backlog ρ s k + u k) (fun k => backlog ρ s k + u' k) s)
    (hconn : (s'.party .offerer).conn = (s.party .offerer).conn)
    (hseen : (s'.party .offerer).helloSeen = (s.party .offerer).helloSeen)
    (hrecv : s'.recv .offerer = s.recv .offerer)
    (hboxes : ∀ k, (ρ.view s').boxes (.derived .offerer k) = (ρ.view s).boxes (.derived .offerer k))
    (hlog : (ρ.view s').log = (ρ.view s).log) :
    Affords ρ (fun k => backlog ρ s' k + u k) (fun k => backlog ρ s' k + u' k) s' := by
  intro k hk
  rw [hrecv] at hk
  simp only [backlog_congr hconn (hboxes k), View.offerLog, View.helloLog, seenHellos, hlog, hseen]
  exact ha k hk

/-! ## Hellos -/

/-- A fresh hello of generation `r` is being handled by the party on its derived inbox `k`. -/
structure Hearing (ρ : Course) (p : Role) (k : ℕ) (m : Queued) (r : ℕ) (s : St) : Prop where
  derived : View.Derived p (s.party p).rotation k (ρ.view s)
  seen : ∀ e ∈ (s.party p).helloSeen, e.1 ≤ k ∨ e.1 = r
  lone : p = .responder → (s.party p).rotation = none
  met : ρ.regime = .meeting → p = .responder → (ρ.view s).Met
  connected : Connected ρ p (.derived p k) (some m.id) s
  affords : p = .offerer →
    Affords ρ (fun k => backlog ρ s k + weight k m.frame) (fun k => backlog ρ s k + 0) s

theorem lasts_hearing : Lasts ρ p (Hearing ρ p k m r) := by
  intro s s' hg hg' ho h
  refine ⟨?_, ?_, ?_, ?_, h.connected.lasts hg ho, ?_⟩
  · rw [ho.rotation]
    rcases ho.view with heq | henv
    · rw [heq]
      exact h.derived
    · exact henv.derived h.derived
  · rw [ho.helloSeen]
    exact h.seen
  · rw [ho.rotation]
    exact h.lone
  · rintro hκ rfl
    rcases ho.view with heq | henv
    · rw [heq]
      exact h.met hκ rfl
    · rw [hκ] at henv
      exact henv.met (h.met hκ rfl)
  · rintro rfl
    refine (h.affords rfl).mono ho fun j hj => ?_
    have hrecv : s.recv .offerer = some (.derived .offerer k) := h.derived.recv
    rw [hrecv, Option.some.injEq] at hj
    have hle := backlog_le (hj ▸ h.connected) ho
    constructor <;> omega

omit [Sealing] in
/-- What `mark_hello_seen` does to the ring. -/
theorem markHelloSeen_cases (ring : List (ℕ × ℕ)) (r n : ℕ) :
    (markHelloSeen ring r n).1 = false ∧ (r, n) ∈ ring ∧ (markHelloSeen ring r n).2 = ring ∨
      (markHelloSeen ring r n).1 = true ∧ (markHelloSeen ring r n).2.Sublist (ring ++ [(r, n)]) := by
  by_cases h : (r, n) ∈ ring
  · left
    simp only [markHelloSeen, if_pos h]
    exact ⟨trivial, h, trivial⟩
  · right
    simp only [markHelloSeen, if_neg h]
    exact ⟨trivial, List.drop_sublist _ _⟩

omit [Sealing] in
theorem weight_hello (k r n : ℕ) : weight k (hello r n) = if r = k then 1 else 0 := by
  simp [weight, isHello]

theorem Settled.same (h : Settled ρ p s) (hview : ρ.view s' = ρ.view s)
    (hrotation : (s'.party p).rotation = (s.party p).rotation)
    (hseen : (s'.party p).helloSeen = (s.party p).helloSeen) (htuned : Tuned ρ p s') : Settled ρ p s' := by
  refine ⟨?_, ?_, ?_, ?_, htuned⟩
  · rw [hview, hrotation]
    exact h.rest
  · rw [hview, hseen]
    exact h.seen
  · rw [hrotation]
    exact h.lone
  · rw [hview]
    exact h.met

/-- The party is at generation `k` when it handles a hello there. -/
theorem Hearing.settled (h : Hearing ρ p k m r s) (hle : r ≤ k) : Settled ρ p s := by
  refine ⟨.derived k h.derived, fun e he => ?_, h.lone, h.met, h.connected.tuned h.derived.recv⟩
  rw [View.eff_of_derived h.derived.recv]
  rcases h.seen e he with hk | hr
  · exact hk
  · rwa [hr]

/-- A hello that is not ahead is done, once an offer answers the responder's. -/
theorem Settled.handled {w w' : ℕ → ℕ} (h : Settled ρ p s) (hrecv : s.recv p = some (.derived p k))
    (haff : p = .offerer → Affords ρ (fun j => backlog ρ s j + w j) (fun j => backlog ρ s j + w' j) s)
    (hopen : Open ρ p (.derived p k) m s) (hm : m.frame = hello r n) (hle : r ≤ k)
    (hmet : ρ.regime = .meeting → p = .offerer → r = k → (ρ.view s).Meets k →
      ∃ x, (ρ.view s).Offered k x) : Handled ρ p (.derived p k) m false s := by
  refine ⟨h, hopen, ⟨fun r' n' hf => ?_, fun hf => ?_, fun hκ hp j hj hf => ?_⟩, hrecv, fun hp => ?_⟩
  · rw [hm] at hf
    cases hf
    rwa [View.eff_of_derived (v := ρ.view s) hrecv]
  · rw [hm] at hf
    cases hf
  · subst hp
    obtain ⟨-, rfl⟩ := MailboxId.derived.inj hj
    rw [hm] at hf
    exact hmet hκ rfl (of_decide_eq_true hf)
  · subst hp
    intro j hj
    obtain ⟨hoffer, hseen⟩ := haff rfl j hj
    refine ⟨Nat.le_trans ?_ hoffer, fun hκ => Nat.le_trans ?_ (hseen hκ)⟩ <;> simp only <;> omega

/-- What `mark_hello_seen` tells. -/
def Marked (ρ : Course) (p : Role) (b : MailboxId) (m : Queued) (r : ℕ) : Bool → St → Prop
  | false, s => Handled ρ p b m false s
  | true, s => ∃ k, b = .derived p k ∧ Hearing ρ p k m r s ∧
      (ρ.regime = .meeting → p = .offerer → r ≤ k)

/-- A hello that was in the ring has been dealt with. -/
theorem Handling.replayed (h : Handling ρ p (.derived p k) m s) (hg : Good ρ s)
    (hd : View.Derived p (s.party p).rotation k (ρ.view s)) (hm : m.frame = hello r n)
    (hmem : (r, n) ∈ (s.party p).helloSeen) : Handled ρ p (.derived p k) m false s := by
  have hle : r ≤ k := by
    rw [← View.eff_of_derived hd.recv]
    exact h.seen _ hmem
  refine h.toSettled.handled h.recv h.affords h.toOpen hm hle ?_
  -- the one hello of the generation is this one, so that it was not seen before
  rintro hκ rfl rfl -
  have hweight : weight r m.frame = 1 := by rw [hm, weight_hello, if_pos rfl]
  have hseen : 0 < seenHellos s r := List.countP_pos_iff.mpr ⟨_, hmem, decide_eq_true rfl⟩
  have hafford := (h.affords rfl r h.recv).2 hκ
  have honce := hg.inv.hello_once r
  simp only [hweight] at hafford
  omega

theorem Handling.marked (h : Handling ρ p b m s) (hg : Good ρ s) (hm : m.frame = hello r n)
    (hallows : ρ.Allows p s (.ram (.markHelloSeen r n))) {c : Choice} {fresh : Bool}
    (hp : perform p c s (.ram (.markHelloSeen r n)) = some (fresh, s')) :
    ρ.view s' = ρ.view s ∧ Marked ρ p b m r fresh s' := by
  have hlogged : (b, hello r n) ∈ (ρ.view s).log := hm ▸ h.logged (by rw [hm]; rfl)
  obtain ⟨k, rfl, hd⟩ := h.toSettled.derived_of_logged hg h.recv hlogged
  have hview : ρ.view (s.modify p fun x =>
      { x with helloSeen := (markHelloSeen (s.party p).helloSeen r n).2 }) = ρ.view s :=
    view_modify_same rfl rfl
  have hself := s.modify_party_self p fun x =>
    { x with helloSeen := (markHelloSeen (s.party p).helloSeen r n).2 }
  cases hp
  refine ⟨hview, ?_⟩
  rcases markHelloSeen_cases (s.party p).helloSeen r n with ⟨hfresh, hmem, hring⟩ | ⟨hfresh, hring⟩
  · -- the ring is as it was
    have hsame : (s.modify p fun x =>
        { x with helloSeen := (markHelloSeen (s.party p).helloSeen r n).2 }) = s := by
      rw [hring]
      exact congrArg (fun party => { s with party }) (Function.update_eq_self p s.party)
    rw [hfresh, hsame]
    exact h.replayed hg hd hm hmem
  · rw [hfresh]
    refine ⟨k, rfl, ⟨?_, fun e he => ?_, ?_, ?_, ?_, ?_⟩, ?_⟩
    · rw [hview, hself]
      exact hd
    · rw [hself] at he
      rcases mem_concat (hring.subset he) with he | rfl
      · left
        rw [← View.eff_of_derived hd.recv]
        exact h.seen e he
      · exact .inr rfl
    · rw [hself]
      exact h.lone
    · rw [hview]
      exact h.met
    · rcases h.connected with hlive | ⟨hκ, buffered, hdead, hb⟩
      · left
        rwa [hself]
      · right
        rw [hself, hview]
        exact ⟨hκ, buffered, hdead, hb⟩
    · rintro rfl j hj
      have hconn : ((s.modify .offerer fun x =>
          { x with helloSeen := (markHelloSeen (s.party .offerer).helloSeen r n).2 }).party .offerer).conn =
            (s.party .offerer).conn := by rw [hself]
      have hbacklog := backlog_congr (ρ := ρ) (k := j) hconn (congrFun (congrArg View.boxes hview) _)
      have hcount : seenHellos (s.modify .offerer fun x =>
          { x with helloSeen := (markHelloSeen (s.party .offerer).helloSeen r n).2 }) j ≤
            seenHellos s j + weight j m.frame := by
        rw [seenHellos, hself, seenHellos, hm, weight_hello]
        refine Nat.le_trans hring.countP_le ?_
        rw [List.countP_append, List.countP_singleton]
        simp only [decide_eq_true_eq, Nat.le_refl]
      have hrecv : s.recv .offerer = some (.derived .offerer j) :=
        (congrFun (congrArg View.recv hview) .offerer).symm.trans hj
      obtain ⟨hoffer, hseen⟩ := h.affords rfl j hrecv
      simp only [hbacklog, hview]
      refine ⟨hoffer, fun hκ => ?_⟩
      have hsee := hseen hκ
      simp only at hsee
      omega
    · intro hκ hp
      have hle := hallows.aligned hκ hp
      have hown : (s.party p).recovery.ownGen = k := hd.own
      rwa [hown] at hle

/-! ## Offering -/

/-- The offerer on its derived inbox `k` is about to remember the offer of `x`, and may make `w j` more
offers for hellos it no longer waits for. -/
structure Proposing (ρ : Course) (k x : ℕ) (m : Queued) (w : ℕ → ℕ) (s : St) : Prop where
  derived : View.Derived .offerer (some ⟨.generated x, .derived .offerer k⟩) k (ρ.view s)
  seen : ∀ e ∈ (s.party .offerer).helloSeen, e.1 ≤ k
  connected : Connected ρ .offerer (.derived .offerer k) (some m.id) s
  affords : Affords ρ (fun j => backlog ρ s j + w j) (fun j => backlog ρ s j + 0) s
  helloed : (ρ.view s).Helloed .offerer k k

variable {x : ℕ}

theorem lasts_proposing {w : ℕ → ℕ} : Lasts ρ .offerer (Proposing ρ k x m w) := by
  intro s s' hg hg' ho h
  refine ⟨?_, ?_, h.connected.lasts hg ho, ?_, ?_⟩
  · rcases ho.view with heq | henv
    · rw [heq]
      exact h.derived
    · exact henv.derived h.derived
  · rw [ho.helloSeen]
    exact h.seen
  · refine h.affords.mono ho fun j hj => ?_
    have hrecv : s.recv .offerer = some (.derived .offerer k) := h.derived.recv
    rw [hrecv, Option.some.injEq] at hj
    have hle := backlog_le (hj ▸ h.connected) ho
    constructor <;> omega
  · obtain ⟨n, hn⟩ := h.helloed
    exact ⟨n, ho.log_subset hn⟩

/-- The generated inbox `x` has not been offered yet. -/
def Offering (ρ : Course) (k : ℕ) (m : Queued) (x : ℕ) (s : St) : Prop :=
  Proposing ρ k x m (fun j => weight j m.frame) s ∧ x < (ρ.view s).nextBox ∧ (ρ.view s).Offerable k x

theorem lasts_offering : Lasts ρ .offerer (Offering ρ k m x) := by
  intro s s' hg hg' ho ⟨hp, hx, hoff⟩
  refine ⟨lasts_proposing s s' hg hg' ho hp, ?_⟩
  rcases ho.view with heq | henv
  · rw [heq]
    exact ⟨hx, hoff⟩
  · exact ⟨Nat.lt_of_lt_of_le hx henv.nextBox_le, henv.offerable hg.inv hp.helloed hx hoff⟩

/-- The offer has been made, unless the inbox for it does not exist. -/
def Offers (ρ : Course) (k : ℕ) (m : Queued) (x : ℕ) (s : St) : Prop :=
  Proposing ρ k x m (fun _ => 0) s ∧
    (ρ.regime = .meeting → (ρ.view s).Meets k → ∃ x, (ρ.view s).Offered k x)

theorem lasts_offers : Lasts ρ .offerer (Offers ρ k m x) := by
  intro s s' hg hg' ho ⟨hp, hmet⟩
  refine ⟨lasts_proposing s s' hg hg' ho hp, fun hκ hm => ?_⟩
  rcases ho.view with heq | henv
  · rw [heq] at hm ⊢
    exact hmet hκ hm
  · rw [hκ] at henv
    obtain ⟨x, hx⟩ := hmet hκ (henv.meets_back hg.inv hp.helloed hm)
    exact ⟨x, henv.log_subset hx⟩

/-- Where the hello is still to be answered, nothing has been offered yet. -/
theorem Affords.unoffered {u u' : ℕ → ℕ} (ha : Affords ρ u u' s)
    (hrecv : s.recv .offerer = some (.derived .offerer k)) (hu : 0 < u k) (hi : (ρ.view s).Inv)
    (y : MailboxId) :
    ¬ (ρ.view s).Offered k y := by
  intro hy
  have hoffer := (ha k hrecv).1
  have honce := hi.hello_once k
  have hpos := View.offerLog_pos hy
  omega

/-- Generating the inbox to offer. -/
theorem Hearing.mint (h : Hearing ρ .offerer k m k s) (hg : Good ρ s) (hm : m.frame = hello k n)
    (hopen : Open ρ .offerer (.derived .offerer k) m s) :
    Offering ρ k m s.nextBox (s.mint .offerer) := by
  have hview := view_mint (ρ := ρ) s .offerer
  have hself := s.mint_party_self .offerer
  have hrecv : s.recv .offerer = some (.derived .offerer k) := h.derived.recv
  have hno := (h.affords rfl).unoffered hrecv (by rw [hm, weight_hello, if_pos rfl]; omega) hg.inv
  refine ⟨⟨?_, fun e he => ?_, ?_, ?_, ?_⟩, ?_, ?_⟩
  · rw [hview]
    refine ⟨h.derived.recv, h.derived.own, h.derived.send, fun j hj => ?_, fun _ y hy => absurd hy (hno y)⟩
    exact (h.derived.reaching j hj).mono View.live_derived_mint.mp (Nat.le_refl _) fun f => View.waits_mint
  · rw [hself] at he
    rcases h.seen e he with hle | heq
    · exact hle
    · exact Nat.le_of_eq heq
  · rcases h.connected with hlive | ⟨hκ, buffered, hdead, hb⟩
    · left
      rwa [hself]
    · right
      rw [hself, hview]
      exact ⟨hκ, buffered, hdead, hb⟩
  · refine (h.affords rfl).same ?_ ?_ ?_ (fun j => ?_) ?_
    · rw [hself]
    · rw [hself]
    · rw [St.recv, hself]
    · rw [hview]
      simp [View.mint, View.setBox]
    · rw [hview]
      rfl
  · rw [hview]
    have hlogged := hopen.logged (by rw [hm]; rfl)
    rw [hm] at hlogged
    exact ⟨n, hlogged⟩
  · rw [hview]
    exact Nat.lt_succ_self _
  · rw [hview]
    intro _ _
    simp [View.Live, View.mint, View.setBox, Course.view]

/-- Without the inbox for it there is no offer to make. -/
theorem Offering.skip (h : Offering ρ k m x s) (hnone : ¬ (ρ.view s).Live (.derived .responder k)) :
    Offers ρ k m x s := by
  obtain ⟨hp, -⟩ := h
  refine ⟨⟨hp.derived, hp.seen, hp.connected, fun j hj => ?_, hp.helloed⟩,
    fun _ hm => absurd hm.live hnone⟩
  obtain ⟨hoffer, hseen⟩ := hp.affords j hj
  refine ⟨Nat.le_trans ?_ hoffer, hseen⟩
  simp only
  omega

/-- Making the offer. -/
theorem Offering.deposit {l : List Queued} {wire : Sealing.Wire} (h : Offering ρ k m x s) (hg : Good ρ s)
    (hm : m.frame = hello k n) (hl : s.boxes (.derived .responder k) = some l)
    (hwire : content wire = handoff (.generated x)) :
    View.Step ρ.regime .offerer (ρ.view s) (ρ.view (s.deposit (.derived .responder k) l wire)) ∧
      Offers ρ k m x (s.deposit (.derived .responder k) l wire) := by
  obtain ⟨hp, hx, hoff⟩ := h
  have hrecv : s.recv .offerer = some (.derived .offerer k) := hp.derived.recv
  have hweight : weight k m.frame = 1 := by rw [hm, weight_hello, if_pos rfl]
  have hno := hp.affords.unoffered hrecv (by simp only [hweight]; omega) hg.inv
  have hl' := view_boxes (ρ := ρ) hl
  have hafford := (hp.affords k hrecv).1
  have hview := view_deposit_control (ρ := ρ) (s := s) (b := .derived .responder k) (l := l)
    (show isRecovery (content wire) by rw [hwire]; rfl)
  constructor
  · rw [hview]
    refine .offer k x _ _ rfl hp.derived.recv hx ?_ hoff hl' hwire
    simp only [hweight] at hafford
    omega
  · refine ⟨⟨?_, hp.seen, ?_, fun j hj => ?_, ?_⟩, fun _ _ => ⟨.generated x, ?_⟩⟩
    · rw [hview]
      refine ⟨hp.derived.recv, hp.derived.own, hp.derived.send, fun j hj => ?_, fun _ y hy => ?_⟩
      · exact (hp.derived.reaching j hj).mono (View.live_deposit hl' _).mp (Nat.le_refl _)
          fun f => View.waits_deposit hl'
      · rcases View.offered_deposit.mp hy with hy | ⟨-, hf⟩
        · exact absurd hy (hno y)
        · cases hwire.symm.trans hf
          rfl
    · rcases hp.connected with hlive | ⟨hκ, buffered, hdead, hb⟩
      · exact .inl hlive
      · refine .inr ⟨hκ, buffered, hdead, fun m hm => ⟨(hb m hm).1, fun hc => ?_⟩⟩
        rw [hview]
        exact View.mem_log_deposit.mpr (.inl ((hb m hm).2 hc))
    · -- the hello that is being handled pays for the offer
      obtain rfl : k = j := by
        have hj' : s.recv .offerer = some (.derived .offerer j) := hj
        rw [hrecv] at hj'
        simpa using hj'
      have hbacklog : backlog ρ (s.deposit (.derived .responder k) l wire) k = backlog ρ s k :=
        backlog_congr rfl (by rw [hview]; simp [View.deposit, View.setBox])
      have hsee := (hp.affords k hrecv).2
      simp only [hbacklog, hview, View.offerLog_deposit, View.helloLog_deposit]
      simp only [hweight] at hafford
      refine ⟨?_, fun hκ => Nat.le_trans (hsee hκ) (Nat.le_add_right _ _)⟩
      simp only [Queued.frame, hwire, isHandoff, isHello, true_and, if_true, Bool.false_eq_true,
        and_false, if_false]
      omega
    · rw [hview]
      exact View.helloed_deposit.mpr (.inl hp.helloed)
    · rw [hview]
      exact View.offered_deposit.mpr (.inr ⟨rfl, hwire⟩)

/-- Remembering the offer. -/
theorem Offers.insert (h : Offers ρ k m x s) (hm : m.frame = hello k n)
    (hview : ρ.view s' = ρ.view s) (hself : s'.party .offerer =
      { s.party .offerer with rotation := some ⟨.generated x, .derived .offerer k⟩ })
    (hopen : Open ρ .offerer (.derived .offerer k) m s') :
    Handled ρ .offerer (.derived .offerer k) m false s' := by
  obtain ⟨hp, hmet⟩ := h
  have hder : View.Derived .offerer (s'.party .offerer).rotation k (ρ.view s') := by
    rw [hview, hself]
    exact hp.derived
  have haff : Affords ρ (fun j => backlog ρ s' j + 0) (fun j => backlog ρ s' j + 0) s' := by
    refine hp.affords.same ?_ ?_ ?_ (fun j => ?_) ?_
    · rw [hself]
    · rw [hself]
    · rw [St.recv, hself]
    · rw [hview]
    · rw [hview]
  refine Settled.handled ⟨.derived k hder, fun e he => ?_, (by simp), (by simp),
    hopen.connected.tuned hder.recv⟩ hder.recv (fun _ => haff) hopen hm (Nat.le_refl k) ?_
  · rw [hself] at he
    rw [View.eff_of_derived hder.recv]
    exact hp.seen e he
  · intro hκ _ _
    rw [hview]
    exact hmet hκ

/-- `initiate_rotation` offers a generated inbox. -/
theorem triple_initiateRotation (hm : m.frame = hello k n) (convo : Conversation carrier) :
    GoodTriple ρ (.listener .offerer) (fun s => Hearing ρ .offerer k m k s ∧
        Held ρ .offerer (.derived .offerer k) m s)
      (engine.initiateRotation convo Role.offerer.code () k)
      fun changed s => Good ρ s ∧ Handled ρ .offerer (.derived .offerer k) m changed s := by
  have hF : Framed ρ .offerer (Held ρ .offerer (.derived .offerer k) m) := framed_held
  refine triple_step (o := .relay .createMailbox)
    (e := fun r s => ∃ x, r = .ok (.generated x) ∧ Offering ρ k m x s) hF lasts_hearing
    trivial (by simp) (by simp) (by simp) ?_ fun r => ?_
  · rintro s c r s' hg ⟨hh, hheld⟩ - h
    cases h
    refine ⟨.inr ?_, fun _ _ => ⟨s.nextBox, rfl, hh.mint hg hm hheld.1⟩⟩
    exact view_mint (ρ := ρ) s .offerer ▸ .mint
  rintro s ⟨hg, ⟨x, rfl, hs⟩, hheld⟩
  refine triple_bind (triple_announce (b := .derived .responder k) (f := handoff (.generated x))
    (e := Offers ρ k m x) hF lasts_offering lasts_offers rfl convo (fun s _ hs _ hnone => hs.skip hnone)
    fun s l wire hwire hg hs _ hl => ?_) (fun _ => ?_) s ⟨hg, hs, hheld⟩
  · obtain ⟨hstep, hoffers⟩ := hs.deposit hg hm hl hwire
    exact ⟨hstep, fun _ _ => hoffers⟩
  refine triple_step (o := .ram (.insertRotation ⟨.generated x, .derived .offerer k⟩))
    (e := fun _ s => Handled ρ .offerer (.derived .offerer k) m false s) hF lasts_offers
    trivial (by simp) (by simp) (by simp) ?_ fun _ => ?_
  · rintro s c r s' hg ⟨hs, -⟩ - h
    cases h
    have hview : ρ.view (s.modify .offerer fun y =>
        { y with rotation := some ⟨.generated x, .derived .offerer k⟩ }) = ρ.view s :=
      view_modify_same rfl rfl
    exact ⟨.inl hview, fun _ hheld => hs.insert hm hview (s.modify_party_self _ _) hheld.1⟩
  · exact triple_return (hF.stays (lasts_handled false)) fun s hg hs => ⟨hg, hs.1⟩

/-! ## `handle_recovery_hello` -/

/-- A fresh hello is being handled, by a party that knows of the other's generation `known`. -/
def Hears (ρ : Course) (p : Role) (k : ℕ) (m : Queued) (r known : ℕ) (s : St) : Prop :=
  Hearing ρ p k m r s ∧ (ρ.view s).known p = known

variable {known : ℕ}

theorem lasts_hears : Lasts ρ p (Hears ρ p k m r known) :=
  lasts_hearing.and (lasts_view fun _ _ h _ hk => h.known_eq.trans hk)

/-- Storing what a hello reports. -/
theorem Hears.converge (h : Hears ρ p k m r known s) (hg : Good ρ s)
    (hh : (ρ.view s).Helloed p k r) :
    View.Step ρ.regime p (ρ.view s) ((ρ.view s).setGens p (max k r) (max known r)) := by
  refine .setGens k _ _ h.1.derived.recv (Nat.max_le.mpr ⟨?_, (hg.inv.hello_le p k r hh).1⟩)
  rw [← h.2]
  exact hg.inv.known_le p

/-- A hello that is not ahead leaves the party where it is. -/
theorem Hears.stays (h : Hears ρ p k m r known s) (hle : r ≤ k)
    (hview : ρ.view s' = (ρ.view s).setGens p (max k r) (max known r))
    (hmem : memory (s'.party p) = memory (s.party p)) : Hears ρ p k m r (max known r) s' := by
  obtain ⟨hh, hknown⟩ := h
  rw [Nat.max_eq_left hle] at hview
  obtain ⟨hrotation, hseen, hconn⟩ := memory_eq_iff.mp hmem
  refine ⟨⟨?_, ?_, ?_, ?_, ?_, ?_⟩, ?_⟩
  · rw [hview, hrotation]
    exact hh.derived.setGens (hknown ▸ Nat.le_max_left _ _)
  · rw [hseen]
    exact hh.seen
  · rw [hrotation]
    exact hh.lone
  · rintro hκ rfl g hm
    rw [hview] at hm ⊢
    refine hh.met hκ rfl g ⟨?_, hm.recv, hm.live⟩
    have hfloor := hm.floor
    rwa [View.floor_setGens_of_ne (by decide)] at hfloor
  · rcases hh.connected with hlive | ⟨hκ, buffered, hdead, hb⟩
    · exact .inl (hconn.trans hlive)
    · refine .inr ⟨hκ, buffered, hconn.trans hdead, ?_⟩
      rw [hview]
      exact hb
  · rintro rfl
    refine (hh.affords rfl).same hconn hseen ?_ (fun j => ?_) ?_
    · exact congrFun (congrArg View.recv hview) .offerer
    · rw [hview]
      rfl
    · rw [hview]
      rfl
  · rw [hview]
    simp [View.setGens]

/-- A hello of a later generation sends the party there. -/
theorem Hears.departs (h : Hears ρ p k m r known s) (hlt : k < r)
    (hmet : ρ.regime = .meeting → p = .offerer → r ≤ k) (hh : (ρ.view s).Helloed p k r)
    (hview : ρ.view s' = (ρ.view s).setGens p (max k r) (max known r))
    (hmem : memory (s'.party p) = memory (s.party p)) : Departs ρ p r (max known r) s' := by
  obtain ⟨h, -⟩ := h
  obtain ⟨hrotation, hseen, -⟩ := memory_eq_iff.mp hmem
  refine ⟨?_, ?_, fun e he => ?_, fun hκ hp => ?_, ?_⟩
  · rw [hview]
    exact .raised k k h.derived.recv hlt hh
  · rw [hview]
    simp [View.setGens]
  · rw [hseen] at he
    rcases h.seen e he with hle | heq
    · exact Nat.le_trans hle (Nat.le_of_lt hlt)
    · exact Nat.le_of_eq heq
  · exact absurd (hmet hκ hp) (Nat.not_le_of_lt hlt)
  · rw [hrotation]
    exact h.lone

/-- A party of the same generation as the other hears of no later one. -/
theorem Hears.lossy (h : Hears ρ p k m r known s) (hg : Good ρ s) (hlt : k < r)
    (hh : (ρ.view s).Helloed p k r) : ρ.regime.Lossy := by
  by_contra hκ
  obtain ⟨g, hkept⟩ := hg.kept hκ
  have hle := (hg.inv.hello_le p k r hh).1
  have heff : (ρ.view s).eff p = k := View.eff_of_derived h.1.derived.recv
  rw [hkept.eff] at hle heff
  omega

theorem Open.helloed (h : Open ρ p (.derived p k) m s) (hm : m.frame = hello r n) :
    (ρ.view s).Helloed p k r := by
  have hlogged := h.logged (by rw [hm]; rfl)
  rw [hm] at hlogged
  exact ⟨n, hlogged⟩

/-- A party that has come to the generation of the hello has dealt with it. -/
theorem Arrived.handled (h : Arrived ρ p r s) (hlt : k < r) (hm : m.frame = hello r n)
    (hopen : Open ρ p (.derived p k) m s) : Handled ρ p (.derived p k) m true s := by
  obtain ⟨hbet, hrecv⟩ := h
  refine ⟨hbet, hopen, fun r' n' hf => ?_, fun hf => ?_, fun _ hp j hj hf => ?_⟩
  · rw [hm] at hf
    cases hf
    rw [View.eff_of_derived (v := ρ.view s) hrecv]
  · rw [hm] at hf
    cases hf
  · obtain ⟨-, rfl⟩ := MailboxId.derived.inj hj
    rw [hm] at hf
    exact absurd (of_decide_eq_true hf) (Nat.ne_of_gt hlt)

/-- `handle_recovery_hello` deals with the hello. -/
theorem triple_handleRecoveryHello (hm : m.frame = hello r n) :
    GoodTriple ρ (.listener p) (Handling ρ p b m)
      (engine.handleRecoveryHello r n) fun changed s => Good ρ s ∧ Handled ρ p b m changed s := by
  have hF : Framed ρ p (Held ρ p b m) := framed_held
  rw [Engine.handleRecoveryHello, Program.perform_bind]
  refine (triple_step (o := .ram (.markHelloSeen r n)) (e := Marked ρ p b m r) hF lasts_handling
    trivial (by simp) (by simp) (by simp) ?_ fun fresh => ?_).of_pre
    fun s hs => ⟨hs.1, hs.2, hs.2.held (by rw [hm]; rfl)⟩
  · rintro s c fresh s' hg ⟨hs, -⟩ hallows h
    obtain ⟨hview, hmarked⟩ := hs.marked hg hm hallows h
    exact ⟨.inl hview, fun _ _ => hmarked⟩
  cases fresh with
  | false => exact triple_return (hF.stays (lasts_handled false)) fun s hg hs => ⟨hg, hs.1⟩
  | true =>
    rintro s ⟨hg, ⟨k, rfl, hhear, hmet⟩, hheld⟩
    have hs : Hears ρ p k m r ((ρ.view s).known p) s := ⟨hhear, rfl⟩
    generalize (ρ.view s).known p = known at hs
    have hstays : Stays ρ (.listener p) fun s => Hears ρ p k m r known s ∧ _ := hF.stays lasts_hears
    refine (triple_idle (o := .store .recoveryState) (i := .listener p)
      (e := fun r => r = .ok (some ⟨some p.code, some (), k, known⟩)) hstays trivial (by simp)
      ?_ ?_) s ⟨hg, hs, hheld⟩
    · rintro s c r s' hg ⟨⟨hh, hknown⟩, -⟩ h
      cases h
      obtain ⟨hrole, hroot⟩ := hg.rooted p
      rw [← hrole, ← hroot, ← hknown, ← hh.derived.own]
      rfl
    rintro _ rfl
    refine triple_idle_eq (o := .ram .resetExhaustion) (i := .listener p) (v := ()) hstays trivial (by simp)
      (fun _ => rfl) ?_
    have hconverge : GenerationState.converge ⟨k, known⟩ r = (decide (k < r), ⟨max k r, max known r⟩) :=
      Prod.ext (GenerationState.converge_fst _ _) (GenerationState.converge_snd _ _)
    rw [hconverge]
    have hconvo : ∀ s c (x : Result (Option (Conversation carrier))) s',
        perform p c s (.store .getConversation) = some (x, s') → ∃ convo, x = .ok (some convo) :=
      fun s c x s' h => by cases h; exact ⟨_, rfl⟩
    by_cases hlt : k < r
    · -- the hello is ahead
      by_cases hκ : ρ.regime.Lossy
      · refine triple_step (o := .store (.setRecoveryGenerations (max k r) (max known r)))
          (e := fun _ s => Departs ρ p r (max known r) s) hF lasts_hears
          trivial (by simp) (by simp) (by simp) ?_ fun _ => ?_
        · rintro s c x s' hg ⟨hs, hheld⟩ - h
          have hmem := perform_memory h (by simp) (by simp)
          cases h
          have hview := view_setGens (ρ := ρ) s p (max k r) (max known r)
          have hh := hheld.1.helloed hm
          exact ⟨.inr (hview ▸ hs.converge hg hh), fun _ _ => hs.departs hlt hmet hh hview hmem⟩
        refine triple_idle (o := .store .getConversation) (i := .listener p)
          (e := fun r => ∃ convo, r = .ok (some convo)) (hF.stays lasts_departs) trivial (by simp)
          (fun s c x s' _ _ h => hconvo s c x s' h) ?_
        rintro _ ⟨convo, rfl⟩
        simp only [decide_eq_true hlt, if_true, Nat.max_eq_right (Nat.le_of_lt hlt)]
        refine (triple_enterRecoveryGen hF hκ convo ?_).mono (fun _ => id) ?_
        · intro j hj hj'
          exact absurd (Nat.le_trans (Nat.le_max_right known r) hj) (Nat.not_le_of_lt hj')
        · rintro x s ⟨⟨hg, harr, hheld⟩, rfl⟩
          exact ⟨hg, harr.handled hlt hm hheld.1⟩
      · rintro s ⟨hg, hs, hheld⟩
        exact absurd (hs.lossy hg hlt (hheld.1.helloed hm)) hκ
    · have hle : r ≤ k := Nat.le_of_not_lt hlt
      refine triple_step (o := .store (.setRecoveryGenerations (max k r) (max known r)))
        (e := fun _ s => Hears ρ p k m r (max known r) s) hF lasts_hears
        trivial (by simp) (by simp) (by simp) ?_ fun _ => ?_
      · rintro s c x s' hg ⟨hs, hheld⟩ - h
        have hmem := perform_memory h (by simp) (by simp)
        cases h
        have hview := view_setGens (ρ := ρ) s p (max k r) (max known r)
        exact ⟨.inr (hview ▸ hs.converge hg (hheld.1.helloed hm)), fun _ _ => hs.stays hle hview hmem⟩
      refine triple_idle (o := .store .getConversation) (i := .listener p)
        (e := fun r => ∃ convo, r = .ok (some convo)) (hF.stays lasts_hears) trivial (by simp)
        (fun s c x s' _ _ h => hconvo s c x s' h) ?_
      rintro _ ⟨convo, rfl⟩
      simp only [decide_eq_false hlt, Bool.false_eq_true, if_false, Nat.max_eq_left hle, Program.andThen]
      by_cases hstart : r = k ∧ p.code = roleOfferer
      · rw [if_pos hstart]
        obtain ⟨rfl, hp⟩ := hstart
        obtain rfl := p.code_eq_roleOfferer.mp hp
        exact (triple_initiateRotation hm convo).of_pre fun s hs => ⟨hs.1, hs.2.1.1, hs.2.2⟩
      · rw [if_neg hstart]
        refine triple_bind (triple_flushPending (hF.stays lasts_hears)) fun _ => ?_
        refine triple_return (hF.stays lasts_hears) fun s hg hs => ⟨hg, ?_⟩
        obtain ⟨⟨hh, -⟩, hheld⟩ := hs
        refine (hh.settled hle).handled hh.derived.recv hh.affords hheld.1 hm hle fun _ hp hr => ?_
        exact absurd ⟨hr, p.code_eq_roleOfferer.mpr hp⟩ hstart

end Titlan.World.Refinement
