import Titlan.World.Probing
import Titlan.World.Setting

/-! # Recovery

`enter_recovery_gen` and `recover`, operation by operation: creating the own derived inbox, moving to it,
probing the window, and storing where to deposit and the generations. Both leave the party at rest. -/

namespace Titlan.World.Refinement

open Foundation

variable [Sealing]

section Recovering

variable {ρ : Course} {p : Role} {s s' : St} {F a : St → Prop} {g k known : ℕ} {w : List ℕ}

/-- What a party at or entering generation `g` has in memory. -/
structure Ring (ρ : Course) (p : Role) (g : ℕ) (s : St) : Prop where
  seen : ∀ e ∈ (s.party p).helloSeen, e.1 ≤ g
  fresh : ρ.regime = .meeting → p = .offerer → seenHellos s g = 0
  lone : p = .responder → (s.party p).rotation = none

theorem Ring.same (h : Ring ρ p g s) (hrotation : (s'.party p).rotation = (s.party p).rotation)
    (hseen : (s'.party p).helloSeen = (s.party p).helloSeen) : Ring ρ p g s' := by
  refine ⟨by rw [hseen]; exact h.seen, fun hκ hp => ?_, by rw [hrotation]; exact h.lone⟩
  subst hp
  rw [seenHellos, hseen]
  exact h.fresh hκ rfl

theorem lasts_ring : Lasts ρ p (Ring ρ p g) := fun _ _ _ _ ho h => h.same ho.rotation ho.helloSeen

/-- Store accesses and requests leave it alone. -/
theorem Ring.perform {c : Choice} {o : Op carrier} {r : o.Answer} (h : Ring ρ p g s)
    (hp : perform p c s o = some (r, s')) (hram : ∀ q, o ≠ .ram q) (hsocket : ∀ q, o ≠ .socket q) :
    Ring ρ p g s' := by
  obtain ⟨hrotation, hseen, -⟩ := memory_eq_iff.mp (perform_memory hp hram hsocket)
  exact h.same hrotation hseen

/-- A `PUT` creates the mailbox or finds it. -/
theorem perform_put {c : Choice} {id : MailboxId} {r : Result PutOutcome}
    (h : perform p c s (.relay (.putMailbox () id)) = some (r, s')) : r = .ok .created ∧
      ((ρ.view s).Live id ∧ s' = s ∨
        ¬ (ρ.view s).Live id ∧ ρ.view s' = (ρ.view s).setBox id (some [])) := by
  simp only [perform, performRelay] at h
  split at h
  · cases h
    refine ⟨rfl, .inl ⟨?_, rfl⟩⟩
    rw [live_view, ‹s.boxes id = _›]
    rfl
  · cases h
    refine ⟨rfl, .inr ⟨?_, view_setBox s id (some [])⟩⟩
    rw [live_view, ‹s.boxes id = _›]
    exact Bool.false_ne_true

/-- `put_create` succeeds, with a step where the mailbox is created. -/
theorem triple_putCreate {b : MailboxId} {e : St → Prop} (hF : Framed ρ p F) (ha : Lasts ρ p a)
    (he : Lasts ρ p e)
    (hlive : ∀ s, Good ρ s → a s → (ρ.view s).Live b → e s)
    (hput : ∀ s c r s', Good ρ s → a s → ρ.Allows p s (.relay (.putMailbox () b)) →
      perform p c s (.relay (.putMailbox () b)) = some (r, s') → ¬ (ρ.view s).Live b →
      ρ.view s' = (ρ.view s).setBox b (some []) →
      View.Step ρ.regime p (ρ.view s) ((ρ.view s).setBox b (some [])) ∧ e s') :
    GoodTriple ρ (.listener p) (fun s => a s ∧ F s)
      (Engine.putCreate (C := carrier) () b) fun r s => (Good ρ s ∧ e s ∧ F s) ∧ r = true := by
  refine triple_step (o := .relay (.putMailbox () b)) (e := fun r s => e s ∧ r = .ok .created) hF ha
    trivial (by simp) (by simp) (by simp) ?_ fun r => ?_
  · rintro s c r s' hg ⟨hs, -⟩ hallows h
    obtain ⟨rfl, ⟨hl, rfl⟩ | ⟨hl, hview⟩⟩ := perform_put (ρ := ρ) h
    · exact ⟨.inl rfl, fun _ _ => ⟨hlive _ hg hs hl, rfl⟩⟩
    · obtain ⟨hstep, hes⟩ := hput s c _ s' hg hs hallows h hl hview
      exact ⟨.inr (hview ▸ hstep), fun _ _ => ⟨hes, rfl⟩⟩
  · rintro s ⟨hg, ⟨hs, rfl⟩, hf⟩
    exact triple_return (hF.stays he) (fun s hg hs => ⟨⟨hg, hs.1, hs.2⟩, rfl⟩) s ⟨hg, hs, hf⟩

/-- Sealing a control frame and depositing it, which is a step where the mailbox exists. -/
theorem triple_announce {b : MailboxId} {f : Frame} {e : St → Prop} (hF : Framed ρ p F)
    (ha : Lasts ρ p a) (he : Lasts ρ p e) (hf : isRecovery f) (convo : Conversation carrier)
    (hnone : ∀ s, Good ρ s → a s → F s → ¬ (ρ.view s).Live b → e s)
    (hdeposit : ∀ s l wire, content wire = f → Good ρ s → a s → F s → s.boxes b = some l →
      View.Step ρ.regime p (ρ.view s) (ρ.view (s.deposit b l wire)) ∧
        (Good ρ (s.deposit b l wire) → F (s.deposit b l wire) → e (s.deposit b l wire))) :
    GoodTriple ρ (.listener p) (fun s => a s ∧ F s) (engine.announce convo b f)
      fun _ s => Good ρ s ∧ e s ∧ F s := by
  refine triple_bind (triple_sessions (hF.stays ha) (kept_encryptMessage convo.peerAddress f)) fun r => ?_
  rintro s ⟨hs, wire, rfl, hwire⟩
  have hadmitted : Admitted (content wire) := by
    rw [hwire]
    cases f <;> trivial
  refine (triple_step (o := .relay (.deposit () b wire)) (e := fun _ s => e s) hF ha hadmitted
    (by simp) (by simp) (by simp) ?_ fun r => triple_return (hF.stays he) fun s hg hs => ⟨hg, hs⟩) s hs
  rintro s c r s' hg ⟨hs, hfs⟩ - h
  rcases perform_deposit h with ⟨hbox, -, rfl⟩ | ⟨l, hl, -, rfl⟩
  · refine ⟨.inl rfl, fun _ _ => hnone _ hg hs hfs ?_⟩
    rw [live_view, hbox]
    exact Bool.false_ne_true
  · obtain ⟨hstep, hes⟩ := hdeposit s l wire hwire hg hs hfs hl
    exact ⟨.inr hstep, hes⟩

theorem Course.Allows.timely {o : Op carrier} (hκ : ρ.regime.Lossy) (h : ρ.Allows p s o) :
    Timely p s o := by
  rw [Course.Allows] at h
  cases hρ : ρ.regime with
  | losing => rwa [hρ] at h
  | meeting =>
    rw [hρ] at h
    exact h.1
  | keeping g =>
    rw [hρ] at hκ
    exact hκ.elim

theorem Course.Allows.aligned {o : Op carrier} (hκ : ρ.regime = .meeting) (h : ρ.Allows p s o) :
    Aligned p s o := by
  rw [Course.Allows, hκ] at h
  exact h.2

/-- The party probes the generations `w`. -/
def Probes (ρ : Course) (p : Role) (g known : ℕ) (w : List ℕ) (s : St) : Prop :=
  View.Probing ρ.regime p g known w (ρ.view s) ∧ Ring ρ p g s

theorem lasts_probes : Lasts ρ p (Probes ρ p g known w) :=
  (lasts_view fun _ _ h _ hp => h.probing hp).and lasts_ring

theorem lasts_created : Lasts ρ p fun s => Probes ρ p g known w s ∧
    View.Created ρ.regime p g k (ρ.view s) := by
  intro s s' hg hg' ho ⟨hp, hc⟩
  refine ⟨lasts_probes s s' hg hg' ho hp, ?_⟩
  rcases ho.view with heq | henv
  · rwa [heq]
  · exact henv.created hp.1.recv hc

/-- Creating the other party's inbox is a step of the protocol. -/
theorem Probes.put (hκ : ρ.regime.Lossy) (hp : Probes ρ p g known (k :: w) s)
    (hallows : ρ.Allows p s (.relay (.putMailbox () (.derived p.peer k))))
    (hnone : ¬ (ρ.view s).Live (.derived p.peer k)) :
    View.Step ρ.regime p (ρ.view s) ((ρ.view s).setBox (.derived p.peer k) (some [])) := by
  have hbox : s.boxes (.derived p.peer k) = none := by
    rwa [live_view, Option.not_isSome_iff_eq_none] at hnone
  have hgen : s.generation p = g := View.eff_of_derived (v := ρ.view s) hp.1.recv
  refine .putPeer g k hp.1.recv (fun hr => ?_) ?_ hnone ?_
  · have hle := hallows.timely hκ rfl hr hbox
    rwa [hgen] at hle
  · rintro rfl
    exact hp.1.once List.mem_cons_self
  · rintro hmeet rfl hr
    have hlt := hallows.aligned hmeet rfl hr hbox
    rwa [hgen] at hlt

/-- The probe loop. -/
theorem triple_probe (hF : Framed ρ p F) (hκ : ρ.regime.Lossy) (convo : Conversation carrier) (n : ℕ)
    (hmax : ∀ k ∈ w, k < u32Max) (hnd : w.Nodup) :
    GoodTriple ρ (.listener p) (fun s => Probes ρ p g known w s ∧ F s)
      (engine.probe convo () p.peer (hello g n) w)
      fun _ s => Good ρ s ∧ Probes ρ p g known [] s ∧ F s := by
  induction w with
  | nil => exact triple_return (hF.stays lasts_probes) fun s hg hs => ⟨hg, hs⟩
  | cons k w ih =>
    have hrest := ih (fun j hj => hmax j (List.mem_cons_of_mem k hj)) (List.nodup_cons.mp hnd).2
    refine triple_bind (triple_putCreate (b := .derived p.peer k)
      (e := fun s => Probes ρ p g known (k :: w) s ∧ View.Created ρ.regime p g k (ρ.view s)) hF
      lasts_probes lasts_created (fun s _ hs hl => ⟨hs, View.created_of_live hl⟩) ?_) fun r => ?_
    · intro s c r s' hg hs hallows hp hnone hview
      refine ⟨hs.put hκ hallows hnone, ⟨?_, hs.2.perform hp (by simp) (by simp)⟩, ?_⟩
      · rw [hview]
        exact hs.1.put hnone
      · rw [hview]
        refine View.created_of_live ?_
        rw [View.live_setBox_self]
        rfl
    · rintro s ⟨hs, rfl⟩
      refine triple_bind (triple_announce (b := .derived p.peer k) (f := hello g n)
        (e := Probes ρ p g known w) hF lasts_created lasts_probes rfl convo
        (fun s _ hs _ hnone => ⟨hs.1.1.skip hs.2 hnone, hs.1.2⟩) ?_) (fun _ => hrest) s hs
      rintro s l wire hwire hg ⟨⟨hp, hring⟩, -⟩ - hl
      have hl' := view_boxes (ρ := ρ) hl
      rw [Probes, view_deposit_control (by rw [hwire]; rfl)]
      refine ⟨.hello g k n _ _ hp.recv (hmax k List.mem_cons_self) ?_ hl' hwire,
        fun _ _ => ⟨hp.hello hnd hl' hwire, hring.same rfl rfl⟩⟩
      rintro rfl
      exact hp.once List.mem_cons_self

/-! ## `enter_recovery_gen` -/

/-- The party is about to move to its derived inbox `g`. -/
def Departs (ρ : Course) (p : Role) (g known : ℕ) (s : St) : Prop :=
  View.Departing p g (ρ.view s) ∧ (ρ.view s).known p = known ∧ Ring ρ p g s

theorem lasts_departs : Lasts ρ p (Departs ρ p g known) :=
  (lasts_view fun _ _ h hi hd => h.departing hi hd).and
    ((lasts_view fun _ _ h _ hk => h.known_eq.trans hk).and lasts_ring)

/-- The party has come to its derived inbox `g`, and rests there. -/
def Arrived (ρ : Course) (p : Role) (g : ℕ) (s : St) : Prop :=
  Between ρ p s ∧ s.recv p = some (.derived p g)

theorem lasts_arrived : Lasts ρ p (Arrived ρ p g) :=
  lasts_between.and fun _ _ _ _ ho h => ho.recv_eq.trans h

/-- Storing the generations ends the entry. -/
theorem Probes.arrived (hκ : ρ.regime.Lossy) (hg' : Good ρ s') (hp : Probes ρ p g known [] s)
    (hsend : (ρ.view s).send p = some (.derived p.peer g))
    (hview : ρ.view s' = (ρ.view s).setGens p g known) (hring : Ring ρ p g s') : Arrived ρ p g s' := by
  have hder : View.Derived p (s'.party p).rotation g (ρ.view s') := by
    rw [hview]
    exact hp.1.derived hsend _
  have hrecv : s'.recv p = some (.derived p g) := hder.recv
  refine ⟨⟨⟨.derived g hder, ?_, hring.lone, ?_, fun hκ' => absurd hκ hκ'⟩, ?_⟩, hrecv⟩
  · rw [View.eff_of_derived hder.recv]
    exact hring.seen
  · rintro hκ rfl
    rw [hview]
    exact hp.1.met_setGens hκ g known
  · rintro rfl k hk
    obtain rfl : g = k := by
      rw [hrecv] at hk
      simpa using hk
    have hno : ∀ x, ¬ (ρ.view s').Offered g x := by
      rw [hview]
      exact hp.1.unoffered rfl
    have hunread := hg'.traced.unread_le none g
    rw [View.offerLog_eq_zero hno]
    refine ⟨hunread, fun hκ => ?_⟩
    rw [hring.fresh hκ rfl]
    exact hunread

/-- `enter_recovery_gen` brings the party to rest on its derived inbox. -/
theorem triple_enterRecoveryGen (hF : Framed ρ p F) (hκ : ρ.regime.Lossy) (convo : Conversation carrier)
    (hcover : ∀ j, known ≤ j → j < g → j ∈ GenerationState.outboundWindow ⟨g, known⟩) :
    GoodTriple ρ (.listener p) (fun s => Departs ρ p g known s ∧ F s)
      (engine.enterRecoveryGen convo p.code () g known)
      fun r s => (Good ρ s ∧ Arrived ρ p g s ∧ F s) ∧ r = true := by
  have hmax : ∀ k ∈ GenerationState.outboundWindow ⟨g, known⟩, k < u32Max := fun k hk =>
    (GenerationState.mem_outboundWindow.mp hk).2.2
  have hown : engine.deriveMailboxId () (roleFromU8 p.code) g = .derived p g := by
    rw [roleFromU8_code]
    rfl
  have hpeer : roleFromU8 (peerRoleU8 p.code) = p.peer := by
    rw [roleFromU8_peerRoleU8, roleFromU8_code]
  rw [Engine.enterRecoveryGen, hown, hpeer]
  refine triple_bind (triple_putCreate (b := .derived p g) (e := Departs ρ p g known) hF lasts_departs
    lasts_departs (fun s _ hs _ => hs) ?_) fun r => ?_
  · rintro s c r s' hg ⟨hd, hk, hring⟩ hallows hp hnone hview
    refine ⟨.putOwn g hd.later hnone, ?_, ?_, hring.perform hp (by simp) (by simp)⟩
    · rw [hview]
      exact hd.put
    · rw [hview]
      exact hk
  rintro s ⟨hs, rfl⟩
  rw [if_pos rfl]
  -- the routing row is written before the first probe
  refine (triple_step (o := .store (.setConversationRecv (.derived p g)))
    (e := fun r s => Probes ρ p g known (GenerationState.outboundWindow ⟨g, known⟩) s ∧ r = .ok ())
    hF lasts_departs trivial (by simp) (by simp) (by simp) ?_ fun r => ?_) s hs
  · rintro s c r s' hg ⟨⟨hd, hk, hring⟩, -⟩ hallows hp
    have hring' := hring.perform hp (by simp) (by simp)
    cases hp
    have hview := view_setRecv (ρ := ρ) s p (.derived p g)
    refine ⟨?_, fun _ _ => ⟨⟨?_, hring'⟩, rfl⟩⟩
    · rw [hview]
      exact hd.move hg.inv hg.traced hκ
    · rw [hview]
      refine hd.probing hg.inv hk hmax hcover ?_
      rintro hmeet rfl
      have hin := hallows.aligned hmeet rfl
      have hk' : (s.party .responder).recovery.peerGen = known := hk
      rwa [hk'] at hin
  rintro s ⟨hg, ⟨hs, rfl⟩, hfs⟩
  refine (triple_idle (o := .ram .drawNonce) (i := .listener p) (e := fun _ => True)
    (hF.stays lasts_probes) trivial (by simp) (fun _ _ _ _ _ _ _ => trivial) fun n _ => ?_) s ⟨hg, hs, hfs⟩
  rw [Program.andThen]
  refine triple_bind (triple_probe hF hκ convo n hmax (GenerationState.nodup_outboundWindow _)) fun _ => ?_
  refine triple_step (o := .store (.setConversationSend () (.derived p.peer g)))
    (e := fun _ s => Probes ρ p g known [] s ∧ (ρ.view s).send p = some (.derived p.peer g))
    hF lasts_probes trivial (by simp) (by simp) (by simp) ?_ fun _ => ?_
  · rintro s c r s' hg ⟨⟨hp, hring⟩, -⟩ - h
    have hring' := hring.perform h (by simp) (by simp)
    cases h
    have hview := view_setSend (ρ := ρ) s p () (.derived p.peer g)
    refine ⟨.inr ?_, fun _ _ => ⟨⟨?_, hring'⟩, ?_⟩⟩
    · rw [hview]
      exact .setSend g _ hp.recv
    · rw [hview]
      exact hp.setSend _
    · rw [hview]
      simp [View.setSend]
  have hlasts : Lasts ρ p fun s => Probes ρ p g known [] s ∧
      (ρ.view s).send p = some (.derived p.peer g) :=
    lasts_probes.and (lasts_view fun _ _ h _ hs => h.send_eq.trans hs)
  refine triple_step (o := .store (.setRecoveryGenerations g known)) (e := fun _ s => Arrived ρ p g s)
    hF hlasts trivial (by simp) (by simp) (by simp) ?_ fun _ => ?_
  · rintro s c r s' hg ⟨⟨hp, hsend⟩, -⟩ - h
    have hring' := hp.2.perform h (by simp) (by simp)
    cases h
    have hview := view_setGens (ρ := ρ) s p g known
    refine ⟨.inr ?_, fun hg' _ => hp.arrived hκ hg' hsend hview hring'⟩
    rw [hview]
    exact .setGens g g known hp.1.recv (hp.1.known_eq ▸ hg.inv.known_le p)
  exact triple_return (hF.stays lasts_arrived) fun s hg hs => ⟨⟨hg, hs⟩, rfl⟩

/-! ## `recover` -/

/-- The party rests at generation `own`, and has lost its inbox. -/
def Lost (ρ : Course) (p : Role) (own known : ℕ) (s : St) : Prop :=
  Between ρ p s ∧ View.Gone p (ρ.view s) ∧ (ρ.view s).own p = own ∧ (ρ.view s).known p = known

theorem lasts_lost {own : ℕ} : Lasts ρ p (Lost ρ p own known) :=
  lasts_between.and ((lasts_view fun _ _ h hi hg => h.gone hi hg).and
    ((lasts_view fun _ _ h _ ho => h.own_eq.trans ho).and
      (lasts_view fun _ _ h _ hk => h.known_eq.trans hk)))

/-- There is no hello of the last generation in its derived inbox. -/
theorem helloLog_max (hi : (ρ.view s).Inv) : (ρ.view s).helloLog u32Max = 0 := by
  by_contra hne
  have hh := View.helloLog_pos.mp (Nat.pos_of_ne_zero hne)
  exact absurd (hi.hello_le .offerer u32Max u32Max hh).2 (Nat.lt_irrefl _)

/-- Recovery moves on to the next generation, if there is one. -/
theorem Lost.departs {own : ℕ} (hg : Good ρ s) (h : Lost ρ p own known s) :
    Departs ρ p (saturatingAdd32 own 1) known s := by
  obtain ⟨hbet, hgone, hown, hknown⟩ := h
  have heff : (ρ.view s).eff p = own := hbet.rest.eff_eq_own.trans hown
  have hle : own ≤ u32Max := heff ▸ hg.inv.bounded p
  have hseen : ∀ e ∈ (s.party p).helloSeen, e.1 ≤ own := heff ▸ hbet.seen
  by_cases hlt : own < u32Max
  · have hnext : saturatingAdd32 own 1 = own + 1 := Nat.min_eq_left hlt
    rw [hnext]
    refine ⟨.lost hgone (by rw [heff]) hlt, hknown, fun e he => Nat.le_succ_of_le (hseen e he), ?_, hbet.lone⟩
    rintro - rfl
    refine List.countP_eq_zero.mpr fun e he hk => ?_
    have hle := hseen e he
    have heq : e.1 = own + 1 := of_decide_eq_true hk
    omega
  · obtain rfl : own = u32Max := Nat.le_antisymm hle (Nat.le_of_not_lt hlt)
    have hsame : saturatingAdd32 u32Max 1 = u32Max := by decide
    have hrecv : (ρ.view s).recv p = some (.derived p u32Max) := by
      rcases hg.inv.shape p with ⟨k, hk⟩ | ⟨n, -, -, hlt'⟩
      · rw [View.eff_of_derived hk] at heff
        rwa [heff] at hk
      · exact absurd hlt' (hown ▸ hlt)
    rw [hsame]
    refine ⟨.last hrecv rfl, hknown, hseen, ?_, hbet.lone⟩
    rintro hκ rfl
    have hafford := (hbet.affords rfl u32Max hrecv).2 hκ
    rw [helloLog_max hg.inv] at hafford
    omega

omit [Sealing] in
/-- Unless recovery is exhausted, the window covers what the other party may be behind. -/
theorem cover_of_not_exhausted {own j : ℕ} (h : GenerationState.isExhausted ⟨own, known⟩ = false)
    (hj : known ≤ j) (hlt : j < saturatingAdd32 own 1) :
    j ∈ GenerationState.outboundWindow ⟨saturatingAdd32 own 1, known⟩ := by
  have hnot : ¬ absDiff own known ≥ recoveryWindow := of_decide_eq_false h
  rw [GenerationState.mem_outboundWindow]
  simp only [saturatingAdd32, absDiff] at *
  omega

/-- `recover` leaves the party at rest, on its derived inbox of the next generation if it has moved. -/
theorem triple_recover (hκ : ρ.regime.Lossy) :
    GoodTriple ρ (.listener p) (fun s => Between ρ p s ∧ View.Gone p (ρ.view s)) engine.recover
      fun _ s => Good ρ s ∧ Between ρ p s := by
  have hF : Framed ρ p fun _ => True := framed_lossy hκ
  have hbetween : Stays ρ (.listener p) (Between ρ p) := lasts_between.stays fun _ h => h.guarded
  rintro s ⟨hg, hbet, hgone⟩
  have hlost : Lost ρ p ((ρ.view s).own p) ((ρ.view s).known p) s := ⟨hbet, hgone, rfl, rfl⟩
  generalize (ρ.view s).own p = own at hlost
  generalize (ρ.view s).known p = known at hlost
  have hstays : Stays ρ (.listener p) (Lost ρ p own known) := lasts_lost.stays fun _ h => h.1.guarded
  rw [Engine.recover, Program.perform_bind]
  refine (triple_idle (o := .store .getConversation) (i := .listener p)
    (e := fun r => ∃ convo, r = .ok (some convo)) hstays trivial (by simp)
    (fun s c r s' _ _ h => by cases h; exact ⟨_, rfl⟩) ?_) s ⟨hg, hlost⟩
  rintro r ⟨convo, rfl⟩
  refine triple_idle (o := .store .recoveryState) (i := .listener p)
    (e := fun r => r = .ok (some ⟨some p.code, some (), own, known⟩)) hstays trivial (by simp) ?_ ?_
  · rintro s c r s' hg ⟨-, -, hown, hknown⟩ h
    cases h
    obtain ⟨hrole, hroot⟩ := hg.rooted p
    rw [← hrole, ← hroot, ← hown, ← hknown]
    rfl
  rintro r rfl
  refine triple_idle (o := .ram .cyclesExhausted) (i := .listener p) (e := fun _ => True) hstays trivial
    (by simp) (fun _ _ _ _ _ _ _ => trivial) fun exhausted _ => ?_
  by_cases hex : exhausted || GenerationState.isExhausted ⟨own, known⟩
  · simp only [Program.andThen, hex, if_true]
    exact triple_return hstays fun s hg hs => ⟨hg, hs.1⟩
  · simp only [Program.andThen, hex]
    have hcover := fun j => @cover_of_not_exhausted known own j
      (Bool.or_eq_false_iff.mp (eq_false_of_ne_true hex)).2
    refine triple_bind ((triple_enterRecoveryGen hF hκ convo hcover).of_pre
      fun s hs => ⟨hs.1, hs.2.departs hs.1, trivial⟩) fun r => ?_
    rintro s ⟨⟨hg, harr, -⟩, rfl⟩
    refine (triple_idle_eq (o := .ram .noteProbeCycle) (i := .listener p) (v := ()) hbetween
      trivial (by simp) (fun _ => rfl) ?_) s ⟨hg, harr.1⟩
    exact triple_return hbetween fun s hg hs => ⟨hg, hs⟩

end Recovering

end Titlan.World.Refinement
