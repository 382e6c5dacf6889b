import Titlan.World.Rotating

/-! # The conversation listener

Dispatch, the ack and the loops around them. A delivered message is handled and then acked; the ack is the
step that removes it from the mailbox, and by then it has been dealt with. The listener is verified by
induction on its fuel, from a party at rest. -/

namespace Titlan.World.Refinement

open Foundation

variable [Sealing] {ρ : Course} {p : Role} {b : MailboxId} {m : Queued} {s s' : St} {k : ℕ}

/-! ## Dispatch -/

/-- There is nothing to do for a frame that is no control frame. -/
theorem Handling.other (h : Handling ρ p b m s) (hm : ¬ isRecovery m.frame) : Handled ρ p b m false s := by
  refine ⟨h.toSettled, h.toOpen, ⟨fun r n hf => ?_, fun hf => ?_, fun _ _ k _ hf => ?_⟩, h.recv, ?_⟩
  · rw [hf] at hm
    exact absurd rfl hm
  · cases hf' : m.frame <;> simp_all [isHandoff, isRecovery]
  · exact absurd (isRecovery_of_isHello hf) hm
  · rintro rfl k hk
    obtain ⟨hoffer, hseen⟩ := h.affords rfl k hk
    refine ⟨Nat.le_trans ?_ hoffer, fun hκ => Nat.le_trans ?_ (hseen hκ)⟩ <;> simp only <;> omega

theorem stays_handling : Stays ρ (.listener p) (Handling ρ p b m) :=
  lasts_handling.stays fun _ h => h.toSettled.guarded h.toOpen

/-- `handle_incoming` deals with every frame an inbox may hold. -/
theorem triple_handleIncoming (hm : Admitted m.frame) (peer : String) :
    GoodTriple ρ (.listener p) (Handling ρ p b m)
      (engine.handleIncoming peer m.wire) fun changed s => Good ρ s ∧ Handled ρ p b m changed s := by
  have hother : ¬ isRecovery m.frame → GoodTriple ρ (.listener p) (Handling ρ p b m) (.ret false)
      fun changed s => Good ρ s ∧ Handled ρ p b m changed s := fun hc =>
    triple_return stays_handling fun s hg hs => ⟨hg, hs.other hc⟩
  suffices hdispatch : GoodTriple ρ (.listener p) (Handling ρ p b m)
      (engine.dispatch m.frame) fun changed s => Good ρ s ∧ Handled ρ p b m changed s by
    refine triple_bind (triple_sessions stays_handling (kept_decryptMessage peer m.wire)) fun r => ?_
    rintro s ⟨hs, rfl⟩
    exact hdispatch s hs
  generalize hf : m.frame = f at hm hother
  cases f with
  | chat typeVersion text =>
    refine triple_still (i := .listener p)
      (o := .store (.insertMessage .incoming (.chat typeVersion text) .received))
      (e := fun r => ∃ row, r = .ok row) stays_handling (fun hd => (by cases hd)) (by simp) (by simp)
      (fun s c r s' _ _ h => still_insertMessage h) ?_
    rintro _ ⟨row, rfl⟩
    exact triple_idle_eq (o := .notify (.message row)) (i := .listener p) (v := ()) stays_handling
      trivial (by simp) (fun _ => rfl) (hother Bool.false_ne_true)
  | mailboxUpdateV3 relayUrl inbox => exact triple_handleRotation hf
  | mailboxUpdateV1 relayUrl inbox => exact hm.elim
  | recoveryHello generation nonce => exact triple_handleRecoveryHello hf
  | mailboxUpdateV2 _ _ _ => exact hother Bool.false_ne_true
  | discarded => exact hother Bool.false_ne_true

/-! ## Waiting on the socket -/

theorem Between.same (h : Between ρ p s) (hview : ρ.view s' = ρ.view s)
    (hrotation : (s'.party p).rotation = (s.party p).rotation)
    (hseen : (s'.party p).helloSeen = (s.party p).helloSeen) (htuned : Tuned ρ p s') : Between ρ p s' := by
  refine ⟨h.toSettled.same hview hrotation hseen htuned, ?_⟩
  rintro rfl k hk
  have hk' : s.recv .offerer = some (.derived .offerer k) :=
    (congrFun (congrArg View.recv hview) .offerer).symm.trans hk
  rw [hview, seenHellos, hseen]
  exact h.affords rfl k hk'

/-- A party reads its own derived inbox or a generated one. -/
theorem Reading.owner (h : Reading ρ p b s) (hg : Good ρ s) (q : Role) (k : ℕ) (hb : b = .derived q k) :
    q = p := by
  have hrecv : (ρ.view s).recv p = some b := h.recv
  rcases hg.inv.shape p with ⟨j, hj⟩ | ⟨n, hn, -⟩
  · rw [hrecv, Option.some.injEq] at hj
    exact (MailboxId.derived.inj (hb.symm.trans hj)).1
  · rw [View.OnGenerated, hrecv, Option.some.injEq] at hn
    rw [hn] at hb
    cases hb

/-- The relay pushes the head of the queue. -/
theorem Reading.delivered (h : Reading ρ p b s) (hg : Good ρ s) {rest : List Queued}
    (hl : s.boxes b = some (m :: rest)) (hlive : (s.party p).conn = some (.live b none))
    (hview : ρ.view s' = ρ.view s) (hboxes : s'.boxes = s.boxes) (hnext : s'.nextMsg = s.nextMsg)
    (hself : s'.party p = { s.party p with conn := some (.live b (some m.id)) }) :
    Handling ρ p b m s' := by
  have hrecv : s'.recv p = s.recv p := congrFun (congrArg View.recv hview) p
  obtain ⟨hnodup, hids⟩ := hg.ids b _ hl
  rw [List.map_cons, List.nodup_cons] at hnodup
  have hlogged : isRecovery m.frame → (b, m.frame) ∈ (ρ.view s).log := fun hc =>
    hg.traced.queued b _ (view_boxes hl) m (List.mem_filter.mpr ⟨List.mem_cons_self, hc⟩)
  have hconn : Connected ρ p b (some m.id) s' := .inl (by rw [hself])
  refine ⟨h.toSettled.same hview ?_ ?_ (hconn.tuned (hrecv.trans h.recv)),
    ⟨hconn, fun _ => ⟨?_, ?_⟩, fun hc => ?_⟩, hrecv.trans h.recv, fun _ hc => ?_, ?_⟩
  · rw [hself]
  · rw [hself]
  · rw [hnext]
    exact hids m List.mem_cons_self
  · rw [hboxes]
    rintro l hl' m' hm' hid
    rw [hl, Option.some.injEq] at hl'
    subst hl'
    rcases List.mem_cons.mp hm' with rfl | hm'
    · rfl
    · exact absurd (hid ▸ List.mem_map_of_mem hm') hnodup.1
  · rw [hview]
    exact hlogged hc
  · obtain ⟨q, j, hb, -⟩ := hg.traced.sorts b _ (hlogged hc)
    obtain rfl := h.owner hg q j hb
    rw [Queues, hview]
    exact ⟨j, _, hb, view_boxes hl, List.mem_filter.mpr ⟨List.mem_cons_self, hc⟩⟩
  · rintro rfl k hk
    rw [hrecv, h.recv, Option.some.injEq] at hk
    subst hk
    obtain ⟨hoffer, hseen⟩ := h.affords rfl k h.recv
    -- the message leaves the backlog and is what is being handled
    have hle : backlog ρ s' k + weight k m.frame ≤ backlog ρ s k := by
      rw [backlog, backlog, hself, hlive]
      simp only [hview]
      rw [unread_view, unread_view, hl, Option.getD_some, List.countP_cons, List.countP_cons]
      have hrest : rest.countP (fun m' => isHello k m'.frame && decide (some m'.id ≠ some m.id)) ≤
          rest.countP (fun m' => isHello k m'.frame && decide (some m'.id ≠ none)) :=
        List.countP_mono_left fun m' _ hm' => by simp_all
      have hself : (isHello k m.frame && decide (some m.id ≠ some m.id)) = false := by simp
      have hnone : (isHello k m.frame && decide (some m.id ≠ none)) = isHello k m.frame := by simp
      rw [hself, hnone, weight]
      simp only [Bool.false_eq_true, if_false]
      omega
    rw [hview, seenHellos, hself]
    refine ⟨by simp only; omega, fun hκ => ?_⟩
    have hsee := hseen hκ
    rw [seenHellos] at hsee
    simp only
    omega

/-- What the relay had pushed is still read. -/
theorem Reading.buffered (h : Reading ρ p b s) {buffered : List Queued} (hκ : ρ.regime.Lossy)
    (hdead : (s.party p).conn = some (.dead (m :: buffered)))
    (hb : ∀ m' ∈ m :: buffered, Admitted m'.frame ∧ (isRecovery m'.frame → (b, m'.frame) ∈ (ρ.view s).log))
    (hview : ρ.view s' = ρ.view s)
    (hself : s'.party p = { s.party p with conn := some (.dead buffered) }) :
    Handling ρ p b m s' := by
  have hrecv : s'.recv p = s.recv p := congrFun (congrArg View.recv hview) p
  refine ⟨h.toSettled.same hview ?_ ?_ fun hκ' => absurd hκ hκ',
    ⟨.inr ⟨hκ, buffered, ?_, fun m' hm' => ?_⟩, fun hlive => ?_, ?_⟩,
    hrecv.trans h.recv, fun hκ' => absurd hκ hκ', ?_⟩
  · rw [hself]
  · rw [hself]
  · rw [hself]
  · rw [hview]
    exact hb m' (List.mem_cons_of_mem m hm')
  · rw [hself] at hlive
    cases hlive
  · rw [hview]
    exact (hb m List.mem_cons_self).2
  · rintro rfl k hk
    obtain ⟨hoffer, hseen⟩ := h.affords rfl k (hrecv.symm.trans hk)
    have hle : backlog ρ s' k + weight k m.frame = backlog ρ s k := by
      rw [backlog, backlog, hself, hdead]
      simp only [hview, List.countP_cons, weight]
      omega
    rw [hview, seenHellos, hself]
    refine ⟨by simp only; omega, fun hκ => ?_⟩
    have hsee := hseen hκ
    rw [seenHellos] at hsee
    simp only
    omega

/-- What a wait on the socket yields. -/
def Yielded (ρ : Course) (p : Role) (b : MailboxId) : Event carrier → St → Prop
  | .delivery id wire, s =>
    (Admitted (content wire) ∧ ∀ q k, b = .derived q k → q = p) ∧ Handling ρ p b ⟨id, wire⟩ s
  | .idle, s => Reading ρ p b s
  | .closed, s => Between ρ p s

theorem Reading.yielded (h : Reading ρ p b s) (hg : Good ρ s) {c : Choice} {r : Event carrier}
    (hp : perform p c s (.socket .next) = some (r, s')) :
    ρ.view s' = ρ.view s ∧ Yielded ρ p b r s' := by
  have hview : ∀ conn, ρ.view (s.modify p fun x => { x with conn }) = ρ.view s :=
    fun conn => view_modify_same rfl rfl
  have hself : ∀ conn, (s.modify p fun x => { x with conn }).party p = { s.party p with conn } :=
    fun conn => s.modify_party_self p _
  have hclosed : ρ.regime.Lossy → Between ρ p (s.modify p fun x => { x with conn := none }) := by
    intro hκ
    refine h.between.same (hview none) ?_ ?_ fun hκ' => absurd hκ hκ'
    · rw [hself]
    · rw [hself]
  rcases h.connected with hlive | ⟨hκ, buffered, hdead, hb⟩
  · simp only [perform, performSocket, hlive] at hp
    cases c with
    | deliver =>
      simp only at hp
      split at hp
      · rename_i m rest hl
        cases hp
        exact ⟨hview _, ⟨hg.frames b _ hl m List.mem_cons_self, h.owner hg⟩,
          h.delivered hg hl hlive (hview _) rfl rfl (hself _)⟩
      · cases hp
    | idle =>
      cases hp
      exact ⟨rfl, h⟩
    | closed =>
      simp only at hp
      split at hp
      · -- the socket is closed only where the mailbox is gone
        rename_i hnone
        cases hp
        refine ⟨hview none, hclosed ?_⟩
        by_contra hκ
        obtain ⟨g, hkept⟩ := hg.kept hκ
        have hlive := hkept.live p b h.recv
        rw [live_view, hnone] at hlive
        cases hlive
      · cases hp
  · simp only [perform, performSocket, hdead] at hp
    cases c with
    | deliver =>
      cases buffered with
      | nil => cases hp
      | cons m buffered =>
        cases hp
        exact ⟨hview _, ⟨(hb m List.mem_cons_self).1, h.owner hg⟩,
          h.buffered hκ hdead hb (hview _) (hself _)⟩
    | idle => cases buffered <;> cases hp
    | closed =>
      cases buffered <;> cases hp
      all_goals exact ⟨hview none, hclosed hκ⟩

/-! ## Acks -/

/-- What an ack shows: nothing, or messages gone from an own derived inbox. -/
def Thinned (p : Role) (v v' : View) : Prop :=
  v' = v ∨ ∃ k l l', v.boxes (.derived p k) = some l ∧ l'.Sublist l ∧
    v' = v.setBox (.derived p k) (some l')

theorem Settled.thinned (h : Settled ρ p s) (hv : Thinned p (ρ.view s) (ρ.view s'))
    (hrotation : (s'.party p).rotation = (s.party p).rotation)
    (hseen : (s'.party p).helloSeen = (s.party p).helloSeen) (htuned : Tuned ρ p s') : Settled ρ p s' := by
  rcases hv with hview | ⟨k, l, l', hl, -, hview⟩
  · exact h.same hview hrotation hseen htuned
  · refine ⟨?_, ?_, ?_, fun hκ hp g hm => ?_, htuned⟩
    · rw [hview, hrotation]
      exact h.rest.setQueue hl l'
    · rw [hview, hseen]
      exact h.seen
    · rw [hrotation]
      exact h.lone
    · rw [hview] at hm ⊢
      exact h.met hκ hp g ⟨hm.floor, hm.recv, (View.live_setQueue hl l').mp hm.live⟩

theorem Thinned.log_eq {v v' : View} (h : Thinned p v v') : v'.log = v.log := by
  rcases h with rfl | ⟨k, l, l', -, -, rfl⟩ <;> rfl

theorem Thinned.recv_eq {v v' : View} (h : Thinned p v v') : v'.recv = v.recv := by
  rcases h with rfl | ⟨k, l, l', -, -, rfl⟩ <;> rfl

/-- There is less to read. -/
theorem Thinned.unread_le {v v' : View} (h : Thinned .offerer v v') (i : Option ℕ) (k : ℕ) :
    v'.unread i k ≤ v.unread i k := by
  rcases h with rfl | ⟨j, l, l', hl, hsub, rfl⟩
  · exact Nat.le_refl _
  · by_cases hk : k = j
    · subst hk
      rw [View.unread, View.unread, hl]
      simp only [View.setBox, Function.update_self, Option.getD_some]
      exact hsub.countP_le
    · simp [View.unread, View.setBox, hk]

theorem Between.thinned (h : Between ρ p s) (hv : Thinned p (ρ.view s) (ρ.view s'))
    (hrotation : (s'.party p).rotation = (s.party p).rotation)
    (hseen : (s'.party p).helloSeen = (s.party p).helloSeen) (htuned : Tuned ρ p s') : Between ρ p s' := by
  refine ⟨h.toSettled.thinned hv hrotation hseen htuned, ?_⟩
  rintro rfl k hk
  obtain ⟨hoffer, hsee⟩ := h.affords rfl k ((congrFun hv.recv_eq .offerer).symm.trans hk)
  have hle := hv.unread_le none k
  rw [View.offerLog, View.helloLog, hv.log_eq, seenHellos, hseen]
  exact ⟨Nat.le_trans (Nat.add_le_add_right hle _) hoffer,
    fun hκ => Nat.le_trans (Nat.add_le_add_right hle _) (hsee hκ)⟩

theorem setBox_eq_self (v : View) (b : MailboxId) : v.setBox b (v.boxes b) = v := by
  ext1
  case boxes => exact Function.update_eq_self b _
  all_goals rfl

/-- What the ack of the message `i` in `b` shows. -/
theorem view_ack (s : St) (p : Role) (b : MailboxId) (i : ℕ) :
    ρ.view ((s.setBox b ((s.boxes b).map fun l => l.filter fun m => m.id ≠ i)).modify p
      fun x => { x with conn := some (.live b none) }) =
    (ρ.view s).setBox b (((ρ.view s).boxes b).map fun l => l.filter fun m => m.id ≠ i) := by
  rw [view_modify_same rfl rfl, view_setBox]
  congr 1
  simp only [Course.view, Option.map_map, Function.comp_def, List.filter_filter, Bool.and_comm]

/-- Acking a message that has been dealt with is a step, if it shows. -/
theorem ack_step {κ : Regime} {v : View} (ht : v.Traced) (howner : ∀ q k, b = .derived q k → q = p) (i : ℕ)
    (hdone : ∀ l, v.boxes b = some l → ∀ m ∈ l, m.id = i → (∀ r n, m.frame = hello r n → r ≤ v.eff p) ∧
      (isHandoff m.frame → v.recv p ≠ some b))
    (hmet : κ = .meeting → p = .offerer → ∀ l, v.boxes b = some l → ∀ m ∈ l, m.id = i → ∀ k,
      b = .derived .offerer k → isHello k m.frame → v.Meets k → ∃ x, v.Offered k x) :
    let v' := v.setBox b ((v.boxes b).map fun l => l.filter fun m => m.id ≠ i)
    (v' = v ∨ View.Step κ p v v') ∧ Thinned p v v' := by
  have hself := setBox_eq_self v b
  intro v'
  suffices h : v' = v ∨ View.Step κ p v v' ∧ Thinned p v v' by
    rcases h with h | h
    · exact ⟨.inl h, .inl h⟩
    · exact ⟨.inr h.1, h.2⟩
  cases hl : v.boxes b with
  | none =>
    left
    rw [hl] at hself
    simpa only [v', hl, Option.map_none] using hself
  | some l =>
    cases b with
    | derived q k =>
      obtain rfl := howner q k rfl
      have hv' : v' = v.setBox (.derived q k) (some (l.filter fun m => m.id ≠ i)) := by
        simp only [v', hl, Option.map_some]
      right
      rw [hv']
      refine ⟨.ack k i l hl (hdone l hl) fun hκ hq m hm hid hf hmeets => ?_,
        .inr ⟨k, l, _, hl, List.filter_sublist, rfl⟩⟩
      exact hmet hκ hq l hl m hm hid k (by rw [hq]) hf hmeets
    | generated n =>
      -- nothing waits in a generated inbox
      left
      obtain rfl : l = [] := by
        refine List.eq_nil_iff_forall_not_mem.mpr fun m hm => ?_
        exact ht.not_waits ⟨l, hl, m, hm, rfl⟩
      rw [hl] at hself
      simpa only [v', hl, Option.map_some, List.filter_nil] using hself

/-- The backlog of a listener that acks the message it has handled. -/
theorem backlog_ack {i : ℕ} (hlive : (s.party .offerer).conn = some (.live (.derived .offerer k) (some i))) :
    backlog ρ ((s.setBox (.derived .offerer k)
      ((s.boxes (.derived .offerer k)).map fun l => l.filter fun m => m.id ≠ i)).modify .offerer
        fun x => { x with conn := some (.live (.derived .offerer k) none) }) k = backlog ρ s k := by
  rw [backlog, backlog, St.modify_party_self, hlive]
  simp only
  rw [unread_view, unread_view, St.modify_boxes, St.setBox_boxes_self]
  cases s.boxes (.derived .offerer k) with
  | none => rfl
  | some l =>
    rw [Option.map_some, Option.getD_some, Option.getD_some, List.countP_filter]
    refine List.countP_congr fun m _ => ?_
    simp

/-- A message more or less to handle does not change what the party is subscribed to. -/
theorem Tuned.acked {i i' : Option ℕ} (h : Tuned ρ p s) (hlive : (s.party p).conn = some (.live b i))
    (hlive' : (s'.party p).conn = some (.live b i')) (hrecv : s'.recv p = s.recv p)
    (hrotation : (s'.party p).rotation = (s.party p).rotation) : Tuned ρ p s' := by
  intro hκ hp k hk hrot
  rw [hrecv] at hk
  rw [hrotation] at hrot
  obtain ⟨j, hj⟩ := h hκ hp k hk hrot
  rw [hlive, Option.some.injEq, Conn.live.injEq] at hj
  exact ⟨i', by rw [hlive', hj.1]⟩

/-- What an ack leaves. -/
def AfterAck (ρ : Course) (p : Role) (b : MailboxId) : Bool → St → Prop
  | false => Reading ρ p b
  | true => Between ρ p

theorem Handled.acked {changed : Bool} (h : Handled ρ p b m changed s) (hg : Good ρ s)
    (howner : ∀ q k, b = .derived q k → q = p) {c : Choice} {r : Unit}
    (hp : perform p c s (.socket (.ack m.id)) = some (r, s')) :
    (ρ.view s' = ρ.view s ∨ View.Step ρ.regime p (ρ.view s) (ρ.view s')) ∧ AfterAck ρ p b changed s' := by
  obtain ⟨hopen, hdone⟩ : Open ρ p b m s ∧ Done ρ p b m s := by
    cases changed with
    | false => exact ⟨h.2.1, h.2.2.1⟩
    | true => exact h.2
  rcases hopen.connected with hlive | ⟨hκ, buffered, hdead, hb⟩
  · -- the message goes from the mailbox
    simp only [perform, performSocket, hlive] at hp
    cases hp
    have hview := view_ack (ρ := ρ) s p b m.id
    have hself := (s.setBox b ((s.boxes b).map fun l => l.filter fun m' => m'.id ≠ m.id)).modify_party_self p
      fun x => { x with conn := some (.live b none) }
    have hsame : ∀ l, (ρ.view s).boxes b = some l → ∀ m' ∈ l, m'.id = m.id → m' = m := by
      intro l hl m' hm' hid
      obtain ⟨l₀, hl₀, rfl⟩ := Option.map_eq_some_iff.mp hl
      exact (hopen.current hlive).2 l₀ hl₀ m' (List.mem_of_mem_filter hm') hid
    obtain ⟨hstep, hthin⟩ := ack_step (κ := ρ.regime) hg.traced howner m.id
      (fun l hl m' hm' hid => hsame l hl m' hm' hid ▸ ⟨hdone.hello, hdone.handoff⟩)
      fun hκ hp l hl m' hm' hid k => hsame l hl m' hm' hid ▸ hdone.met hκ hp k
    rw [← hview] at hstep hthin
    refine ⟨hstep, ?_⟩
    have hrotation := congrArg Party.rotation hself
    have hseen := congrArg Party.helloSeen hself
    have htuned := fun ht : Tuned ρ p s =>
      ht.acked hlive (congrArg Party.conn hself) (congrFun hthin.recv_eq p) hrotation
    cases changed with
    | true => exact h.1.thinned hthin hrotation hseen (htuned h.1.tuned)
    | false =>
      obtain ⟨hset, -, -, hrecv, haff⟩ := h
      refine ⟨hset.thinned hthin hrotation hseen (htuned hset.tuned), ?_, .inl (by rw [hself]), ?_⟩
      · exact (congrFun hthin.recv_eq p).trans hrecv
      · rintro rfl k hk
        have hk' : s.recv .offerer = some (.derived .offerer k) :=
          (congrFun hthin.recv_eq .offerer).symm.trans hk
        rw [hrecv, Option.some.injEq] at hk'
        subst hk'
        rw [backlog_ack hlive, View.offerLog, View.helloLog, hthin.log_eq, seenHellos, hself]
        exact haff rfl k hrecv
  · -- a dead socket takes no ack
    simp only [perform, performSocket, hdead] at hp
    cases hp
    refine ⟨.inl rfl, ?_⟩
    cases changed with
    | true => exact h.1
    | false =>
      obtain ⟨hset, -, -, hrecv, haff⟩ := h
      exact ⟨hset, hrecv, .inr ⟨hκ, buffered, hdead, hb⟩, haff⟩

/-! ## The loops -/

theorem stays_between : Stays ρ (.listener p) (Between ρ p) := lasts_between.stays fun _ h => h.guarded

theorem stays_reading : Stays ρ (.listener p) (Reading ρ p b) :=
  lasts_reading.stays fun _ h => h.between.guarded

theorem Handled.guarded : ∀ {changed : Bool}, Handled ρ p b m changed s → Guarded ρ p s
  | false, h => h.1.guarded h.2.1
  | true, h => h.1.guarded

/-- The delivery loop leaves the party at rest. -/
theorem triple_deliveryLoop (peer : String) (fuel : ℕ) :
    GoodTriple ρ (.listener p) (Reading ρ p b) (engine.deliveryLoop peer fuel)
      fun _ s => Good ρ s ∧ Between ρ p s := by
  induction fuel with
  | zero => exact triple_return stays_reading fun s hg hs => ⟨hg, hs.between⟩
  | succ fuel ih =>
    rw [Engine.deliveryLoop, Program.perform_bind]
    refine triple_own (o := .socket .next) (e := Yielded ρ p b) lasts_reading trivial
      (fun s _ hs => ⟨fun _ => ⟨b, hs⟩, hs.between.guarded, (by simp)⟩) ?_ fun r => ?_
    · intro s c r s' hg hs _ h
      obtain ⟨hview, hy⟩ := hs.yielded hg h
      exact ⟨.inl hview, fun _ _ => hy⟩
    cases r with
    | closed => exact triple_return stays_between fun s hg hs => ⟨hg, hs⟩
    | idle => exact triple_bind (triple_flushPending stays_reading) fun _ => ih
    | delivery id wire =>
      rintro s ⟨hg, ⟨hadm, howner⟩, hs⟩
      refine triple_bind (triple_handleIncoming (m := ⟨id, wire⟩) hadm peer) (fun changed => ?_) s ⟨hg, hs⟩
      refine triple_own (o := .socket (.ack id)) (e := fun _ s => AfterAck ρ p b changed s)
        (lasts_handled changed) trivial (fun s _ hs => ⟨(by simp), hs.guarded, (by simp)⟩) ?_ fun _ => ?_
      · intro s c r s' hg hs _ h
        obtain ⟨hstep, hafter⟩ := hs.acked hg howner h
        exact ⟨hstep, fun _ _ => hafter⟩
      cases changed with
      | true => exact triple_return stays_between fun s hg hs => ⟨hg, hs⟩
      | false => exact ih

/-- What a subscription tells. -/
def Subscribed (ρ : Course) (p : Role) (b : MailboxId) : Titlan.Connected → St → Prop
  | .ok, s => Reading ρ p b s
  | .notFound, s => ρ.regime.Lossy ∧ Between ρ p s ∧ View.Gone p (ρ.view s)
  | .unreachable, _ => False

theorem Between.subscribed (h : Between ρ p s) (hg : Good ρ s) (hrecv : s.recv p = some b) {c : Choice}
    {r : Titlan.Connected} (hp : perform p c s (.socket (.subscribe b)) = some (r, s')) :
    ρ.view s' = ρ.view s ∧ Subscribed ρ p b r s' := by
  have hview : ∀ conn, ρ.view (s.modify p fun x => { x with conn }) = ρ.view s :=
    fun conn => view_modify_same rfl rfl
  have hself : ∀ conn, (s.modify p fun x => { x with conn }).party p = { s.party p with conn } :=
    fun conn => s.modify_party_self p _
  have hbetween : ∀ conn, Tuned ρ p (s.modify p fun x => { x with conn }) →
      Between ρ p (s.modify p fun x => { x with conn }) := by
    intro conn htuned
    refine h.same (hview conn) ?_ ?_ htuned
    · rw [hself]
    · rw [hself]
  simp only [perform, performSocket] at hp
  cases hl : s.boxes b with
  | none =>
    simp only [hl] at hp
    cases hp
    have hlost : ¬ (ρ.view s).Live b := by
      rw [live_view, hl]
      exact Bool.false_ne_true
    have hκ : ρ.regime.Lossy := by
      by_contra hκ
      obtain ⟨g, hkept⟩ := hg.kept hκ
      exact hlost (hkept.live p b hrecv)
    refine ⟨hview none, hκ, hbetween none fun hκ' => absurd hκ hκ', ?_⟩
    · rw [hview]
      refine View.gone_of_lost fun b' hb' => ?_
      have hb : s.recv p = some b' := hb'
      rw [hrecv, Option.some.injEq] at hb
      rwa [← hb]
  | some l =>
    simp only [hl] at hp
    cases hp
    have hrecv' := (congrFun (congrArg View.recv (hview (some (.live b none)))) p).trans hrecv
    have hconn : Connected ρ p b none (s.modify p fun x => { x with conn := some (.live b none) }) :=
      .inl (by rw [hself])
    have hbet := hbetween (some (.live b none)) (hconn.tuned hrecv')
    refine ⟨hview _, hbet.toSettled, hrecv', hconn, ?_⟩
    rintro rfl
    have hbacklog : backlog ρ (s.modify .offerer fun x => { x with conn := some (.live b none) }) =
        (ρ.view s).unread none := by
      funext k
      rw [backlog, hself]
      simp only [hview]
    rw [hbacklog]
    have hafford := hbet.affords rfl
    rwa [hview] at hafford

/-- `conversation_listener`, for any number of turns; it returns only with the party at rest. -/
theorem triple_conversationListener (fuel : ℕ) :
    GoodTriple ρ (.listener p) (Between ρ p)
      (engine.conversationListener fuel) fun _ s => Good ρ s ∧ Between ρ p s := by
  have hdone : GoodTriple ρ (.listener p) (Between ρ p) (.ret ())
      fun _ s => Good ρ s ∧ Between ρ p s := triple_return stays_between fun _ hg hs => ⟨hg, hs⟩
  have hnotify : ∀ (n : Notice carrier) {next : EngineM carrier Unit},
      GoodTriple ρ (.listener p) (Between ρ p) next (fun _ s => Good ρ s ∧ Between ρ p s) →
      GoodTriple ρ (.listener p) (Between ρ p)
        (notify n >>= fun _ => next) fun _ s => Good ρ s ∧ Between ρ p s := fun n next h =>
    triple_idle_eq (o := .notify n) (i := .listener p) (v := ()) stays_between trivial (by simp)
      (fun _ => rfl) h
  induction fuel with
  | zero => exact hdone
  | succ fuel ih =>
    rw [Engine.conversationListener, Program.perform_bind]
    rintro s ⟨hg, hbet⟩
    obtain ⟨b, hb⟩ : ∃ b, s.recv p = some b := by
      rcases hg.inv.shape p with ⟨k, hk⟩ | ⟨n, hn, -⟩
      · exact ⟨_, hk⟩
      · exact ⟨_, hn⟩
    have hlasts : Lasts ρ p fun s => Between ρ p s ∧ s.recv p = some b :=
      lasts_between.and fun _ _ _ _ ho h => ho.recv_eq.trans h
    have hstays : Stays ρ (.listener p) fun s => Between ρ p s ∧ s.recv p = some b :=
      hlasts.stays fun _ h => h.1.guarded
    refine (triple_idle (o := .store .getConversation) (i := .listener p)
      (e := fun r => ∃ convo, r = .ok (some convo) ∧ convo.mailboxRecv = some b) hstays trivial (by simp) ?_ ?_)
      s ⟨hg, hbet, hb⟩
    · rintro s c r s' hg ⟨-, hb⟩ h
      cases h
      exact ⟨_, rfl, hb⟩
    rintro _ ⟨convo, rfl, hconvo⟩
    simp only [hconvo]
    refine triple_idle_eq (o := .notify (.state .connecting)) (i := .listener p) (v := ()) hstays
      trivial (by simp) (fun _ => rfl) ?_
    refine triple_own (o := .socket (.subscribe b)) (e := Subscribed ρ p b) hlasts trivial
      (fun s _ hs => ⟨(by simp), hs.1.guarded, (by simp)⟩) ?_ fun r => ?_
    · intro s c r s' hg hs _ h
      obtain ⟨hview, hsub⟩ := hs.1.subscribed hg hs.2 h
      exact ⟨.inl hview, fun _ _ => hsub⟩
    cases r with
    | unreachable => exact fun s hs => hs.2.elim
    | ok =>
      refine triple_idle_eq (o := .notify (.state .online)) (i := .listener p) (v := ())
        stays_reading trivial (by simp) (fun _ => rfl) ?_
      rw [Program.andThen]
      refine triple_bind (triple_flushPending stays_reading) fun _ => ?_
      refine triple_bind (triple_deliveryLoop convo.peerAddress fuel) fun exit => ?_
      cases exit with
      | outOfFuel => exact hdone
      | changed => exact ih
      | closed => exact hnotify _ (hnotify _ ih)
    | notFound =>
      rintro s ⟨hg, hκ, hs⟩
      refine triple_bind (triple_recover hκ) (fun outcome => ?_) s ⟨hg, hs⟩
      cases outcome with
      | oneSided => exact hnotify _ ih
      | total => exact hnotify _ (hnotify _ hdone)
      | needsRepair => exact hnotify _ (hnotify _ hdone)
      | failed => exact ih

end Titlan.World.Refinement
