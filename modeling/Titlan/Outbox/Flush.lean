import Titlan.Outbox.Invariant

/-! # A flush keeps the order

`flush_pending` under its lock, row by row: the list it read is what is pending, in order, and whatever
is added meanwhile comes behind it. Each statement about a piece of the flush is about that piece and
whatever follows it, because which row a deposit is for depends on how the call goes on. -/

namespace Titlan.Outbox

open Foundation

variable {C : Carrier} {E : Engine C} {strict : Prop} {old : ℕ → Prop} {i : Caller}

/-! ## The rows still to deposit -/

/-- The list is the front of what is pending, in order. -/
structure Listed (l : List (ℕ × C.Frame)) (s : Client C) : Prop where
  sorted : l.Pairwise fun x y => x.1 < y.1
  rows : ∀ x ∈ l, ∃ m ∈ s.device.messages,
    m.id = x.1 ∧ m.direction = .outgoing ∧ m.status = .pending ∧ m.frame = x.2
  rest : ∀ id, s.Pending id → (∃ x ∈ l, x.1 = id) ∨ ∀ x ∈ l, x.1 < id

section Listed

variable {s s' : Client C} {l : List (ℕ × C.Frame)} {x : ℕ × C.Frame}

theorem Inv.id_lt (h : Inv E strict old s) {m : StoredMessage C} (hm : m ∈ s.device.messages) :
    m.id < s.device.messages.length := by
  obtain ⟨k, hk⟩ := List.mem_iff_getElem?.mp hm
  rw [h.ids k m hk]
  exact (List.getElem?_eq_some_iff.mp hk).1

theorem Inv.eq_of_id (h : Inv E strict old s) {m m' : StoredMessage C} (hm : m ∈ s.device.messages)
    (hm' : m' ∈ s.device.messages) (hid : m.id = m'.id) : m = m' := by
  obtain ⟨k, hk⟩ := List.mem_iff_getElem?.mp hm
  obtain ⟨k', hk'⟩ := List.mem_iff_getElem?.mp hm'
  have heq : k = k' := by rw [← h.ids k m hk, hid, h.ids k' m' hk']
  subst heq
  exact Option.some.inj (hk.symm.trans hk')

/-- Rows stand in the table in the order of their ids. -/
theorem Inv.sorted (h : Inv E strict old s) :
    s.device.messages.Pairwise fun m m' => m.id < m'.id := by
  refine List.pairwise_iff_getElem.mpr fun j k hj hk hjk => ?_
  rw [h.ids j _ (List.getElem?_eq_getElem hj), h.ids k _ (List.getElem?_eq_getElem hk)]
  exact hjk

theorem Inv.listed (h : Inv E strict old s) : Listed s.device.pending s := by
  refine ⟨?_, ?_, ?_⟩
  · exact List.pairwise_map.mpr (h.sorted.sublist List.filter_sublist)
  · intro x hx
    obtain ⟨m, hm, rfl⟩ := List.mem_map.mp hx
    obtain ⟨hm, hpending⟩ := List.mem_filter.mp hm
    obtain ⟨hdir, hstatus⟩ := of_decide_eq_true hpending
    exact ⟨m, hm, rfl, hdir, hstatus, rfl⟩
  · rintro id ⟨m, hm, rfl, hdir, hstatus⟩
    refine .inl ⟨(m.id, m.frame), List.mem_map.mpr ⟨m, List.mem_filter.mpr ⟨hm, ?_⟩, rfl⟩, rfl⟩
    exact decide_eq_true (And.intro hdir hstatus)

theorem Listed.pending (h : Listed l s) (hx : x ∈ l) : s.Pending x.1 := by
  obtain ⟨m, hm, hid, hdir, hstatus, -⟩ := h.rows x hx
  exact ⟨m, hm, hid, hdir, hstatus⟩

/-- The head is the pending row with the least id. -/
theorem Listed.least (h : Listed (x :: l) s) {id : ℕ} (hp : s.Pending id) : x.1 ≤ id := by
  rcases h.rest id hp with ⟨y, hy, rfl⟩ | hlt
  · rcases List.mem_cons.mp hy with rfl | hy
    · exact Nat.le_refl _
    · exact Nat.le_of_lt ((List.pairwise_cons.mp h.sorted).1 y hy)
  · exact Nat.le_of_lt (hlt x List.mem_cons_self)

/-- New rows come behind the list. -/
theorem Listed.grow (h : Listed l s) (hinv : Inv E strict old s) (hg : Grows s s')
    (hids : ∀ (k : ℕ) m, s'.device.messages[k]? = some m → m.id = k) : Listed l s' := by
  refine ⟨h.sorted, ?_, ?_⟩
  · intro x hx
    obtain ⟨m, hm, hrest⟩ := h.rows x hx
    exact ⟨m, hg.mem hm, hrest⟩
  · intro id hp
    rcases hg.pending_or_le hids hp with hp | hle
    · exact h.rest id hp
    · refine .inr fun x hx => ?_
      obtain ⟨m, hm, hid, -⟩ := h.rows x hx
      have hlt := hinv.id_lt hm
      omega

end Listed

/-! ## One row's turn -/

section Turn

variable (E strict old i)

/-- Between two rows of the loop. -/
def Looping (l : List (ℕ × C.Frame)) (s : Client C) : Prop := Holds E strict old i s ∧ Listed l s

/-- The head's deposit has been with the relay. -/
structure Submitted (x : ℕ × C.Frame) (l : List (ℕ × C.Frame)) (wire : C.Wire)
    (processed : Option DepositOutcome) (s : Client C) : Prop where
  inv : Inv E strict old s
  holder : s.holder = some i
  listed : Listed (x :: l) s
  last : strict → ∀ a ∈ s.accepted, s.Pending a → a = x.1
  logged : ∀ outcome, processed = some outcome → ⟨x.1, wire, outcome⟩ ∈ s.log
  accepts : strict → processed = some .accepted

variable {E strict old i} {x : ℕ × C.Frame} {l : List (ℕ × C.Frame)} {wire : C.Wire}
  {processed : Option DepositOutcome} {s s' : Client C}

/-- Where the relay may do something else than accept, nothing more is asked at the end. -/
theorem Submitted.holds (h : Submitted E strict old i x l wire processed s)
    (hstrict : ¬ strict) : Holds E strict old i s :=
  ⟨h.inv, h.holder, fun hs => absurd hs hstrict⟩

theorem accepted_record (s : Client C) (row : ℕ) (wire : C.Wire) (outcome : DepositOutcome) :
    (s.record (some row) wire (some outcome)).accepted =
      s.accepted ++ if outcome = .accepted then [row] else [] := by
  unfold Client.accepted Client.record
  rw [List.filter_append, List.map_append]
  congr 1
  by_cases h : outcome = .accepted
  · simp [h]
  · simp [h]

/-- The relay processes the deposit of the pending row with the least id. -/
theorem Looping.submit (h : Looping E strict old i (x :: l) s) (hseals : Seals E x.2 wire)
    (hstrict : strict → processed = some .accepted) :
    Submitted E strict old i x l wire processed (s.record (some x.1) wire processed) := by
  obtain ⟨⟨hinv, hholder, hsettled⟩, hlisted⟩ := h
  cases processed with
  | none =>
    have hno : ¬ strict := fun hs => by cases hstrict hs
    exact ⟨hinv, hholder, hlisted, fun hs => absurd hs hno, fun _ h => (by cases h), hstrict⟩
  | some outcome =>
    have hpending := hlisted.pending List.mem_cons_self
    have hmem : ∀ a ∈ (s.record (some x.1) wire (some outcome)).accepted, a ∈ s.accepted ∨ a = x.1 := by
      intro a ha
      rw [accepted_record] at ha
      rcases List.mem_append.mp ha with ha | ha
      · exact .inl ha
      · split at ha
        · exact .inr (List.mem_singleton.mp ha)
        · cases ha
    have hlog : ∀ d ∈ s.log, d ∈ (s.record (some x.1) wire (some outcome)).log :=
      fun d hd => List.mem_append_left _ hd
    have hinv' : Inv E strict old (s.record (some x.1) wire (some outcome)) := by
      refine ⟨hinv.ids, ?_, ?_, ?_, ?_, ?_, ?_, fun hnone => ?_⟩
      · rw [accepted_record]
        refine List.pairwise_append.mpr ⟨hinv.order, ?_, fun a ha b hb => ?_⟩
        · split
          · exact List.pairwise_singleton _ _
          · exact .nil
        · split at hb
          · rw [List.mem_singleton.mp hb]
            exact hinv.ahead a ha x.1 hpending
          · cases hb
      · intro hs
        rw [accepted_record]
        refine List.nodup_append.mpr ⟨hinv.once hs, ?_, fun a ha b hb => ?_⟩
        · split
          · exact List.pairwise_singleton _ _
          · exact .nil
        · split at hb
          · rw [List.mem_singleton.mp hb]
            rintro rfl
            exact hsettled hs _ ha hpending
          · cases hb
      · intro a ha
        rcases hmem a ha with ha | rfl
        · exact hinv.rows a ha
        · obtain ⟨m, hm, hid, -⟩ := hlisted.rows x List.mem_cons_self
          exact hid ▸ hinv.id_lt hm
      · intro a ha id hp
        rcases hmem a ha with ha | rfl
        · exact hinv.ahead a ha id hp
        · exact hlisted.least hp
      · intro m hm hdir hstatus
        rcases hinv.sent m hm hdir hstatus with hold | ⟨d, hd, hrest⟩
        · exact .inl hold
        · exact .inr ⟨d, hlog d hd, hrest⟩
      · intro d hd
        rcases mem_concat hd with hd | rfl
        · exact hinv.sealed d hd
        · obtain ⟨m, hm, hid, hdir, -, hframe⟩ := hlisted.rows x List.mem_cons_self
          exact ⟨m, hm, hid, hdir, hframe ▸ hseals⟩
      · exact absurd (hholder.symm.trans hnone) (by simp)
    refine ⟨hinv', hholder, ⟨hlisted.sorted, hlisted.rows, hlisted.rest⟩, ?_, ?_, hstrict⟩
    · intro hs a ha hp
      rcases hmem a ha with ha | ha
      · exact absurd hp (hsettled hs a ha)
      · exact ha
    · intro outcome' heq
      cases heq
      exact List.mem_append_right _ (List.mem_singleton.mpr rfl)

/-- What the caller of the deposit is told. -/
def Told (E : Engine C) (strict : Prop) (old : ℕ → Prop) (i : Caller) (x : ℕ × C.Frame)
    (l : List (ℕ × C.Frame)) (wire : C.Wire) (answer : Result DepositOutcome) (s : Client C) : Prop :=
  ∃ processed, Submitted E strict old i x l wire processed s ∧
    (∀ outcome, answer = .ok outcome → processed = some outcome) ∧ (strict → answer = .ok .accepted)

/-- The client after `mark_message_sent`. -/
def Client.mark (s : Client C) (id : ℕ) : Client C :=
  { s with device := { s.device with messages := marked (· = id) s.device.messages } }

theorem Client.pending_mark {id a : ℕ} (h : (s.mark id).Pending a) : s.Pending a ∧ a ≠ id := by
  obtain ⟨m, hm, rfl, hwaits⟩ := h
  have hmem := filter_marked (· = id) s.device.messages ▸
    List.mem_filter.mpr ⟨hm, decide_eq_true (And.intro hwaits.1 hwaits.2)⟩
  simp only [List.mem_filter, decide_eq_true_eq] at hmem
  exact ⟨⟨m, hmem.1.1, rfl, hwaits⟩, hmem.2⟩

/-- Marking the head ends its turn. -/
theorem Submitted.mark {outcome : DepositOutcome}
    (h : Submitted E strict old i x l wire (some outcome) s)
    (hfinal : Processed.Final (C := C) ⟨x.1, wire, outcome⟩) (hseals : Seals E x.2 wire) :
    Looping E strict old i l (s.mark x.1) := by
  have hinv' : Inv E strict old (s.mark x.1) := by
    refine ⟨?_, h.inv.order, h.inv.once, ?_, ?_, ?_, ?_, ?_⟩
    · intro k m' hm'
      obtain ⟨m, hm, rfl⟩ := Option.map_eq_some_iff.mp (List.getElem?_map.symm.trans hm')
      have hid := h.inv.ids k m hm
      split
      · exact hid
      · exact hid
    · intro a ha
      show a < (s.device.messages.map _).length
      rw [List.length_map]
      exact h.inv.rows a ha
    · exact fun a ha id hp => h.inv.ahead a ha id (Client.pending_mark hp).1
    · intro m' hm' hdir hstatus
      obtain ⟨m, hm, rfl⟩ := List.mem_map.mp hm'
      by_cases heq : m.id = x.1
      · rw [if_pos heq]
        obtain ⟨m₀, hm₀, hid₀, -, -, hframe⟩ := h.listed.rows x List.mem_cons_self
        have hsame := h.inv.eq_of_id hm hm₀ (heq.trans hid₀.symm)
        refine .inr ⟨⟨x.1, wire, outcome⟩, h.logged outcome rfl, heq.symm, hfinal, ?_⟩
        show Seals E m.frame wire
        rw [hsame, hframe]
        exact hseals
      · rw [if_neg heq] at hdir hstatus ⊢
        exact h.inv.sent m hm hdir hstatus
    · intro d hd
      obtain ⟨m, hm, hrest⟩ := h.inv.sealed d hd
      refine ⟨_, List.mem_map.mpr ⟨m, hm, rfl⟩, ?_⟩
      split
      · exact hrest
      · exact hrest
    · exact fun hnone => absurd (h.holder.symm.trans hnone) (by simp)
  refine ⟨⟨hinv', h.holder, ?_⟩, ?_, ?_, ?_⟩
  · intro hs a ha hp
    obtain ⟨hp, hne⟩ := Client.pending_mark hp
    exact hne (h.last hs a ha hp)
  · exact (List.pairwise_cons.mp h.listed.sorted).2
  · intro y hy
    obtain ⟨m, hm, hid, hrest⟩ := h.listed.rows y (List.mem_cons_of_mem _ hy)
    have hlt := (List.pairwise_cons.mp h.listed.sorted).1 y hy
    have hne : m.id ≠ x.1 := by omega
    exact ⟨m, List.mem_map.mpr ⟨m, hm, if_neg hne⟩, hid, hrest⟩
  · intro id hp
    obtain ⟨hp, hne⟩ := Client.pending_mark hp
    rcases h.listed.rest id hp with ⟨y, hy, rfl⟩ | hlt
    · rcases List.mem_cons.mp hy with rfl | hy
      · exact absurd rfl hne
      · exact .inl ⟨y, hy, rfl⟩
    · exact .inr fun y hy => hlt y (List.mem_cons_of_mem _ hy)

end Turn

/-! ## Operations that do not matter here -/

/-- Operations that leave the message table and the flush lock alone and deposit nothing. -/
def OffTable : Titlan.Op C → Prop
  | .store (.insertMessage _ _ _) | .store (.markMessageSent _) => False
  | .ram .lockFlush | .ram .unlockFlush => False
  | .relay (.deposit _ _ _) => False
  | _ => True

theorem serve_offTable {α : Type} {o : Titlan.Op C} (ho : OffTable o) (k : o.Answer → EngineM C α) :
    serve o k = Program.perform (S := sig C) (.plain o) := by
  cases o with
  | relay o => cases o <;> first | rfl | exact ho.elim
  | _ => rfl

variable [C.Comparable]

theorem same_of_perform {o : Titlan.Op C} (ho : OffTable o) {c : Choice C} {s s' : Client C}
    {r : o.Answer} (h : perform E i c s (.plain o) = some (r, s')) : Same s s' := by
  cases o with
  | store o => cases o <;> first | exact ho.elim | (cases h; exact ⟨rfl, rfl, rfl⟩)
  | ram o => cases o <;> first | exact ho.elim | (cases h; exact ⟨rfl, rfl, rfl⟩)
  | relay o =>
    simp only [perform, Device.perform, Device.performRelay, Option.some.injEq, Prod.mk.injEq] at h
    obtain ⟨-, rfl⟩ := h
    split <;> exact ⟨rfl, rfl, rfl⟩
  | socket o => cases h; exact ⟨rfl, rfl, rfl⟩
  | notify n => cases h; exact ⟨rfl, rfl, rfl⟩

section

variable {α β : Type} {pre : Client C → Prop} {post : α → Client C → Prop}

/-- An operation off the table keeps every quiet assertion. -/
theorem triple_off (hq : Quiet E strict old i pre) {o : Titlan.Op C} (ho : OffTable o)
    {k : o.Answer → EngineM C α} (hk : ∀ r, Triple (setting E strict old i) pre (split (k r)) post) :
    Triple (setting E strict old i) pre (split (o.program >>= k)) post := by
  show Triple _ _ (serve o k >>= fun r => split (k r)) _
  rw [serve_offTable ho]
  refine triple_perform (m := fun _ => pre) hq.stable (fun s hp hholder _ => hq.check s hp hholder) ?_ hk
  rintro s r s' hp ⟨c, -, hc⟩
  have hsame := same_of_perform ho hc
  exact ⟨guar_of_same hsame, hq.same s s' hsame hp⟩

/-- So does a program of such operations. -/
theorem triple_each (hq : Quiet E strict old i pre) {q : EngineM C β}
    (hp : Composed (Each (S := engineSig C) OffTable) q) {k : β → EngineM C α}
    (hk : ∀ b, Triple (setting E strict old i) pre (split (k b)) post) :
    Triple (setting E strict old i) pre (split (q >>= k)) post := by
  induction hp with
  | ret b => exact hk b
  | block q f hb _ ih =>
    rw [Program.bind_assoc]
    cases hb with
    | op o ho => exact triple_off hq ho ih

/-- `encrypt_message` returns envelopes that seal the frame. -/
theorem triple_encryptMessage (hq : Quiet E strict old i pre) {peer : String} {frame : C.Frame}
    {k : Result C.Wire → EngineM C α}
    (hk : ∀ w, (∀ wire, w = .ok wire → Seals E frame wire) →
      Triple (setting E strict old i) pre (split (k w)) post) :
    Triple (setting E strict old i) pre (split (E.encryptMessage peer frame >>= k)) post := by
  rw [Engine.encryptMessage, Program.bind_assoc]
  refine triple_off hq (by trivial) fun loaded => ?_
  cases loaded with
  | error e => exact hk _ fun _ h => by cases h
  | ok session =>
    dsimp only
    split
    · exact hk _ fun _ h => by cases h
    · rename_i session' wire hseal
      rw [Program.bind_assoc]
      refine triple_off hq (by trivial) fun stored => ?_
      cases stored with
      | error e => exact hk _ fun _ h => by cases h
      | ok _ => exact hk _ fun wire' h => by cases h; exact ⟨session, session', hseal⟩

end

/-! ## The loop -/

section Loop

variable {x : ℕ × C.Frame} {l : List (ℕ × C.Frame)} {wire : C.Wire}
  {processed : Option DepositOutcome}

theorem quiet_looping : Quiet E strict old i (Looping E strict old i l) where
  stable s s' hr hpre := by
    obtain ⟨hholds, hlisted⟩ := hpre
    obtain ⟨hinv', -, hgrows⟩ := hr hholds.1
    exact ⟨quiet_holds.stable s s' hr hholds,
      hlisted.grow hholds.1 (hgrows hholds.2.1) hinv'.ids⟩
  same s s' hsame hpre :=
    ⟨quiet_holds.same s s' hsame hpre.1,
      hpre.2.grow hpre.1.1 hsame.grows (hpre.1.1.same hsame).ids⟩
  check s hpre _ := hpre.1.2.2

theorem stable_submitted :
    Stable (setting E strict old i) (Submitted E strict old i x l wire processed) := by
  intro s s' hr h
  obtain ⟨hinv', hiff, hgrows⟩ := hr h.inv
  have hg := hgrows h.holder
  refine ⟨hinv', hiff.mpr h.holder, h.listed.grow h.inv hg hinv'.ids, ?_, ?_, h.accepts⟩
  · intro hstrict a ha hp
    rw [hg.accepted] at ha
    rcases hg.pending_or_le hinv'.ids hp with hp | hle
    · exact h.last hstrict a ha hp
    · have hlt := h.inv.rows a ha
      omega
  · rw [hg.log]
    exact h.logged

theorem stable_told {answer : Result DepositOutcome} :
    Stable (setting E strict old i) (Told E strict old i x l wire answer) := by
  rintro s s' hr ⟨processed, h, hrest⟩
  exact ⟨processed, stable_submitted s s' hr h, hrest⟩

theorem triple_deposit {relayUrl : C.Relay} {id : C.Id} (hseals : Seals E x.2 wire) :
    Triple (setting E strict old i) (Looping E strict old i (x :: l))
      (deposit (some x.1) relayUrl id wire) (Told E strict old i x l wire) := by
  refine triple_op (m := fun processed => Submitted E strict old i x l wire processed)
    quiet_looping.stable (fun s hp hholder _ => quiet_looping.check s hp hholder) ?_ fun processed => ?_
  · rintro s r s' hp ⟨c, haccepts, hc⟩
    cases hc
    have hsub : Submitted E strict old i x l wire c.processed (s.record (some x.1) wire c.processed) :=
      hp.submit hseals haccepts
    exact ⟨guar_of_holder hp.1.2.1 (.inl hsub.holder) fun _ => hsub.inv, hsub⟩
  · refine triple_op (m := Told E strict old i x l wire) stable_submitted
      (fun s _ _ hmid => absurd trivial hmid) ?_ fun answer => triple_ret stable_told fun _ h => h
    rintro s r s' hp ⟨c, haccepts, hc⟩
    simp only [perform] at hc
    split at hc
    · rename_i e hlost
      cases hc
      have hno : ¬ strict := fun hs => by cases hlost.symm.trans (haccepts hs)
      exact ⟨guar_of_same ⟨rfl, rfl, rfl⟩, _, hp, fun _ h => (by cases h), fun hs => absurd hs hno⟩
    · cases hc
      refine ⟨guar_of_same ⟨rfl, rfl, rfl⟩, _, hp, fun _ h => by cases h; rfl, fun hs => ?_⟩
      rw [Option.some.inj (hp.accepts hs)]
    · cases hc

theorem triple_mark {α : Type} {post : α → Client C → Prop} {outcome : DepositOutcome}
    (hfinal : Processed.Final (C := C) ⟨x.1, wire, outcome⟩) (hseals : Seals E x.2 wire)
    {k : Result Unit → EngineM C α}
    (hk : ∀ r, Triple (setting E strict old i) (Looping E strict old i l) (split (k r)) post) :
    Triple (setting E strict old i) (Submitted E strict old i x l wire (some outcome))
      (split (store (.markMessageSent x.1) >>= k)) post := by
  show Triple _ _ (Program.perform (S := sig C) (.plain (.store (.markMessageSent x.1))) >>=
    fun r => split (k r)) _
  refine triple_perform (m := fun _ => Looping E strict old i l) stable_submitted
    (fun s _ _ hmid => absurd trivial hmid) ?_ hk
  rintro s r s' hp ⟨c, -, hc⟩
  cases hc
  have hloop : Looping E strict old i l (s.mark x.1) := hp.mark hfinal hseals
  exact ⟨guar_of_holder hp.holder (.inl hp.holder) fun _ => hloop.1.1, hloop⟩

end Loop

/-! ## The flush -/

section Flush

variable {α : Type} {post : α → Client C → Prop} {k : Result Unit → EngineM C α}

/-- **The loop.** -/
theorem triple_depositPending (convo : Conversation C) (mailbox : C.Id) (l : List (ℕ × C.Frame))
    (hk : ∀ r, Triple (setting E strict old i) (Holds E strict old i) (split (k r)) post) :
    Triple (setting E strict old i) (Looping E strict old i l)
      (split (E.depositPending convo mailbox l >>= k)) post := by
  induction l with
  | nil => exact (hk _).of_pre fun _ h => h.1
  | cons x l ih =>
    obtain ⟨msgId, frame⟩ := x
    rw [Engine.depositPending, Program.bind_assoc]
    refine triple_encryptMessage quiet_looping fun w hw => ?_
    cases w with
    | error e => exact (hk _).of_pre fun _ h => h.1
    | ok wire =>
      have hseals := hw wire rfl
      rw [Program.bind_assoc]
      -- if the deposit is accepted, this row is what gets marked
      show Triple _ _ (deposit (some msgId) convo.relayUrl mailbox wire >>= fun r => split _) _
      refine triple_bind (triple_deposit (x := (msgId, frame)) hseals) fun answer => ?_
      rcases answer with e | outcome
      · rintro s ⟨processed, hsub, -, hstrict⟩
        exact hk _ s (hsub.holds fun hs => by cases hstrict hs)
      · have hout : ∀ s, Told E strict old i (msgId, frame) l wire (.ok outcome) s →
            Submitted E strict old i (msgId, frame) l wire (some outcome) s := by
          rintro s ⟨processed, hsub, hprocessed, -⟩
          rw [← hprocessed outcome rfl]
          exact hsub
        have hstop : outcome ≠ .accepted → ∀ s,
            Told E strict old i (msgId, frame) l wire (.ok outcome) s → Holds E strict old i s := by
          rintro hne s ⟨processed, hsub, -, hstrict⟩
          refine hsub.holds fun hs => hne ?_
          have heq := hstrict hs
          injection heq
        cases outcome with
        | accepted =>
          refine Triple.of_pre ?_ hout
          show Triple _ _ (split ((store (.markMessageSent msgId) >>= _) >>= k)) _
          rw [Program.bind_assoc]
          refine triple_mark (x := (msgId, frame)) (.inl rfl) hseals fun r => ?_
          cases r with
          | error e => exact (hk _).of_pre fun _ h => h.1
          | ok _ => exact ih
        | notFound => exact (hk _).of_pre (hstop (by simp))
        | other status =>
          show Triple _ _ (split ((if status = 400 ∨ status = 413 then _ else _) >>= k)) _
          split
          · rename_i hfinal
            have hfinal : Processed.Final (C := C) ⟨msgId, wire, .other status⟩ := by
              rcases hfinal with rfl | rfl
              · exact .inr (.inl rfl)
              · exact .inr (.inr rfl)
            refine Triple.of_pre ?_ hout
            rw [Program.bind_assoc]
            refine triple_mark (x := (msgId, frame)) hfinal hseals fun _ => ?_
            rw [Program.bind_assoc]
            exact triple_off quiet_looping (by trivial) fun _ => ih
          · exact (hk _).of_pre (hstop (by simp))

/-- `pending_chat` returns the pending rows. -/
theorem triple_pendingChat {k : Result (List (ℕ × C.Frame)) → EngineM C α}
    (hk : ∀ l, Triple (setting E strict old i) (Looping E strict old i l) (split (k (.ok l))) post) :
    Triple (setting E strict old i) (Holds E strict old i) (split (store .pendingChat >>= k)) post := by
  show Triple _ _ (Program.perform (S := sig C) (.plain (.store .pendingChat)) >>=
    fun r => split (k r)) _
  refine triple_perform
    (m := fun r s => ∃ l, r = .ok l ∧ Looping E strict old i l s) quiet_holds.stable
    (fun s hp hholder _ => quiet_holds.check s hp hholder) ?_ fun r => ?_
  · rintro s r s' hp ⟨c, -, hc⟩
    cases hc
    exact ⟨guar_of_same ⟨rfl, rfl, rfl⟩, s.device.pending, rfl, hp, hp.1.listed⟩
  · rintro s ⟨l, rfl, hloop⟩
    exact hk l s hloop

theorem triple_flushLocked
    (hk : ∀ r, Triple (setting E strict old i) (Holds E strict old i) (split (k r)) post) :
    Triple (setting E strict old i) (Holds E strict old i) (split (E.flushLocked >>= k)) post := by
  rw [Engine.flushLocked, Program.bind_assoc]
  refine triple_off quiet_holds (by trivial) fun convo? => ?_
  rcases convo? with e | (_ | convo)
  · exact triple_off quiet_holds (by trivial) fun _ => hk _
  · exact hk _
  · dsimp only
    cases convo.mailboxSend with
    | none => exact hk _
    | some mailbox =>
      dsimp only
      rw [Program.bind_assoc]
      exact triple_pendingChat fun l => triple_depositPending convo mailbox l hk

/-- **The flush**: a call that does not hold the lock flushes, and does not hold it afterwards. -/
theorem triple_flushPending
    (hk : ∀ r, Triple (setting E strict old i) (Idle E strict old i) (split (k r)) post) :
    Triple (setting E strict old i) (Idle E strict old i) (split (E.flushPending >>= k)) post := by
  rw [Engine.flushPending, Program.bind_assoc]
  show Triple _ _ (Program.perform (S := sig C) (.plain (.ram .lockFlush)) >>= fun r => split _) _
  refine triple_perform (m := fun _ => Holds E strict old i) quiet_idle.stable
    (fun s hp hholder _ => quiet_idle.check s hp hholder) ?_ fun _ => ?_
  · rintro s r s' hp ⟨c, -, hc⟩
    simp only [perform] at hc
    split at hc
    · rename_i hnone
      cases hc
      have hsettled := hp.1.settled hnone
      have hinv := hp.1.setHolder (some i) fun h => by cases h
      refine ⟨fun _ => ⟨hinv, fun j hj => ⟨?_, fun h => ?_⟩⟩, hinv, rfl, hsettled⟩
      · rw [hnone]
        exact iff_of_false (fun h => hj (Option.some.inj h).symm) fun h => by cases h
      · rw [hnone] at h
        cases h
    · cases hc
  · rw [Program.bind_assoc]
    refine triple_flushLocked fun result => ?_
    rw [Program.bind_assoc]
    show Triple _ _ (Program.perform (S := sig C) (.plain (.ram .unlockFlush)) >>= fun r => split _) _
    refine triple_perform (m := fun _ => Idle E strict old i) quiet_holds.stable
      (fun s hp hholder _ => quiet_holds.check s hp hholder) ?_ fun _ => hk result
    rintro s r s' ⟨hinv, hholder, hsettled⟩ ⟨c, -, hc⟩
    cases hc
    have hinv' := hinv.setHolder none fun _ => hsettled
    exact ⟨guar_of_holder hholder (.inr rfl) fun _ => hinv', hinv', fun h => by cases h⟩

end Flush

/-! ## Callers -/

omit [C.Comparable] in
/-- A caller is never about to mark a row, except inside a flush. -/
theorem markedRow_of_running {α : Type} {p : EngineM C α} (hp : Composed E.Running p) :
    markedRow p = none := by
  cases hp with
  | ret a => rfl
  | block q k hq hk =>
    cases hq with
    | serving h =>
      cases h with
      | aside o ho =>
        cases o with
        | store o => cases o <;> first | rfl | exact ho.elim
        | _ => rfl
      | encrypt peer frame => rfl
      | flush => rfl
    | markHelloSeen generation nonce => rfl
    | saveOutgoing frame => rfl
    | saveIncoming frame => rfl
    | socket o => rfl
    | decrypt peer wire => rfl

/-- A deposit that is no chat's leaves table, lock and history alone. -/
theorem triple_deposit_none {pre : Client C → Prop} (hq : Quiet E strict old i pre)
    {relayUrl : C.Relay} {id : C.Id} {wire : C.Wire} :
    Triple (setting E strict old i) pre (deposit none relayUrl id wire) fun _ => pre := by
  refine triple_op (m := fun _ => pre) hq.stable (fun s hp hholder _ => hq.check s hp hholder) ?_
    fun processed => triple_op (m := fun _ => pre) hq.stable
      (fun s hp hholder _ => hq.check s hp hholder) ?_ fun _ => triple_ret hq.stable fun _ h => h
  · rintro s r s' hp ⟨c, -, hc⟩
    cases hc
    exact ⟨guar_of_same ⟨rfl, rfl, rfl⟩, hp⟩
  · rintro s r s' hp ⟨c, -, hc⟩
    have hsame : s' = s := by
      simp only [perform] at hc
      split at hc <;> cases hc <;> rfl
    rw [hsame]
    exact ⟨guar_of_same ⟨rfl, rfl, rfl⟩, hp⟩

/-- A new row. -/
theorem triple_insert {α : Type} {post : α → Client C → Prop} {direction : Direction}
    {frame : C.Frame} {status : Status} (hstatus : status ≠ .sent)
    {k : Result (StoredMessage C) → EngineM C α}
    (hk : ∀ r, Triple (setting E strict old i) (Idle E strict old i) (split (k r)) post) :
    Triple (setting E strict old i) (Idle E strict old i)
      (split (store (.insertMessage direction frame status) >>= k)) post := by
  show Triple _ _ (Program.perform (S := sig C) (.plain (.store (.insertMessage direction frame
    status))) >>= fun r => split (k r)) _
  refine triple_perform (m := fun _ => Idle E strict old i) quiet_idle.stable
    (fun s hp hholder _ => quiet_idle.check s hp hholder) ?_ hk
  rintro s r s' hp ⟨c, -, hc⟩
  cases hc
  obtain ⟨hinv, hgrows⟩ := hp.1.insert (d := (s.device.perform E ⟨none, c.turn.answer⟩
    (.store (.insertMessage direction frame status))).2) rfl rfl hstatus
  exact ⟨fun _ => ⟨hinv, fun j _ => ⟨Iff.rfl, fun _ => hgrows⟩⟩, hinv, hp.2⟩

/-- **Callers** keep the order, and hold the lock only inside a flush. -/
theorem triple_running {α : Type} {p : EngineM C α} (hp : Composed E.Running p) :
    Triple (setting E strict old i) (Idle E strict old i) (split p) fun _ => Idle E strict old i := by
  have hidle : Quiet E strict old i (Idle E strict old i) := quiet_idle
  induction hp with
  | ret a => exact triple_ret hidle.stable fun _ h => h
  | block q k hq hk ih =>
    cases hq with
    | serving h =>
      cases h with
      | aside o ho =>
        by_cases hoff : OffTable o
        · exact triple_off hidle hoff ih
        · cases o with
          | relay o =>
            cases o with
            | deposit relayUrl id wire =>
              show Triple _ _ (deposit (markedRow (k (.ok .accepted))) relayUrl id wire >>=
                fun r => split (k r)) _
              rw [markedRow_of_running (hk _)]
              exact triple_bind (triple_deposit_none hidle) ih
            | _ => exact absurd trivial hoff
          | store o => cases o <;> first | exact ho.elim | exact absurd trivial hoff
          | ram o => cases o <;> first | exact ho.elim | exact absurd trivial hoff
          | socket o => exact ho.elim
          | notify n => exact absurd trivial hoff
      | encrypt peer frame => exact triple_encryptMessage hidle fun w _ => ih w
      | flush => exact triple_flushPending ih
    | markHelloSeen generation nonce => exact triple_off hidle (by trivial) ih
    | saveOutgoing frame => exact triple_insert (by simp) ih
    | saveIncoming frame => exact triple_insert (by simp) ih
    | socket o => exact triple_off hidle (by trivial) ih
    | decrypt peer wire =>
      exact triple_each hidle (Engine.each_decryptMessage peer wire trivial fun _ => trivial) ih

end Titlan.Outbox
