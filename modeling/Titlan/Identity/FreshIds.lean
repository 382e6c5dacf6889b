import Titlan.Identity.Prekeys

/-! # Ids of offer prekeys

An offer's one-time prekey gets the id after the largest in the table. The table forgets the ids of consumed
prekeys, so the ids handed out over the life of a store grow exactly as long as no offer is minted after the
prekey minted last has been consumed. -/

namespace Titlan

open Foundation

variable {Key : Type} {lib : KeyLib Key}

namespace KeyStore

/-- The ids in the table. -/
def prekeyIds (s : KeyStore) : List ℕ := s.prekeys.map Prod.fst

/-! ## Calls that mint nothing -/

theorem prekeys_decryptMessage (lib : KeyLib Key) (s : KeyStore) (peer : String) (wire : Bytes)
    (profile : PaddingProfile)
    (opened : Result Bytes) :
    (s.decryptMessage lib peer wire profile opened).2.prekeys.Sublist s.prekeys := by
  by_cases hmsg : ∃ msg, CarriesSetup lib wire msg
  · obtain ⟨msg, hcarries⟩ := hmsg
    obtain ⟨e, -, hout⟩ | ⟨plaintext, s', hopen, hout⟩ :=
      s.decryptMessage_of_carries peer profile opened hcarries
    · rw [hout]
    · rw [hout]
      obtain ⟨-, rfl⟩ := decryptPreKeyMessage_ok hopen
      cases msg.preKeyId with
      | none => exact List.Sublist.refl _
      | some id => exact List.filter_sublist
  · rw [s.decryptMessage_of_not_carries peer profile opened (not_exists.mp hmsg)]

theorem prekeys_decryptSetupFromUnknown (lib : KeyLib Key) (s : KeyStore) (wire : Bytes)
    (profile : PaddingProfile)
    (opened : Result Bytes) :
    (s.decryptSetupFromUnknown lib wire profile opened).2.prekeys.Sublist s.prekeys := by
  by_cases hmsg : ∃ msg, CarriesSetup lib wire msg
  · obtain ⟨msg, hcarries⟩ := hmsg
    rw [s.decryptSetupFromUnknown_of_carries profile opened hcarries]
    exact s.prekeys_decryptMessage lib _ wire profile opened
  · obtain ⟨e, hout⟩ := s.decryptSetupFromUnknown_of_not_carries profile opened (not_exists.mp hmsg)
    rw [hout]

@[simp] theorem prekeys_converse (s : KeyStore) (go : Bool) (address : String) :
    (s.converse go address).prekeys = s.prekeys := by
  cases go <;> rfl

/-! ## The largest id -/

/-- The largest id in the table, if there is one above zero. -/
theorem foldr_max_mem {ids : List ℕ} (h : ids.foldr max 0 ≠ 0) : ids.foldr max 0 ∈ ids := by
  induction ids with
  | nil => exact absurd rfl h
  | cons id ids ih =>
    rw [List.foldr_cons] at h ⊢
    rcases Nat.le_total (ids.foldr max 0) id with hle | hle
    · rw [Nat.max_eq_left hle]
      exact List.mem_cons_self
    · rw [Nat.max_eq_right hle] at h ⊢
      exact List.mem_cons_of_mem id (ih h)

theorem le_foldr_max {ids : List ℕ} {id : ℕ} (h : id ∈ ids) : id ≤ ids.foldr max 0 :=
  List.le_max_of_le h (Nat.le_refl id)

end KeyStore

/-! ## The life of a store -/

/-- A key store with what has happened to it. -/
structure StoreLife where
  /-- `is_initialized`. -/
  initialized : Bool
  store : KeyStore
  /-- History: the ids `mint_offer_onetime_prekey` returned, the last one first. -/
  minted : List ℕ

/-- A new database. -/
def StoreLife.fresh : StoreLife := ⟨false, ⟨fun _ => none, [], []⟩, []⟩

/-- What happens in a store's life. -/
inductive LifeEvent
  /-- `initialize`, with the one-time prekey it generates. -/
  | initializeIdentity (onetime : Bytes)
  | call (e : KeyEvent)

namespace StoreLife

/-- The ids a call returns from `mint_offer_onetime_prekey`. -/
def returned (s : KeyStore) : KeyEvent → List ℕ
  | .mint key =>
    match s.mintOfferOnetimePrekey key with
    | .ok ((id, _), _) => [id]
    | .error _ => []
  | _ => []

/-- One event. `initialize` refuses an initialized store, and its transaction fails on a prekey that has
its id already. -/
def step (lib : KeyLib Key) (profile : PaddingProfile) (s : StoreLife) : LifeEvent → Option StoreLife
  | .initializeIdentity onetime =>
    if s.initialized ∨ onetimePrekeyId ∈ s.store.prekeyIds then some s
    else some { s with
      initialized := true
      store := { s.store with prekeys := s.store.prekeys ++ [(onetimePrekeyId, onetime)] } }
  | .call e => (s.store.step lib profile e).map fun store =>
      { s with store, minted := returned s.store e ++ s.minted }

/-- The ids returned so far grow, and none is the absent marker. -/
structure Growing (s : StoreLife) : Prop where
  increasing : s.minted.Pairwise (· > ·)
  present : absentId ∉ s.minted

/-- If the event mints an offer prekey, the one minted last is still in the table. -/
def KeepsNewest (s : StoreLife) : LifeEvent → Prop
  | .call e => returned s.store e ≠ [] → ∀ newest, s.minted.head? = some newest →
      newest ∈ s.store.prekeyIds
  | .initializeIdentity _ => True

/-- No id in the table is above both the newest returned and the fixed one, and every returned id is at
least one. -/
structure Bounded (s : StoreLife) : Prop where
  table : ∀ id ∈ s.store.prekeyIds, id ≤ max onetimePrekeyId (s.minted.headD 0)
  positive : ∀ id ∈ s.minted, 1 ≤ id

variable {s s' : StoreLife} {l : LifeEvent} {profile : PaddingProfile}

/-- The id the next mint takes. -/
def nextId (s : StoreLife) : ℕ := s.store.prekeyIds.foldr max 0 + 1

/-- A call that returns no id leaves no new one in the table. -/
theorem mem_of_returned_nil {store store' : KeyStore} {e : KeyEvent} (hnone : returned store e = [])
    (h : store.step lib profile e = some store') : ∀ id ∈ store'.prekeyIds, id ∈ store.prekeyIds := by
  have hsub : store'.prekeys.Sublist store.prekeys := by
    cases e with
    | establish bundle processed go =>
      cases hout : store.establishSession lib bundle processed with
      | error err =>
        simp only [KeyStore.step, hout] at h
        cases h
        exact List.Sublist.refl _
      | ok out =>
        obtain ⟨address, store₁⟩ := out
        simp only [KeyStore.step, hout] at h
        cases h
        obtain ⟨data, key, -, -, -, -, rfl⟩ := KeyStore.establishSession_ok hout
        rw [KeyStore.prekeys_converse]
        exact List.Sublist.refl _
    | setup wire opened go =>
      have hsetup := store.prekeys_decryptSetupFromUnknown lib wire profile opened
      cases hout : store.decryptSetupFromUnknown lib wire profile opened with
      | mk outcome store₁ =>
        rw [hout] at hsetup
        cases outcome with
        | error err =>
          simp only [KeyStore.step, hout] at h
          cases h
          exact hsetup
        | ok out =>
          simp only [KeyStore.step, hout] at h
          cases h
          rw [KeyStore.prekeys_converse]
          exact hsetup
    | receive peer wire opened =>
      obtain ⟨-, h⟩ := Option.ite_none_right_eq_some.mp h
      cases h
      exact store.prekeys_decryptMessage lib peer wire profile opened
    | mint key =>
      rcases store.mintOfferOnetimePrekey_cases key with ⟨err, hout⟩ | ⟨-, hout⟩
      · simp only [KeyStore.step, hout] at h
        cases h
        exact List.Sublist.refl _
      · simp only [returned, hout] at hnone
        cases hnone
  exact fun id hid => (hsub.map Prod.fst).subset hid

/-- What an event does: it returns nothing, and the table gains at most the fixed id; or it returns the next
id and adds it to the table. -/
theorem step_cases (h : s.step lib profile l = some s') :
    (s'.minted = s.minted ∧ s.KeepsNewest l ∧
      ∀ id ∈ s'.store.prekeyIds, id = onetimePrekeyId ∨ id ∈ s.store.prekeyIds) ∨
    (s'.minted = s.nextId :: s.minted ∧ s.nextId ≠ absentId ∧
      s'.store.prekeyIds = s.store.prekeyIds ++ [s.nextId] ∧
      (s.KeepsNewest l ↔ ∀ newest, s.minted.head? = some newest → newest ∈ s.store.prekeyIds)) := by
  cases l with
  | initializeIdentity onetime =>
    left
    simp only [step] at h
    split at h
    · cases h
      exact ⟨rfl, trivial, fun id hid => .inr hid⟩
    · cases h
      refine ⟨rfl, trivial, fun id hid => ?_⟩
      rw [KeyStore.prekeyIds, List.map_append, List.mem_append] at hid
      rcases hid with hid | hid
      · exact .inr hid
      · exact .inl (List.mem_singleton.mp hid)
  | call e =>
    obtain ⟨store', hstore, rfl⟩ := Option.map_eq_some_iff.mp h
    by_cases hnone : returned s.store e = []
    · left
      refine ⟨by rw [hnone, List.nil_append], fun hsome => absurd hnone hsome, fun id hid => ?_⟩
      exact .inr (mem_of_returned_nil hnone hstore id hid)
    · right
      cases e with
      | mint key =>
        rcases s.store.mintOfferOnetimePrekey_cases key with ⟨err, hout⟩ | ⟨hne, hout⟩
        · exact absurd (by simp only [returned, hout]) hnone
        · simp only [KeyStore.step, hout] at hstore
          cases hstore
          refine ⟨?_, hne, ?_, ⟨fun hk => hk hnone, fun hk _ => hk⟩⟩
          · simp only [returned, hout]
            rfl
          · rw [KeyStore.prekeyIds, List.map_append]
            rfl
      | _ => exact absurd rfl hnone

theorem Bounded.step (h : s.Bounded) (hstep : s.step lib profile l = some s') : s'.Bounded := by
  rcases step_cases hstep with ⟨hminted, -, htable⟩ | ⟨hminted, -, htable, -⟩
  · refine ⟨fun id hid => ?_, hminted ▸ h.positive⟩
    rw [hminted]
    rcases htable id hid with rfl | hid
    · exact Nat.le_max_left _ _
    · exact h.table id hid
  · constructor
    · intro id hid
      rw [hminted, List.headD_cons]
      rw [htable, List.mem_append, List.mem_singleton] at hid
      rcases hid with hid | rfl
      · have hle := KeyStore.le_foldr_max hid
        exact Nat.le_trans (Nat.le_succ_of_le hle) (Nat.le_max_right _ _)
      · exact Nat.le_max_right _ _
    · intro id hid
      rw [hminted, List.mem_cons] at hid
      rcases hid with rfl | hid
      · exact Nat.succ_pos _
      · exact h.positive id hid

/-- The next id is above the newest returned exactly if that is still in the table. -/
theorem Bounded.newest_lt_iff (h : s.Bounded) {newest : ℕ} (hnewest : s.minted.head? = some newest) :
    newest < s.nextId ↔ newest ∈ s.store.prekeyIds := by
  constructor
  · intro hlt
    have hpos : onetimePrekeyId ≤ newest := h.positive newest (List.mem_of_head? hnewest)
    have hle : newest ≤ s.store.prekeyIds.foldr max 0 := Nat.le_of_lt_succ hlt
    have hmem := KeyStore.foldr_max_mem (Nat.ne_of_gt (Nat.lt_of_lt_of_le hpos hle))
    have hbound := h.table _ hmem
    have hhead : s.minted.headD 0 = newest := by rw [List.headD_eq_head?_getD, hnewest, Option.getD_some]
    rw [hhead, Nat.max_eq_right hpos] at hbound
    rwa [Nat.le_antisymm hle hbound]
  · intro hmem
    exact Nat.lt_succ_of_le (KeyStore.le_foldr_max hmem)

/-- **Step.** The ids go on growing exactly if the event keeps to the newest. -/
theorem growing_step (h : s.Growing ∧ s.Bounded) (hstep : s.step lib profile l = some s') :
    s'.Growing ∧ s'.Bounded ↔ s.KeepsNewest l := by
  obtain ⟨hgrowing, hbounded⟩ := h
  rw [and_iff_left (hbounded.step hstep)]
  rcases step_cases hstep with ⟨hminted, hkeeps, -⟩ | ⟨hminted, hne, -, hkeeps⟩
  · refine iff_of_true ⟨?_, ?_⟩ hkeeps
    · rw [hminted]
      exact hgrowing.increasing
    · rw [hminted]
      exact hgrowing.present
  · rw [hkeeps]
    constructor
    · intro hgrows newest hnewest
      have hlt := List.rel_of_pairwise_cons (hminted ▸ hgrows.increasing) (List.mem_of_head? hnewest)
      exact (hbounded.newest_lt_iff hnewest).mp hlt
    · intro hkept
      refine ⟨?_, ?_⟩
      · rw [hminted, List.pairwise_cons]
        refine ⟨fun id hid => ?_, hgrowing.increasing⟩
        -- the newest is the largest of those returned
        cases hhead : s.minted with
        | nil =>
          rw [hhead] at hid
          cases hid
        | cons newest older =>
          have hnewest : s.minted.head? = some newest := by rw [hhead]; rfl
          have hlt := (hbounded.newest_lt_iff hnewest).mpr (hkept newest hnewest)
          rw [hhead] at hid
          rcases List.mem_cons.mp hid with rfl | hid
          · exact hlt
          · have hincreasing := hgrowing.increasing
            rw [hhead] at hincreasing
            exact Nat.lt_trans (List.rel_of_pairwise_cons hincreasing hid) hlt
      · rw [hminted, List.mem_cons]
        rintro (heq | hmem)
        · exact hne heq.symm
        · exact hgrowing.present hmem

theorem minted_suffix (hstep : s.step lib profile l = some s') : s.minted <:+ s'.minted := by
  rcases step_cases hstep with ⟨hminted, -⟩ | ⟨hminted, -⟩
  · exact ⟨[], hminted.symm⟩
  · rw [hminted]
    exact List.suffix_cons _ _

theorem Growing.of_suffix (h : s'.Growing) (hsuffix : s.minted <:+ s'.minted) : s.Growing :=
  ⟨h.increasing.sublist hsuffix.sublist, fun hmem => h.present (hsuffix.subset hmem)⟩

theorem minted_suffix_run {es : List LifeEvent} (hrun : run (step lib profile) s es = some s') :
    s.minted <:+ s'.minted := by
  refine run_invariant (I := fun t => s.minted <:+ t.minted)
    (fun _ _ _ ht (_ : True) hstep => ht.trans (minted_suffix hstep)) List.suffix_rfl
    (.of_forall fun _ _ => trivial) hrun

theorem fresh_growing : fresh.Growing ∧ fresh.Bounded :=
  ⟨⟨List.Pairwise.nil, List.not_mem_nil⟩, ⟨fun _ h => (by cases h), fun _ h => (by cases h)⟩⟩

end StoreLife

/-- **Offer prekey ids are not reused exactly while the newest is kept.** Over every life of a store, the ids
returned by `mint_offer_onetime_prekey` are strictly increasing and none is the absent marker exactly if at
every mint that returns one the prekey minted last is still in the table. -/
theorem minted_ids_grow_iff (lib : KeyLib Key) (profile : PaddingProfile) (es : List LifeEvent) (s : StoreLife)
    (hrun : run (StoreLife.step lib profile) .fresh es = some s) :
    s.minted.Pairwise (· > ·) ∧ absentId ∉ s.minted ↔
      Along (StoreLife.step lib profile) StoreLife.KeepsNewest .fresh es := by
  rw [← forall_prefix_iff_along (fun _ _ _ h hstep => StoreLife.growing_step h hstep)
    StoreLife.fresh_growing hrun]
  constructor
  · rintro ⟨hincreasing, hpresent⟩ es' t ⟨rest, rfl⟩ ht
    have hbounded : t.Bounded := run_invariant (fun _ _ _ h (_ : True) hstep => h.step hstep)
      StoreLife.fresh_growing.2 (.of_forall fun _ _ => trivial) ht
    rw [run_append, ht, Option.bind_some] at hrun
    exact ⟨StoreLife.Growing.of_suffix ⟨hincreasing, hpresent⟩ (StoreLife.minted_suffix_run hrun), hbounded⟩
  · intro h
    have hgrowing := (h es s List.prefix_rfl hrun).1
    exact ⟨hgrowing.increasing, hgrowing.present⟩

/-- An offer is answered before the next one is made: both get id 2. -/
theorem consumed_id_reused :
    ∃ s, run (StoreLife.step namingKeys .defaultProfile) .fresh
        [.initializeIdentity [9], .call (.mint [8]), .call (setupNaming 2), .call (.mint [7])] = some s ∧
      s.minted = [2, 2] :=
  ⟨_, rfl, rfl⟩

/-- Two offers are made, and the first is answered. -/
def twoOffers : List LifeEvent :=
  [.initializeIdentity [9], .call (.mint [8]), .call (.mint [7]), .call (setupNaming 2)]

/-- Their ids grow. -/
theorem kept_newest_ids_grow :
    ∃ s, run (StoreLife.step namingKeys .defaultProfile) .fresh twoOffers = some s ∧ s.minted = [3, 2] ∧
      s.minted.Pairwise (· > ·) ∧ absentId ∉ s.minted := by
  refine ⟨_, rfl, rfl, (minted_ids_grow_iff namingKeys .defaultProfile twoOffers _ rfl).mpr ?_⟩
  refine (along_cons_of_some rfl).mpr ⟨trivial, (along_cons_of_some rfl).mpr ⟨?_,
    (along_cons_of_some rfl).mpr ⟨?_, (along_cons_of_some rfl).mpr ⟨fun h => absurd rfl h, trivial⟩⟩⟩⟩
  · intro _ newest hnewest
    cases hnewest
  · intro _ newest hnewest
    obtain rfl := Option.some.inj hnewest
    decide

end Titlan
