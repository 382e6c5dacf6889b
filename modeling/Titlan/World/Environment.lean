import Titlan.World.Protocol

/-! # What a party can count on

While a party is between two of its operations, the other party takes steps of its own and the relay may
lose every mailbox. Here is what these leave alone, and how far: routing rows have one writer, a derived
inbox has one depositor, generations and floors only rise, generated inboxes are never created again, and
what waits in an inbox its owner may still read is removed only when it has been dealt with. -/

namespace Titlan.World.View

open Foundation

variable [Sealing] {κ : Regime} {v v' : View} {p q : Role} {b c x y : MailboxId} {f : Frame} {g j k r n : ℕ}

/-- What may happen between two operations of `p`. -/
inductive Env (κ : Regime) (p : Role) (v : View) : View → Prop
  | step {v' : View} (h : Step κ p.peer v v') : Env κ p v v'
  | lose (h : κ.Lossy) : Env κ p v v.lose

/-! ## Rows -/

theorem Step.recv_of_ne (h : Step κ q v v') (hp : p ≠ q) : v'.recv p = v.recv p := by
  cases h with
  | derive _ _ _ _ _ _ => exact recv_setRecv_of_ne hp
  | settle _ _ _ hq =>
    subst hq
    exact recv_setRecv_of_ne hp
  | finish _ _ _ hq =>
    subst hq
    exact recv_setRecv_of_ne hp
  | _ => rfl

theorem Step.send_of_ne (h : Step κ q v v') (hp : p ≠ q) : v'.send p = v.send p := by
  cases h with
  | setSend _ _ _ => simp [View.setSend, Function.update_of_ne hp]
  | _ => rfl

theorem Step.gens_of_ne (h : Step κ q v v') (hp : p ≠ q) : v'.own p = v.own p ∧ v'.known p = v.known p := by
  cases h with
  | setGens _ _ _ _ _ => simp [View.setGens, Function.update_of_ne hp]
  | _ => exact ⟨rfl, rfl⟩

/-- A party's row is its own. -/
theorem Env.recv_eq (h : Env κ p v v') : v'.recv p = v.recv p := by
  cases h with
  | step h => exact h.recv_of_ne p.ne_peer
  | lose => rfl

theorem Env.send_eq (h : Env κ p v v') : v'.send p = v.send p := by
  cases h with
  | step h => exact h.send_of_ne p.ne_peer
  | lose => rfl

theorem Env.own_eq (h : Env κ p v v') : v'.own p = v.own p := by
  cases h with
  | step h => exact (h.gens_of_ne p.ne_peer).1
  | lose => rfl

theorem Env.known_eq (h : Env κ p v v') : v'.known p = v.known p := by
  cases h with
  | step h => exact (h.gens_of_ne p.ne_peer).2
  | lose => rfl

theorem Env.eff_eq (h : Env κ p v v') : v'.eff p = v.eff p := by
  rw [eff, eff, h.recv_eq, h.own_eq]

/-! ## Generations -/

theorem Step.eff_le (h : Step κ q v v') : v.eff q ≤ v'.eff q := by
  cases h with
  | derive g hg _ _ _ _ =>
    rw [eff_setRecv_derived]
    exact Nat.le_of_lt hg
  | settle _ _ _ hq hrecv hown =>
    subst hq
    rw [eff_setRecv_generated, hown, eff_of_derived hrecv]
  | finish _ _ _ hq hrecv hown =>
    subst hq
    rw [eff_setRecv_generated, hown, eff_of_derived hrecv]
  | setGens _ _ _ hrecv _ => rw [eff_setGens hrecv]
  | _ => exact Nat.le_refl _

theorem Step.floor_le (h : Step κ q v v') : v.floor q ≤ v'.floor q := by
  cases h with
  | derive g hg _ _ _ _ =>
    rw [floor_of_derived recv_setRecv_self, floor]
    split
    · rename_i hr
      rw [eff_of_derived hr] at hg
      omega
    · rename_i hr
      rw [eff] at hg
      split at hg
      · rename_i hr'
        exact absurd hr' (hr _ _)
      · omega
  | settle _ _ _ hq hrecv hown =>
    subst hq
    rw [floor_of_derived hrecv, floor_of_generated recv_setRecv_self]
    show _ ≤ v.own .responder + 1
    omega
  | finish _ _ _ hq hrecv hown =>
    subst hq
    rw [floor_of_derived hrecv, floor_of_generated recv_setRecv_self]
    show _ ≤ v.own .offerer + 1
    omega
  | setGens k a i hrecv _ =>
    have hrecv' : (v.setGens q a i).recv q = some (.derived q k) := hrecv
    rw [floor_of_derived hrecv, floor_of_derived hrecv']
  | _ => exact Nat.le_refl _

theorem Env.eff_le (h : Env κ p v v') : v.eff p.peer ≤ v'.eff p.peer := by
  cases h with
  | step h => exact h.eff_le
  | lose => exact Nat.le_refl _

theorem Env.floor_le (h : Env κ p v v') : v.floor p.peer ≤ v'.floor p.peer := by
  cases h with
  | step h => exact h.floor_le
  | lose => exact Nat.le_refl _

/-- The other party comes to a derived inbox only by going on. -/
theorem Env.back (h : Env κ p v v') (hr : v'.recv p.peer = some (.derived p.peer g)) :
    v.recv p.peer = some (.derived p.peer g) ∨ v.eff p.peer < g := by
  cases h with
  | lose => exact .inl hr
  | step h =>
    cases h with
    | derive g' hg _ _ _ _ =>
      rw [recv_setRecv_self] at hr
      cases hr
      exact .inr hg
    | settle _ _ _ hq =>
      rw [← hq, recv_setRecv_self] at hr
      cases hr
    | finish _ _ _ hq =>
      rw [← hq, recv_setRecv_self] at hr
      cases hr
    | _ => exact .inl hr

/-! ## The log -/

/-- A step accepts at most one frame, into a derived inbox of the other party. -/
theorem Step.log_eq (h : Step κ q v v') :
    v'.log = v.log ∨ ∃ k f, v'.log = v.log ++ [(.derived q.peer k, f)] := by
  cases h with
  | hello _ k _ _ m => exact .inr ⟨k, m.frame, rfl⟩
  | offer g _ _ m hq =>
    subst hq
    exact .inr ⟨g, m.frame, rfl⟩
  | answer g _ _ _ m hq =>
    subst hq
    exact .inr ⟨g, m.frame, rfl⟩
  | _ => exact .inl rfl

theorem Step.log_subset (h : Step κ q v v') : v.log ⊆ v'.log := by
  rcases h.log_eq with heq | ⟨k, f, heq⟩
  · rw [heq]
    exact List.Subset.refl _
  · rw [heq]
    exact List.subset_append_left _ _

theorem Env.log_subset (h : Env κ p v v') : v.log ⊆ v'.log := by
  cases h with
  | lose => exact List.Subset.refl _
  | step h => exact h.log_subset

/-- Only `p` deposits into derived inboxes of the other party. -/
theorem Env.log_peer (h : Env κ p v v') (he : (.derived p.peer k, f) ∈ v'.log) :
    (.derived p.peer k, f) ∈ v.log := by
  cases h with
  | lose => exact he
  | step h =>
    rcases h.log_eq with heq | ⟨k', f', heq⟩
    · rwa [heq] at he
    · rw [heq, List.mem_append, List.mem_singleton, Role.peer_peer] at he
      rcases he with he | he
      · exact he
      · exact absurd (MailboxId.derived.inj (Prod.mk.inj he).1).1 p.peer_ne

theorem Env.helloed_peer (h : Env κ p v v') (he : v'.Helloed p.peer k r) : v.Helloed p.peer k r := by
  obtain ⟨n, hn⟩ := he
  exact ⟨n, h.log_peer hn⟩

theorem Env.helloed (h : Env κ p v v') (he : v.Helloed q k r) : v'.Helloed q k r := by
  obtain ⟨n, hn⟩ := he
  exact ⟨n, h.log_subset hn⟩

/-! ## Mailboxes -/

/-- No step removes what it does not own, and generated ids are spent. -/
theorem Step.live_generated (h : Step κ q v v') (hn : n < v.nextBox) :
    v'.Live (.generated n) ↔ v.Live (.generated n) := by
  cases h with
  | putOwn g _ _ => exact live_generated_setBox v q g n _
  | putPeer _ k _ _ _ _ => exact live_generated_setBox v q.peer k n _
  | hello _ _ _ _ _ _ _ _ hl _ => exact live_deposit hl _
  | mint => exact live_generated_mint hn
  | offer _ _ _ _ _ _ _ _ _ hl _ => exact live_deposit hl _
  | answer _ _ _ _ _ _ _ _ _ _ _ _ hl _ => exact live_deposit hl _
  | retire k _ => exact live_generated_setBox v q k n _
  | ack k _ _ _ _ => exact live_generated_setBox v q k n _
  | _ => exact Iff.rfl

theorem Step.nextBox_le (h : Step κ q v v') : v.nextBox ≤ v'.nextBox := by
  cases h with
  | mint => exact Nat.le_succ _
  | _ => exact Nat.le_refl _

theorem Env.nextBox_le (h : Env κ p v v') : v.nextBox ≤ v'.nextBox := by
  cases h with
  | step h => exact h.nextBox_le
  | lose => exact Nat.le_refl _

/-- Generated inboxes are never created again. -/
theorem Env.live_generated (h : Env κ p v v') (hn : n < v.nextBox) (hl : v'.Live (.generated n)) :
    v.Live (.generated n) := by
  cases h with
  | step h => exact (h.live_generated hn).mp hl
  | lose => cases hl

/-- They exist together: all of them are lost, or none. -/
theorem Env.live_generated_iff (h : Env κ p v v') {n m : ℕ} (hn : n < v.nextBox) (hm : m < v.nextBox)
    (hlive : v.Live (.generated n) ↔ v.Live (.generated m)) :
    v'.Live (.generated n) ↔ v'.Live (.generated m) := by
  cases h with
  | step h => rw [h.live_generated hn, h.live_generated hm, hlive]
  | lose => exact Iff.rfl

/-- The queue of a derived inbox of `p` after a step of the other party: a new inbox is empty, an
existing one is as it was or has one more message, and the log says which. -/
theorem Step.queue_peer (h : Step κ q v v') (k : ℕ) :
    v'.boxes (.derived q.peer k) = v.boxes (.derived q.peer k) ∨
    (v.boxes (.derived q.peer k) = none ∧ v'.boxes (.derived q.peer k) = some [] ∧ v'.log = v.log ∧
      ∃ i, v.recv q = some (.derived q i) ∧ (v.recv q.peer = some (.derived q.peer k) → k ≤ i) ∧
        (k = i → ¬ v.Helloed q.peer i i)) ∨
    ∃ l m, v.boxes (.derived q.peer k) = some l ∧ v'.boxes (.derived q.peer k) = some (l ++ [m]) ∧
      v'.log = v.log ++ [(.derived q.peer k, m.frame)] := by
  have hdeposit : ∀ (b : MailboxId) (l : List Queued) (m : Queued), v.boxes b = some l →
      (v.deposit b l m).boxes (.derived q.peer k) = v.boxes (.derived q.peer k) ∨
      ∃ l' m', v.boxes (.derived q.peer k) = some l' ∧
        (v.deposit b l m).boxes (.derived q.peer k) = some (l' ++ [m']) ∧
        (v.deposit b l m).log = v.log ++ [(.derived q.peer k, m'.frame)] := by
    intro b l m hl
    by_cases hb : MailboxId.derived q.peer k = b
    · subst hb
      exact .inr ⟨l, m, hl, by simp [deposit, setBox], rfl⟩
    · exact .inl (by simp [deposit, setBox, Function.update_of_ne hb])
  have hown : ∀ (i : ℕ) (l : Option (List Queued)),
      (v.setBox (.derived q i) l).boxes (.derived q.peer k) = v.boxes (.derived q.peer k) := by
    intro i l
    simp [setBox, Function.update_of_ne]
  cases h with
  | putOwn i _ _ => exact .inl (hown i _)
  | retire i _ => exact .inl (hown i _)
  | ack i _ _ _ _ => exact .inl (hown i _)
  | putPeer i k' hrecv hlate honce hnone =>
    by_cases hk : k = k'
    · subst hk
      refine .inr (.inl ⟨Option.not_isSome_iff_eq_none.mp hnone, by simp [setBox], rfl, i, hrecv,
        hlate, ?_⟩)
      exact honce
    · exact .inl (by simp [setBox, Function.update_of_ne, hk])
  | mint => exact .inl (by simp [View.mint, setBox])
  | hello _ _ _ l m _ _ _ hl _ =>
    rcases hdeposit _ l m hl with h | h
    · exact .inl h
    · exact .inr (.inr h)
  | offer _ _ l m _ _ _ _ _ hl _ =>
    rcases hdeposit _ l m hl with h | h
    · exact .inl h
    · exact .inr (.inr h)
  | answer _ _ _ l m _ _ _ _ _ _ _ hl _ =>
    rcases hdeposit _ l m hl with h | h
    · exact .inl h
    · exact .inr (.inr h)
  | _ => exact .inl rfl

/-- What a step of a party removes from its own derived inbox: nothing while it may still read it,
except messages that have been dealt with. -/
theorem Step.queue_own (h : Step κ q v v') {l : List Queued} (hk : v.floor q ≤ k)
    (hl : v.boxes (.derived q k) = some l) :
    ∃ l', v'.boxes (.derived q k) = some l' ∧ ∀ m ∈ l, m ∈ l' ∨
      (∀ r n, m.frame = World.hello r n → r ≤ v.eff q) ∧
      (isHandoff m.frame → v.recv q ≠ some (.derived q k)) := by
  have hsame : v'.boxes (.derived q k) = v.boxes (.derived q k) →
      ∃ l', v'.boxes (.derived q k) = some l' ∧ ∀ m ∈ l, m ∈ l' ∨
        (∀ r n, m.frame = World.hello r n → r ≤ v.eff q) ∧
        (isHandoff m.frame → v.recv q ≠ some (.derived q k)) :=
    fun h => ⟨l, h.trans hl, fun _ hm => .inl hm⟩
  have hne : ∀ (c : MailboxId) (l' : Option (List Queued)), .derived q k ≠ c →
      (v.setBox c l').boxes (.derived q k) = v.boxes (.derived q k) :=
    fun c l' h => by simp [setBox, Function.update_of_ne h]
  cases h with
  | putOwn g _ hnone =>
    refine hsame (hne _ _ ?_)
    rintro ⟨⟩
    simp [Live, hl] at hnone
  | putPeer _ k' _ _ _ _ => exact hsame (hne _ _ (by simp))
  | mint => exact hsame (by simp [View.mint, setBox])
  | hello _ k' _ l' m' _ _ _ _ _ => exact hsame (by simp [deposit, setBox])
  | offer _ _ _ _ hq _ _ _ _ _ _ =>
    subst hq
    exact hsame (by simp [deposit, setBox])
  | answer _ _ _ _ _ hq _ _ _ _ _ _ _ _ =>
    subst hq
    exact hsame (by simp [deposit, setBox])
  | retire k' hk' =>
    refine hsame (hne _ _ ?_)
    rintro ⟨⟩
    omega
  | ack k' i l' hl' hdone =>
    by_cases hkk : k = k'
    · subst hkk
      rw [hl, Option.some.injEq] at hl'
      subst hl'
      refine ⟨l.filter fun m => m.id ≠ i, by simp [setBox], fun m hm => ?_⟩
      by_cases hi : m.id = i
      · exact .inr (hdone m hm hi)
      · exact .inl (List.mem_filter.mpr ⟨hm, by simpa using hi⟩)
    · exact hsame (hne _ _ (by simp [hkk]))
  | _ => exact hsame rfl

/-- The inbox itself stays. -/
theorem Step.live_own (h : Step κ q v v') (hk : v.floor q ≤ k) (hl : v.Live (.derived q k)) :
    v'.Live (.derived q k) := by
  obtain ⟨l, hl⟩ := Option.isSome_iff_exists.mp hl
  obtain ⟨l', hl', -⟩ := h.queue_own hk hl
  rw [Live, hl']
  rfl

/-- A party does not remove derived inboxes of the other. -/
theorem Step.live_peer (h : Step κ q v v') (hl : v.Live (.derived q.peer k)) :
    v'.Live (.derived q.peer k) := by
  rcases h.queue_peer k with heq | ⟨-, hnew, -⟩ | ⟨l, m, -, hnew, -⟩
  · rwa [Live, heq]
  · rw [Live, hnew]
    rfl
  · rw [Live, hnew]
    rfl

/-- Without losses what is in a party's derived inbox stays there, whatever the other does. -/
theorem Env.queued (h : Env κ p v v') (hκ : ¬ κ.Lossy) {l : List Queued} {m : Queued}
    (hl : v.boxes (.derived p k) = some l) (hm : m ∈ l) :
    ∃ l', v'.boxes (.derived p k) = some l' ∧ m ∈ l' := by
  cases h with
  | lose hlossy => exact absurd hlossy hκ
  | step h =>
    have hq := h.queue_peer k
    rw [Role.peer_peer] at hq
    rcases hq with heq | ⟨hnone, -⟩ | ⟨l₀, m₀, hl₀, hnew, -⟩
    · exact ⟨l, heq.trans hl, hm⟩
    · rw [hl] at hnone
      cases hnone
    · rw [hl, Option.some.injEq] at hl₀
      subst hl₀
      exact ⟨l ++ [m₀], hnew, List.mem_append_left _ hm⟩

/-! ## What waits -/

/-- The frame waits in the mailbox. -/
def Waits (v : View) (b : MailboxId) (f : Frame) : Prop :=
  ∃ l, v.boxes b = some l ∧ ∃ m ∈ l, m.frame = f

theorem Waits.live (h : v.Waits b f) : v.Live b := by
  obtain ⟨l, hl, -⟩ := h
  rw [Live, hl]
  rfl

/-- A hello waits until the generation it reports has been reached. -/
theorem Env.waits_hello (h : Env κ p v v') (hsome : v'.Live c) (hfloor : v.floor p.peer ≤ j)
    (hr : v.eff p.peer < r) (hw : v.Waits (.derived p.peer j) (hello r n)) :
    v'.Waits (.derived p.peer j) (hello r n) := by
  cases h with
  | lose => cases hsome
  | step h =>
    obtain ⟨l, hl, m, hm, hf⟩ := hw
    obtain ⟨l', hl', hkeep⟩ := h.queue_own hfloor hl
    rcases hkeep m hm with hm' | ⟨hdone, -⟩
    · exact ⟨l', hl', m, hm', hf⟩
    · exact absurd (hdone r n hf) (Nat.not_le_of_lt hr)

/-- A handoff waits until the party has left the inbox. -/
theorem Env.waits_handoff (h : Env κ p v v') (hsome : v'.Live c)
    (hr : v.recv p.peer = some (.derived p.peer j)) (hw : v.Waits (.derived p.peer j) (handoff x)) :
    v'.Waits (.derived p.peer j) (handoff x) := by
  cases h with
  | lose => cases hsome
  | step h =>
    obtain ⟨l, hl, m, hm, hf⟩ := hw
    obtain ⟨l', hl', hkeep⟩ := h.queue_own (Nat.le_of_eq (floor_of_derived hr)) hl
    rcases hkeep m hm with hm' | ⟨-, hdone⟩
    · exact ⟨l', hl', m, hm', hf⟩
    · exact absurd hr (hdone (by rw [hf]; rfl))

theorem Env.live_peer (h : Env κ p v v') (hsome : v'.Live c) (hfloor : v.floor p.peer ≤ j)
    (hl : v.Live (.derived p.peer j)) : v'.Live (.derived p.peer j) := by
  cases h with
  | lose => cases hsome
  | step h => exact h.live_own hfloor hl

/-- An inbox the party is on is created by the other only once that one has reached its generation. -/
theorem Env.due (h : Env κ p v v') (hr : v.recv p = some (.derived p g)) (hl : v'.Live (.derived p g))
    (hfloor : v'.floor p.peer ≤ j) (hj : j < g) : v.Live (.derived p g) := by
  have hfl := h.floor_le
  cases h with
  | lose => cases hl
  | step h =>
    have hq := h.queue_peer g
    rw [Role.peer_peer] at hq
    rcases hq with heq | ⟨-, -, -, i, hi, hlate, -⟩ | ⟨l, m, hl', -⟩
    · rwa [Live, heq] at hl
    · have hle := hlate hr
      rw [floor_of_derived hi] at hfl
      omega
    · rw [Live, hl']
      rfl

/-- After the hello that starts a rotation, the responder does not create the offerer's inbox again. -/
theorem Env.started (h : Env κ .offerer v v') (hi : Inv v) (hh : v.Helloed .offerer g g)
    (he : v'.eff .responder = g) (hl : v'.Live (.derived .offerer g)) :
    v.eff .responder = g ∧ v.Live (.derived .offerer g) := by
  have hle : v.eff .responder ≤ v'.eff .responder := h.eff_le
  have hge : g ≤ v.eff .responder := (hi.hello_le .offerer g g hh).1
  have heff : v.eff .responder = g := by omega
  refine ⟨heff, ?_⟩
  cases h with
  | lose => cases hl
  | step h =>
    have hq : v'.boxes (.derived .offerer g) = v.boxes (.derived .offerer g) ∨ _ := h.queue_peer g
    rcases hq with heq | ⟨-, -, -, i, hr, -, honce⟩ | ⟨l, m, hl', -⟩
    · rwa [Live, heq] at hl
    · have hr' : v.recv .responder = some (.derived .responder i) := hr
      rw [eff_of_derived hr'] at heff
      subst heff
      exact absurd hh (honce rfl)
    · have hl'' : v.boxes (.derived .offerer g) = some l := hl'
      rw [Live, hl'']
      rfl

/-- The offerer does not leave a standing offer that has not been answered. -/
theorem Env.awaits (h : Env κ .responder v v') (hsome : v'.Live c) (ho : v.Offered g x)
    (he : v.eff .responder = g) (hno : ∀ y, ¬ v.Answered g y)
    (hr : v.recv .offerer = some (.derived .offerer g)) (hl : v.Live (.derived .offerer g)) :
    v'.recv .offerer = some (.derived .offerer g) ∧ v'.Live (.derived .offerer g) := by
  cases h with
  | lose => cases hsome
  | step h =>
    have h : Step κ .offerer v v' := h
    refine ⟨?_, h.live_own (Nat.le_of_eq (floor_of_derived hr)) hl⟩
    cases h with
    | derive g' _ _ _ _ haway => exact absurd hl (haway g x rfl hr ho he)
    | settle _ _ _ hq => cases hq
    | finish g' _ y _ hr' _ _ hanswer =>
      rw [hr] at hr'
      cases hr'
      exact absurd hanswer (hno y)
    | _ => exact hr

end Titlan.World.View
