import Mathlib.Data.List.Basic

/-! # Formats and their readers

A *format* says which lists of tokens stand for a value. A reader moves along a tape of tokens and
either fails or returns a value; it *reads* a format if it returns exactly the values some list in front
of it stands for, and stops behind that list. The rules below follow the text of a reader written in
`do` notation, so the format of a reader is computed from its parts. Nothing is said about which error a
reader fails with. -/

namespace Foundation

variable {α β γ σ ε : Type}

/-- Which lists of tokens stand for a value. -/
abbrev Format (β α : Type) := α → List β → Prop

namespace Format

/-- Nothing, standing for one value. -/
def nothing (a : α) : Format β α := fun b xs => b = a ∧ xs = []

/-- One value behind another, which may depend on the first. -/
def andThen (F : Format β α) (G : α → Format β γ) : Format β γ := fun c xs =>
  ∃ a ys zs, F a ys ∧ G a c zs ∧ xs = ys ++ zs

/-- Nothing, standing for what a computation returns. -/
def returned (e : Except ε α) : Format β α := fun a xs => e = .ok a ∧ xs = []

/-- What follows a value that must be there. -/
def given (o : Option γ) (G : γ → Format β α) : Format β α := fun a xs => ∃ c, o = some c ∧ G c a xs

/-- What follows a condition that must hold. -/
def guard (p : Prop) (F : Format β α) : Format β α := fun a xs => p ∧ F a xs

/-- No list of the format is the beginning of a longer one, and none stands for two values. -/
def Unambiguous (F : Format β α) : Prop :=
  ∀ ⦃a b : α⦄ ⦃xs ys xs' ys' : List β⦄, F a xs → F b ys → xs ++ xs' = ys ++ ys' → a = b ∧ xs = ys

end Format

/-! ## Readers -/

/-- A state from which tokens are read. -/
structure Tape (σ β : Type) where
  /-- The states a reader can be in. -/
  Valid : σ → Prop
  /-- What is left to read. -/
  rest : σ → List β
  /-- The state behind the next `n` tokens. -/
  skip : ℕ → σ → σ
  valid_skip : ∀ {n s}, Valid s → n ≤ (rest s).length → Valid (skip n s)
  rest_skip : ∀ n s, rest (skip n s) = (rest s).drop n
  skip_zero : ∀ s, skip 0 s = s
  skip_skip : ∀ m n s, skip n (skip m s) = skip (m + n) s

/-- The reader returns what the tokens in front of it stand for, and stops behind them. -/
def Reads (T : Tape σ β) (m : StateT σ (Except ε) α) (F : Format β α) : Prop :=
  ∀ s, T.Valid s → ∀ a s', m s = .ok (a, s') ↔
    ∃ xs ys, T.rest s = xs ++ ys ∧ F a xs ∧ s' = T.skip xs.length s

/-- The reader returns what all that is left stands for. -/
def ReadsAll (T : Tape σ β) (m : StateT σ (Except ε) α) (F : Format β α) : Prop :=
  ∀ s, T.Valid s → ∀ a, (∃ s', m s = .ok (a, s')) ↔ F a (T.rest s)

/-- A reader followed by another succeeds where both do. -/
theorem stateT_bind_eq_ok {m : StateT σ (Except ε) α} {k : α → StateT σ (Except ε) γ} {s : σ} {c : γ}
    {s'' : σ} : (m >>= k) s = .ok (c, s'') ↔ ∃ a s', m s = .ok (a, s') ∧ k a s' = .ok (c, s'') := by
  change (m s >>= fun x => k x.1 x.2) = _ ↔ _
  cases m s with
  | error e =>
    constructor
    · intro h
      cases h
    · rintro ⟨_, _, h, -⟩
      cases h
  | ok x =>
    constructor
    · intro h
      exact ⟨x.1, x.2, rfl, h⟩
    · rintro ⟨a, s', h, hk⟩
      cases h
      exact hk

variable {T : Tape σ β} {m n : StateT σ (Except ε) α} {k : α → StateT σ (Except ε) γ}
  {F F' : Format β α} {G : α → Format β γ}

theorem Reads.congr (h : Reads T m F) (hF : ∀ a xs, F a xs ↔ F' a xs) : Reads T m F' := by
  intro s hs a s'
  rw [h s hs a s']
  simp only [hF]

theorem reads_pure (a : α) : Reads T (pure a : StateT σ (Except ε) α) (.nothing a) := by
  intro s _ b s'
  have hpure : (pure a : StateT σ (Except ε) α) s = .ok (a, s) := rfl
  rw [hpure, Except.ok.injEq, Prod.mk.injEq]
  constructor
  · rintro ⟨rfl, rfl⟩
    exact ⟨[], _, rfl, ⟨rfl, rfl⟩, (T.skip_zero _).symm⟩
  · rintro ⟨_, _, -, ⟨rfl, rfl⟩, rfl⟩
    exact ⟨rfl, (T.skip_zero s).symm⟩

/-- A computation that does not read. -/
theorem reads_lift (e : Except ε α) :
    Reads T (liftM e : StateT σ (Except ε) α) (.returned e) := by
  cases e with
  | error e =>
    intro s _ a s'
    constructor
    · intro h
      cases h
    · rintro ⟨_, _, -, ⟨h, -⟩, -⟩
      cases h
  | ok a =>
    refine (reads_pure a).congr fun b xs => ?_
    simp only [Format.nothing, Format.returned, Except.ok.injEq, eq_comm]

/-- **Sequencing.** -/
theorem Reads.bind (hm : Reads T m F) (hk : ∀ a, Reads T (k a) (G a)) :
    Reads T (m >>= k) (F.andThen G) := by
  intro s hs c s''
  rw [stateT_bind_eq_ok]
  constructor
  · rintro ⟨a, s', hma, hkc⟩
    obtain ⟨ys, r, hrest, hF, rfl⟩ := (hm s hs a s').mp hma
    have hvalid := T.valid_skip hs (n := ys.length) (by simp [hrest])
    obtain ⟨zs, r', hrest', hG, rfl⟩ := (hk a _ hvalid c s'').mp hkc
    rw [T.rest_skip, hrest, List.drop_left] at hrest'
    refine ⟨ys ++ zs, r', ?_, ⟨a, ys, zs, hF, hG, rfl⟩, ?_⟩
    · rw [hrest, hrest', List.append_assoc]
    · rw [T.skip_skip, List.length_append]
  · rintro ⟨xs, r, hrest, ⟨a, ys, zs, hF, hG, rfl⟩, rfl⟩
    rw [List.append_assoc] at hrest
    have hvalid := T.valid_skip hs (n := ys.length) (by simp [hrest])
    refine ⟨a, T.skip ys.length s, (hm s hs a _).mpr ⟨ys, _, hrest, hF, rfl⟩, ?_⟩
    refine (hk a _ hvalid c _).mpr ⟨zs, r, ?_, hG, ?_⟩
    · rw [T.rest_skip, hrest, List.drop_left]
    · rw [T.skip_skip, List.length_append]

/-- Sequencing at the end of a reader. -/
theorem Reads.bindAll (hm : Reads T m F) (hk : ∀ a, ReadsAll T (k a) (G a)) :
    ReadsAll T (m >>= k) (F.andThen G) := by
  intro s hs c
  constructor
  · rintro ⟨s'', h⟩
    obtain ⟨a, s', hma, hkc⟩ := stateT_bind_eq_ok.mp h
    obtain ⟨ys, r, hrest, hF, rfl⟩ := (hm s hs a s').mp hma
    have hvalid := T.valid_skip hs (n := ys.length) (by simp [hrest])
    have hG := (hk a _ hvalid c).mp ⟨s'', hkc⟩
    rw [T.rest_skip, hrest, List.drop_left] at hG
    exact ⟨a, ys, r, hF, hG, hrest⟩
  · rintro ⟨a, ys, zs, hF, hG, hrest⟩
    have hvalid := T.valid_skip hs (n := ys.length) (by simp [hrest])
    have hzs : T.rest (T.skip ys.length s) = zs := by rw [T.rest_skip, hrest, List.drop_left]
    obtain ⟨s'', hkc⟩ := (hk a _ hvalid c).mpr (hzs.symm ▸ hG)
    exact ⟨s'', stateT_bind_eq_ok.mpr ⟨a, _, (hm s hs a _).mpr ⟨ys, zs, hrest, hF, rfl⟩, hkc⟩⟩

/-- A check in front of the rest of a reader. -/
theorem ReadsAll.guard {p : Prop} [Decidable p] {e : ε} {j : PUnit → StateT σ (Except ε) α}
    (hn : ReadsAll T n F) : ReadsAll T (if p then throw e >>= j else n) (.guard (¬ p) F) := by
  intro s hs a
  by_cases hp : p
  · rw [if_pos hp]
    constructor
    · rintro ⟨_, h⟩
      cases h
    · intro h
      exact absurd hp h.1
  · rw [if_neg hp, hn s hs a]
    simp only [Format.guard, hp, not_false_eq_true, true_and]

/-- A value that must be there, in front of the rest of a reader. -/
theorem readsAll_given {o : Option γ} {G : γ → Format β α} {e : ε}
    (hsome : ∀ c, o = some c → ReadsAll T m (G c)) (hnone : o = none → m = throw e) :
    ReadsAll T m (.given o G) := by
  intro s hs a
  cases ho : o with
  | none =>
    rw [hnone ho]
    constructor
    · rintro ⟨_, h⟩
      cases h
    · rintro ⟨_, h, -⟩
      cases h
  | some c =>
    rw [hsome c ho s hs a]
    simp only [Format.given, Option.some.injEq, exists_eq_left']

/-- What a reader that reads everything has is read by nothing else. -/
theorem Reads.unambiguous (h : Reads T m F) (hT : ∀ xs, ∃ s, T.Valid s ∧ T.rest s = xs) :
    F.Unambiguous := by
  intro a b xs ys xs' ys' ha hb heq
  obtain ⟨s, hs, hrest⟩ := hT (xs ++ xs')
  have hma := (h s hs a _).mpr ⟨xs, xs', hrest, ha, rfl⟩
  have hmb := (h s hs b _).mpr ⟨ys, ys', hrest.trans heq, hb, rfl⟩
  rw [hma, Except.ok.injEq, Prod.mk.injEq] at hmb
  obtain ⟨hab, hskip⟩ := hmb
  -- the two readings end at the same place, so they are equally long
  have hdrop := congrArg T.rest hskip
  rw [T.rest_skip, T.rest_skip, hrest, List.drop_left, heq, List.drop_left] at hdrop
  subst hdrop
  exact ⟨hab, List.append_cancel_right heq⟩

end Foundation
