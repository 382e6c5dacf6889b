import Mathlib.Order.Basic

/-! # Serial execution of fallible calls on one value

A call either fails, and leaves the value as it is, or succeeds with a new value and an outcome.
`serial` runs a list of calls one after another, `outcomes` records what each of them returned. What
every successful call preserves, or establishes for good, holds after the whole list; and when each
*marked* outcome carries the value's position, which the call then moves past, the marks come out in
strictly increasing order. -/

namespace Foundation

variable {σ κ ρ : Type} (step : κ → σ → Option (σ × ρ))

/-- The value after one call. -/
def callOnce (s : σ) (c : κ) : σ := (step c s).elim s Prod.fst

/-- The value after a list of calls. -/
def serial (s : σ) (cs : List κ) : σ := cs.foldl (callOnce step) s

/-- Each call with what it returned. -/
def outcomes : σ → List κ → List (κ × Option ρ)
  | _, [] => []
  | s, c :: cs => (c, (step c s).map Prod.snd) :: outcomes (callOnce step s c) cs

variable {step}

@[simp] theorem serial_cons (s : σ) (c : κ) (cs : List κ) :
    serial step s (c :: cs) = serial step (callOnce step s c) cs := rfl

theorem serial_append (s : σ) (cs ds : List κ) :
    serial step s (cs ++ ds) = serial step (serial step s cs) ds := by
  simp [serial]

theorem callOnce_of_some {s s' : σ} {c : κ} {r : ρ} (h : step c s = some (s', r)) :
    callOnce step s c = s' := by
  simp [callOnce, h]

theorem callOnce_of_none {s : σ} {c : κ} (h : step c s = none) : callOnce step s c = s := by
  simp [callOnce, h]

theorem outcomes_append (s : σ) (cs ds : List κ) :
    outcomes step s (cs ++ ds) = outcomes step s cs ++ outcomes step (serial step s cs) ds := by
  induction cs generalizing s with
  | nil => rfl
  | cons c cs ih => simp [outcomes, ih]

/-- What one call preserves, a list of calls preserves. -/
theorem serial_invariant {P : σ → Prop}
    (hstep : ∀ c s s' r, step c s = some (s', r) → P s → P s') {s : σ} (hs : P s) (cs : List κ) :
    P (serial step s cs) := by
  induction cs generalizing s with
  | nil => exact hs
  | cons c cs ih =>
    refine ih ?_
    cases hc : step c s with
    | none => rwa [callOnce_of_none hc]
    | some out => exact callOnce_of_some hc ▸ hstep c s out.1 out.2 hc hs

/-- What a successful call establishes, and every call preserves, holds at the end for every
outcome. -/
theorem serial_establishes {Q : ρ → σ → Prop}
    (hnew : ∀ c s s' r, step c s = some (s', r) → Q r s')
    (hkeep : ∀ q c s s' r, step c s = some (s', r) → Q q s → Q q s')
    {s : σ} {cs : List κ} {c : κ} {r : ρ} (hmem : (c, some r) ∈ outcomes step s cs) :
    Q r (serial step s cs) := by
  induction cs generalizing s with
  | nil => simp [outcomes] at hmem
  | cons d ds ih =>
    rcases List.mem_cons.mp hmem with hhead | htail
    · obtain ⟨rfl, hr⟩ := Prod.mk.inj hhead
      obtain ⟨⟨s', r'⟩, hc, rfl⟩ := Option.map_eq_some_iff.mp hr.symm
      rw [serial_cons, callOnce_of_some hc]
      exact serial_invariant (fun c t t' r'' => hkeep _ c t t' r'') (hnew _ _ _ _ hc) ds
    · exact ih htail

section Marks

variable {P : Type} [Preorder P] {pos : σ → P} {mark : ρ → Option P}

/-- Every mark of a list of calls lies at or past the position the list started from. -/
theorem le_mark_of_mem_outcomes
    (hmono : ∀ c s s' r, step c s = some (s', r) → pos s ≤ pos s')
    (hmark : ∀ c s s' r p, step c s = some (s', r) → mark r = some p → p = pos s)
    {s : σ} {cs : List κ} {c : κ} {r : ρ} {p : P} (hmem : (c, some r) ∈ outcomes step s cs)
    (hp : mark r = some p) : pos s ≤ p := by
  induction cs generalizing s with
  | nil => simp [outcomes] at hmem
  | cons d ds ih =>
    rcases List.mem_cons.mp hmem with hhead | htail
    · obtain ⟨rfl, hr⟩ := Prod.mk.inj hhead
      obtain ⟨⟨s', r'⟩, hc, rfl⟩ := Option.map_eq_some_iff.mp hr.symm
      exact (hmark _ _ _ _ _ hc hp).ge
    · refine le_trans ?_ (ih htail)
      cases hd : step d s with
      | none => rw [callOnce_of_none hd]
      | some out => exact callOnce_of_some hd ▸ hmono d s out.1 out.2 hd

/-- **Marks are spent in increasing order.** When positions never go back and each marked outcome
carries the position its call moved past, marks strictly increase along the calls. -/
theorem outcomes_marks_increasing
    (hmono : ∀ c s s' r, step c s = some (s', r) → pos s ≤ pos s')
    (hmark : ∀ c s s' r p, step c s = some (s', r) → mark r = some p → p = pos s)
    (hlt : ∀ c s s' r p, step c s = some (s', r) → mark r = some p → pos s < pos s')
    (s : σ) (cs : List κ) :
    (outcomes step s cs).Pairwise fun a b =>
      ∀ r q p p', a.2 = some r → b.2 = some q → mark r = some p → mark q = some p' → p < p' := by
  induction cs generalizing s with
  | nil => exact List.Pairwise.nil
  | cons c cs ih =>
    refine List.Pairwise.cons ?_ (ih _)
    rintro ⟨d, o⟩ hmem r q p p' hr rfl hp hp'
    obtain ⟨⟨s', r'⟩, hc, rfl⟩ := Option.map_eq_some_iff.mp hr
    have hle := le_mark_of_mem_outcomes hmono hmark hmem hp'
    rw [callOnce_of_some hc] at hle
    exact hmark _ _ _ _ _ hc hp ▸ lt_of_lt_of_le (hlt _ _ _ _ _ hc hp) hle

end Marks

end Foundation
