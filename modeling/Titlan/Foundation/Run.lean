import Mathlib.Data.List.Forall2
import Mathlib.Logic.Relation

/-! # Runs of a labelled transition system

A system is a partial step function: a label either is enabled, with one outcome, or is not. A run
is the list of labels taken. `Along` restricts a run to the steps that meet a condition on the state
before the step and the label, and the invariant rule carries a predicate along such a run. -/

namespace Foundation

variable {σ L : Type}

/-- The state a list of labels leads to, if every one of them is enabled in its turn. -/
def run (step : σ → L → Option σ) : σ → List L → Option σ
  | s, [] => some s
  | s, l :: ls => (step s l).bind fun s' => run step s' ls

/-- Every step of the run meets `ok`. -/
def Along (step : σ → L → Option σ) (ok : σ → L → Prop) : σ → List L → Prop
  | _, [] => True
  | s, l :: ls => ok s l ∧ ∀ s', step s l = some s' → Along step ok s' ls

variable {step : σ → L → Option σ} {ok : σ → L → Prop}

@[simp] theorem run_nil (s : σ) : run step s [] = some s := rfl

theorem run_cons (s : σ) (l : L) (ls : List L) :
    run step s (l :: ls) = (step s l).bind fun s' => run step s' ls := rfl

/-- Whether a run can be taken, and whether what it leads to has a property, is computed. -/
instance decidableReaches (o : Option σ) (P : σ → Prop) [DecidablePred P] :
    Decidable (∃ s, o = some s ∧ P s) :=
  decidable_of_iff (o.any fun s => P s) (by simp [Option.any_eq_true])

/-- A run in two parts. -/
theorem run_append (s : σ) (ls ls' : List L) :
    run step s (ls ++ ls') = (run step s ls).bind fun t => run step t ls' := by
  induction ls generalizing s with
  | nil => rfl
  | cons l ls ih =>
    rw [List.cons_append, run_cons, run_cons]
    cases step s l with
    | none => rfl
    | some s' => exact ih s'

/-- **Relational rule.** If related labels lead related states to related states, or are both not
enabled, then so do related runs. -/
theorem run_rel {r : σ → σ → Prop} {q : L → L → Prop}
    (h : ∀ s s' l l', r s s' → q l l' → Option.Rel r (step s l) (step s' l')) {s s' : σ}
    {ls ls' : List L} (hs : r s s') (hls : List.Forall₂ q ls ls') :
    Option.Rel r (run step s ls) (run step s' ls') := by
  induction hls generalizing s s' with
  | nil => exact .some hs
  | @cons l l' ls ls' hl _ ih =>
    have hstep := h s s' l l' hs hl
    rw [run_cons, run_cons]
    generalize step s l = o, step s' l' = o' at hstep
    cases hstep with
    | none => exact .none
    | some ht => exact ih ht

variable {ls : List L} {s : σ}

theorem along_cons_of_none {l : L} (h : step s l = none) : Along step ok s (l :: ls) ↔ ok s l := by
  simp [Along, h]

theorem along_cons_of_some {s s' : σ} {l : L} (h : step s l = some s') :
    Along step ok s (l :: ls) ↔ ok s l ∧ Along step ok s' ls := by
  simp [Along, h]

instance Along.decidable [∀ s l, Decidable (ok s l)] : ∀ s ls, Decidable (Along step ok s ls)
  | _, [] => .isTrue trivial
  | s, l :: ls =>
    match h : step s l with
    | none => decidable_of_iff _ (along_cons_of_none h).symm
    | some s' =>
      have : Decidable (Along step ok s' ls) := Along.decidable s' ls
      decidable_of_iff _ (along_cons_of_some h).symm

/-- What every label of a run meets in every state holds along the run. -/
theorem Along.of_forall_mem (h : ∀ s, ∀ l ∈ ls, ok s l) : Along step ok s ls := by
  induction ls generalizing s with
  | nil => trivial
  | cons l ls ih =>
    exact ⟨h s l List.mem_cons_self, fun _ _ => ih fun s' l' hl' => h s' l' (List.mem_cons_of_mem l hl')⟩

/-- What holds of every step holds along every run. -/
theorem Along.of_forall (h : ∀ s l, ok s l) : Along step ok s ls :=
  .of_forall_mem fun s l _ => h s l

variable {ok' : σ → L → Prop}

theorem Along.mono (hok : Along step ok s ls)
    (h : ∀ s l, ok s l → ok' s l) : Along step ok' s ls := by
  induction ls generalizing s with
  | nil => trivial
  | cons l ls ih => exact ⟨h s l hok.1, fun s' hs' => ih (hok.2 s' hs')⟩

/-- Two conditions on a run are one. -/
theorem Along.and (hok : Along step ok s ls)
    (hok' : Along step ok' s ls) : Along step (fun s l => ok s l ∧ ok' s l) s ls := by
  induction ls generalizing s with
  | nil => trivial
  | cons l ls ih =>
    exact ⟨⟨hok.1, hok'.1⟩, fun s' hs' => ih (hok.2 s' hs') (hok'.2 s' hs')⟩

/-- A condition that is only asked for under a hypothesis. -/
theorem Along.of_imp {p : Prop} (h : p → Along step ok s ls) :
    Along step (fun s l => p → ok s l) s ls := by
  induction ls generalizing s with
  | nil => trivial
  | cons l ls ih => exact ⟨fun hp => (h hp).1, fun s' hs' => ih fun hp => (h hp).2 s' hs'⟩

/-- A condition on labels alone holds along a run when every label meets it. -/
theorem Along.and_of_forall {P : L → Prop} (hP : ∀ l ∈ ls, P l)
    (hok : Along step ok s ls) : Along step (fun s l => P l ∧ ok s l) s ls :=
  .and (.of_forall_mem fun _ l hl => hP l hl) hok

/-- **Invariant rule.** What every step meeting `ok` preserves holds at the end of every run whose
steps all meet `ok`. -/
theorem run_invariant {I : σ → Prop}
    (hstep : ∀ s l s', I s → ok s l → step s l = some s' → I s') {s s' : σ}
    (hs : I s) (hok : Along step ok s ls) (hr : run step s ls = some s') : I s' := by
  induction ls generalizing s with
  | nil =>
    simp only [run_nil, Option.some.injEq] at hr
    exact hr ▸ hs
  | cons l ls ih =>
    obtain ⟨t, ht, hr⟩ := Option.bind_eq_some_iff.mp (run_cons s l ls ▸ hr)
    exact ih (hstep s l t hs hok.1 ht) (hok.2 t ht) hr

/-- What an invariant says of every step holds along the run. -/
theorem along_of_invariant {I : σ → Prop}
    (hstep : ∀ s l s', I s → ok s l → step s l = some s' → I s') (hok' : ∀ s l, I s → ok' s l)
    (hs : I s) (hok : Along step ok s ls) : Along step ok' s ls := by
  induction ls generalizing s with
  | nil => trivial
  | cons l ls ih => exact ⟨hok' s l hs, fun t ht => ih (hstep s l t hs hok.1 ht) (hok.2 t ht)⟩

/-- **Until rule.** A predicate every step preserves except those marked `brk` holds at the end of a run,
unless a marked step was taken in it. -/
theorem holds_or_broken {P : σ → Prop} {brk : σ → L → Prop}
    (hstep : ∀ s l s', P s → ¬ brk s l → step s l = some s' → P s') {s s' : σ}
    (hs : P s) (hr : run step s ls = some s') :
    P s' ∨ ∃ done l rest t, ls = done ++ l :: rest ∧ run step s done = some t ∧ brk t l := by
  induction ls generalizing s with
  | nil =>
    rw [run_nil] at hr
    exact .inl (Option.some.inj hr ▸ hs)
  | cons l ls ih =>
    obtain ⟨u, hu, hrest⟩ := Option.bind_eq_some_iff.mp (run_cons s l ls ▸ hr)
    by_cases hb : brk s l
    · exact .inr ⟨[], l, ls, s, rfl, rfl, hb⟩
    · obtain hP | ⟨done, l', rest, t, rfl, ht, hbt⟩ := ih (hstep s l u hs hb hu) hrest
      · exact .inl hP
      · refine .inr ⟨l :: done, l', rest, t, rfl, ?_, hbt⟩
        rw [run_cons, hu]
        exact ht

/-- **Exactness rule.** If from every state with `P` a step leads to a state with `P` exactly when it
meets `ok`, then `P` holds throughout a run exactly when every step of it meets `ok`. -/
theorem forall_prefix_iff_along {P : σ → Prop}
    (hstep : ∀ s l s', P s → step s l = some s' → (P s' ↔ ok s l)) {s s' : σ}
    (hs : P s) (hr : run step s ls = some s') :
    (∀ ls' t, ls' <+: ls → run step s ls' = some t → P t) ↔ Along step ok s ls := by
  induction ls generalizing s with
  | nil =>
    refine iff_of_true (fun ls' t hpre ht => ?_) trivial
    rw [List.prefix_nil.mp hpre, run_nil] at ht
    exact Option.some.inj ht ▸ hs
  | cons l ls ih =>
    obtain ⟨u, hu, hrest⟩ := Option.bind_eq_some_iff.mp (run_cons s l ls ▸ hr)
    rw [along_cons_of_some hu]
    constructor
    · intro h
      have hPu : P u := h [l] u (List.prefix_append [l] ls) (by rw [run_cons, hu]; rfl)
      refine ⟨(hstep s l u hs hu).mp hPu, (ih hPu hrest).mp fun ls' t hpre ht => ?_⟩
      exact h (l :: ls') t (List.prefix_cons_inj l |>.mpr hpre) (by rw [run_cons, hu]; exact ht)
    · rintro ⟨hok, halong⟩ ls' t hpre ht
      have hPu : P u := (hstep s l u hs hu).mpr hok
      cases ls' with
      | nil => exact Option.some.inj ht ▸ hs
      | cons l' ls' =>
        obtain ⟨rfl, htail⟩ := List.cons_prefix_cons.mp hpre
        rw [run_cons, hu] at ht
        exact (ih hPu hrest).mpr halong ls' t htail ht

/-! ## Tasks by number

A system's tasks stand in a list, and a task is known by its place in it. -/

section Numbered

variable {α : Type} {xs : List α} {x x' y : α} {k n : Nat}

/-- A task after one of the tasks has changed. -/
theorem getElem?_set_cases (hx : xs[n]? = some x) (h : (xs.set n x')[k]? = some y) :
    k = n ∧ y = x' ∨ k ≠ n ∧ xs[k]? = some y := by
  by_cases hk : k = n
  · subst hk
    obtain ⟨hlt, -⟩ := List.getElem?_eq_some_iff.mp hx
    rw [List.getElem?_set_self hlt] at h
    exact .inl ⟨rfl, (Option.some.inj h).symm⟩
  · rw [List.getElem?_set_ne (Ne.symm hk)] at h
    exact .inr ⟨hk, h⟩

/-- What is in a list after something was put at its end. -/
theorem mem_concat (h : y ∈ xs ++ [x]) : y ∈ xs ∨ y = x :=
  (List.mem_append.mp h).imp_right List.mem_singleton.mp

/-- A task after a new one has come. -/
theorem getElem?_append_cases (h : (xs ++ [x])[k]? = some y) :
    k = xs.length ∧ y = x ∨ xs[k]? = some y := by
  by_cases hk : k < xs.length
  · rw [List.getElem?_append_left hk] at h
    exact .inr h
  · rw [List.getElem?_append_right (Nat.le_of_not_lt hk)] at h
    obtain ⟨hlt, hy⟩ := List.getElem?_eq_some_iff.mp h
    simp only [List.getElem_singleton] at hy
    simp only [List.length_singleton] at hlt
    exact .inl ⟨by omega, hy.symm⟩

variable {β : Type} {r : α → β → Prop} {ys : List β}

/-- A task and its counterpart. -/
theorem forall₂_getElem? (h : List.Forall₂ r xs ys) (n : Nat) : Option.Rel r xs[n]? ys[n]? := by
  induction h generalizing n with
  | nil => exact .none
  | cons hxy _ ih =>
    cases n with
    | zero => exact .some hxy
    | succ n => exact ih n

/-- A task and its counterpart have changed. -/
theorem forall₂_set (h : List.Forall₂ r xs ys) (n : Nat) {z : β} (hz : r x z) :
    List.Forall₂ r (xs.set n x) (ys.set n z) := by
  induction h generalizing n with
  | nil => exact .nil
  | cons hxy hrest ih =>
    cases n with
    | zero => exact .cons hz hrest
    | succ n => exact .cons hxy (ih n)

end Numbered

end Foundation
