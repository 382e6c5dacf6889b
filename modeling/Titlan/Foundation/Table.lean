import Mathlib.Algebra.Order.Group.Nat
import Mathlib.Algebra.Ring.Nat
import Mathlib.Data.List.AList
import Mathlib.Data.List.Forall2

/-! # Tables

Finite maps as a service keeps them in a hash map: look up, insert, remove, and one pass that rewrites
or drops every row. `total` adds up a quantity over the rows; what each operation does to it is stated
with the row that was there before. `Rel` relates two tables row by row. -/

namespace Foundation

/-- A finite map from keys to rows. -/
abbrev Table (κ α : Type) := AList fun _ : κ => α

namespace Table

variable {κ α β : Type}

/-- Rewrite every row of a list of rows, or drop it. -/
def retainRows (f : α → Option α) (l : List (Σ _ : κ, α)) : List (Σ _ : κ, α) :=
  l.filterMap fun e => (f e.2).map fun v => ⟨e.1, v⟩

section RetainRows

variable {f : α → Option α} {e : Σ _ : κ, α} {l : List (Σ _ : κ, α)} {v : α}

theorem retainRows_cons_of_none (h : f e.2 = none) : retainRows f (e :: l) = retainRows f l := by
  simp only [retainRows, List.filterMap_cons, h, Option.map_none]

theorem retainRows_cons_of_some (h : f e.2 = some v) :
    retainRows f (e :: l) = ⟨e.1, v⟩ :: retainRows f l := by
  simp only [retainRows, List.filterMap_cons, h, Option.map_some]

theorem keys_retainRows_sublist (f : α → Option α) (l : List (Σ _ : κ, α)) :
    (retainRows f l).keys.Sublist l.keys := by
  induction l with
  | nil => exact List.Sublist.refl _
  | cons e l ih =>
    cases hf : f e.2 with
    | none =>
      rw [retainRows_cons_of_none hf]
      exact ih.cons _
    | some v =>
      rw [retainRows_cons_of_some hf]
      exact ih.cons_cons _

end RetainRows

/-- The number of rows. -/
def size (t : Table κ α) : ℕ := t.entries.length

/-- The sum of a quantity over the rows. -/
def total (f : α → ℕ) (t : Table κ α) : ℕ := (t.entries.map fun e => f e.2).sum

/-- A row of a table after an insertion. -/
theorem lookup_insert_cases [DecidableEq κ] {t : Table κ α} {a b : κ} {v w : α}
    (h : (t.insert a v).lookup b = some w) : (b = a ∧ w = v) ∨ b ≠ a ∧ t.lookup b = some w := by
  by_cases hne : b = a
  · subst hne
    rw [AList.lookup_insert] at h
    exact .inl ⟨rfl, (Option.some.inj h).symm⟩
  · exact .inr ⟨hne, (AList.lookup_insert_ne hne).symm.trans h⟩

theorem lookup_of_erase [DecidableEq κ] {t : Table κ α} {a b : κ} {w : α}
    (h : (t.erase a).lookup b = some w) : t.lookup b = some w := by
  by_cases hne : b = a
  · rw [hne, AList.lookup_erase] at h
    cases h
  · rwa [AList.lookup_erase_ne hne] at h

/-- Rewrite every row, or drop it. -/
def retain (f : α → Option α) (t : Table κ α) : Table κ α where
  entries := retainRows f t.entries
  nodupKeys := (keys_retainRows_sublist f t.entries).nodup t.nodupKeys

theorem lookup_retain [DecidableEq κ] (f : α → Option α) (t : Table κ α) (a : κ) :
    (t.retain f).lookup a = (t.lookup a).bind f := by
  obtain ⟨l, hl⟩ := t
  show (retainRows f l).dlookup a = (l.dlookup a).bind f
  induction l with
  | nil => rfl
  | cons e l ih =>
    obtain ⟨k, v⟩ := e
    have hnot : k ∉ l.keys := List.notMem_keys_of_nodupKeys_cons hl
    have ih := ih (List.nodupKeys_of_nodupKeys_cons hl)
    by_cases hak : a = k
    · -- the row itself: if it is dropped, the rest has no other row of its key
      subst hak
      rw [List.dlookup_cons_eq, Option.bind_some]
      cases hf : f v with
      | none =>
        rw [retainRows_cons_of_none hf, ih, List.dlookup_eq_none.mpr hnot, Option.bind_none]
      | some w => rw [retainRows_cons_of_some hf, List.dlookup_cons_eq]
    · rw [List.dlookup_cons_ne l ⟨k, v⟩ hak, ← ih]
      cases hf : f v with
      | none => rw [retainRows_cons_of_none hf]
      | some w =>
        rw [retainRows_cons_of_some hf]
        exact List.dlookup_cons_ne _ _ hak

/-! ## Totals -/

section Total

variable (f : α → ℕ)

/-- The sum of a quantity over a list, when one element is replaced. -/
theorem sum_map_set {l : List α} {n : ℕ} {v : α} (h : l[n]? = some v) (w : α) :
    ((l.set n w).map f).sum + f v = (l.map f).sum + f w := by
  induction l generalizing n with
  | nil => cases h
  | cons u l ih =>
    cases n with
    | zero =>
      cases h
      simp only [List.set_cons_zero, List.map_cons, List.sum_cons]
      omega
    | succ n =>
      have ih := ih h
      simp only [List.set_cons_succ, List.map_cons, List.sum_cons]
      omega

theorem sum_retainRows {g : α → Option α} {d : α → ℕ} {l : List (Σ _ : κ, α)}
    (h : ∀ e ∈ l, (g e.2).elim 0 f + d e.2 = f e.2) :
    ((retainRows g l).map fun e => f e.2).sum + (l.map fun e => d e.2).sum =
      (l.map fun e => f e.2).sum := by
  induction l with
  | nil => rfl
  | cons e l ih =>
    have ih := ih fun e' he' => h e' (List.mem_cons_of_mem e he')
    have hrow := h e List.mem_cons_self
    cases hg : g e.2 with
    | none =>
      rw [hg, Option.elim_none] at hrow
      rw [retainRows_cons_of_none hg]
      simp only [List.map_cons, List.sum_cons]
      omega
    | some v =>
      rw [hg, Option.elim_some] at hrow
      rw [retainRows_cons_of_some hg]
      simp only [List.map_cons, List.sum_cons]
      omega

variable [DecidableEq κ] {t : Table κ α}

theorem lookup_of_mem {e : Σ _ : κ, α} (h : e ∈ t.entries) : t.lookup e.1 = some e.2 :=
  AList.mem_lookup_iff.mpr h

/-- A pass that takes `d v` off each row `v` takes the total of `d` off the table. -/
theorem total_retain {g : α → Option α} {d : α → ℕ} (t : Table κ α)
    (h : ∀ a v, t.lookup a = some v → (g v).elim 0 f + d v = f v) :
    (t.retain g).total f + t.total d = t.total f :=
  sum_retainRows f fun e he => h e.1 e.2 (lookup_of_mem he)

theorem total_erase (t : Table κ α) (a : κ) :
    total f (t.erase a) + (t.lookup a).elim 0 f = total f t := by
  obtain ⟨l, hl⟩ := t
  show ((l.kerase a).map fun e => f e.2).sum + (l.dlookup a).elim 0 f = (l.map fun e => f e.2).sum
  clear hl
  induction l with
  | nil => rfl
  | cons e l ih =>
    obtain ⟨k, v⟩ := e
    by_cases hak : a = k
    · have herase : List.kerase a (⟨k, v⟩ :: l) = l := List.kerase_cons_eq hak
      subst hak
      rw [herase, List.dlookup_cons_eq, List.map_cons, List.sum_cons]
      exact Nat.add_comm _ _
    · have herase : List.kerase a (⟨k, v⟩ :: l) = ⟨k, v⟩ :: List.kerase a l :=
        List.kerase_cons_ne hak
      rw [herase, List.dlookup_cons_ne l ⟨k, v⟩ hak]
      simp only [List.map_cons, List.sum_cons]
      omega

theorem total_insert (t : Table κ α) (a : κ) (v : α) :
    total f (t.insert a v) + (t.lookup a).elim 0 f = total f t + f v := by
  have herase := total_erase f t a
  have hinsert : total f (t.insert a v) = f v + total f (t.erase a) := rfl
  omega

theorem total_insert_of_some {a : κ} {u : α} (h : t.lookup a = some u) (v : α) :
    total f (t.insert a v) + f u = total f t + f v := by
  have hinsert := total_insert f t a v
  rwa [h, Option.elim_some] at hinsert

theorem total_insert_of_none {a : κ} (h : t.lookup a = none) (v : α) :
    total f (t.insert a v) = total f t + f v := by
  have hinsert := total_insert f t a v
  rwa [h, Option.elim_none] at hinsert

/-- A row's share is at most the total. -/
theorem le_total {a : κ} {v : α} (h : t.lookup a = some v) : f v ≤ total f t := by
  have herase := total_erase f t a
  rw [h, Option.elim_some] at herase
  omega

end Total

/-! ## Sizes -/

section Size

theorem size_eq_total (t : Table κ α) : t.size = t.total fun _ => 1 := by
  simp [size, total]

theorem size_retain_le (f : α → Option α) (t : Table κ α) : (t.retain f).size ≤ t.size :=
  List.length_filterMap_le _ _

variable [DecidableEq κ]

theorem size_erase_le (t : Table κ α) (a : κ) : size (t.erase a) ≤ t.size := by
  have herase := total_erase (fun _ => 1) t a
  rw [size_eq_total, size_eq_total]
  omega

theorem size_insert_of_some {t : Table κ α} {a : κ} {u : α} (h : t.lookup a = some u) (v : α) :
    size (t.insert a v) = t.size := by
  have hinsert := total_insert_of_some (fun _ => 1) h v
  rw [size_eq_total, size_eq_total]
  omega

theorem size_insert_of_none {t : Table κ α} {a : κ} (h : t.lookup a = none) (v : α) :
    size (t.insert a v) = t.size + 1 := by
  have hinsert := total_insert_of_none (fun _ => 1) h v
  rw [size_eq_total, size_eq_total]
  omega

/-- A pass that makes the table no smaller has dropped no row. -/
theorem isSome_of_size_le_retain {f : α → Option α} {t : Table κ α} (h : t.size ≤ (t.retain f).size)
    {a : κ} {v : α} (hv : t.lookup a = some v) : (f v).isSome = true := by
  have htotal := total_retain (fun _ => 1) (g := f) (d := fun v => if (f v).isSome then 0 else 1) t
    fun _ v _ => by cases f v <;> rfl
  rw [size_eq_total, size_eq_total] at h
  have hdropped := le_total (fun v => if (f v).isSome then 0 else 1) hv
  by_contra hnone
  rw [if_neg hnone] at hdropped
  omega

end Size

/-! ## Two tables row by row -/

section Rel

/-- What two lists show of their elements, when they are related element by element. -/
theorem forall₂_map_eq {γ : Type} {r : α → β → Prop} {f : α → γ} {g : β → γ} {xs : List α}
    {ys : List β} (h : List.Forall₂ r xs ys) (hf : ∀ x y, r x y → f x = g y) :
    xs.map f = ys.map g := by
  induction h with
  | nil => rfl
  | cons hxy _ ih => rw [List.map_cons, List.map_cons, hf _ _ hxy, ih]

/-- The tables have the same keys in the same order, with related rows. -/
def Rel (r : α → β → Prop) (t : Table κ α) (t' : Table κ β) : Prop :=
  List.Forall₂ (fun e e' => e.1 = e'.1 ∧ r e.2 e'.2) t.entries t'.entries

namespace Rel

variable {r : α → β → Prop} {t : Table κ α} {t' : Table κ β}

theorem size_eq (h : Rel r t t') : t.size = t'.size := h.length_eq

theorem total_eq {f : α → ℕ} {f' : β → ℕ} (h : Rel r t t') (hf : ∀ v v', r v v' → f v = f' v') :
    t.total f = t'.total f' :=
  congrArg List.sum (forall₂_map_eq h fun e e' he => hf e.2 e'.2 he.2)

/-- A pass over the rows of both. -/
theorem retain {g : α → Option α} {g' : β → Option β} (h : Rel r t t')
    (hg : ∀ v v', r v v' → Option.Rel r (g v) (g' v')) : Rel r (t.retain g) (t'.retain g') := by
  refine List.rel_filterMap (fun e e' he => ?_) h
  obtain ⟨k, v⟩ := e
  obtain ⟨k', v'⟩ := e'
  obtain ⟨rfl, hv⟩ := he
  have hrow := hg v v' hv
  show Option.Rel _ ((g v).map _) ((g' v').map _)
  generalize g v = o, g' v' = o' at hrow
  cases hrow with
  | none => exact .none
  | some hw => exact .some ⟨rfl, hw⟩

variable [DecidableEq κ]

theorem lookup (h : Rel r t t') (a : κ) : Option.Rel r (t.lookup a) (t'.lookup a) := by
  obtain ⟨l, hl⟩ := t
  obtain ⟨l', hl'⟩ := t'
  change List.Forall₂ _ l l' at h
  show Option.Rel r (l.dlookup a) (l'.dlookup a)
  clear hl hl'
  induction h with
  | nil => exact .none
  | @cons e e' l l' he _ ih =>
    obtain ⟨k, v⟩ := e
    obtain ⟨k', v'⟩ := e'
    obtain ⟨rfl, hv⟩ := he
    by_cases hak : a = k
    · subst hak
      rw [List.dlookup_cons_eq, List.dlookup_cons_eq]
      exact .some hv
    · rwa [List.dlookup_cons_ne l ⟨k, v⟩ hak, List.dlookup_cons_ne l' (⟨k, v'⟩ : Σ _ : κ, β) hak]

theorem mem_iff (h : Rel r t t') {a : κ} : a ∈ t ↔ a ∈ t' := by
  rw [← AList.lookup_isSome, ← AList.lookup_isSome]
  have hrow := h.lookup a
  generalize t.lookup a = o, t'.lookup a = o' at hrow
  cases hrow <;> rfl

theorem erase (h : Rel r t t') (a : κ) : Rel r (t.erase a) (t'.erase a) := by
  obtain ⟨l, hl⟩ := t
  obtain ⟨l', hl'⟩ := t'
  change List.Forall₂ _ l l' at h
  show List.Forall₂ _ (l.kerase a) (l'.kerase a)
  clear hl hl'
  induction h with
  | nil => exact .nil
  | @cons e e' l l' he hl ih =>
    by_cases hak : a = e.1
    · have herase : List.kerase a (e :: l) = l := List.kerase_cons_eq hak
      have herase' : List.kerase a (e' :: l') = l' := List.kerase_cons_eq (hak.trans he.1)
      rwa [herase, herase']
    · have herase : List.kerase a (e :: l) = e :: List.kerase a l := List.kerase_cons_ne hak
      have herase' : List.kerase a (e' :: l') = e' :: List.kerase a l' :=
        List.kerase_cons_ne (he.1 ▸ hak)
      rw [herase, herase']
      exact .cons he ih

theorem insert (h : Rel r t t') (a : κ) {v : α} {v' : β} (hv : r v v') :
    Rel r (t.insert a v) (t'.insert a v') :=
  .cons ⟨rfl, hv⟩ (h.erase a)

end Rel

end Rel

end Table

end Foundation
