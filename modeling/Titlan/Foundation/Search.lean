import Mathlib.Order.Lattice

/-! # Sorted tables

A table kept sorted: merging equal neighbours leaves the same members in strictly ascending order, and in
such a table a binary search that halves its window without an early exit finds exactly the members. -/

namespace Foundation

variable {α : Type} [LinearOrder α]

/-- Merges runs of equal elements. -/
def dedupAdjacent : List α → List α
  | [] => []
  | [a] => [a]
  | a :: b :: l => if a = b then dedupAdjacent (b :: l) else a :: dedupAdjacent (b :: l)

theorem mem_dedupAdjacent {l : List α} {x : α} : x ∈ dedupAdjacent l ↔ x ∈ l := by
  fun_induction dedupAdjacent l with
  | case1 => exact Iff.rfl
  | case2 a => exact Iff.rfl
  | case3 a l ih => simp [ih]
  | case4 a b l hne ih => rw [List.mem_cons, List.mem_cons, ih]

theorem pairwise_dedupAdjacent {l : List α} (h : l.Pairwise (· ≤ ·)) :
    (dedupAdjacent l).Pairwise (· < ·) := by
  fun_induction dedupAdjacent l with
  | case1 => exact List.Pairwise.nil
  | case2 a => exact List.pairwise_singleton _ a
  | case3 a l ih => exact ih h.of_cons
  | case4 a b l hne ih =>
    refine List.pairwise_cons.mpr ⟨fun x hx => ?_, ih h.of_cons⟩
    have hab : a < b := lt_of_le_of_ne (List.rel_of_pairwise_cons h List.mem_cons_self) hne
    rcases List.mem_cons.mp (mem_dedupAdjacent.mp hx) with rfl | hx
    · exact hab
    · exact lt_of_lt_of_le hab (List.rel_of_pairwise_cons h.of_cons hx)

/-- The position the window `[base, base + size)` is narrowed to: the lower half is kept if its end lies
above `x`, the upper half otherwise. -/
def narrow (xs : List α) (x : α) (base size : ℕ) : ℕ :=
  if 1 < size then
    narrow xs x (if (xs[base + size / 2]?).any (x < ·) then base else base + size / 2) (size - size / 2)
  else
    base
termination_by size

/-- The position of `x`, if it is in the table. -/
def binarySearch (xs : List α) (x : α) : Option ℕ :=
  let base := narrow xs x 0 xs.length
  if xs[base]? = some x then some base else none

/-- A window around an element is narrowed to it. -/
theorem narrow_eq {xs : List α} {x : α} {base size i : ℕ} (hs : xs.Pairwise (· < ·))
    (hx : xs[i]? = some x) (hlow : base ≤ i) (hhigh : i < base + size)
    (hend : base + size ≤ xs.length) : narrow xs x base size = i := by
  induction size using Nat.strongRecOn generalizing base with
  | _ size ih =>
    rw [narrow]
    by_cases hsize : 1 < size
    · rw [if_pos hsize]
      have hmid : base + size / 2 < xs.length := by omega
      obtain ⟨hi, rfl⟩ := List.getElem?_eq_some_iff.mp hx
      have hlt := List.pairwise_iff_getElem.mp hs
      rw [List.getElem?_eq_getElem hmid, Option.any_some]
      by_cases habove : xs[i] < xs[base + size / 2]
      · -- everything from the middle on lies above the element
        rw [if_pos (decide_eq_true habove)]
        have hbefore : i < base + size / 2 := by
          by_contra hge
          rcases Nat.lt_or_eq_of_le (Nat.not_lt.mp hge) with hgt | heq
          · exact lt_asymm habove (hlt _ _ hmid hi hgt)
          · subst heq
            exact lt_irrefl _ habove
        exact ih _ (by omega) hlow (by omega) (by omega)
      · rw [if_neg (by simpa using habove)]
        have hafter : base + size / 2 ≤ i := by
          by_contra hlt'
          exact habove (hlt _ _ hi hmid (Nat.not_le.mp hlt'))
        exact ih _ (by omega) hafter (by omega) (by omega)
    · rw [if_neg hsize]
      omega

/-- **A binary search finds exactly the members** of a strictly ascending table. -/
theorem isSome_binarySearch {xs : List α} {x : α} (hs : xs.Pairwise (· < ·)) :
    (binarySearch xs x).isSome ↔ x ∈ xs := by
  rw [binarySearch]
  constructor
  · intro h
    by_cases hx : xs[narrow xs x 0 xs.length]? = some x
    · exact List.mem_of_getElem? hx
    · rw [if_neg hx] at h
      cases h
  · intro hmem
    obtain ⟨i, hi, hx⟩ := List.mem_iff_getElem.mp hmem
    have hget : xs[i]? = some x := List.getElem?_eq_some_iff.mpr ⟨hi, hx⟩
    rw [narrow_eq hs hget (Nat.zero_le i) (by omega) (by omega), if_pos hget]
    rfl

end Foundation
