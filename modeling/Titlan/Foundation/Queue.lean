import Mathlib.Data.List.Pairwise
import Mathlib.Data.List.Nodup
import Mathlib.Data.List.TakeWhile

/-! # Queues served in order

A server that takes items from the front and stops at the first it cannot serve leaves the part of the
queue from that item on. Serving in turns, with items added in between, leaves what serving once at the
end would leave; and nothing that could be served is left exactly if no such item stands behind one that
could not. -/

namespace Foundation

variable {α κ : Type} {p : α → Bool}

/-- Serving before more items come makes no difference to what is left. -/
theorem dropWhile_append_dropWhile (xs ys : List α) :
    (xs.dropWhile p ++ ys).dropWhile p = (xs ++ ys).dropWhile p := by
  induction xs with
  | nil => rfl
  | cons x xs ih =>
    by_cases hx : p x = true
    · rw [List.dropWhile_cons_of_pos hx, List.cons_append, List.dropWhile_cons_of_pos hx]
      exact ih
    · rw [List.dropWhile_cons_of_neg hx]

/-- Nothing that could be served is left exactly if none such stands behind one that could not. -/
theorem forall_dropWhile_iff (xs : List α) :
    (∀ x ∈ xs.dropWhile p, p x = false) ↔ xs.Pairwise fun x y => p y = true → p x = true := by
  induction xs with
  | nil => simp
  | cons x xs ih =>
    rw [List.pairwise_cons, ← ih]
    by_cases hx : p x = true
    · rw [List.dropWhile_cons_of_pos hx]
      exact ⟨fun h => ⟨fun _ _ _ => hx, h⟩, fun h => h.2⟩
    · rw [List.dropWhile_cons_of_neg hx]
      constructor
      · intro h
        refine ⟨fun y hy hpy => ?_,
          fun y hy => h y (List.mem_cons_of_mem x ((List.dropWhile_suffix p).subset hy))⟩
        rw [h y (List.mem_cons_of_mem x hy)] at hpy
        cases hpy
      · rintro ⟨h, -⟩ y hy
        obtain rfl | hy := List.mem_cons.mp hy
        · exact Bool.eq_false_iff.mpr hx
        · exact Bool.eq_false_iff.mpr fun hpy => hx (h y hy hpy)

/-- If none that could be served stands behind one that could not, what is left is all that could not. -/
theorem dropWhile_eq_filter {xs : List α} (h : xs.Pairwise fun x y => p y = true → p x = true) :
    xs.dropWhile p = xs.filter fun x => !p x := by
  have hleft := (forall_dropWhile_iff xs).mpr h
  conv_rhs => rw [← List.takeWhile_append_dropWhile (p := p) (l := xs), List.filter_append]
  have hserved : (xs.takeWhile p).filter (fun x => !p x) = [] := by
    refine List.filter_eq_nil_iff.mpr fun x hx => ?_
    rw [List.mem_takeWhile_imp hx]
    decide
  have hkept : (xs.dropWhile p).filter (fun x => !p x) = xs.dropWhile p := by
    refine List.filter_eq_self.mpr fun x hx => ?_
    rw [hleft x hx]
    rfl
  rw [hserved, hkept, List.nil_append]

/-- What is left, by the keys of what was served. -/
theorem filter_notMem_served [DecidableEq κ] {f : α → κ} {served left : List α}
    (hkeys : ((served ++ left).map f).Nodup) :
    (served ++ left).filter (fun x => f x ∉ served.map f) = left := by
  rw [List.map_append, List.nodup_append] at hkeys
  rw [List.filter_append]
  have hserved : served.filter (fun x => f x ∉ served.map f) = [] :=
    List.filter_eq_nil_iff.mpr fun x hx => by simpa using ⟨x, hx, rfl⟩
  have hleft : left.filter (fun x => f x ∉ served.map f) = left := by
    refine List.filter_eq_self.mpr fun x hx => decide_eq_true fun hmem => ?_
    exact hkeys.2.2 _ hmem _ (List.mem_map_of_mem hx) rfl
  rw [hserved, hleft, List.nil_append]

end Foundation
