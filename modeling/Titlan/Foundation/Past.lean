import Mathlib.Data.List.Basic
import Mathlib.Data.List.Induction

/-! # Looking back over a history

A history is the list of what has happened, oldest first. `Since p q` says that `p` has happened and
that `q` has not happened after it; `Whenever r C` says that the history met `C` each time `r` happened.
Both are known after an event if they are known before it, which is how a program with one flag can keep
track of them. -/

namespace Foundation

variable {α : Type} {p q r : α → Prop} {C : List α → Prop} {h : List α} {x : α}

/-- `p` has happened, and `q` has not happened since. -/
def Since (p q : α → Prop) (h : List α) : Prop :=
  ∃ before x after, h = before ++ x :: after ∧ p x ∧ ∀ y ∈ after, ¬q y

/-- Each time `r` happened, the history until then met `C`. -/
def Whenever (r : α → Prop) (C : List α → Prop) (h : List α) : Prop :=
  ∀ before x after, h = before ++ x :: after → r x → C before

/-- An event of a history is its last one or one before. -/
theorem concat_eq_append_cons {before after : List α} {y : α} (heq : h ++ [x] = before ++ y :: after) :
    before = h ∧ y = x ∧ after = [] ∨ ∃ rest, after = rest ++ [x] ∧ h = before ++ y :: rest := by
  rcases List.eq_nil_or_concat' after with rfl | ⟨rest, z, rfl⟩
  · obtain ⟨hbefore, hlast⟩ := List.append_inj' heq rfl
    cases hlast
    exact Or.inl ⟨hbefore.symm, rfl, rfl⟩
  · rw [← List.cons_append, ← List.append_assoc] at heq
    obtain ⟨hrest, hlast⟩ := List.append_inj' heq rfl
    cases hlast
    exact Or.inr ⟨rest, rfl, hrest⟩

@[simp] theorem not_since_nil : ¬Since p q [] := by
  rintro ⟨before, x, after, h, -⟩
  simp at h

/-- After one more event: it is `p` itself, or it is no `q` and `p` was there before. -/
@[simp] theorem since_concat : Since p q (h ++ [x]) ↔ p x ∨ Since p q h ∧ ¬q x := by
  constructor
  · rintro ⟨before, y, after, heq, hp, hq⟩
    obtain ⟨-, rfl, -⟩ | ⟨rest, rfl, rfl⟩ := concat_eq_append_cons heq
    · exact Or.inl hp
    · exact Or.inr ⟨⟨before, y, rest, rfl, hp, fun w hw => hq w (List.mem_append_left _ hw)⟩,
        hq x (List.mem_append_right _ List.mem_cons_self)⟩
  · rintro (hp | ⟨⟨before, y, after, rfl, hp, hq⟩, hx⟩)
    · exact ⟨h, x, [], rfl, hp, fun _ hy => (by cases hy)⟩
    · refine ⟨before, y, after ++ [x], by simp, hp, fun w hw => ?_⟩
      obtain hw | hw := List.mem_append.mp hw
      · exact hq w hw
      · obtain rfl := List.mem_singleton.mp hw
        exact hx

/-- What has not happened since, with less to look for. -/
theorem Since.mono {q' : α → Prop} (hs : Since p q h) (hq : ∀ y, q' y → q y) : Since p q' h := by
  obtain ⟨before, y, after, heq, hp, hn⟩ := hs
  exact ⟨before, y, after, heq, hp, fun w hw hq' => hn w hw (hq w hq')⟩

@[simp] theorem whenever_nil : Whenever r C [] := by
  intro before x after h
  simp at h

@[simp] theorem whenever_concat : Whenever r C (h ++ [x]) ↔ Whenever r C h ∧ (r x → C h) := by
  constructor
  · intro hw
    refine ⟨fun before y after heq => ?_, hw h x [] rfl⟩
    exact hw before y (after ++ [x]) (by rw [heq]; simp)
  · rintro ⟨hw, hx⟩ before y after heq
    obtain ⟨rfl, rfl, -⟩ | ⟨rest, -, rfl⟩ := concat_eq_append_cons heq
    · exact hx
    · exact hw before y rest rfl

theorem Whenever.of_append {t : List α} (hw : Whenever r C (h ++ t)) : Whenever r C h := by
  intro before x after heq
  exact hw before x (after ++ t) (by rw [heq, List.append_assoc, List.cons_append])

/-- If each `r` comes after a `p` of its own, there are no more `r` than `p`. -/
theorem countP_le_of_whenever [DecidablePred p] [DecidablePred r] (hw : Whenever r (Since p r) h) :
    h.countP (fun x => r x) ≤ h.countP fun x => p x := by
  -- a `p` that no `r` has used up yet makes the inequality strict
  suffices hcount : h.countP (fun x => r x) ≤ h.countP (fun x => p x) ∧
      (Since p r h → h.countP (fun x => r x) < h.countP fun x => p x) from hcount.1
  induction h using List.reverseRecOn with
  | nil => simp
  | append_singleton h x ih =>
    obtain ⟨hw, hx⟩ := whenever_concat.mp hw
    obtain ⟨hle, hlt⟩ := ih hw
    rw [since_concat, List.countP_append, List.countP_append]
    simp only [List.countP_singleton, decide_eq_true_eq]
    by_cases hr : r x
    · have hlt := hlt (hx hr)
      simp only [hr, if_true, not_true_eq_false, and_false, or_false]
      refine ⟨by omega, fun hp => ?_⟩
      simp only [hp, if_true]
      omega
    · simp only [hr, if_false, not_false_eq_true, and_true]
      refine ⟨by omega, fun hs => ?_⟩
      obtain hp | hs := hs
      · simp only [hp, if_true]
        omega
      · have hlt := hlt hs
        omega

end Foundation
