import Mathlib.Data.List.Infix

/-! # Splitting at a pattern

A text cut at the occurrences of a pattern, from the left and without overlaps. What stands in front of the
first occurrence is a piece, and the rest is cut on its own; a text in which the pattern does not occur is
one piece. -/

namespace Foundation

variable {α : Type} [DecidableEq α]

/-- Cuts a text at a pattern; `piece` is what has been read since the last cut. -/
def splitFrom (pattern piece : List α) (text : List α) : List (List α) :=
  if pattern ≠ [] ∧ pattern <+: text then
    piece :: splitFrom pattern [] (text.drop pattern.length)
  else
    match text with
    | [] => [piece]
    | c :: rest => splitFrom pattern (piece ++ [c]) rest
termination_by text.length
decreasing_by
  · rename_i h
    have hpos := List.length_pos_of_ne_nil h.1
    have hle := h.2.length_le
    rw [List.length_drop]
    omega
  · exact Nat.lt_succ_self _

/-- The pieces of a text between the occurrences of a pattern. -/
def splitAtPattern (pattern text : List α) : List (List α) := splitFrom pattern [] text

variable {pattern piece text rest : List α}

theorem splitFrom_append (hpattern : pattern ≠ []) (rest : List α) :
    splitFrom pattern piece (pattern ++ rest) = piece :: splitFrom pattern [] rest := by
  rw [splitFrom.eq_def, if_pos ⟨hpattern, List.prefix_append pattern rest⟩, List.drop_left]

theorem splitFrom_cons {c : α} (h : ¬ pattern <+: c :: text) :
    splitFrom pattern piece (c :: text) = splitFrom pattern (piece ++ [c]) text := by
  rw [splitFrom, if_neg fun hp => h hp.2]

/-- What stands in front of the first occurrence is read into the piece. -/
theorem splitFrom_append_append (hpattern : pattern ≠ [])
    (hfirst : ∀ done todo, text = done ++ todo → todo ≠ [] → ¬ pattern <+: todo ++ (pattern ++ rest)) :
    splitFrom pattern piece (text ++ (pattern ++ rest)) = (piece ++ text) :: splitFrom pattern [] rest := by
  induction text generalizing piece with
  | nil => rw [List.nil_append, List.append_nil, splitFrom_append hpattern]
  | cons c text ih =>
    have hhere : ¬ pattern <+: c :: (text ++ (pattern ++ rest)) :=
      hfirst [] (c :: text) rfl (List.cons_ne_nil c text)
    rw [List.cons_append, splitFrom_cons hhere, ih]
    · rw [List.append_assoc, List.singleton_append]
    · intro done todo htext
      exact hfirst (c :: done) todo (by rw [htext, List.cons_append])

/-- A text in which the pattern does not occur is one piece. -/
theorem splitFrom_of_free (hfree : ∀ todo, todo <:+ text → ¬ pattern <+: todo) :
    splitFrom pattern piece text = [piece ++ text] := by
  induction text generalizing piece with
  | nil => rw [splitFrom, if_neg fun hp => hfree [] List.suffix_rfl hp.2, List.append_nil]
  | cons c text ih =>
    rw [splitFrom_cons (hfree (c :: text) List.suffix_rfl),
      ih fun todo htodo => hfree todo (htodo.trans (List.suffix_cons c text)), List.append_assoc,
      List.singleton_append]

/-- Cutting at one character: the first piece goes up to its first occurrence. -/
theorem splitFrom_singleton {c : α} (h : c ∉ text) :
    splitFrom [c] piece (text ++ c :: rest) = (piece ++ text) :: splitFrom [c] [] rest := by
  refine splitFrom_append_append (List.cons_ne_nil c []) fun done todo htext htodo hbegins => ?_
  obtain ⟨d, todo, rfl⟩ := List.exists_cons_of_ne_nil htodo
  obtain rfl := (List.cons_prefix_cons.mp hbegins).1
  exact h (htext ▸ List.mem_append_right done List.mem_cons_self)

omit [DecidableEq α] in
/-- The first occurrence of an element is in one place. -/
theorem append_cons_inj_of_notMem {c : α} {xs ys xs' ys' : List α} (h : c ∉ xs) (h' : c ∉ xs')
    (heq : xs ++ c :: ys = xs' ++ c :: ys') : xs = xs' ∧ ys = ys' := by
  induction xs generalizing xs' with
  | nil =>
    cases xs' with
    | nil => exact ⟨rfl, (List.cons.inj heq).2⟩
    | cons x xs' => exact absurd (List.mem_cons.mpr (.inl (List.cons.inj heq).1)) h'
  | cons x xs ih =>
    cases xs' with
    | nil => exact absurd (List.mem_cons.mpr (.inl (List.cons.inj heq).1.symm)) h
    | cons x' xs' =>
      obtain ⟨rfl, htail⟩ := List.cons.inj heq
      obtain ⟨rfl, rfl⟩ := ih (fun hc => h (List.mem_cons_of_mem x hc))
        (fun hc => h' (List.mem_cons_of_mem x hc)) htail
      exact ⟨rfl, rfl⟩

/-- A pattern that begins and ends with a delimiter, and has none between, does not occur in a text with
two delimiters at another distance. -/
theorem not_infix_of_delimiters {c : α} {inner before between after : List α} (hinner : c ∉ inner)
    (hbefore : c ∉ before) (hbetween : c ∉ between) (hafter : c ∉ after)
    (hdistance : between.length ≠ inner.length) :
    ¬ (c :: (inner ++ [c])) <:+: before ++ c :: (between ++ c :: after) := by
  rintro ⟨front, back, heq⟩
  -- both delimiters of the text are in the pattern, so none is in front of it
  have hcount := congrArg (List.count c) heq
  simp only [List.count_append, List.count_cons_self, List.count_eq_zero_of_not_mem hinner,
    List.count_eq_zero_of_not_mem hbefore, List.count_eq_zero_of_not_mem hbetween,
    List.count_eq_zero_of_not_mem hafter, List.count_nil] at hcount
  have hfront : c ∉ front := List.count_eq_zero.mp (by omega)
  simp only [List.append_assoc, List.cons_append, List.nil_append] at heq
  obtain ⟨-, heq⟩ := append_cons_inj_of_notMem hfront hbefore heq
  obtain ⟨rfl, -⟩ := append_cons_inj_of_notMem hinner hbetween heq
  exact hdistance rfl

end Foundation
