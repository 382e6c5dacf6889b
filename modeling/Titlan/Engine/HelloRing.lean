import Mathlib.Data.List.DropRight
import Mathlib.Data.List.Induction
import Titlan.Engine.Effects
import Titlan.Foundation.Table

/-! # The window of hellos seen

`mark_hello_seen` remembers the hellos of each conversation in a ring that evicts the oldest. Against the
whole history of calls the ring is a window: the last 512 pairs that were new when they came. A pair that
has left the window is new again, and is then remembered a second time; within the window every pair
stands once. -/

namespace Titlan

open Foundation

variable {Conv Nonce : Type} [DecidableEq Conv]

/-- A call of `mark_hello_seen`. -/
structure HelloCall (Conv Nonce : Type) where
  conv : Conv
  generation : ℕ
  nonce : Nonce
deriving DecidableEq, Repr

/-- `HelloSeen`: a ring for each conversation. -/
abbrev HelloSeen (Conv Nonce : Type) := Table Conv (List (ℕ × Nonce))

/-- The pairs of a conversation's calls that were answered with `true`, oldest first. -/
def accepted (conv : Conv) (log : List (HelloCall Conv Nonce × Bool)) :
    List (ℕ × Nonce) :=
  log.filterMap fun e => if e.1.conv = conv ∧ e.2 = true then some (e.1.generation, e.1.nonce) else none

section Accepted

variable {log : List (HelloCall Conv Nonce × Bool)} {c : HelloCall Conv Nonce} {conv : Conv} {answer : Bool}

theorem accepted_concat_self : accepted c.conv (log ++ [(c, answer)]) =
    if answer = true then accepted c.conv log ++ [(c.generation, c.nonce)] else accepted c.conv log := by
  cases answer <;> simp [accepted]

theorem accepted_concat_of_ne (h : c.conv ≠ conv) :
    accepted conv (log ++ [(c, answer)]) = accepted conv log := by
  simp [accepted, h]

end Accepted

variable [DecidableEq Nonce]

namespace HelloSeen

/-- The ring of a conversation, empty by default. -/
def ring (seen : HelloSeen Conv Nonce) (conv : Conv) : List (ℕ × Nonce) := (seen.lookup conv).getD []

/-- `mark_hello_seen`: its answer, and the rings after it. -/
def mark (seen : HelloSeen Conv Nonce) (c : HelloCall Conv Nonce) : Bool × HelloSeen Conv Nonce :=
  let marked := markHelloSeen (seen.ring c.conv) c.generation c.nonce
  (marked.1, seen.insert c.conv marked.2)

/-- One more call, with its answer added to the log. -/
def markLogged (x : HelloSeen Conv Nonce × List (HelloCall Conv Nonce × Bool)) (c : HelloCall Conv Nonce) :
    HelloSeen Conv Nonce × List (HelloCall Conv Nonce × Bool) :=
  ((x.1.mark c).2, x.2 ++ [(c, (x.1.mark c).1)])

/-- The rings after a sequence of calls, and the calls with their answers. -/
def after (calls : List (HelloCall Conv Nonce)) :
    HelloSeen Conv Nonce × List (HelloCall Conv Nonce × Bool) :=
  calls.foldl markLogged (∅, [])

@[simp] theorem after_concat (calls : List (HelloCall Conv Nonce)) (c : HelloCall Conv Nonce) :
    after (calls ++ [c]) = markLogged (after calls) c := List.foldl_concat ..

theorem ring_mark_self (seen : HelloSeen Conv Nonce) (c : HelloCall Conv Nonce) :
    (seen.mark c).2.ring c.conv = (markHelloSeen (seen.ring c.conv) c.generation c.nonce).2 := by
  simp [ring, mark]

theorem ring_mark_of_ne (seen : HelloSeen Conv Nonce) {c : HelloCall Conv Nonce} {conv : Conv}
    (h : c.conv ≠ conv) : (seen.mark c).2.ring conv = seen.ring conv := by
  simp [ring, mark, AList.lookup_insert_ne h.symm]

end HelloSeen

/-! ## One ring -/

section Ring

variable {ring l : List (ℕ × Nonce)} {generation : ℕ} {nonce : Nonce}

theorem markHelloSeen_fst_iff :
    (markHelloSeen ring generation nonce).1 = true ↔ (generation, nonce) ∉ ring := by
  unfold markHelloSeen
  split <;> simp_all

/-- Cutting a list to its last elements before another one comes makes no difference. -/
theorem rtake_rtake_concat {α : Type} (l : List α) (x : α) (n : ℕ) :
    (l.rtake n ++ [x]).rtake n = (l ++ [x]).rtake n := by
  have hconcat : l.rtake n ++ [x] = (l ++ [x]).drop (l.length - n) := by
    rw [List.rtake, List.drop_append_of_le_length (Nat.sub_le ..)]
  rw [hconcat, List.rtake, List.rtake, List.drop_drop]
  congr 1
  simp only [List.length_drop, List.length_append, List.length_singleton]
  omega

/-- A ring that is the window of a list is the window of that list with the pair added, if the pair is
new. -/
theorem markHelloSeen_snd (hring : ring = l.rtake helloRingLen) :
    (markHelloSeen ring generation nonce).2 =
      (if (markHelloSeen ring generation nonce).1 = true then l ++ [(generation, nonce)] else l).rtake
        helloRingLen := by
  by_cases hmem : (generation, nonce) ∈ ring
  · simp only [markHelloSeen, if_pos hmem, Bool.false_eq_true, if_false]
    exact hring
  · simp only [markHelloSeen, if_neg hmem, if_true]
    rw [← rtake_rtake_concat, ← hring]
    rfl

theorem nodup_markHelloSeen (h : ring.Nodup) : (markHelloSeen ring generation nonce).2.Nodup := by
  by_cases hmem : (generation, nonce) ∈ ring
  · simp only [markHelloSeen, if_pos hmem]
    exact h
  · simp only [markHelloSeen, if_neg hmem]
    rw [← List.concat_eq_append]
    exact (h.concat hmem).sublist (List.drop_sublist ..)

end Ring

/-! ## Every ring -/

namespace HelloSeen

variable {x : HelloSeen Conv Nonce × List (HelloCall Conv Nonce × Bool)}

/-- Each ring is the window of the pairs accepted in its conversation, and holds no pair twice. -/
def Windowed (x : HelloSeen Conv Nonce × List (HelloCall Conv Nonce × Bool)) : Prop :=
  ∀ conv, x.1.ring conv = (accepted conv x.2).rtake helloRingLen ∧ (x.1.ring conv).Nodup

theorem Windowed.markLogged (h : Windowed x) (c : HelloCall Conv Nonce) : Windowed (markLogged x c) := by
  intro conv
  obtain ⟨hring, hnodup⟩ := h conv
  by_cases hconv : c.conv = conv
  · subst hconv
    simp only [HelloSeen.markLogged, ring_mark_self, accepted_concat_self]
    exact ⟨markHelloSeen_snd hring, nodup_markHelloSeen hnodup⟩
  · simp only [HelloSeen.markLogged, ring_mark_of_ne _ hconv, accepted_concat_of_ne hconv]
    exact ⟨hring, hnodup⟩

theorem windowed_after (calls : List (HelloCall Conv Nonce)) : Windowed (after calls) := by
  induction calls using List.reverseRecOn with
  | nil => exact fun conv => ⟨(List.rtake_nil _).symm, List.nodup_nil⟩
  | append_singleton calls c ih =>
    rw [after_concat]
    exact ih.markLogged c

/-- The ring of a conversation depends on its own calls only. -/
theorem ring_after_filter (calls : List (HelloCall Conv Nonce)) (conv : Conv) :
    (after (calls.filter (·.conv = conv))).1.ring conv = (after calls).1.ring conv := by
  induction calls using List.reverseRecOn with
  | nil => rfl
  | append_singleton calls c ih =>
    rw [List.filter_append, after_concat, markLogged]
    by_cases hconv : c.conv = conv
    · subst hconv
      have hkept : [c].filter (·.conv = c.conv) = [c] := by simp
      rw [hkept, after_concat, markLogged, ring_mark_self, ring_mark_self, ih]
    · have hdropped : [c].filter (·.conv = conv) = [] := by simp [hconv]
      rw [hdropped, List.append_nil, ring_mark_of_ne _ hconv, ih]

/-- **The window of hellos is exact.** After any calls, a call is answered with `true` exactly if its pair
is not among the last 512 that calls on the same conversation were answered with `true` for; no ring has a
duplicate or more than 512 pairs; and the answer is the one that the calls on the same conversation alone
would have led to. -/
theorem mark_iff_notMem_window (calls : List (HelloCall Conv Nonce)) (c : HelloCall Conv Nonce) :
    (((after calls).1.mark c).1 = true ↔
      (c.generation, c.nonce) ∉ (accepted c.conv (after calls).2).rtake 512) ∧
    (∀ conv, ((after calls).1.ring conv).Nodup ∧ ((after calls).1.ring conv).length ≤ 512) ∧
    ((after calls).1.mark c).1 = ((after (calls.filter (·.conv = c.conv))).1.mark c).1 := by
  have hwindow := windowed_after calls
  refine ⟨?_, fun conv => ⟨(hwindow conv).2, ?_⟩, ?_⟩
  · rw [mark, markHelloSeen_fst_iff, (hwindow c.conv).1]
    rfl
  · rw [(hwindow conv).1, List.rtake, List.length_drop]
    show _ ≤ helloRingLen
    omega
  · simp only [mark, ring_after_filter]

end HelloSeen

end Titlan
