import Mathlib.Data.List.DropRight
import Mathlib.Data.List.TakeWhile

/-! # Texts

Trimming a text at both ends, and the code units of UTF-16. A text trimmed unit by unit is trimmed
character by character when the units of a character all count as it does. -/

namespace Foundation

/-! ## Trimming -/

section Trim

variable {α β : Type} {p q : α → Bool} {l m : List α}

/-- A text without what satisfies `p` at its two ends. -/
def trim (p : α → Bool) (l : List α) : List α := (l.dropWhile p).rdropWhile p

/-- Nothing is left of a text that is blank throughout, and of no other. -/
theorem trim_eq_nil_iff : trim p l = [] ↔ ∀ a ∈ l, p a = true := by
  rw [trim, List.rdropWhile_eq_nil_iff]
  induction l with
  | nil => simp
  | cons a l ih =>
    cases ha : p a <;> simp [ha, ih]

theorem trim_eq_self_iff : trim p l = l ↔ l.dropWhile p = l ∧ l.rdropWhile p = l := by
  constructor
  · intro h
    have hinner : l.length ≤ (l.dropWhile p).length := by
      have hprefix := List.rdropWhile_prefix p (l.dropWhile p)
      conv_lhs => rw [← h]
      exact hprefix.length_le
    have hfront : l.dropWhile p = l := (List.dropWhile_suffix p).eq_of_length_le hinner
    refine ⟨hfront, ?_⟩
    rwa [trim, hfront] at h
  · rintro ⟨hfront, hback⟩
    rw [trim, hfront, hback]

/-- Whatever a text that begins well begins with. -/
theorem dropWhile_eq_self_of_isPrefix (hm : m.dropWhile p = m) (h : l <+: m) : l.dropWhile p = l := by
  cases l with
  | nil => rfl
  | cons a l =>
    obtain ⟨rest, rfl⟩ := h
    rw [List.dropWhile_eq_self_iff] at hm ⊢
    exact fun _ => hm (Nat.succ_pos _)

/-- What is trimmed once is trimmed. -/
theorem trim_trim (p : α → Bool) (l : List α) : trim p (trim p l) = trim p l := by
  rw [trim_eq_self_iff]
  have hprefix := List.rdropWhile_prefix p (l.dropWhile p)
  exact ⟨dropWhile_eq_self_of_isPrefix (List.dropWhile_idempotent p l) hprefix,
    List.rdropWhile_idempotent p _⟩

/-- A text that is trimmed for more is trimmed for less. -/
theorem trim_eq_self_of_imp (h : trim q l = l) (hpq : ∀ x ∈ l, p x = true → q x = true) :
    trim p l = l := by
  rw [trim_eq_self_iff, List.dropWhile_eq_self_iff, List.rdropWhile_eq_self_iff] at h ⊢
  obtain ⟨hfront, hback⟩ := h
  exact ⟨fun hl hp => hfront hl (hpq _ (List.getElem_mem hl) hp),
    fun hl hp => hback hl (hpq _ (List.getLast_mem hl) hp)⟩

theorem dropWhile_flatMap {f : α → List β} {r : β → Bool} (hne : ∀ a ∈ l, f a ≠ [])
    (hf : ∀ a ∈ l, ∀ b ∈ f a, r b = p a) : (l.flatMap f).dropWhile r = (l.dropWhile p).flatMap f := by
  induction l with
  | nil => rfl
  | cons a l ih =>
    have ih := ih (fun c hc => hne c (List.mem_cons_of_mem a hc))
      fun c hc => hf c (List.mem_cons_of_mem a hc)
    have hfa := hf a List.mem_cons_self
    rw [List.flatMap_cons]
    cases hp : p a with
    | true =>
      rw [List.dropWhile_cons_of_pos hp, ← ih]
      refine List.dropWhile_append_of_pos fun b hb => ?_
      rw [hfa b hb, hp]
    | false =>
      rw [List.dropWhile_cons_of_neg (by simp [hp]), List.flatMap_cons]
      obtain ⟨b, bs, hbs⟩ := List.exists_cons_of_ne_nil (hne a List.mem_cons_self)
      have hb : r b = false := by
        rw [hfa b (hbs ▸ List.mem_cons_self), hp]
      rw [hbs, List.cons_append, List.dropWhile_cons_of_neg (by simp [hb])]

/-- Trimming unit by unit is trimming character by character. -/
theorem trim_flatMap {f : α → List β} {r : β → Bool} (hne : ∀ a, f a ≠ [])
    (hf : ∀ a, ∀ b ∈ f a, r b = p a) (l : List α) : trim r (l.flatMap f) = (trim p l).flatMap f := by
  have hback (m : List α) : (m.flatMap f).rdropWhile r = (m.rdropWhile p).flatMap f := by
    have hreversed : (m.reverse.flatMap (List.reverse ∘ f)).dropWhile r =
        (m.reverse.dropWhile p).flatMap (List.reverse ∘ f) :=
      dropWhile_flatMap (fun a _ => by simpa using hne a) fun a _ b hb => hf a b (by simpa using hb)
    rw [List.rdropWhile, List.rdropWhile, List.reverse_flatMap, hreversed, List.reverse_flatMap]
    congr 1
    funext a
    exact List.reverse_reverse (f a)
  rw [trim, trim, dropWhile_flatMap (fun a _ => hne a) fun a _ => hf a, hback]

end Trim

/-! ## UTF-16 -/

section Utf16

/-- A code unit that begins a pair. -/
def isHighSurrogate (u : UInt16) : Bool := 0xD800 ≤ u.toNat && u.toNat < 0xDC00

/-- A code unit that ends a pair. -/
def isLowSurrogate (u : UInt16) : Bool := 0xDC00 ≤ u.toNat && u.toNat < 0xE000

/-- The code units of a character. -/
def utf16Char (c : Char) : List UInt16 :=
  if c.toNat < 0x10000 then [UInt16.ofNat c.toNat]
  else [UInt16.ofNat (0xD800 + (c.toNat - 0x10000) / 0x400),
    UInt16.ofNat (0xDC00 + (c.toNat - 0x10000) % 0x400)]

/-- The code units of a text. -/
def utf16 (text : List Char) : List UInt16 := text.flatMap utf16Char

/-- The code points of a sequence of code units; a surrogate that is not in a pair is one of its own. -/
def codePoints : List UInt16 → List ℕ
  | [] => []
  | [u] => [u.toNat]
  | u :: v :: rest =>
    if isHighSurrogate u && isLowSurrogate v then
      (0x10000 + (u.toNat - 0xD800) * 0x400 + (v.toNat - 0xDC00)) :: codePoints rest
    else
      u.toNat :: codePoints (v :: rest)

/-- The text that code units stand for, if they stand for one. -/
def decodeUtf16 (units : List UInt16) : Option (List Char) :=
  (codePoints units).mapM fun n => if (Char.ofNat n).toNat = n then some (Char.ofNat n) else none

theorem codePoints_cons_of_not_high {u : UInt16} (hu : isHighSurrogate u = false) (rest : List UInt16) :
    codePoints (u :: rest) = u.toNat :: codePoints rest := by
  cases rest with
  | nil => rfl
  | cons v rest => rw [codePoints, hu, Bool.false_and, if_neg Bool.false_ne_true]

theorem codePoints_pair {u v : UInt16} (hu : isHighSurrogate u = true) (hv : isLowSurrogate v = true)
    (rest : List UInt16) : codePoints (u :: v :: rest) =
      (0x10000 + (u.toNat - 0xD800) * 0x400 + (v.toNat - 0xDC00)) :: codePoints rest := by
  rw [codePoints, hu, hv, Bool.true_and, if_pos rfl]

/-- A character is no surrogate, and none is beyond the last plane. -/
theorem char_toNat_cases (c : Char) : c.toNat < 0xD800 ∨ 0xDFFF < c.toNat ∧ c.toNat < 0x110000 := c.valid

theorem toNat_ofNat_utf16 {n : ℕ} (h : n < 0x10000) : (UInt16.ofNat n).toNat = n := by
  rw [UInt16.toNat_ofNat', Nat.mod_eq_of_lt h]

theorem codePoints_utf16Char (c : Char) (rest : List UInt16) :
    codePoints (utf16Char c ++ rest) = c.toNat :: codePoints rest := by
  have hc := char_toNat_cases c
  unfold utf16Char
  split
  case isTrue h =>
    have hnat := toNat_ofNat_utf16 h
    have hhigh : isHighSurrogate (UInt16.ofNat c.toNat) = false := by
      simp only [isHighSurrogate, hnat, Bool.and_eq_false_iff, decide_eq_false_iff_not]
      omega
    rw [List.singleton_append, codePoints_cons_of_not_high hhigh, hnat]
  case isFalse h =>
    have hu := toNat_ofNat_utf16 (n := 0xD800 + (c.toNat - 0x10000) / 0x400) (by omega)
    have hv := toNat_ofNat_utf16 (n := 0xDC00 + (c.toNat - 0x10000) % 0x400) (by omega)
    have hpoint : 0x10000 + (0xD800 + (c.toNat - 0x10000) / 0x400 - 0xD800) * 0x400 +
        (0xDC00 + (c.toNat - 0x10000) % 0x400 - 0xDC00) = c.toNat := by
      omega
    rw [List.cons_append, List.singleton_append, codePoints_pair, hu, hv, hpoint]
    · simp only [isHighSurrogate, hu, Bool.and_eq_true, decide_eq_true_eq]
      omega
    · simp only [isLowSurrogate, hv, Bool.and_eq_true, decide_eq_true_eq]
      omega

/-- The code points of a text are its characters. -/
theorem codePoints_utf16 (text : List Char) : codePoints (utf16 text) = text.map Char.toNat := by
  induction text with
  | nil => rfl
  | cons c text ih =>
    rw [utf16, List.flatMap_cons, codePoints_utf16Char, List.map_cons]
    congr 1

theorem decodeUtf16_utf16 (text : List Char) : decodeUtf16 (utf16 text) = some text := by
  rw [decodeUtf16, codePoints_utf16]
  induction text with
  | nil => rfl
  | cons c text ih =>
    rw [List.map_cons, List.mapM_cons, ih, Char.ofNat_toNat]
    simp

theorem utf16Char_ne_nil (c : Char) : utf16Char c ≠ [] := by
  unfold utf16Char
  split <;> simp

/-- A class of code units without surrogates is a class of characters. -/
theorem eq_of_mem_utf16Char {r : ℕ → Bool} (hr : ∀ n, 0xD800 ≤ n → r n = false) {c : Char} {u : UInt16}
    (hu : u ∈ utf16Char c) : r u.toNat = r c.toNat := by
  have hc := char_toNat_cases c
  unfold utf16Char at hu
  split at hu
  case isTrue h =>
    obtain rfl := List.mem_singleton.mp hu
    rw [toNat_ofNat_utf16 h]
  case isFalse h =>
    rw [hr c.toNat (by omega)]
    apply hr
    simp only [List.mem_cons, List.not_mem_nil, or_false] at hu
    obtain rfl | rfl := hu
    · rw [toNat_ofNat_utf16 (by omega)]
      omega
    · rw [toNat_ofNat_utf16 (by omega)]
      omega

end Utf16

end Foundation
