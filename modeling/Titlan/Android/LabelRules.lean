import Titlan.Storage.Label

/-! # The label dialog

The dialog checks a draft before the core sees it, on the UTF-16 code units of a Kotlin string and with the
character classes of the JVM. They are not those of the core: Kotlin trims the separators `U+001C`–`U+001F`,
the core trims `U+0085`, and the one counts code points where the other counts scalar values. Neither
difference shows, since all of these are control characters, which both reject. -/

namespace Titlan.Android

open Foundation Storage

/-- A Kotlin string. -/
abbrev KString := List UInt16

/-- `Char.isWhitespace`, of a code unit: `Character.isWhitespace` or `Character.isSpaceChar`. -/
def isWhitespaceUnit : ℕ → Bool :=
  inRanges [(0x0009, 0x000D), (0x001C, 0x0020), (0x00A0, 0x00A0), (0x1680, 0x1680), (0x2000, 0x200A),
    (0x2028, 0x2029), (0x202F, 0x202F), (0x205F, 0x205F), (0x3000, 0x3000)]

/-- `Character.isISOControl`. -/
def isISOControl : ℕ → Bool := inRanges [(0x0000, 0x001F), (0x007F, 0x009F)]

namespace LabelRules

/-- `LabelRules.MAX_SCALARS`. -/
def maxScalars : ℕ := 64

/-- `LabelRules.scalarCount`. -/
def scalarCount (text : KString) : ℕ := (codePoints text).length

end LabelRules

/-- `LabelCheck`. -/
inductive LabelCheck
  /-- Blank after trimming. -/
  | clear
  /-- Trimmed text within the rule. -/
  | ok (label : KString)
  | tooLong (scalars : ℕ)
  /-- A control character is present. -/
  | invalid
deriving DecidableEq, Repr

/-- `LabelRules.check`. -/
def LabelRules.check (draft : KString) : LabelCheck :=
  let trimmed := trim (fun u => isWhitespaceUnit u.toNat) draft
  if trimmed = [] then .clear
  else if scalarCount trimmed > maxScalars then .tooLong (scalarCount trimmed)
  else if trimmed.any fun u => isISOControl u.toNat then .invalid
  else .ok trimmed

/-- What Save hands to the core: `(check as? LabelCheck.Ok)?.label`. -/
def LabelCheck.saved : LabelCheck → Option KString
  | .ok label => some label
  | _ => none

/-! ## Units and characters -/

theorem isWhitespaceUnit_of_surrogate (n : ℕ) (hn : 0xD800 ≤ n) : isWhitespaceUnit n = false := by
  rw [Bool.eq_false_iff]
  simp only [isWhitespaceUnit, inRanges_cons, inRanges_nil, Bool.false_eq_true, or_false, Ne]
  omega

theorem isISOControl_of_surrogate (n : ℕ) (hn : 0xD800 ≤ n) : isISOControl n = false := by
  rw [Bool.eq_false_iff]
  simp only [isISOControl, inRanges_cons, inRanges_nil, Bool.false_eq_true, or_false, Ne]
  omega

/-- What the core trims, Kotlin trims or it is a control character. -/
theorem isWhitespaceUnit_of_isWhitespace {n : ℕ} (h : isWhitespace n = true) (hc : isISOControl n = false) :
    isWhitespaceUnit n = true := by
  rw [Bool.eq_false_iff] at hc
  simp only [isWhitespace, isISOControl, isWhitespaceUnit, inRanges_cons, inRanges_nil,
    Bool.false_eq_true, or_false, Ne] at h hc ⊢
  omega

variable (text : List Char)

/-- Trimming a draft trims the text that was typed. -/
theorem trim_utf16 : trim (fun u => isWhitespaceUnit u.toNat) (utf16 text) =
    utf16 (trim (fun c => isWhitespaceUnit c.toNat) text) :=
  trim_flatMap utf16Char_ne_nil (fun _ _ hu => eq_of_mem_utf16Char isWhitespaceUnit_of_surrogate hu) text

/-- A control character among the characters is one among the units. -/
theorem any_isISOControl_utf16 : (utf16 text).any (fun u => isISOControl u.toNat) =
    text.any fun c => isISOControl c.toNat := by
  rw [Bool.eq_iff_iff]
  simp only [List.any_eq_true, utf16, List.mem_flatMap]
  constructor
  · rintro ⟨u, ⟨c, hc, hu⟩, hcontrol⟩
    exact ⟨c, hc, by rwa [← eq_of_mem_utf16Char isISOControl_of_surrogate hu]⟩
  · rintro ⟨c, hc, hcontrol⟩
    obtain ⟨u, us, hus⟩ := List.exists_cons_of_ne_nil (utf16Char_ne_nil c)
    have hu : u ∈ utf16Char c := hus ▸ List.mem_cons_self
    exact ⟨u, ⟨c, hc, hu⟩, by rwa [eq_of_mem_utf16Char isISOControl_of_surrogate hu]⟩

theorem scalarCount_utf16 : LabelRules.scalarCount (utf16 text) = text.length := by
  rw [LabelRules.scalarCount, codePoints_utf16, List.length_map]

/-! ## Agreement -/

/-- A label that the dialog accepts is the UTF-16 of one that the core accepts as it is. -/
theorem normalizeLabel_of_check {text : List Char} {label : KString}
    (h : LabelRules.check (utf16 text) = .ok label) :
    ∃ l, decodeUtf16 label = some l ∧
      normalizeLabel (some (String.ofList l)) = .ok (some (String.ofList l)) := by
  obtain ⟨l, hl⟩ : ∃ l, trim (fun c => isWhitespaceUnit c.toNat) text = l := ⟨_, rfl⟩
  simp only [LabelRules.check, trim_utf16, hl, scalarCount_utf16, any_isISOControl_utf16] at h
  by_cases hempty : utf16 l = []
  · rw [if_pos hempty] at h
    cases h
  by_cases hlong : l.length > LabelRules.maxScalars
  · rw [if_neg hempty, if_pos hlong] at h
    cases h
  by_cases hcontrol : (l.any fun c => isISOControl c.toNat) = true
  · rw [if_neg hempty, if_neg hlong, if_pos hcontrol] at h
    cases h
  rw [if_neg hempty, if_neg hlong, if_neg hcontrol] at h
  cases h
  have hfree : ∀ c ∈ l, isISOControl c.toNat = false := by simpa using hcontrol
  have htrimmed : trim (fun c => isWhitespaceUnit c.toNat) l = l := by
    rw [← hl, trim_trim]
  refine ⟨l, decodeUtf16_utf16 l, normalizeLabel_eq_self ?_ ?_ (not_lt.mp hlong) hfree⟩
  · rintro rfl
    exact hempty rfl
  · exact trim_eq_self_of_imp htrimmed fun c hc hspace =>
      isWhitespaceUnit_of_isWhitespace hspace (hfree c hc)

/-- **The dialog and the core agree.** A label that the dialog accepts, the core accepts and stores as it
is; where the dialog says clear, the core gets no label and clears the stored one; and what the core accepts,
it accepts again with the same result. -/
theorem labelRules_agree_with_normalizeLabel :
    (∀ (text : List Char) (label : KString), LabelRules.check (utf16 text) = .ok label →
      ∃ l, decodeUtf16 label = some l ∧
        normalizeLabel (some (String.ofList l)) = .ok (some (String.ofList l)) ∧
        ∀ db id, HasConversation db id → ∃ db',
          setConversationLabel db id (some (String.ofList l)) = .ok db' ∧
          conversationLabel db' id = .ok (some (String.ofList l))) ∧
    (∀ text : List Char, LabelRules.check (utf16 text) = .clear →
      (LabelRules.check (utf16 text)).saved = none ∧
        ∀ db id, HasConversation db id → ∃ db',
          setConversationLabel db id none = .ok db' ∧ conversationLabel db' id = .ok none) ∧
    ∀ label l, normalizeLabel label = .ok l → normalizeLabel l = .ok l := by
  refine ⟨fun text label h => ?_, fun text h => ⟨by rw [h]; rfl, fun db id hdb => ?_⟩,
    fun label l => normalizeLabel_idem⟩
  · obtain ⟨l, hdecode, hl⟩ := normalizeLabel_of_check h
    exact ⟨l, hdecode, hl, fun db id hdb => conversationLabel_setConversationLabel hdb hl⟩
  · exact conversationLabel_setConversationLabel hdb rfl

end Titlan.Android
