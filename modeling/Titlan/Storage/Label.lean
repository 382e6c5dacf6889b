import Titlan.Foundation.Text
import Titlan.Storage.Migration

/-! # Conversation labels

`normalize_label` is the rule every label passes before it is written: it is trimmed, and must then have at
least one and at most 64 scalar values and no control character. Rejected labels are not repaired. The
label is stored in a column of the conversation's row; `NULL` is no label. -/

namespace Titlan.Storage

open Foundation Relational

/-! ## Classes of characters -/

/-- Membership in ranges of code points, both ends included. -/
def inRanges (ranges : List (ℕ × ℕ)) (n : ℕ) : Bool := ranges.any fun r => r.1 ≤ n && n ≤ r.2

@[simp] theorem inRanges_nil (n : ℕ) : inRanges [] n = false := rfl

@[simp] theorem inRanges_cons (r : ℕ × ℕ) (ranges : List (ℕ × ℕ)) (n : ℕ) :
    inRanges (r :: ranges) n = true ↔ r.1 ≤ n ∧ n ≤ r.2 ∨ inRanges ranges n = true := by
  simp [inRanges]

/-- `char::is_whitespace`: the code points with the property `White_Space`. -/
def isWhitespace : ℕ → Bool :=
  inRanges [(0x0009, 0x000D), (0x0020, 0x0020), (0x0085, 0x0085), (0x00A0, 0x00A0), (0x1680, 0x1680),
    (0x2000, 0x200A), (0x2028, 0x2029), (0x202F, 0x202F), (0x205F, 0x205F), (0x3000, 0x3000)]

/-- `char::is_control`: the general category `Cc`. -/
def isControl : ℕ → Bool := inRanges [(0x0000, 0x001F), (0x007F, 0x009F)]

/-! ## The rule -/

/-- `MAX_LABEL_SCALARS`. -/
def maxLabelScalars : ℕ := 64

/-- `normalize_label`. -/
def normalizeLabel (label : Option String) : Result (Option String) := do
  let some raw := label | return none
  if raw.toList = [] then
    return none
  let trimmed := trim (fun c => isWhitespace c.toNat) raw.toList
  if trimmed = [] then
    throw (.invalidLabel "blank after trimming")
  if trimmed.length > maxLabelScalars then
    throw (.invalidLabel "more than MAX_LABEL_SCALARS scalar values")
  if trimmed.any fun c => isControl c.toNat then
    throw (.invalidLabel "control character")
  return some (String.ofList trimmed)

/-- A label that is accepted as it is. -/
theorem normalizeLabel_eq_self {l : List Char} (hne : l ≠ [])
    (htrim : trim (fun c => isWhitespace c.toNat) l = l) (hlen : l.length ≤ maxLabelScalars)
    (hcontrol : ∀ c ∈ l, isControl c.toNat = false) :
    normalizeLabel (some (String.ofList l)) = .ok (some (String.ofList l)) := by
  have hany : (l.any fun c => isControl c.toNat) = false := by
    simpa using hcontrol
  simp only [normalizeLabel, String.toList_ofList, htrim, if_neg hne, if_neg (not_lt.mpr hlen), hany]
  rfl

/-- What the rule asks of a label that it does not clear. -/
theorem normalizeLabel_cases {raw : String} {l : Option String} (h : normalizeLabel (some raw) = .ok l) :
    l = none ∨ ∃ trimmed, trimmed = trim (fun c => isWhitespace c.toNat) raw.toList ∧ trimmed ≠ [] ∧
      trimmed.length ≤ maxLabelScalars ∧ (∀ c ∈ trimmed, isControl c.toNat = false) ∧
      l = some (String.ofList trimmed) := by
  obtain ⟨trimmed, htrimmed⟩ : ∃ l, trim (fun c => isWhitespace c.toNat) raw.toList = l := ⟨_, rfl⟩
  simp only [normalizeLabel, htrimmed] at h
  by_cases hempty : raw.toList = []
  · simp only [if_pos hempty] at h
    cases h
    exact Or.inl rfl
  by_cases hblank : trimmed = []
  · simp only [if_neg hempty, if_pos hblank] at h
    cases h
  by_cases hlong : trimmed.length > maxLabelScalars
  · simp only [if_neg hempty, if_neg hblank, if_pos hlong] at h
    cases h
  by_cases hcontrol : (trimmed.any fun c => isControl c.toNat) = true
  · simp only [if_neg hempty, if_neg hblank, if_neg hlong, if_pos hcontrol] at h
    cases h
  · simp only [if_neg hempty, if_neg hblank, if_neg hlong, if_neg hcontrol] at h
    cases h
    exact Or.inr ⟨trimmed, htrimmed.symm, hblank, not_lt.mp hlong, by simpa using hcontrol, rfl⟩

/-- What the rule accepts, it accepts again as it is. -/
theorem normalizeLabel_idem {label l : Option String} (h : normalizeLabel label = .ok l) :
    normalizeLabel l = .ok l := by
  cases label with
  | none =>
    cases h
    rfl
  | some raw =>
    obtain rfl | ⟨trimmed, rfl, hne, hlen, hcontrol, rfl⟩ := normalizeLabel_cases h
    · rfl
    · exact normalizeLabel_eq_self hne (trim_trim _ _) hlen hcontrol

/-! ## The column -/

/-- A label as a value. -/
def labelValue : Option String → Value
  | none => .null
  | some label => .text label

/-- `Store::set_conversation_label`. -/
def setConversationLabel (db : Database) (id : Bytes) (label : Option String) : Result Database := do
  let label ← normalizeLabel label
  let some t := db.sheet "conversations" | throw (.storage "no such table: conversations")
  let some (t', changed) := t.update "label" (labelValue label) "id" (.blob id)
    | throw (.storage "no such column: label")
  if changed = 0 then
    throw (.storage "conversation not found")
  return db.put "conversations" t'

/-- `Store::conversation_label`. -/
def conversationLabel (db : Database) (id : Bytes) : Result (Option String) := do
  let some t := db.sheet "conversations" | throw (.storage "no such table: conversations")
  let some value := t.select "label" "id" (.blob id) | throw (.storage "Query returned no rows")
  match value with
  | none => throw (.storage "no such column: label")
  | some .null => return none
  | some (.text label) => return some label
  | some _ => throw (.storage "Invalid column type")

/-- The database is at the last version and has a row for the conversation. -/
def HasConversation (db : Database) (id : Bytes) : Prop :=
  AtVersion 4 db ∧ ∃ t, db.sheet "conversations" = some t ∧ ∃ row ∈ t.rows, t.value row "id" = some (.blob id)

/-- An accepted label is written, and read as it was accepted. -/
theorem conversationLabel_setConversationLabel {db : Database} {id : Bytes} {label l : Option String}
    (hdb : HasConversation db id) (h : normalizeLabel label = .ok l) :
    ∃ db', setConversationLabel db id label = .ok db' ∧ conversationLabel db' id = .ok l := by
  obtain ⟨hat, t, ht, hrow⟩ := hdb
  have hcolumns : t.columns = columnsAt 4 conversations ∧ t.key = conversations.key := by
    obtain ⟨t', ht', hcolumns⟩ := hat.present (by decide) conversations (by decide)
    cases ht.symm.trans ht'
    exact hcolumns
  have hlabel : t.columns.find? (fun c => c.name = "label") = some (nullable "label" .text) := by
    rw [hcolumns.1]
    decide
  have hok : ¬("id" ∉ t.names ∨ "label" ∈ t.key ∨
      (nullable "label" .text).notNull = true ∧ labelValue l = .null) := by
    rw [Sheet.names, hcolumns.1, hcolumns.2]
    rintro (hid | hkey | ⟨hnull, -⟩)
    · exact hid (by decide)
    · exact absurd hkey (by decide)
    · cases hnull
  obtain ⟨t', changed, hupdate, hchanged, hselect⟩ := Sheet.select_update hlabel hok (by decide) hrow
  refine ⟨db.put "conversations" t', ?_, ?_⟩
  · simp only [setConversationLabel, h, ht, hupdate, if_neg hchanged, bind, Except.bind]
    rfl
  · simp only [conversationLabel, Database.sheet_put_self, hselect]
    cases l <;> rfl

end Titlan.Storage
