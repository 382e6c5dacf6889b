import Titlan.Android.LabelRules
import Titlan.Android.MessageList
import Titlan.Codec.MailboxId
import Titlan.Codec.Padding

/-! # From the composer to the other screen

What a user types is trimmed and measured before the core sees it. The core stores a message before it checks
its size, and one that no bucket holds blocks those behind it, so the composer's cap has to be the core's own:
with a higher one a conversation could be blocked, with a lower one a text that fits would be refused. What
passes is padded, sealed and parsed on the other side, and shown as it was typed. -/

namespace Titlan.Android

open Foundation

/-- `ChatLimits.MAX_CHAT_UTF8_BYTES`. -/
def maxChatUtf8Bytes : ℕ := 8186

/-- `String.toByteArray(Charsets.UTF_8)`: a surrogate that is not in a pair becomes a question mark. -/
def toByteArray (text : KString) : Bytes :=
  (codePoints text).flatMap fun n =>
    if (Char.ofNat n).toNat = n then String.utf8EncodeChar (Char.ofNat n) else [0x3F]

/-- `SendCheck`. -/
inductive SendCheck
  | ok (text : KString)
  | blank
  | tooLong (utf8Bytes : ℕ)
deriving DecidableEq, Repr

/-- `ChatBody.admit`. -/
def ChatBody.admit (text : KString) : SendCheck :=
  let trimmed := trim (fun u => isWhitespaceUnit u.toNat) text
  if trimmed = [] then .blank
  else
    let bytes := (toByteArray trimmed).length
    if bytes > maxChatUtf8Bytes then .tooLong bytes else .ok trimmed

variable (text : List Char)

theorem toByteArray_utf16 : toByteArray (utf16 text) = asBytes (String.ofList text) := by
  rw [toByteArray, codePoints_utf16, asBytes_ofList, List.flatMap_map]
  simp only [Char.ofNat_toNat, if_true]

theorem utf16_eq_nil {text : List Char} : utf16 text = [] ↔ text = [] := by
  cases text with
  | nil => exact ⟨fun _ => rfl, fun _ => rfl⟩
  | cons c text => simp [utf16, utf16Char_ne_nil]

/-- The check of a text, in characters. -/
theorem admit_utf16 : ChatBody.admit (utf16 text) =
    let t := trim (fun c => isWhitespaceUnit c.toNat) text
    let bytes := (asBytes (String.ofList t)).length
    if t = [] then .blank else if bytes > maxChatUtf8Bytes then .tooLong bytes else .ok (utf16 t) := by
  simp only [trim_utf16, toByteArray_utf16, utf16_eq_nil, ChatBody.admit]

/-- What the default profile pads, it parses back. -/
theorem parse_chatV1 {text : String} {wire : Bytes}
    (h : (InnerFrame.chatV1 text).encode .defaultProfile = .ok wire) :
    InnerFrame.parse wire .defaultProfile = .ok (.chatV1 text) := by
  obtain ⟨-, -, hbucket, hgrammar⟩ := InnerFrame.encode_eq_ok h
  exact (InnerFrame.parse_eq_ok (by decide)).mpr ⟨List.mem_of_find?_eq_some hbucket, hgrammar⟩

/-- **What is typed is what is shown.** The composer refuses a text exactly when it is blank or the core could
not pad it; what it passes on, trimmed, is padded, parsed and shown as it is. -/
theorem admit_exact :
    ((∀ c ∈ text, isWhitespaceUnit c.toNat = true) ↔ ChatBody.admit (utf16 text) = .blank) ∧
    (∀ bytes, ChatBody.admit (utf16 text) = .tooLong bytes → ∃ e,
      (InnerFrame.chatV1 (String.ofList (trim (fun c => isWhitespaceUnit c.toNat) text))).encode
        .defaultProfile = .error e) ∧
    ∀ body, ChatBody.admit (utf16 text) = .ok body →
      ∃ t wire frame, decodeUtf16 body = some t ∧ t = trim (fun c => isWhitespaceUnit c.toNat) text ∧
        (InnerFrame.chatV1 (String.ofList t)).encode .defaultProfile = .ok wire ∧
        InnerFrame.parse wire .defaultProfile = .ok frame ∧
        ChatBody.decode frame.payloadType.toByte.toNat frame.typeVersion.toNat frame.payload =
          .text (String.ofList t) := by
  rw [admit_utf16]
  generalize htrimmed : trim (fun c => isWhitespaceUnit c.toNat) text = t
  have hpayload : (InnerFrame.chatV1 (String.ofList t)).payload = asBytes (String.ofList t) := rfl
  have hmax : PaddingProfile.defaultProfile.maxPayload = maxChatUtf8Bytes := rfl
  dsimp only
  refine ⟨?_, fun bytes h => ?_, fun body h => ?_⟩
  · rw [← trim_eq_nil_iff, htrimmed]
    by_cases hnil : t = []
    · simp [hnil]
    · rw [if_neg hnil]
      split <;> simp [hnil]
  · by_cases hnil : t = []
    · rw [if_pos hnil] at h
      cases h
    rw [if_neg hnil] at h
    split at h
    · rename_i hlong
      exact encode_of_lt fun hfits => absurd hlong (not_lt.mpr hfits.2)
    · cases h
  · by_cases hnil : t = []
    · rw [if_pos hnil] at h
      cases h
    rw [if_neg hnil] at h
    split at h
    · cases h
    · rename_i hfits
      cases h
      have hle : (InnerFrame.chatV1 (String.ofList t)).payload.length ≤ maxChatUtf8Bytes := not_lt.mp hfits
      obtain ⟨wire, hwire⟩ := encode_of_le (hle.trans (by decide)) (hmax ▸ hle)
      refine ⟨t, wire, _, decodeUtf16_utf16 t, rfl, hwire, parse_chatV1 hwire, ?_⟩
      rw [ChatBody.decode, if_neg (by rintro (h | h) <;> exact h rfl), hpayload, fromUtf8_asBytes]

end Titlan.Android
