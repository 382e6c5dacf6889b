import Mathlib.Data.List.GetD
import Titlan.Client.Socket
import Titlan.Envelope

/-! # Admission and parsing

The relay and the client read the same bytes with code of their own. The relay admits a deposit by its
first five bytes and its length; the client's parser goes on to the kind byte and the reserved bytes. In
the other direction the client takes apart the frames the relay makes, and the relay the acks of the
client. -/

namespace Titlan

open Relay (depositAdmissible parseAckFrame deliveryFrame MsgId)
open Client (ackFrame)

/-! ## The kind byte -/

theorem EnvelopeKind.tryFrom_eq_ok_iff {value : UInt8} {kind : EnvelopeKind} :
    EnvelopeKind.tryFrom value = .ok kind ↔ kind.toByte = value := by
  unfold EnvelopeKind.tryFrom
  split <;> cases kind <;> simp_all [EnvelopeKind.toByte, eq_comm]

theorem EnvelopeKind.eq_of_tryFrom_eq_error {value : UInt8} {e : CoreError}
    (h : EnvelopeKind.tryFrom value = .error e) : e = .unknownEnvelopeKind value := by
  unfold EnvelopeKind.tryFrom at h
  split at h
  · cases h
  · cases h
  · cases h
    rfl

/-! ## The outer envelope -/

/-- The relay's check is the first three checks of the parser. -/
theorem depositAdmissible_iff (bytes : Bytes) : depositAdmissible bytes = true ↔
    outerHeaderLen < bytes.length ∧ bytes.take 4 = envelopeMagic ∧ bytes.getD 4 0 = envelopeVersion := by
  have hversion (h : outerHeaderLen < bytes.length) :
      bytes[4]? = some Relay.version ↔ bytes.getD 4 0 = envelopeVersion := by
    have hlt : 4 < bytes.length := lt_trans (by decide) h
    rw [List.getElem?_eq_getElem hlt, List.getD_eq_getElem _ _ hlt, Option.some_inj]
    rfl
  simp only [depositAdmissible, Bool.and_eq_true, decide_eq_true_eq, and_assoc]
  exact and_congr_right fun h => and_congr_right fun _ => hversion h

variable {bytes : Bytes}

/-- What the relay does not admit, the parser rejects. -/
theorem depositAdmissible_of_parse {e : Envelope} (h : Envelope.parse bytes = .ok e) :
    depositAdmissible bytes = true := by
  rw [depositAdmissible_iff]
  unfold Envelope.parse at h
  by_cases hlen : bytes.length ≤ outerHeaderLen
  · rw [if_pos hlen] at h
    cases h
  by_cases hmagic : bytes.take 4 ≠ envelopeMagic
  · rw [if_neg hlen, if_pos hmagic] at h
    cases h
  by_cases hversion : bytes.getD 4 0 ≠ envelopeVersion
  · rw [if_neg hlen, if_neg hmagic, if_pos hversion] at h
    cases h
  exact ⟨not_le.mp hlen, not_not.mp hmagic, not_not.mp hversion⟩

/-- What the parser does with a blob that the relay admits. -/
theorem parse_of_depositAdmissible (h : depositAdmissible bytes = true) : Envelope.parse bytes = (do
      let kind ← EnvelopeKind.tryFrom (bytes.getD 5 0)
      if bytes.getD 6 0 ≠ 0 ∨ bytes.getD 7 0 ≠ 0 then
        throw .reservedMustBeZero
      return ⟨kind, bytes.drop outerHeaderLen⟩) := by
  obtain ⟨hlen, hmagic, hversion⟩ := (depositAdmissible_iff bytes).mp h
  unfold Envelope.parse
  rw [if_neg (not_le.mpr hlen), if_neg (not_not.mpr hmagic), if_neg (not_not.mpr hversion)]

/-- The header of a long enough byte string, and the rest. -/
theorem eq_header_append (h : outerHeaderLen < bytes.length) :
    bytes = bytes.take 4 ++ [bytes.getD 4 0, bytes.getD 5 0, bytes.getD 6 0, bytes.getD 7 0] ++
      bytes.drop outerHeaderLen := by
  have hbyte (i : ℕ) (hi : i < outerHeaderLen) : bytes.drop i = bytes.getD i 0 :: bytes.drop (i + 1) := by
    have hlt : i < bytes.length := lt_trans hi h
    rw [List.getD_eq_getElem _ _ hlt]
    exact List.drop_eq_getElem_cons hlt
  calc
    bytes = bytes.take 4 ++ bytes.drop 4 := (List.take_append_drop 4 bytes).symm
    _ = _ := by
      rw [hbyte 4 (by decide), hbyte 5 (by decide), hbyte 6 (by decide), hbyte 7 (by decide),
        List.append_assoc]
      rfl

/-- **The parser accepts exactly the encodings of envelopes with a ciphertext.** -/
theorem Envelope.parse_eq_ok_iff {e : Envelope} :
    Envelope.parse bytes = .ok e ↔ e.ciphertext ≠ [] ∧ e.encode = bytes := by
  constructor
  · intro h
    have hadm := depositAdmissible_of_parse h
    obtain ⟨hlen, hmagic, hversion⟩ := (depositAdmissible_iff bytes).mp hadm
    rw [parse_of_depositAdmissible hadm] at h
    cases hkind : EnvelopeKind.tryFrom (bytes.getD 5 0) with
    | error err =>
      rw [hkind] at h
      cases h
    | ok kind =>
      rw [hkind] at h
      by_cases hreserved : bytes.getD 6 0 ≠ 0 ∨ bytes.getD 7 0 ≠ 0
      · simp only [bind, Except.bind, if_pos hreserved] at h
        cases h
      · simp only [bind, Except.bind, if_neg hreserved] at h
        cases h
        obtain ⟨hsix, hseven⟩ := not_or.mp hreserved
        refine ⟨?_, ?_⟩
        · rw [Ne, List.drop_eq_nil_iff]
          exact not_le.mpr hlen
        · -- every byte of the header has been checked or read, so encoding gives it back
          have hheader := eq_header_append hlen
          rw [hmagic, hversion, not_not.mp hsix, not_not.mp hseven,
            ← EnvelopeKind.tryFrom_eq_ok_iff.mp hkind] at hheader
          exact hheader.symm
  · rintro ⟨hne, rfl⟩
    exact Envelope.parse_encode e hne

/-- An admitted blob is rejected only for its kind byte or its reserved bytes. -/
theorem parse_error_of_depositAdmissible {err : CoreError}
    (hadm : depositAdmissible bytes = true) (h : Envelope.parse bytes = .error err) :
    err = .unknownEnvelopeKind (bytes.getD 5 0) ∨
      err = .reservedMustBeZero ∧ (bytes.getD 6 0 ≠ 0 ∨ bytes.getD 7 0 ≠ 0) := by
  rw [parse_of_depositAdmissible hadm] at h
  cases hkind : EnvelopeKind.tryFrom (bytes.getD 5 0) with
  | error e =>
    rw [hkind] at h
    cases h
    exact Or.inl (EnvelopeKind.eq_of_tryFrom_eq_error hkind)
  | ok kind =>
    rw [hkind] at h
    by_cases hreserved : bytes.getD 6 0 ≠ 0 ∨ bytes.getD 7 0 ≠ 0
    · simp only [bind, Except.bind, if_pos hreserved] at h
      cases h
      exact Or.inr ⟨rfl, hreserved⟩
    · simp only [bind, Except.bind, if_neg hreserved] at h
      cases h

/-! ## Acks -/

/-- The relay's parser of acks accepts exactly what the client sends. -/
theorem parseAckFrame_eq_some_iff {frame : Bytes} {messageId : MsgId} :
    parseAckFrame frame = some messageId ↔ frame = ackFrame messageId := by
  constructor
  · intro h
    unfold parseAckFrame at h
    split at h
    case isTrue hframe =>
      cases h
      cases frame with
      | nil => cases hframe.2
      | cons b rest =>
        obtain ⟨hlen, hhead⟩ := hframe
        cases hhead
        have hrest : rest.length = 16 := by simpa using hlen
        simp [ackFrame, ← hrest]
    case isFalse => cases h
  · rintro rfl
    obtain ⟨id, hid⟩ := messageId
    have hframe : (ackFrame ⟨id, hid⟩).length = 17 ∧ (ackFrame ⟨id, hid⟩).head? = some 0x02 := by
      simp [ackFrame, hid]
    rw [parseAckFrame, dif_pos hframe]
    simp [ackFrame, ← hid]

/-- No delivery frame is an ack: their first bytes differ. -/
theorem parseAckFrame_deliveryFrame (messageId : MsgId) (envelope : Bytes) :
    parseAckFrame (deliveryFrame messageId envelope) = none := by
  rw [parseAckFrame, dif_neg]
  simp [deliveryFrame]

/-! ## Agreement -/

/-- **Admission and parsing agree.** The parser accepts the encodings of envelopes with a ciphertext and
gives them back; the relay admits them all, and what else it admits is rejected for its kind byte or its
reserved bytes only. A subscription reads a delivery frame as the id and the blob it was made of, whatever
its state; the relay reads as acks exactly the frames the client sends as acks, and no delivery frame. -/
theorem admission_agrees_with_parsing :
    (∀ bytes : Bytes,
      (∀ e, Envelope.parse bytes = .ok e ↔ e.ciphertext ≠ [] ∧ e.encode = bytes) ∧
      (∀ e, Envelope.parse bytes = .ok e → depositAdmissible bytes = true) ∧
      ∀ err, depositAdmissible bytes = true → Envelope.parse bytes = .error err →
        err = .unknownEnvelopeKind (bytes.getD 5 0) ∨
          err = .reservedMustBeZero ∧ (bytes.getD 6 0 ≠ 0 ∨ bytes.getD 7 0 ≠ 0)) ∧
    (∀ (s : Client.Subscription) (messageId : MsgId) (blob : Bytes) (ws : List Client.Waited),
      depositAdmissible blob = true →
      (s.next (.message (.binary (deliveryFrame messageId blob)) :: ws)).map (fun r => r.1.value) =
        some (.ok (some (.delivery messageId blob)))) ∧
    (∀ (frame : Bytes) (messageId : MsgId),
      parseAckFrame frame = some messageId ↔ frame = ackFrame messageId) ∧
    ∀ (messageId : MsgId) (blob : Bytes), parseAckFrame (deliveryFrame messageId blob) = none := by
  refine ⟨fun bytes => ⟨fun e => Envelope.parse_eq_ok_iff, fun e => depositAdmissible_of_parse,
    fun err => parse_error_of_depositAdmissible⟩, fun s messageId blob ws _ => ?_,
    fun frame messageId => parseAckFrame_eq_some_iff, parseAckFrame_deliveryFrame⟩
  simp only [Client.Subscription.next, Client.Subscription.turn, Client.readDelivery_deliveryFrame,
    Option.map_some, Client.Exit.value]

end Titlan
