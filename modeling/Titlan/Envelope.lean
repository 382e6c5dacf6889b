import Titlan.Core

/-! # Outer envelope and inner frame

The outer envelope is all a relay sees: a magic, a version, a kind byte, two reserved bytes and the
ciphertext. The inner frame exists only under encryption: a payload type, a version of that type, a
declared length, the payload, and zero padding up to one of the profile's bucket sizes. Parsing of
both is strict, and every rejection is a typed error. -/

namespace Titlan

/-! ## Inner frame -/

/-- A typed, versioned payload frame (`envelope::InnerFrame`). -/
structure InnerFrame where
  payloadType : PayloadType
  typeVersion : UInt8
  payload : Bytes
deriving DecidableEq, Repr

/-- `PayloadType::try_from`. -/
def PayloadType.tryFrom (value : UInt8) : Result PayloadType :=
  match value with
  | 0x01 => .ok .chat
  | 0x02 => .ok .posture
  | 0x03 => .ok .policy
  | 0x04 => .ok .alert
  | 0x05 => .ok .pairAck
  | 0x06 => .ok .mailboxUpdate
  | 0x07 => .ok .recoveryHello
  | got => .error (.unknownPayloadType got)

/-- Inner-frame header length. -/
def innerHeaderLen : ℕ := 6

/-- A padding profile: the ascending bucket sizes a padded inner frame may have, each large enough
for the header (`config::PaddingProfile`, whose constructor sorts, deduplicates and rejects the
rest). -/
structure PaddingProfile where
  buckets : List ℕ
  ascending : buckets.Pairwise (· < ·)
  nonempty : buckets ≠ []
  header_le : ∀ b ∈ buckets, innerHeaderLen ≤ b

/-- The default three-bucket profile. -/
def PaddingProfile.defaultProfile : PaddingProfile where
  buckets := [512, 2048, 8192]
  ascending := by decide
  nonempty := by decide
  header_le := by decide

/-- `PaddingProfile::is_bucket`. -/
def PaddingProfile.isBucket (profile : PaddingProfile) (len : ℕ) : Bool :=
  profile.buckets.contains len

/-- `PaddingProfile::bucket_for`: the smallest bucket that holds the frame. -/
def PaddingProfile.bucketFor (profile : PaddingProfile) (frameLen : ℕ) : Option ℕ :=
  profile.buckets.find? fun b => frameLen ≤ b

/-- `PaddingProfile::max_payload`. -/
def PaddingProfile.maxPayload (profile : PaddingProfile) : ℕ :=
  profile.buckets.getLast profile.nonempty - innerHeaderLen

/-- `PayloadType as u8`. -/
def PayloadType.toByte : PayloadType → UInt8
  | .chat => 0x01
  | .posture => 0x02
  | .policy => 0x03
  | .alert => 0x04
  | .pairAck => 0x05
  | .mailboxUpdate => 0x06
  | .recoveryHello => 0x07

/-- `InnerFrame::chat_v1`. -/
def InnerFrame.chatV1 (text : String) : InnerFrame :=
  ⟨.chat, 1, text.toUTF8.data.toList⟩

/-- `InnerFrame::encode`: header, payload, and zeros up to the smallest bucket that holds them. -/
def InnerFrame.encode (frame : InnerFrame) (profile : PaddingProfile) : Result Bytes := do
  let len := frame.payload.length
  if len > u32Max then
    throw (.malformed "payload exceeds u32")
  if len > profile.maxPayload then
    throw (.payloadTooLarge len profile.maxPayload)
  let some bucket := profile.bucketFor (innerHeaderLen + len)
    | throw (.malformed "no bucket fits frame")
  let out := [frame.payloadType.toByte, frame.typeVersion] ++ toBeBytes 4 len ++ frame.payload
  return out ++ List.replicate (bucket - out.length) 0x00

/-- `InnerFrame::parse`: one bucket exactly, the declared length within it, zero padding after it. -/
def InnerFrame.parse (bytes : Bytes) (profile : PaddingProfile) : Result InnerFrame := do
  if bytes.length > u32Max then
    throw (.malformed "frame exceeds u32")
  if !profile.isBucket bytes.length then
    throw (.invalidBucket bytes.length)
  let payloadType ← PayloadType.tryFrom (bytes.getD 0 0)
  let typeVersion := bytes.getD 1 0
  let declared := fromBeBytes ((bytes.drop 2).take 4)
  let stop := innerHeaderLen + declared
  if stop > bytes.length then
    throw (.malformed "payload length exceeds frame")
  if (bytes.drop stop).any (· != 0) then
    throw .invalidPadding
  return ⟨payloadType, typeVersion, (bytes.drop innerHeaderLen).take declared⟩

/-! ## Outer envelope -/

/-- What the ciphertext is (`envelope::EnvelopeKind`). -/
inductive EnvelopeKind
  /-- A session-setup message (libsignal `PreKeySignalMessage`). -/
  | sessionSetup
  /-- An established-session ratchet message (libsignal `SignalMessage`). -/
  | ratchet
deriving DecidableEq, Repr

/-- `EnvelopeKind::try_from`. -/
def EnvelopeKind.tryFrom (value : UInt8) : Result EnvelopeKind :=
  match value with
  | 0x01 => .ok .sessionSetup
  | 0x02 => .ok .ratchet
  | got => .error (.unknownEnvelopeKind got)

/-- A parsed outer envelope (`envelope::Envelope`). -/
structure Envelope where
  kind : EnvelopeKind
  ciphertext : Bytes
deriving DecidableEq, Repr

/-- Envelope magic: `"TZCA"`. -/
def envelopeMagic : Bytes := [0x54, 0x5A, 0x43, 0x41]

/-- Protocol version of the outer envelope. -/
def envelopeVersion : UInt8 := 1

/-- Outer header length. -/
def outerHeaderLen : ℕ := 8

/-- `EnvelopeKind as u8`. -/
def EnvelopeKind.toByte : EnvelopeKind → UInt8
  | .sessionSetup => 0x01
  | .ratchet => 0x02

/-- `Envelope::encode`. -/
def Envelope.encode (e : Envelope) : Bytes :=
  envelopeMagic ++ [envelopeVersion, e.kind.toByte, 0x00, 0x00] ++ e.ciphertext

/-- `Envelope::parse`: header plus at least one ciphertext byte. -/
def Envelope.parse (bytes : Bytes) : Result Envelope := do
  if bytes.length ≤ outerHeaderLen then
    throw (.malformed "envelope too short")
  if bytes.take 4 ≠ envelopeMagic then
    throw (.malformed "bad envelope magic")
  if bytes.getD 4 0 ≠ envelopeVersion then
    throw (.unsupportedVersion (bytes.getD 4 0))
  let kind ← EnvelopeKind.tryFrom (bytes.getD 5 0)
  if bytes.getD 6 0 ≠ 0 ∨ bytes.getD 7 0 ≠ 0 then
    throw .reservedMustBeZero
  return ⟨kind, bytes.drop outerHeaderLen⟩

/-- **Envelope round trip**: what is encoded around a nonempty ciphertext is accepted as it was. -/
theorem Envelope.parse_encode (e : Envelope) (h : e.ciphertext ≠ []) :
    Envelope.parse e.encode = .ok e := by
  obtain ⟨kind, ciphertext⟩ := e
  obtain ⟨c, cs, rfl⟩ := List.exists_cons_of_ne_nil h
  cases kind <;> simp [Envelope.parse, Envelope.encode, envelopeMagic, outerHeaderLen,
    envelopeVersion, EnvelopeKind.toByte, EnvelopeKind.tryFrom, bind, Except.bind, pure,
    Except.pure]

end Titlan
