import Titlan.Envelope

/-! # Pairing bundles, offers and control payloads

Pure serialization: a cursor over the bytes, the pairing bundle with its length-prefixed fields, the
`mailbox-update` payloads that move a conversation's inboxes, the offer with its signed validity window,
and the `pair-ack/2` that answers it. Every reader is strict: the version byte is checked, lengths are
bounded by what is there, and trailing bytes are refused. -/

namespace Titlan

/-! ## Cursor -/

/-- A read position in a byte string (`pairing::Cursor`). -/
structure Cursor where
  bytes : Bytes
  /-- How many of them have been read. -/
  pos : ℕ

/-- A computation that reads on from a cursor. -/
abbrev Reader := StateT Cursor Result

/-- `Cursor::take`. -/
def Cursor.take (n : ℕ) : Reader Bytes := fun c =>
  if c.pos + n > c.bytes.length then
    .error (.malformed "truncated pairing bundle")
  else
    .ok ((c.bytes.drop c.pos).take n, { c with pos := c.pos + n })

/-- `Cursor::u8`. -/
def Cursor.u8 : Reader UInt8 := do
  return (← Cursor.take 1).getD 0 0

/-- `Cursor::u16`. -/
def Cursor.u16 : Reader ℕ := do
  return fromBeBytes (← Cursor.take 2)

/-- `Cursor::u32`. -/
def Cursor.u32 : Reader ℕ := do
  return fromBeBytes (← Cursor.take 4)

/-- `Cursor::u64`. -/
def Cursor.u64 : Reader ℕ := do
  return fromBeBytes (← Cursor.take 8)

/-- `Cursor::bytes_field`: a `u16` length, then that many bytes. -/
def Cursor.bytesField : Reader Bytes := do
  let len ← Cursor.u16
  Cursor.take len

/-- The reader's closing check: every byte has been read. -/
def Cursor.finish (trailing : String) : Reader Unit := do
  let c ← get
  if c.pos ≠ c.bytes.length then
    throw (.malformed trailing)

/-- `String::from_utf8`. -/
def fromUtf8 (bytes : Bytes) : Option String := String.fromUTF8? ⟨bytes.toArray⟩

/-- `str::as_bytes`. -/
def asBytes (s : String) : Bytes := s.toUTF8.data.toList

/-- `pairing::utf8`. -/
def utf8 (bytes : Bytes) : Result String :=
  (fromUtf8 bytes).elim (.error (.malformed "field is not UTF-8")) .ok

/-- `pairing::put_bytes`: the bytes behind their `u16` length. Longer fields make the source panic;
here they have no encoding. -/
def putBytes (bytes : Bytes) : Option Bytes :=
  if bytes.length < 2 ^ 16 then some (toBeBytes 2 bytes.length ++ bytes) else none

/-! ## Pairing bundle -/

/-- The decoded fields of a pairing bundle (`pairing::BundleData`); keys are libsignal bytes. -/
structure BundleData where
  addressName : String
  registrationId : ℕ
  deviceId : ℕ
  identityKey : Bytes
  signedPrekeyId : ℕ
  signedPrekeyPub : Bytes
  signedPrekeySig : Bytes
  kyberPrekeyId : ℕ
  kyberPrekeyPub : Bytes
  kyberPrekeySig : Bytes
  onetimePrekey : Option (ℕ × Bytes)
deriving DecidableEq, Repr

/-- Bundle format version. -/
def bundleFormatVersion : UInt8 := 1

/-- The one-time prekey id that says there is none. -/
def absentId : ℕ := 0xFFFFFFFF

/-- `pairing::parse`, over the cursor. -/
def readBundle : Reader BundleData := do
  let version ← Cursor.u8
  if version ≠ bundleFormatVersion then
    throw (.malformed "unknown pairing bundle version")
  let some addressName := fromUtf8 (← Cursor.bytesField)
    | throw (.malformed "bundle address is not UTF-8")
  let registrationId ← Cursor.u32
  let deviceId ← Cursor.u32
  if deviceId ≠ 1 then
    throw (.malformed "unsupported device id in v1")
  let identityKey ← Cursor.bytesField
  let signedPrekeyId ← Cursor.u32
  let signedPrekeyPub ← Cursor.bytesField
  let signedPrekeySig ← Cursor.bytesField
  let kyberPrekeyId ← Cursor.u32
  let kyberPrekeyPub ← Cursor.bytesField
  let kyberPrekeySig ← Cursor.bytesField
  if kyberPrekeyPub = [] then
    throw (.malformed "bundle lacks post-quantum prekey")
  let onetimeId ← Cursor.u32
  let onetimePub ← Cursor.bytesField
  Cursor.finish "trailing bytes in pairing bundle"
  return { addressName, registrationId, deviceId, identityKey, signedPrekeyId, signedPrekeyPub,
           signedPrekeySig, kyberPrekeyId, kyberPrekeyPub, kyberPrekeySig,
           onetimePrekey := if onetimeId = absentId then none else some (onetimeId, onetimePub) }

/-- `pairing::parse`. -/
def parseBundle (bytes : Bytes) : Result BundleData :=
  readBundle.run' ⟨bytes, 0⟩

/-- `pairing::serialize`. -/
def serializeBundle (data : BundleData) : Option Bytes := do
  let (onetimeId, onetimePub) := data.onetimePrekey.getD (absentId, [])
  return [bundleFormatVersion] ++ (← putBytes (asBytes data.addressName))
    ++ toBeBytes 4 data.registrationId ++ toBeBytes 4 data.deviceId
    ++ (← putBytes data.identityKey)
    ++ toBeBytes 4 data.signedPrekeyId ++ (← putBytes data.signedPrekeyPub)
    ++ (← putBytes data.signedPrekeySig)
    ++ toBeBytes 4 data.kyberPrekeyId ++ (← putBytes data.kyberPrekeyPub)
    ++ (← putBytes data.kyberPrekeySig)
    ++ toBeBytes 4 onetimeId ++ (← putBytes onetimePub)

/-! ## Mailbox updates -/

/-- Length of a mailbox id. -/
def mailboxIdLen : ℕ := 43

/-- Version byte of a `mailbox-update/1` payload. -/
def controlVersion : UInt8 := 1

/-- `type_version` of the one-sided recovery update. -/
def mailboxUpdateV1 : UInt8 := 1

/-- `type_version` of the pairing inbox handoff. -/
def mailboxUpdateV2 : UInt8 := 2

/-- `type_version` of the recovery rotation handoff. -/
def mailboxUpdateV3 : UInt8 := 3

/-- The shape `mailbox-update/1` and `/3` share: a version byte, the relay and an inbox id. -/
def encodeRelayInbox (version : UInt8) (relayUrl inboxId : String) : Option Bytes := do
  return [version] ++ (← putBytes (asBytes relayUrl)) ++ asBytes inboxId

/-- Reads the relay and the inbox id behind the version byte `version`. -/
def readRelayInbox (version : UInt8) (trailing : String) : Reader (String × String) := do
  if (← Cursor.u8) ≠ version then
    throw (.malformed "unknown mailbox-update version")
  let relayUrl ← utf8 (← Cursor.bytesField)
  let inboxId ← utf8 (← Cursor.take mailboxIdLen)
  Cursor.finish trailing
  return (relayUrl, inboxId)

/-- `pairing::encode_mailbox_update`. -/
def encodeMailboxUpdate : String → String → Option Bytes := encodeRelayInbox controlVersion

/-- `pairing::encode_mailbox_update_v3`. -/
def encodeMailboxUpdateV3 : String → String → Option Bytes := encodeRelayInbox mailboxUpdateV3

/-- `pairing::parse_mailbox_update`. -/
def parseMailboxUpdate (bytes : Bytes) : Result (String × String) :=
  (readRelayInbox controlVersion "trailing bytes in mailbox-update/1").run' ⟨bytes, 0⟩

/-- `pairing::parse_mailbox_update_v3`. -/
def parseMailboxUpdateV3 (bytes : Bytes) : Result (String × String) :=
  (readRelayInbox mailboxUpdateV3 "trailing bytes in mailbox-update/3").run' ⟨bytes, 0⟩

/-- Length of a recovery-root contribution. -/
def recoveryContribLen : ℕ := 32

/-- `pairing::encode_mailbox_update_v2`: the handoff's relay and inbox, and the root contribution. -/
def encodeMailboxUpdateV2 (relayUrl inboxId : String) (contribution : Bytes) : Option Bytes := do
  return (← encodeRelayInbox mailboxUpdateV2 relayUrl inboxId) ++ contribution

/-- `pairing::parse_mailbox_update_v2`. -/
def parseMailboxUpdateV2 (bytes : Bytes) : Result (String × String × Bytes) :=
  StateT.run' (m := Result) (do
    if (← Cursor.u8) ≠ mailboxUpdateV2 then
      throw (.malformed "unknown mailbox-update version")
    let relayUrl ← utf8 (← Cursor.bytesField)
    let inboxId ← utf8 (← Cursor.take mailboxIdLen)
    let contribution ← Cursor.take recoveryContribLen
    Cursor.finish "trailing bytes in mailbox-update/2"
    return (relayUrl, inboxId, contribution) : Reader (String × String × Bytes)) ⟨bytes, 0⟩

/-! ## Offers -/

/-- The fields of an offer (`pairing::OfferV3`), over the representations of bundles, relays, mailbox ids
and secrets. -/
structure OfferV3 (Bundle Relay Id Secret : Type) where
  bundle : Bundle
  relayUrl : Relay
  pairingInboxId : Id
  pairingSecret : Secret
  issuedAt : ℕ
  ttlS : ℕ
deriving DecidableEq, Repr

/-- Offer payload version. -/
def offerVersionV3 : UInt8 := 3

/-- Length of a pairing secret. -/
def pairingSecretLen : ℕ := 32

/-- Length of the trailing signature. -/
def offerSigLen : ℕ := 64

/-- `config::OFFER_DEFAULT_TTL_S`. -/
def offerDefaultTtlS : ℕ := 3600

/-- `config::MAX_OFFER_TTL_S`. -/
def maxOfferTtlS : ℕ := 86400

/-- `config::FUTURE_SKEW_S`. -/
def futureSkewS : ℕ := 300

/-- `u64::saturating_add`. -/
def saturatingAdd64 (a b : ℕ) : ℕ := min (a + b) (2 ^ 64 - 1)

/-- The part of an offer that is signed: everything before the signature. -/
def offerSignedBytes (offer : OfferV3 Bytes String String Bytes) : Option Bytes := do
  return [offerVersionV3] ++ (← putBytes offer.bundle) ++ (← putBytes (asBytes offer.relayUrl))
    ++ asBytes offer.pairingInboxId ++ offer.pairingSecret
    ++ toBeBytes 8 offer.issuedAt ++ toBeBytes 4 offer.ttlS

/-- `pairing::encode_pairing_offer_v3`. libsignal's `calculate_signature` with the identity's private key
is an effect of its own; a field too long for its prefix makes the source panic before it. -/
def encodePairingOfferV3 {σ : Type} (calculateSignature : Bytes → StateM σ (Result Bytes))
    (offer : OfferV3 Bytes String String Bytes) : StateM σ (Option (Result Bytes)) := do
  let some out := offerSignedBytes offer | return none
  match ← calculateSignature out with
  | .error e => return some (.error e)
  | .ok sig =>
    if sig.length ≠ offerSigLen then
      return some (.error (.signal "unexpected offer signature length"))
    return some (.ok (out ++ sig))

/-- `pairing::parse_offer_v3_structure`. -/
def parseOfferV3Structure (bytes : Bytes) : Result (OfferV3 Bytes String String Bytes) :=
  StateT.run' (m := Result) (do
    let version ← Cursor.u8
    if version ≠ offerVersionV3 then
      throw (.unsupportedVersion version)
    let bundle ← Cursor.bytesField
    let relayUrl ← utf8 (← Cursor.bytesField)
    let pairingInboxId ← utf8 (← Cursor.take mailboxIdLen)
    let pairingSecret ← Cursor.take pairingSecretLen
    let issuedAt ← Cursor.u64
    let ttlS ← Cursor.u32
    let _ ← Cursor.take offerSigLen
    Cursor.finish "trailing bytes in pairing offer"
    return { bundle, relayUrl, pairingInboxId, pairingSecret, issuedAt, ttlS } :
      Reader (OfferV3 Bytes String String Bytes)) ⟨bytes, 0⟩

/-- `pairing::parse_pairing_offer_v3`. libsignal decodes the identity key and verifies a signature under
it: `verifySignature key message signature`. -/
def parsePairingOfferV3 (verifySignature : Bytes → Result (Bytes → Bytes → Bool)) (bytes : Bytes)
    (now : ℕ) : Result (OfferV3 Bytes String String Bytes) := do
  let offer ← parseOfferV3Structure bytes
  let data ← parseBundle offer.bundle
  let verify ← verifySignature data.identityKey
  let split := bytes.length - offerSigLen
  if verify (bytes.take split) (bytes.drop split) = false then
    throw .offerSignatureInvalid
  if offer.ttlS = 0 ∨ offer.ttlS > maxOfferTtlS then
    throw (.malformed "offer ttl_s out of range")
  if offer.issuedAt > saturatingAdd64 now futureSkewS then
    throw (.offerExpired offer.issuedAt offer.ttlS now .notYetValid)
  if now ≥ saturatingAdd64 offer.issuedAt offer.ttlS then
    throw (.offerExpired offer.issuedAt offer.ttlS now .expired)
  return offer

/-! ## Pair-ack -/

/-- The fields of a `pair-ack/2` (`pairing::PairAckV2`), over the same representations and those of
contributions and proofs. -/
structure PairAckV2 (Bundle Relay Id Contribution Proof : Type) where
  responderBundle : Bundle
  relayUrl : Relay
  inboxId : Id
  rootContribution : Contribution
  proof : Proof
deriving DecidableEq, Repr

/-- `type_version` and version byte of `pair-ack/2`. -/
def pairAckV2 : UInt8 := 2

/-- Length of a proof-of-scan MAC. -/
def proofLen : ℕ := 32

/-- `pairing::compute_proof_of_scan`. -/
def computeProofOfScan (hmacSha256 : Bytes → Bytes → Bytes) (pairingSecret responderBundle : Bytes)
    (rootContribution : Bytes) : Bytes :=
  hmacSha256 pairingSecret (responderBundle ++ rootContribution)

/-- The bytes of a `pair-ack/2` with the proof it carries. -/
def pairAckBytes (ack : PairAckV2 Bytes String String Bytes Bytes) : Option Bytes := do
  return [pairAckV2] ++ (← putBytes ack.responderBundle) ++ (← putBytes (asBytes ack.relayUrl))
    ++ asBytes ack.inboxId ++ ack.rootContribution ++ ack.proof

/-- `pairing::encode_pair_ack_v2`. -/
def encodePairAckV2 (hmacSha256 : Bytes → Bytes → Bytes) (responderBundle : Bytes)
    (relayUrl inboxId : String) (rootContribution pairingSecret : Bytes) : Option Bytes :=
  pairAckBytes ⟨responderBundle, relayUrl, inboxId, rootContribution,
    computeProofOfScan hmacSha256 pairingSecret responderBundle rootContribution⟩

/-- `pairing::parse_pair_ack_v2`. -/
def parsePairAckV2 (bytes : Bytes) : Result (PairAckV2 Bytes String String Bytes Bytes) :=
  StateT.run' (m := Result) (do
    if (← Cursor.u8) ≠ pairAckV2 then
      throw (.malformed "unknown pair-ack version")
    let responderBundle ← Cursor.bytesField
    let relayUrl ← utf8 (← Cursor.bytesField)
    let inboxId ← utf8 (← Cursor.take mailboxIdLen)
    let rootContribution ← Cursor.take recoveryContribLen
    let proof ← Cursor.take proofLen
    Cursor.finish "trailing bytes in pair-ack/2"
    return { responderBundle, relayUrl, inboxId, rootContribution, proof } :
      Reader (PairAckV2 Bytes String String Bytes Bytes)) ⟨bytes, 0⟩

/-! ## Round trip -/

@[simp] theorem fromUtf8_asBytes (s : String) : fromUtf8 (asBytes s) = some s := by
  have hbytes : (⟨(asBytes s).toArray⟩ : ByteArray) = s.toUTF8 := rfl
  rw [fromUtf8, hbytes]
  exact dif_pos s.isValidUTF8

@[simp] theorem utf8_asBytes (s : String) : utf8 (asBytes s) = .ok s := by
  simp [utf8]

/-- A reader that succeeds hands its value and position to what follows. -/
theorem Reader.bind_ok {α β : Type} {m : Reader α} {f : α → Reader β} {c c' : Cursor} {a : α}
    (h : m c = .ok (a, c')) : (m >>= f) c = f a c' := by
  change (m c >>= fun x => f x.1 x.2) = f a c'
  rw [h]
  rfl

end Titlan
