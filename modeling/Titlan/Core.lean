import Mathlib.Algebra.Ring.Nat

/-! # Bytes, errors and fixed-width arithmetic of `tezca-core`

The vocabulary every module of the client shares: byte strings, the typed error `CoreError`, the
big-endian integer fields of the wire formats, and the saturating `u32` operations of the recovery
counters. A `u32` is a natural number, and every place where the code saturates or compares against
the type's bounds says so. -/

namespace Titlan

/-- A byte string (`Vec<u8>` / `&[u8]`). -/
abbrev Bytes := List UInt8

/-- Payload types of an inner frame (`envelope::PayloadType`). -/
inductive PayloadType
  /-- Human chat; a `chat/1` payload is UTF-8 text. -/
  | chat
  /-- Device posture report (reserved). -/
  | posture
  /-- Policy push (reserved). -/
  | policy
  /-- Appliance alert (reserved). -/
  | alert
  /-- Pairing control: the scanner's reply coordinates. -/
  | pairAck
  /-- Pairing and recovery control: inbox handoff and rotation. -/
  | mailboxUpdate
  | recoveryHello
deriving DecidableEq, Repr

/-- Why a pairing offer fell outside its validity window. -/
inductive OfferExpiryDetail
  | expired
  | notYetValid
deriving DecidableEq, Repr

/-- The errors of `tezca-core` (`error::CoreError`), each with the data its message prints. -/
inductive CoreError
  | unsupportedVersion (got : UInt8)
  | unknownEnvelopeKind (got : UInt8)
  | reservedMustBeZero
  | malformed (what : String)
  | unknownPayloadType (got : UInt8)
  | recognizedButUnsupported (payloadType : PayloadType) (typeVersion : UInt8)
  | invalidPadding
  | invalidBucket (frameLen : ℕ)
  | payloadTooLarge (len max : ℕ)
  | replay
  | badDbKey
  | storage (what : String)
  | invalidLabel (what : String)
  | network (what : String)
  | pairingUnavailable
  | offerExpired (issuedAt ttlS now : ℕ) (detail : OfferExpiryDetail)
  | offerSignatureInvalid
  | proofOfScanFailed
  | conversationNeedsRepair
  | signal (what : String)
deriving DecidableEq, Repr

/-- `crate::Result`. -/
abbrev Result := Except CoreError

/-! ## Fixed-width arithmetic -/

/-- The largest `u32`. -/
def u32Max : ℕ := 4294967295

/-- `u32::saturating_add`. -/
def saturatingAdd32 (a b : ℕ) : ℕ := min (a + b) u32Max

/-- `u32::abs_diff`. -/
def absDiff (a b : ℕ) : ℕ := (a - b) + (b - a)

theorem saturatingAdd32_le (a b : ℕ) : saturatingAdd32 a b ≤ u32Max := Nat.min_le_right _ _

theorem saturatingAdd32_of_le {a b : ℕ} (h : a + b ≤ u32Max) : saturatingAdd32 a b = a + b :=
  Nat.min_eq_left h

/-! ## Big-endian fields -/

/-- The value of a big-endian field (`uN::from_be_bytes`). -/
def fromBeBytes : Bytes → ℕ
  | [] => 0
  | b :: bs => b.toNat * 256 ^ bs.length + fromBeBytes bs

/-- The `width` bytes of `n`, most significant first (`uN::to_be_bytes`). -/
def toBeBytes : ℕ → ℕ → Bytes
  | 0, _ => []
  | width + 1, n => UInt8.ofNat (n / 256 ^ width) :: toBeBytes width n

@[simp] theorem length_toBeBytes (width n : ℕ) : (toBeBytes width n).length = width := by
  induction width with
  | zero => rfl
  | succ width ih => simp [toBeBytes, ih]

/-- **Big-endian round trip**: a field holds its value modulo the field's width. -/
theorem fromBeBytes_toBeBytes (width n : ℕ) :
    fromBeBytes (toBeBytes width n) = n % 256 ^ width := by
  induction width with
  | zero => simp [toBeBytes, fromBeBytes, Nat.mod_one]
  | succ width ih =>
    have hbyte : (UInt8.ofNat (n / 256 ^ width)).toNat = n / 256 ^ width % 256 := by simp
    rw [toBeBytes, fromBeBytes, length_toBeBytes, ih, hbyte, Nat.pow_succ, Nat.mod_mul,
      Nat.add_comm, Nat.mul_comm]

end Titlan
