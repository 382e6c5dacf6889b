import Titlan.Pairing

/-! # The relay's parsers

The only two functions of the relay that look at client-controlled bytes, the frames it pushes, and the
shape of mailbox ids. Admission of a deposit reads the first five bytes and the length. -/

namespace Titlan.Relay

/-- A message id: sixteen random bytes. -/
abbrev MsgId := { id : Bytes // id.length = 16 }

/-- `MAGIC`. -/
def magic : Bytes := [0x54, 0x5A, 0x43, 0x41]

/-- `VERSION`. -/
def version : UInt8 := 0x01

/-- `MIN_ENVELOPE`. -/
def minEnvelope : ℕ := 9

/-- `deposit_admissible`. -/
def depositAdmissible (blob : Bytes) : Bool :=
  minEnvelope ≤ blob.length && blob.take 4 = magic && blob[4]? = some version

/-- `parse_ack_frame`. -/
def parseAckFrame (frame : Bytes) : Option MsgId :=
  if h : frame.length = 17 ∧ frame.head? = some 0x02 then
    some ⟨(frame.drop 1).take 16, by simp [h.1]⟩
  else
    none

/-- `delivery_frame`. -/
def deliveryFrame (messageId : MsgId) (envelope : Bytes) : Bytes :=
  0x01 :: (messageId.val ++ envelope)

/-- The message id in a delivery frame: `frame[1..17]`. -/
def frameId (frame : Bytes) : Bytes := (frame.drop 1).take 16

@[simp] theorem frameId_deliveryFrame (messageId : MsgId) (envelope : Bytes) :
    frameId (deliveryFrame messageId envelope) = messageId.val := by
  obtain ⟨id, hid⟩ := messageId
  simp [frameId, deliveryFrame, ← hid]

/-! ## Mailbox ids -/

/-- `B64URL`. -/
def b64url : Bytes := asBytes "ABCDEFGHIJKLMNOPQRSTUVWXYZabcdefghijklmnopqrstuvwxyz0123456789-_"

/-- Six bits of a 24-bit group as a character. -/
def b64Char (n shift : ℕ) : Char := Char.ofNat (b64url.getD (n / 2 ^ shift % 64) 0).toNat

/-- The characters of `encode_mailbox_id`, by chunks of three bytes. -/
def encodeChunks : Bytes → List Char
  | [] => []
  | [b0] =>
    let n := b0.toNat * 2 ^ 16
    [b64Char n 18, b64Char n 12]
  | [b0, b1] =>
    let n := b0.toNat * 2 ^ 16 + b1.toNat * 2 ^ 8
    [b64Char n 18, b64Char n 12, b64Char n 6]
  | b0 :: b1 :: b2 :: rest =>
    let n := b0.toNat * 2 ^ 16 + b1.toNat * 2 ^ 8 + b2.toNat
    [b64Char n 18, b64Char n 12, b64Char n 6, b64Char n 0] ++ encodeChunks rest

/-- `encode_mailbox_id`. -/
def encodeMailboxId (raw : Bytes) : String := String.ofList (encodeChunks raw)

/-- `mailbox_id_shape_ok`. -/
def mailboxIdShapeOk (id : String) : Bool :=
  (asBytes id).length = 43 && (asBytes id).all fun b => b ∈ b64url

end Titlan.Relay
