import Titlan.Engine.Handlers

/-! # The client over its wire formats

The engine over the byte formats: an envelope is parsed, opened by libsignal, parsed as an inner frame,
and dispatched by type and version. `classify` is the part of the dispatch that reads types, versions
and payloads; the engine's handlers go on from its result. -/

namespace Titlan

/-- The client's own representations: relays and mailbox ids are strings, the rest is bytes. -/
abbrev byteCarrier (Session : Type) : Carrier :=
  ⟨String, String, Bytes, Bytes, Bytes, Bytes, Session, Bytes⟩

instance (Session : Type) : (byteCarrier Session).Comparable where

/-- The libsignal calls, on a session and bytes. -/
structure Libsignal (Session : Type) where
  /-- `message_encrypt`: the advanced session, the kind of ciphertext and its bytes. -/
  messageEncrypt : Option Session → Bytes → Result (Session × EnvelopeKind × Bytes)
  /-- `message_decrypt`: the advanced session and the plaintext. -/
  messageDecrypt : Option Session → EnvelopeKind → Bytes → Result (Session × Bytes)
  hmacSha256 : Bytes → Bytes → Bytes

variable {Session : Type}

/-- What the receivers make of an inner frame. A chat of any version goes to the message table; a
mailbox update is read by the parser of its version, and discarded if there is none or it refuses; a
recovery hello is read by its parser whatever its version. -/
def classify (f : InnerFrame) : (byteCarrier Session).Frame :=
  match f.payloadType with
  | .chat => .chat f.typeVersion f.payload
  | .mailboxUpdate =>
    if f.typeVersion = mailboxUpdateV3 then
      match parseMailboxUpdateV3 f.payload with
      | .ok (relayUrl, inbox) => .mailboxUpdateV3 relayUrl inbox
      | .error _ => .discarded
    else if f.typeVersion = mailboxUpdateV1 then
      match parseMailboxUpdate f.payload with
      | .ok (relayUrl, inbox) => .mailboxUpdateV1 relayUrl inbox
      | .error _ => .discarded
    else if f.typeVersion = mailboxUpdateV2 then
      match parseMailboxUpdateV2 f.payload with
      | .ok (relayUrl, inbox, contribution) => .mailboxUpdateV2 relayUrl inbox contribution
      | .error _ => .discarded
    else .discarded
  | .recoveryHello =>
    match parseRecoveryHello f.payload with
    | .ok (generation, nonce) => .recoveryHello generation nonce
    | .error _ => .discarded
  | _ => .discarded

/-- The inner frame the client writes. -/
def innerFrame : (byteCarrier Session).Frame → Option InnerFrame
  | .chat typeVersion text => some ⟨.chat, typeVersion, text⟩
  | .mailboxUpdateV1 relayUrl inbox =>
    (encodeMailboxUpdate relayUrl inbox).map (⟨.mailboxUpdate, mailboxUpdateV1, ·⟩)
  | .mailboxUpdateV2 relayUrl inbox contribution =>
    (encodeMailboxUpdateV2 relayUrl inbox contribution).map (⟨.mailboxUpdate, mailboxUpdateV2, ·⟩)
  | .mailboxUpdateV3 relayUrl inbox =>
    (encodeMailboxUpdateV3 relayUrl inbox).map (⟨.mailboxUpdate, mailboxUpdateV3, ·⟩)
  | .recoveryHello generation nonce =>
    some ⟨.recoveryHello, recoveryHelloVersion, encodeRecoveryHello generation nonce⟩
  | .discarded => none

/-- `decrypt_message` up to the store: the advanced session, and the inner frame or its parse error. -/
def openEnvelope (lib : Libsignal Session) (profile : PaddingProfile) (session : Option Session)
    (wire : Bytes) : Result (Session × Result InnerFrame) := do
  let envelope ← Envelope.parse wire
  let (session', plaintext) ← lib.messageDecrypt session envelope.kind envelope.ciphertext
  return (session', InnerFrame.parse plaintext profile)

/-- `encrypt_message` up to the store. -/
def sealEnvelope (lib : Libsignal Session) (profile : PaddingProfile) (session : Option Session)
    (frame : InnerFrame) : Result (Session × Bytes) := do
  let plaintext ← frame.encode profile
  let (session', kind, ciphertext) ← lib.messageEncrypt session plaintext
  return (session', Envelope.encode ⟨kind, ciphertext⟩)

/-- The engine of a client of the relay `myRelay`. A field too long for its length prefix, which makes
the source panic, is an error here. -/
def byteEngine (lib : Libsignal Session) (profile : PaddingProfile) (myRelay : String) :
    Engine (byteCarrier Session) where
  myRelay := myRelay
  deriveMailboxId := deriveMailboxId lib.hmacSha256
  deriveRoot := lib.hmacSha256
  messageEncrypt session frame :=
    match innerFrame frame with
    | some inner => sealEnvelope lib profile session inner
    | none => .error (.malformed "field exceeds u16")
  messageDecrypt session wire :=
    (openEnvelope lib profile session wire).map fun out => (out.1, out.2.map classify)

end Titlan
