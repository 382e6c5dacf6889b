import Titlan.Engine.Effects

/-! # Sealing frames and flushing pending chat

`session::encrypt_message` and `session::decrypt_message` are each one `load_session`, one pure step of
the libsignal ratchet, and one `store_session`: two separate store accesses. `flush_pending` holds the
conversation's flush lock while it deposits every pending row into the mailbox it read when it
started. -/

namespace Titlan

open Foundation

/-- What an engine is configured with: its relay, the mailbox derivation, the root derivation, and the
libsignal ratchet. Encryption may fail before anything is stored. Decryption may fail the same way, or
succeed on a plaintext that is not a well-formed inner frame: then the advanced session is stored and
the frame's parse error is returned. -/
structure Engine (C : Carrier) where
  /-- The relay this party's own inboxes are on. -/
  myRelay : C.Relay
  /-- `recovery::derive_mailbox_id`. -/
  deriveMailboxId : C.Root → Role → ℕ → C.Id
  /-- `recovery::derive_root`. -/
  deriveRoot : C.Contribution → C.Contribution → C.Root
  /-- Padding, `message_encrypt` and the outer envelope. -/
  messageEncrypt : Option C.Session → C.Frame → Result (C.Session × C.Wire)
  /-- The outer envelope, `message_decrypt` and the inner-frame parse. -/
  messageDecrypt : Option C.Session → C.Wire → Result (C.Session × Result C.Frame)

namespace Engine

variable {C : Carrier} (E : Engine C)

/-- `session::encrypt_message`. -/
def encryptMessage (peer : String) (frame : C.Frame) : EngineM C (Result C.Wire) := do
  match ← store (.loadSession peer (.encrypt frame)) with
  | .error e => return .error e
  | .ok session =>
    match E.messageEncrypt session frame with
    | .error e => return .error e
    | .ok (session', wire) =>
      match ← store (.storeSession peer (.encrypt frame) session') with
      | .error e => return .error e
      | .ok () => return .ok wire

/-- `session::decrypt_message`. -/
def decryptMessage (peer : String) (wire : C.Wire) : EngineM C (Result C.Frame) := do
  match ← store (.loadSession peer (.decrypt wire)) with
  | .error e => return .error e
  | .ok session =>
    match E.messageDecrypt session wire with
    | .error e => return .error e
    | .ok (session', frame) =>
      match ← store (.storeSession peer (.decrypt wire) session') with
      | .error e => return .error e
      | .ok () => return frame

/-- The loop of `flush_pending`: seal and deposit each pending row into `mailbox`, mark it sent once
accepted, give up on the first outage. -/
def depositPending (convo : Conversation C) (mailbox : C.Id) :
    List (ℕ × C.Frame) → EngineM C (Result Unit)
  | [] => return .ok ()
  | (msgId, frame) :: rest => do
    match ← E.encryptMessage convo.peerAddress frame with
    | .error e => return .error e
    | .ok wire =>
      match ← relay (.deposit convo.relayUrl mailbox wire) with
      | .error e => return .error e
      | .ok .accepted =>
        match ← store (.markMessageSent msgId) with
        | .error e => return .error e
        | .ok () => depositPending convo mailbox rest
      | .ok .notFound => return .ok ()
      | .ok (.other status) =>
        if status = 400 ∨ status = 413 then
          -- the relay will never accept this blob: stop retrying it and say so
          let _ ← store (.markMessageSent msgId)
          notify (.permanentSendFailure msgId)
          depositPending convo mailbox rest
        else
          return .ok ()

/-- What `flush_pending` does under the conversation's flush lock. -/
def flushLocked : EngineM C (Result Unit) := do
  match ← store .getConversation with
  | .error e =>
    notify .storageError
    return .error e
  | .ok none => return .ok ()
  | .ok (some convo) =>
    match convo.mailboxSend with
    | none => return .ok ()
    | some mailbox =>
      match ← store .pendingChat with
      | .error e =>
        notify .storageError
        return .error e
      | .ok pending => E.depositPending convo mailbox pending

/-- `flush_pending`. -/
def flushPending : EngineM C (Result Unit) := do
  ram .lockFlush
  let result ← E.flushLocked
  ram .unlockFlush
  return result

/-- `send_chat`: queue the row, then attempt delivery. -/
def sendChat (text : C.Text) : EngineM C (Result Unit) := do
  match ← store (.insertMessage .outgoing (chatV1 text) .pending) with
  | .error e => return .error e
  | .ok _ =>
    let _ ← E.flushPending
    return .ok ()

end Engine

end Titlan
