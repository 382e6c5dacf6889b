import Mathlib.Logic.Function.Basic
import Titlan.Foundation.Run
import Titlan.Pairing

/-! # Peer identities and one-time prekeys

The tables of a client's key store that pairing works on: the identity key recorded under each peer
address, the one-time prekeys, and the peer address of each conversation. `establish_session` takes the
address from the bundle it is given; `decrypt_setup_from_unknown` derives it from the key in the
message. libsignal is asked for two parsers; what else it decides about a call (signatures, PQXDH,
decryption) comes as the call's outcome. It consults `is_trusted_identity` first, and on success records
the identity key it processed under the address it was given, and removes the one-time prekey a
session-setup message names. -/

namespace Titlan

open Foundation

/-! ## Addresses -/

/-- A lowercase hex digit. -/
def hexDigit (n : ℕ) : Char := "0123456789abcdef".toList.getD n '0'

/-- `hex::encode`. -/
def hexEncode (bytes : Bytes) : String :=
  String.ofList (bytes.flatMap fun b => [hexDigit (b.toNat / 16), hexDigit (b.toNat % 16)])

/-- What is read from a `PreKeySignalMessage` before it is decrypted. -/
structure SetupMessage (Key : Type) where
  identityKey : Key
  /-- The one-time prekey it was made with. -/
  preKeyId : Option ℕ

/-- libsignal's parsers, over its identity keys. -/
structure KeyLib (Key : Type) where
  /-- `IdentityKey::decode`. -/
  decodeIdentity : Bytes → Result Key
  /-- `IdentityKey::serialize`. -/
  serialize : Key → Bytes
  /-- `PreKeySignalMessage::try_from`. -/
  parseSetup : Bytes → Result (SetupMessage Key)

variable {Key : Type} (lib : KeyLib Key)

/-- `address_for_identity`. -/
def addressForIdentity (key : Key) : String := hexEncode (lib.serialize key)

/-! ## Tables -/

/-- The tables. -/
structure KeyStore where
  identities : String → Option Bytes
  prekeys : List (ℕ × Bytes)
  peerAddresses : List String

/-- Id of the one-time prekey generated at initialization. -/
def onetimePrekeyId : ℕ := 1

/-- The store `initialize` leaves, with the one-time prekey it generates. -/
def KeyStore.initialized (onetime : Bytes) : KeyStore where
  identities _ := none
  prekeys := [(onetimePrekeyId, onetime)]
  peerAddresses := []

namespace KeyStore

/-- `is_trusted_identity`: trust on first use, the same key afterwards. -/
def isTrustedIdentity (s : KeyStore) (address : String) (key : Key) : Bool :=
  match s.identities address with
  | none => true
  | some known => known = lib.serialize key

/-- `save_identity`. -/
def saveIdentity (s : KeyStore) (address : String) (key : Key) : KeyStore :=
  { s with identities := Function.update s.identities address (some (lib.serialize key)) }

variable (s : KeyStore)

@[simp] theorem identities_saveIdentity_self (address : String) (key : Key) :
    (s.saveIdentity lib address key).identities address = some (lib.serialize key) :=
  Function.update_self ..

theorem identities_saveIdentity_of_ne {address a : String} (key : Key)
    (h : a ≠ address) : (s.saveIdentity lib address key).identities a = s.identities a :=
  Function.update_of_ne h ..

/-- `get_pre_key`. -/
def getPreKey (s : KeyStore) (id : ℕ) : Option Bytes :=
  (s.prekeys.find? fun row => row.1 = id).map Prod.snd

/-- `remove_pre_key`. -/
def removePreKey (s : KeyStore) (id : ℕ) : KeyStore :=
  { s with prekeys := s.prekeys.filter fun row => row.1 ≠ id }

/-- Remove the prekey a message names, if it names one. -/
def removeNamed (s : KeyStore) (named : Option ℕ) : KeyStore := named.elim s s.removePreKey

@[simp] theorem identities_removeNamed (named : Option ℕ) :
    (s.removeNamed named).identities = s.identities := by cases named <;> rfl

@[simp] theorem peerAddresses_removeNamed (named : Option ℕ) :
    (s.removeNamed named).peerAddresses = s.peerAddresses := by cases named <;> rfl

/-- `create_routed_conversation`, as far as the peer address. -/
def createConversation (s : KeyStore) (address : String) : KeyStore :=
  { s with peerAddresses := s.peerAddresses ++ [address] }

/-! ## libsignal's calls -/

/-- `process_prekey_bundle`; `processed` is its outcome once the identity is trusted. -/
def processPrekeyBundle (s : KeyStore) (address : String) (key : Key) (processed : Result Unit) :
    Result KeyStore :=
  if s.isTrustedIdentity lib address key then
    processed.map fun _ => s.saveIdentity lib address key
  else
    .error (.signal "untrusted identity")

/-- `message_decrypt` of a session-setup message; `opened` is the plaintext once the identity is trusted
and the prekey found. -/
def decryptPreKeyMessage (s : KeyStore) (address : String) (msg : SetupMessage Key)
    (opened : Result Bytes) : Result (Bytes × KeyStore) :=
  if s.isTrustedIdentity lib address msg.identityKey then
    match msg.preKeyId with
    | none => opened.map fun plaintext => (plaintext, s.saveIdentity lib address msg.identityKey)
    | some id =>
      match s.getPreKey id with
      | none => .error (.signal "invalid prekey identifier")
      | some _ => opened.map fun plaintext =>
          (plaintext, (s.saveIdentity lib address msg.identityKey).removePreKey id)
  else
    .error (.signal "untrusted identity")

/-! ## The client's calls -/

/-- `establish_session`: the address is the one the bundle names. -/
def establishSession (s : KeyStore) (bundle : Bytes) (processed : Result Unit) :
    Result (String × KeyStore) := do
  let data ← parseBundle bundle
  let key ← lib.decodeIdentity data.identityKey
  let s' ← s.processPrekeyBundle lib data.addressName key processed
  return (data.addressName, s')

/-- `decrypt_message`, with the store it leaves. An established session's messages confirm the identity
recorded for it and leave these tables alone. -/
def decryptMessage (s : KeyStore) (peer : String) (wire : Bytes) (profile : PaddingProfile)
    (opened : Result Bytes) : Result InnerFrame × KeyStore :=
  match Envelope.parse wire with
  | .error e => (.error e, s)
  | .ok ⟨.ratchet, _⟩ => (opened.bind fun plaintext => InnerFrame.parse plaintext profile, s)
  | .ok ⟨.sessionSetup, ciphertext⟩ =>
    match lib.parseSetup ciphertext with
    | .error e => (.error e, s)
    | .ok msg =>
      match s.decryptPreKeyMessage lib peer msg opened with
      | .error e => (.error e, s)
      | .ok (plaintext, s') => (InnerFrame.parse plaintext profile, s')

/-- `decrypt_setup_from_unknown`: the address is derived from the message's identity key. -/
def decryptSetupFromUnknown (s : KeyStore) (wire : Bytes) (profile : PaddingProfile)
    (opened : Result Bytes) : Result (String × InnerFrame) × KeyStore :=
  match Envelope.parse wire with
  | .error e => (.error e, s)
  | .ok ⟨.ratchet, _⟩ => (.error (.malformed "expected a session-setup message on a pairing inbox"), s)
  | .ok ⟨.sessionSetup, ciphertext⟩ =>
    match lib.parseSetup ciphertext with
    | .error e => (.error e, s)
    | .ok msg =>
      let sender := addressForIdentity lib msg.identityKey
      let out := s.decryptMessage lib sender wire profile opened
      (out.1.map fun frame => (sender, frame), out.2)

/-- `mint_offer_onetime_prekey`: the id after the largest in the table. -/
def mintOfferOnetimePrekey (s : KeyStore) (key : Bytes) : Result ((ℕ × Bytes) × KeyStore) :=
  let id := (s.prekeys.map Prod.fst).foldr max 0 + 1
  if id > u32Max then
    -- `row.get` reads a `u32`
    .error (.storage ("Integer " ++ toString id ++ " out of range at index 0"))
  else if id = u32Max then
    .error (.storage "one-time prekey id space exhausted")
  else
    .ok ((id, key), { s with prekeys := s.prekeys ++ [(id, key)] })

/-- What a mint returns: the id after the largest, unless that is the absent marker or beyond. -/
theorem mintOfferOnetimePrekey_cases (s : KeyStore) (key : Bytes) :
    (∃ e, s.mintOfferOnetimePrekey key = .error e) ∨
      ((s.prekeys.map Prod.fst).foldr max 0 + 1 ≠ absentId ∧ s.mintOfferOnetimePrekey key =
        .ok (((s.prekeys.map Prod.fst).foldr max 0 + 1, key),
          { s with prekeys := s.prekeys ++ [((s.prekeys.map Prod.fst).foldr max 0 + 1, key)] })) := by
  rw [mintOfferOnetimePrekey]
  split
  · exact .inl ⟨_, rfl⟩
  · split
    · exact .inl ⟨_, rfl⟩
    · rename_i hmax
      exact .inr ⟨hmax, rfl⟩

/-- `export_prekey_bundle`, up to the serialization: the long-lived keys `own` with the one-time prekey
of the fixed id. -/
def exportPrekeyBundle (s : KeyStore) (own : BundleData) : Result BundleData :=
  match s.getPreKey onetimePrekeyId with
  | none => .error (.storage "Query returned no rows")
  | some key => .ok { own with onetimePrekey := some (onetimePrekeyId, key) }

/-! ## What the calls do to the tables -/

variable {lib}

/-- An accepted bundle: the key it carries is trusted and recorded under the address it names. -/
theorem establishSession_ok {s s' : KeyStore} {bundle : Bytes} {processed : Result Unit}
    {address : String} (h : s.establishSession lib bundle processed = .ok (address, s')) :
    ∃ data key, parseBundle bundle = .ok data ∧ lib.decodeIdentity data.identityKey = .ok key ∧
      address = data.addressName ∧ s.isTrustedIdentity lib address key = true ∧
      s' = s.saveIdentity lib address key := by
  unfold establishSession at h
  cases hdata : parseBundle bundle with
  | error e => rw [hdata] at h; cases h
  | ok data =>
    cases hkey : lib.decodeIdentity data.identityKey with
    | error e => simp only [hdata, hkey, bind, Except.bind] at h; cases h
    | ok key =>
      simp only [hdata, hkey, bind, Except.bind, processPrekeyBundle] at h
      by_cases htrust : s.isTrustedIdentity lib data.addressName key = true
      · cases processed with
        | error e => simp only [htrust, if_true, Except.map] at h; cases h
        | ok u =>
          simp only [htrust, if_true, Except.map] at h
          cases h
          exact ⟨data, key, rfl, hkey, rfl, htrust, rfl⟩
      · simp only [htrust] at h
        cases h

variable {msg : SetupMessage Key}

/-- A session-setup message that opens: its identity key is trusted and recorded, and the prekey it
names is removed. -/
theorem decryptPreKeyMessage_ok {s s' : KeyStore} {address : String}
    {opened : Result Bytes} {plaintext : Bytes}
    (h : s.decryptPreKeyMessage lib address msg opened = .ok (plaintext, s')) :
    s.isTrustedIdentity lib address msg.identityKey = true ∧
      s' = (s.saveIdentity lib address msg.identityKey).removeNamed msg.preKeyId := by
  unfold decryptPreKeyMessage at h
  by_cases htrust : s.isTrustedIdentity lib address msg.identityKey = true
  · refine ⟨htrust, ?_⟩
    rw [if_pos htrust] at h
    cases hid : msg.preKeyId with
    | none =>
      cases opened with
      | error e => simp only [hid, Except.map] at h; cases h
      | ok bytes => simp only [hid, Except.map] at h; cases h; rfl
    | some id =>
      cases hrow : s.getPreKey id with
      | none => simp only [hid, hrow] at h; cases h
      | some key =>
        cases opened with
        | error e => simp only [hid, hrow, Except.map] at h; cases h
        | ok bytes => simp only [hid, hrow, Except.map] at h; cases h; rfl
  · rw [if_neg htrust] at h
    cases h

/-- The envelope `wire` holds a session-setup message `msg`. -/
def CarriesSetup (lib : KeyLib Key) (wire : Bytes) (msg : SetupMessage Key) : Prop :=
  ∃ ciphertext, Envelope.parse wire = .ok ⟨.sessionSetup, ciphertext⟩ ∧
    lib.parseSetup ciphertext = .ok msg

variable {wire : Bytes}

theorem CarriesSetup.unique {msg msg' : SetupMessage Key}
    (h : CarriesSetup lib wire msg) (h' : CarriesSetup lib wire msg') : msg' = msg := by
  obtain ⟨c, hc, hmsg⟩ := h
  obtain ⟨c', hc', hmsg'⟩ := h'
  cases hc.symm.trans hc'
  exact Except.ok.inj (hmsg'.symm.trans hmsg)

/-- `decrypt_message` of an envelope that holds a session-setup message: refused as it is, or opened. -/
theorem decryptMessage_of_carries (peer : String)
    (profile : PaddingProfile) (opened : Result Bytes) (h : CarriesSetup lib wire msg) :
    (∃ e, s.decryptPreKeyMessage lib peer msg opened = .error e ∧
        s.decryptMessage lib peer wire profile opened = (.error e, s)) ∨
      ∃ plaintext s', s.decryptPreKeyMessage lib peer msg opened = .ok (plaintext, s') ∧
        s.decryptMessage lib peer wire profile opened = (InnerFrame.parse plaintext profile, s') := by
  obtain ⟨ciphertext, henv, hmsg⟩ := h
  cases hopen : s.decryptPreKeyMessage lib peer msg opened with
  | error e => exact .inl ⟨e, rfl, by simp only [decryptMessage, henv, hmsg, hopen]⟩
  | ok out => exact .inr ⟨out.1, out.2, rfl, by simp only [decryptMessage, henv, hmsg, hopen]⟩

/-- `decrypt_message` of any other envelope leaves the store alone. -/
theorem decryptMessage_of_not_carries (peer : String)
    (profile : PaddingProfile) (opened : Result Bytes) (h : ∀ msg, ¬ CarriesSetup lib wire msg) :
    (s.decryptMessage lib peer wire profile opened).2 = s := by
  unfold decryptMessage
  cases henv : Envelope.parse wire with
  | error e => rfl
  | ok envelope =>
    obtain ⟨kind, ciphertext⟩ := envelope
    cases kind with
    | ratchet => rfl
    | sessionSetup =>
      cases hmsg : lib.parseSetup ciphertext with
      | error e => simp only [hmsg]
      | ok msg => exact absurd ⟨ciphertext, henv, hmsg⟩ (h msg)

/-- `decrypt_setup_from_unknown` is `decrypt_message` for the address derived from the message, when the
envelope holds one. -/
theorem decryptSetupFromUnknown_of_carries (profile : PaddingProfile)
    (opened : Result Bytes) (h : CarriesSetup lib wire msg) :
    s.decryptSetupFromUnknown lib wire profile opened =
      let sender := addressForIdentity lib msg.identityKey
      let out := s.decryptMessage lib sender wire profile opened
      (out.1.map fun frame => (sender, frame), out.2) := by
  obtain ⟨ciphertext, henv, hmsg⟩ := h
  simp only [decryptSetupFromUnknown, henv, hmsg]

/-- Without a session-setup message it refuses the envelope and leaves the store alone. -/
theorem decryptSetupFromUnknown_of_not_carries
    (profile : PaddingProfile) (opened : Result Bytes) (h : ∀ msg, ¬ CarriesSetup lib wire msg) :
    ∃ e, s.decryptSetupFromUnknown lib wire profile opened = (.error e, s) := by
  unfold decryptSetupFromUnknown
  cases henv : Envelope.parse wire with
  | error e => exact ⟨e, rfl⟩
  | ok envelope =>
    obtain ⟨kind, ciphertext⟩ := envelope
    cases kind with
    | ratchet => exact ⟨_, rfl⟩
    | sessionSetup =>
      cases hmsg : lib.parseSetup ciphertext with
      | error e => exact ⟨e, by simp only [hmsg]⟩
      | ok msg => exact absurd ⟨ciphertext, henv, hmsg⟩ (h msg)

end KeyStore

/-! ## Histories -/

/-- What happens to a client's key store. A pairing that succeeds so far may go on to create its
conversation. -/
inductive KeyEvent
  /-- The client scans an offer: `establish_session` on its bundle. -/
  | establish (bundle : Bytes) (processed : Result Unit) (converse : Bool)
  /-- An envelope arrives on a pairing inbox: `decrypt_setup_from_unknown`. -/
  | setup (wire : Bytes) (opened : Result Bytes) (converse : Bool)
  /-- An envelope arrives on a conversation inbox: `decrypt_message` for its peer. -/
  | receive (peer : String) (wire : Bytes) (opened : Result Bytes)
  /-- The client makes an offer: `mint_offer_onetime_prekey`. -/
  | mint (key : Bytes)

/-- Create the conversation, if the pairing goes on. -/
def KeyStore.converse (s : KeyStore) (go : Bool) (address : String) : KeyStore :=
  if go then s.createConversation address else s

/-- One event. -/
def KeyStore.step (profile : PaddingProfile) (s : KeyStore) : KeyEvent → Option KeyStore
  | .establish bundle processed go =>
    match s.establishSession lib bundle processed with
    | .ok (address, s') => some (s'.converse go address)
    | .error _ => some s
  | .setup wire opened go =>
    match s.decryptSetupFromUnknown lib wire profile opened with
    | (.ok (sender, _), s') => some (s'.converse go sender)
    | (.error _, s') => some s'
  | .receive peer wire opened =>
    if peer ∈ s.peerAddresses then some (s.decryptMessage lib peer wire profile opened).2 else none
  | .mint key =>
    match s.mintOfferOnetimePrekey key with
    | .ok (_, s') => some s'
    | .error _ => some s

namespace KeyStore

/-- The event has `establish_session` accept `key` under `address`. -/
def Accepts (s : KeyStore) (address : String) (key : Key) : KeyEvent → Prop
  | .establish bundle processed _ => ∃ data s', parseBundle bundle = .ok data ∧
      lib.decodeIdentity data.identityKey = .ok key ∧
      s.establishSession lib bundle processed = .ok (address, s')
  | _ => False

/-- The event has the session-setup message `msg` opened for `address`. -/
def Opens (s : KeyStore) (address : String) (msg : SetupMessage Key) : KeyEvent → Prop
  | .setup wire opened _ => CarriesSetup lib wire msg ∧ address = addressForIdentity lib msg.identityKey ∧
      ∃ out, s.decryptPreKeyMessage lib address msg opened = .ok out
  | .receive peer wire opened => CarriesSetup lib wire msg ∧ address = peer ∧
      ∃ out, s.decryptPreKeyMessage lib address msg opened = .ok out
  | _ => False

variable {lib} {s s' : KeyStore} {e : KeyEvent} {profile : PaddingProfile} {address address' : String}

theorem Accepts.unique {key key' : Key} (h : s.Accepts lib address key e)
    (h' : s.Accepts lib address' key' e) : address' = address ∧ key' = key := by
  cases e with
  | establish bundle processed go =>
    obtain ⟨data, s₁, hdata, hkey, hs⟩ := h
    obtain ⟨data', s₂, hdata', hkey', hs'⟩ := h'
    cases hdata.symm.trans hdata'
    cases hs.symm.trans hs'
    exact ⟨rfl, Except.ok.inj (hkey'.symm.trans hkey)⟩
  | setup wire opened go => exact h.elim
  | receive peer wire opened => exact h.elim
  | mint key => exact h.elim

theorem Opens.unique {msg msg' : SetupMessage Key}
    (h : s.Opens lib address msg e) (h' : s.Opens lib address' msg' e) : msg' = msg := by
  cases e with
  | establish bundle processed go => exact h.elim
  | setup wire opened go => exact h.1.unique h'.1
  | receive peer wire opened => exact h.1.unique h'.1
  | mint key => exact h.elim

theorem Accepts.not_opens {key : Key} {msg : SetupMessage Key}
    (h : s.Accepts lib address key e) : ¬ s.Opens lib address' msg e := by
  cases e with
  | establish bundle processed go => exact id
  | setup wire opened go => exact h.elim
  | receive peer wire opened => exact h.elim
  | mint key => exact h.elim

/-- What an event can do to the tables. -/
inductive Change (lib : KeyLib Key) (s : KeyStore) (e : KeyEvent) : KeyStore → Prop
  | refused (hacc : ∀ address key, ¬ s.Accepts lib address key e)
      (hopen : ∀ address msg, ¬ s.Opens lib address msg e) : Change lib s e s
  | accepted {address : String} {key : Key} (go : Bool) (hacc : s.Accepts lib address key e)
      (htrust : s.isTrustedIdentity lib address key = true) :
      Change lib s e ((s.saveIdentity lib address key).converse go address)
  /-- A session-setup message opens, for a peer of a conversation or for the sender it names. -/
  | opened {address : String} {msg : SetupMessage Key} (go : Bool)
      (hopen : s.Opens lib address msg e)
      (htrust : s.isTrustedIdentity lib address msg.identityKey = true)
      (haddr : address ∈ s.peerAddresses ∨ address = addressForIdentity lib msg.identityKey) :
      Change lib s e (((s.saveIdentity lib address msg.identityKey).removeNamed msg.preKeyId).converse
        go address)
  /-- A one-time prekey is minted, with an id above those in the table. -/
  | minted {id : ℕ} {key : Bytes} (hacc : ∀ address key, ¬ s.Accepts lib address key e)
      (hopen : ∀ address msg, ¬ s.Opens lib address msg e) :
      Change lib s e { s with prekeys := s.prekeys ++ [(id, key)] }

theorem change_establish {bundle : Bytes} {processed : Result Unit} {go : Bool}
    (h : s.step lib profile (.establish bundle processed go) = some s') :
    s.Change lib (.establish bundle processed go) s' := by
  cases hout : s.establishSession lib bundle processed with
  | error err =>
    simp only [step, hout] at h
    cases h
    refine .refused ?_ fun _ _ => id
    rintro address key ⟨data, s₁, -, -, hs⟩
    cases hout.symm.trans hs
  | ok out =>
    obtain ⟨address, s₁⟩ := out
    simp only [step, hout] at h
    cases h
    obtain ⟨data, key, hdata, hkey, rfl, htrust, rfl⟩ := establishSession_ok hout
    exact .accepted go ⟨data, _, hdata, hkey, hout⟩ htrust

theorem change_setup {wire : Bytes} {opened : Result Bytes} {go : Bool}
    (h : s.step lib profile (.setup wire opened go) = some s') :
    s.Change lib (.setup wire opened go) s' := by
  by_cases hmsg : ∃ msg, CarriesSetup lib wire msg
  · obtain ⟨msg, hcarries⟩ := hmsg
    simp only [step, s.decryptSetupFromUnknown_of_carries profile opened hcarries] at h
    obtain ⟨err, hrefused, hout⟩ | ⟨plaintext, s₁, hopen, hout⟩ :=
      s.decryptMessage_of_carries (addressForIdentity lib msg.identityKey) profile opened hcarries
    · simp only [hout, Except.map] at h
      cases h
      refine .refused (fun _ _ => id) ?_
      rintro address msg' ⟨hcarries', rfl, out, hopen⟩
      rw [hcarries.unique hcarries'] at hopen
      cases hrefused.symm.trans hopen
    · obtain ⟨htrust, rfl⟩ := decryptPreKeyMessage_ok hopen
      -- The store is updated before the frame is parsed; only a good frame leads to a conversation.
      cases hframe : InnerFrame.parse plaintext profile with
      | error err =>
        simp only [hout, hframe, Except.map] at h
        cases h
        exact .opened false ⟨hcarries, rfl, _, hopen⟩ htrust (.inr rfl)
      | ok frame =>
        simp only [hout, hframe, Except.map] at h
        cases h
        exact .opened go ⟨hcarries, rfl, _, hopen⟩ htrust (.inr rfl)
  · obtain ⟨err, hout⟩ := s.decryptSetupFromUnknown_of_not_carries profile opened
      (not_exists.mp hmsg)
    simp only [step, hout] at h
    cases h
    exact .refused (fun _ _ => id) fun _ msg hopen => hmsg ⟨msg, hopen.1⟩

theorem change_receive {peer : String} {wire : Bytes} {opened : Result Bytes}
    (h : s.step lib profile (.receive peer wire opened) = some s') :
    s.Change lib (.receive peer wire opened) s' := by
  obtain ⟨hpeer, h⟩ := Option.ite_none_right_eq_some.mp h
  cases h
  by_cases hmsg : ∃ msg, CarriesSetup lib wire msg
  · obtain ⟨msg, hcarries⟩ := hmsg
    obtain ⟨err, hrefused, hout⟩ | ⟨plaintext, s₁, hopen, hout⟩ :=
      s.decryptMessage_of_carries peer profile opened hcarries
    · rw [hout]
      refine .refused (fun _ _ => id) ?_
      rintro address msg' ⟨hcarries', rfl, out, hopen⟩
      rw [hcarries.unique hcarries'] at hopen
      cases hrefused.symm.trans hopen
    · obtain ⟨htrust, rfl⟩ := decryptPreKeyMessage_ok hopen
      rw [hout]
      exact .opened false ⟨hcarries, rfl, _, hopen⟩ htrust (.inl hpeer)
  · rw [s.decryptMessage_of_not_carries peer profile opened (not_exists.mp hmsg)]
    exact .refused (fun _ _ => id) fun _ msg hopen => hmsg ⟨msg, hopen.1⟩

theorem change_mint {key : Bytes} (h : s.step lib profile (.mint key) = some s') :
    s.Change lib (.mint key) s' := by
  rcases s.mintOfferOnetimePrekey_cases key with ⟨e, hout⟩ | ⟨-, hout⟩
  · simp only [step, hout] at h
    cases h
    exact .refused (fun _ _ => id) fun _ _ => id
  · simp only [step, hout] at h
    cases h
    exact .minted (fun _ _ => id) fun _ _ => id

/-- Every event changes the tables in one of these ways. -/
theorem change_of_step (h : s.step lib profile e = some s') : s.Change lib e s' := by
  cases e with
  | establish bundle processed go => exact change_establish h
  | setup wire opened go => exact change_setup h
  | receive peer wire opened => exact change_receive h
  | mint key => exact change_mint h

end KeyStore

end Titlan
