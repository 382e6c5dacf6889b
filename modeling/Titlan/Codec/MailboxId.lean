import Titlan.Codec.Cursor
import Titlan.Foundation.Split
import Titlan.Relay.Wire
import Mathlib.Data.List.GetD
import Mathlib.Data.List.Nodup

/-! # Mailbox ids

Client and relay each have an encoder of mailbox ids: unpadded base64url, three bytes to four characters.
They agree, and lose nothing. An id derived from a root names one role and one generation, both parties
derive it, the relay takes it for a mailbox id, and the client reads it back from the body in which a relay
announces a new mailbox. -/

namespace Titlan

open Foundation

/-! ## Base64url -/

theorem nodup_base64urlAlphabet : base64urlAlphabet.Nodup := by decide

/-- A character tells its six bits. -/
theorem sextet_inj {m n i : ℕ} (h : sextet m i = sextet n i) :
    m / 64 ^ (3 - i) % 64 = n / 64 ^ (3 - i) % 64 := by
  have hm : m / 64 ^ (3 - i) % 64 < base64urlAlphabet.length := Nat.mod_lt _ (by decide)
  have hn : n / 64 ^ (3 - i) % 64 < base64urlAlphabet.length := Nat.mod_lt _ (by decide)
  rw [sextet, sextet, List.getD_eq_getElem _ _ hm, List.getD_eq_getElem _ _ hn] at h
  exact nodup_base64urlAlphabet.getElem_inj_iff.mp h

theorem sextet_mem (n i : ℕ) : sextet n i ∈ base64urlAlphabet := by
  have hn : n / 64 ^ (3 - i) % 64 < base64urlAlphabet.length := Nat.mod_lt _ (by decide)
  rw [sextet, List.getD_eq_getElem _ _ hn]
  exact List.getElem_mem hn

theorem mem_alphabet_of_mem_base64urlChars {bytes : Bytes} {c : Char} (h : c ∈ base64urlChars bytes) :
    c ∈ base64urlAlphabet := by
  fun_induction base64urlChars bytes with
  | case1 => cases h
  | case2 b0 n =>
    simp only [List.mem_cons, List.not_mem_nil, or_false] at h
    rcases h with rfl | rfl <;> exact sextet_mem _ _
  | case3 b0 b1 n =>
    simp only [List.mem_cons, List.not_mem_nil, or_false] at h
    rcases h with rfl | rfl | rfl <;> exact sextet_mem _ _
  | case4 b0 b1 b2 rest n ih =>
    simp only [List.mem_cons] at h
    rcases h with rfl | rfl | rfl | rfl | h
    · exact sextet_mem _ _
    · exact sextet_mem _ _
    · exact sextet_mem _ _
    · exact sextet_mem _ _
    · exact ih h

/-- Four characters for three bytes, rounded up. -/
theorem length_base64urlChars (bytes : Bytes) :
    (base64urlChars bytes).length = (4 * bytes.length + 2) / 3 := by
  fun_induction base64urlChars bytes with
  | case1 => rfl
  | case2 b0 n => simp
  | case3 b0 b1 n => simp
  | case4 b0 b1 b2 rest n ih =>
    simp only [List.length_cons, ih]
    omega

/-- One byte is told by two sextets, two by three, three by four. -/
theorem byte_inj {b c : UInt8} (h0 : sextet (b.toNat * 65536) 0 = sextet (c.toNat * 65536) 0)
    (h1 : sextet (b.toNat * 65536) 1 = sextet (c.toNat * 65536) 1) : b = c := by
  have h0 := sextet_inj h0
  have h1 := sextet_inj h1
  have hb := b.toNat_lt
  have hc := c.toNat_lt
  simp only [Nat.reduceSub, Nat.reducePow] at h0 h1
  exact UInt8.toNat_inj.mp (by omega)

theorem pair_inj {b0 b1 c0 c1 : UInt8}
    (h0 : sextet (b0.toNat * 65536 + b1.toNat * 256) 0 = sextet (c0.toNat * 65536 + c1.toNat * 256) 0)
    (h1 : sextet (b0.toNat * 65536 + b1.toNat * 256) 1 = sextet (c0.toNat * 65536 + c1.toNat * 256) 1)
    (h2 : sextet (b0.toNat * 65536 + b1.toNat * 256) 2 = sextet (c0.toNat * 65536 + c1.toNat * 256) 2) :
    b0 = c0 ∧ b1 = c1 := by
  have h0 := sextet_inj h0
  have h1 := sextet_inj h1
  have h2 := sextet_inj h2
  have hb0 := b0.toNat_lt
  have hb1 := b1.toNat_lt
  have hc0 := c0.toNat_lt
  have hc1 := c1.toNat_lt
  simp only [Nat.reduceSub, Nat.reducePow] at h0 h1 h2
  -- the three sextets are all that is not zero of the group
  have hgroup : b0.toNat * 65536 + b1.toNat * 256 = c0.toNat * 65536 + c1.toNat * 256 := by omega
  exact ⟨UInt8.toNat_inj.mp (by omega), UInt8.toNat_inj.mp (by omega)⟩

theorem triple_inj {b0 b1 b2 c0 c1 c2 : UInt8} {m n : ℕ}
    (hm : m = b0.toNat * 65536 + b1.toNat * 256 + b2.toNat)
    (hn : n = c0.toNat * 65536 + c1.toNat * 256 + c2.toNat) (h0 : sextet m 0 = sextet n 0)
    (h1 : sextet m 1 = sextet n 1) (h2 : sextet m 2 = sextet n 2) (h3 : sextet m 3 = sextet n 3) :
    b0 = c0 ∧ b1 = c1 ∧ b2 = c2 := by
  have h0 := sextet_inj h0
  have h1 := sextet_inj h1
  have h2 := sextet_inj h2
  have h3 := sextet_inj h3
  have hb0 := b0.toNat_lt
  have hb1 := b1.toNat_lt
  have hb2 := b2.toNat_lt
  have hc0 := c0.toNat_lt
  have hc1 := c1.toNat_lt
  have hc2 := c2.toNat_lt
  simp only [Nat.reduceSub, Nat.reducePow] at h0 h1 h2 h3
  have hgroup : m = n := by omega
  rw [hm, hn] at hgroup
  exact ⟨UInt8.toNat_inj.mp (by omega), UInt8.toNat_inj.mp (by omega), UInt8.toNat_inj.mp (by omega)⟩

/-- **Base64url loses nothing**, whatever the length. -/
theorem base64urlChars_inj {xs ys : Bytes} (h : base64urlChars xs = base64urlChars ys) : xs = ys := by
  induction xs using base64urlChars.induct generalizing ys with
  | case1 =>
    rcases ys with _ | ⟨c0, _ | ⟨c1, _ | ⟨c2, ys⟩⟩⟩
    · rfl
    all_goals cases h
  | case2 b0 =>
    rcases ys with _ | ⟨c0, _ | ⟨c1, _ | ⟨c2, ys⟩⟩⟩
    · cases h
    · simp only [base64urlChars, List.cons.injEq, and_true] at h
      rw [byte_inj h.1 h.2]
    · simp [base64urlChars] at h
    · simp [base64urlChars] at h
  | case3 b0 b1 =>
    rcases ys with _ | ⟨c0, _ | ⟨c1, _ | ⟨c2, ys⟩⟩⟩
    · cases h
    · simp [base64urlChars] at h
    · simp only [base64urlChars, List.cons.injEq, and_true] at h
      obtain ⟨rfl, rfl⟩ := pair_inj h.1 h.2.1 h.2.2
      rfl
    · simp [base64urlChars] at h
  | case4 b0 b1 b2 rest ih =>
    rcases ys with _ | ⟨c0, _ | ⟨c1, _ | ⟨c2, ys⟩⟩⟩
    · cases h
    · simp [base64urlChars] at h
    · simp [base64urlChars] at h
    · simp only [base64urlChars, List.cons.injEq] at h
      obtain ⟨h0, h1, h2, h3, hrest⟩ := h
      obtain ⟨rfl, rfl, rfl⟩ := triple_inj rfl rfl h0 h1 h2 h3
      rw [ih hrest]

theorem base64urlNopad_injective : Function.Injective base64urlNopad := by
  intro xs ys h
  have hchars := congrArg String.toList h
  rw [base64urlNopad, base64urlNopad, String.toList_ofList, String.toList_ofList] at hchars
  exact base64urlChars_inj hchars

/-! ## The relay's encoder -/

/-- Both alphabets hold the same characters, and each is one byte. -/
theorem b64Char_eq_sextet (n i : ℕ) : Relay.b64Char n (6 * (3 - i)) = sextet n i := by
  have halphabet : ∀ k < 64, Char.ofNat (Relay.b64url.getD k 0).toNat = base64urlAlphabet.getD k 'A' := by
    decide +kernel
  rw [Relay.b64Char, sextet, pow_mul]
  exact halphabet _ (Nat.mod_lt _ (by decide))

theorem encodeChunks_eq_base64urlChars (raw : Bytes) : Relay.encodeChunks raw = base64urlChars raw := by
  have h0 := fun n => b64Char_eq_sextet n 0
  have h1 := fun n => b64Char_eq_sextet n 1
  have h2 := fun n => b64Char_eq_sextet n 2
  have h3 := fun n => b64Char_eq_sextet n 3
  simp only [Nat.reduceSub, Nat.reduceMul] at h0 h1 h2 h3
  fun_induction base64urlChars raw with
  | case1 => rfl
  | case2 b0 n => simp only [Relay.encodeChunks, Nat.reducePow, h0, h1, n]
  | case3 b0 b1 n => simp only [Relay.encodeChunks, Nat.reducePow, h0, h1, h2, n]
  | case4 b0 b1 b2 rest n ih =>
    simp only [Relay.encodeChunks, Nat.reducePow, h0, h1, h2, h3, ih, List.cons_append, List.nil_append, n]

/-- **The client encodes an id as the relay does.** -/
theorem base64urlNopad_eq_encodeMailboxId (raw : Bytes) : base64urlNopad raw = Relay.encodeMailboxId raw := by
  rw [base64urlNopad, Relay.encodeMailboxId, encodeChunks_eq_base64urlChars]

/-! ## The shape of an id -/

theorem asBytes_ofList (chars : List Char) :
    asBytes (String.ofList chars) = chars.flatMap String.utf8EncodeChar := by
  simp [asBytes, List.utf8Encode]

theorem asBytes_eq_flatMap (s : String) : asBytes s = s.toList.flatMap String.utf8EncodeChar := by
  rw [← asBytes_ofList, String.ofList_toList]

theorem map_utf8EncodeChar_alphabet :
    base64urlAlphabet.map String.utf8EncodeChar = Relay.b64url.map fun b => [b] := by
  decide +kernel

/-- A character of the alphabet is one byte of the relay's. -/
theorem utf8EncodeChar_alphabet {c : Char} (hc : c ∈ base64urlAlphabet) :
    ∃ b ∈ Relay.b64url, String.utf8EncodeChar c = [b] := by
  have hmem : String.utf8EncodeChar c ∈ base64urlAlphabet.map String.utf8EncodeChar :=
    List.mem_map_of_mem hc
  rw [map_utf8EncodeChar_alphabet] at hmem
  obtain ⟨b, hb, hencode⟩ := List.mem_map.mp hmem
  exact ⟨b, hb, hencode.symm⟩

theorem flatMap_alphabet {chars : List Char} (h : ∀ c ∈ chars, c ∈ base64urlAlphabet) :
    (chars.flatMap String.utf8EncodeChar).length = chars.length ∧
      ∀ b ∈ chars.flatMap String.utf8EncodeChar, b ∈ Relay.b64url := by
  induction chars with
  | nil => simp
  | cons c chars ih =>
    obtain ⟨b, hb, hencode⟩ := utf8EncodeChar_alphabet (h c List.mem_cons_self)
    obtain ⟨hlength, hbytes⟩ := ih fun c' hc' => h c' (List.mem_cons_of_mem c hc')
    rw [List.flatMap_cons, hencode]
    constructor
    · rw [List.singleton_append, List.length_cons, List.length_cons, hlength]
    · intro b' hb'
      rcases List.mem_cons.mp hb' with rfl | hb'
      · exact hb
      · exact hbytes b' hb'

/-- Four bytes of text for three bytes, rounded up. -/
theorem length_asBytes_base64urlNopad (bytes : Bytes) :
    (asBytes (base64urlNopad bytes)).length = (4 * bytes.length + 2) / 3 := by
  rw [base64urlNopad, asBytes_ofList, (flatMap_alphabet fun c => mem_alphabet_of_mem_base64urlChars).1,
    length_base64urlChars]

/-- The relay takes the encoding of 32 bytes for a mailbox id. -/
theorem mailboxIdShapeOk_base64urlNopad {bytes : Bytes} (h : bytes.length = 32) :
    Relay.mailboxIdShapeOk (base64urlNopad bytes) = true := by
  have hlength : (asBytes (base64urlNopad bytes)).length = 43 := by
    rw [length_asBytes_base64urlNopad, h]
  have hbytes : ∀ b ∈ asBytes (base64urlNopad bytes), b ∈ Relay.b64url := by
    rw [base64urlNopad, asBytes_ofList]
    exact (flatMap_alphabet fun c => mem_alphabet_of_mem_base64urlChars).2
  simpa [Relay.mailboxIdShapeOk, hlength] using hbytes

/-! ## The body that announces a new mailbox -/

/-- What the client sees of a response: its status, the status as it is displayed, and the body or the
error of reading it. -/
structure HttpResponse where
  status : ℕ
  statusText : String
  text : Except String String

/-- `api::create_mailbox`, after the rate limit and the draw of an id. -/
def Relay.createMailboxResponse : Option String → HttpResponse
  | some id => ⟨201, "201 Created", .ok ("\x7b\"mailbox_id\":\"" ++ id ++ "\"\x7d")⟩
  | none => ⟨503, "503 Service Unavailable", .ok ""⟩

/-- `body.split("\"mailbox_id\"").nth(1).and_then(|s| s.split('"').nth(1))`. -/
def mailboxIdOfBody (body : String) : Option String :=
  (((splitAtPattern "\"mailbox_id\"".toList body.toList)[1]?).bind fun s =>
    (splitAtPattern ['"'] s)[1]?).map String.ofList

/-- `http::create_mailbox`, given what became of the request. -/
def createMailbox (sent : Except String HttpResponse) : Result String := do
  let resp ← sent.mapError .network
  if resp.status ≠ 201 then .error (.network ("mailbox create failed: " ++ resp.statusText))
  let body ← resp.text.mapError .network
  (mailboxIdOfBody body).elim (.error (.malformed "malformed mailbox-create response")) .ok

variable {id : String}

/-- No quotation mark is in an id the relay takes. -/
theorem quote_notMem (h : Relay.mailboxIdShapeOk id = true) : '"' ∉ id.toList := by
  intro hmem
  simp only [Relay.mailboxIdShapeOk, Bool.and_eq_true, List.all_eq_true, decide_eq_true_eq] at h
  have hquote : (0x22 : UInt8) ∈ asBytes id := by
    rw [asBytes_eq_flatMap]
    exact List.mem_flatMap.mpr ⟨'"', hmem, by decide⟩
  exact absurd (h.2 _ hquote) (by decide)

/-- It is not as long as the key in front of it: ten characters are at most forty bytes. -/
theorem length_ne_of_shapeOk (h : Relay.mailboxIdShapeOk id = true) :
    id.toList.length ≠ "mailbox_id".toList.length := by
  simp only [Relay.mailboxIdShapeOk, Bool.and_eq_true, decide_eq_true_eq] at h
  have hle : ∀ chars : List Char, (chars.flatMap String.utf8EncodeChar).length ≤ 4 * chars.length := by
    intro chars
    induction chars with
    | nil => simp
    | cons c chars ih =>
      have hc : (String.utf8EncodeChar c).length ≤ 4 := by
        rw [String.length_utf8EncodeChar]
        exact c.utf8Size_le_four
      rw [List.flatMap_cons, List.length_append, List.length_cons]
      omega
  have hlength := hle id.toList
  rw [← asBytes_eq_flatMap, h.1] at hlength
  intro hten
  have hkey : "mailbox_id".toList.length = 10 := by decide
  omega

/-- **The client reads from the relay's body the id the relay wrote into it.** -/
theorem mailboxIdOfBody_eq (h : Relay.mailboxIdShapeOk id = true) :
    mailboxIdOfBody ("\x7b\"mailbox_id\":\"" ++ id ++ "\"\x7d") = some id := by
  have hid := quote_notMem h
  have hkey : "\"mailbox_id\"".toList = '"' :: ("mailbox_id".toList ++ ['"']) := by decide
  -- the body: an opening brace, the key between quotation marks, a colon, the id between quotation marks
  have hbody : ("\x7b\"mailbox_id\":\"" ++ id ++ "\"\x7d").toList =
      '\x7b' :: ("\"mailbox_id\"".toList ++ ([':'] ++ '"' :: (id.toList ++ '"' :: ['\x7d']))) := by
    simp
  have hkeyed : splitAtPattern "\"mailbox_id\"".toList
      ('\x7b' :: ("\"mailbox_id\"".toList ++ ([':'] ++ '"' :: (id.toList ++ '"' :: ['\x7d'])))) =
        [['\x7b'], [':'] ++ '"' :: (id.toList ++ '"' :: ['\x7d'])] := by
    rw [splitAtPattern, splitFrom_cons, splitFrom_append (by decide), splitFrom_of_free]
    · rfl
    · -- the key does not occur again
      intro todo htodo hbegins
      rw [hkey] at hbegins
      exact not_infix_of_delimiters (by decide) (by decide) hid (by decide) (length_ne_of_shapeOk h)
        (hbegins.isInfix.trans htodo.isInfix)
    · rw [hkey]
      intro hbegins
      exact absurd (List.cons_prefix_cons.mp hbegins).1 (by decide)
  have hquoted : splitAtPattern ['"'] ([':'] ++ '"' :: (id.toList ++ '"' :: ['\x7d'])) =
      [[':'], id.toList, ['\x7d']] := by
    rw [splitAtPattern, splitFrom_singleton (by decide), splitFrom_singleton hid, splitFrom_of_free]
    · rfl
    · intro todo htodo hbegins
      have hmem := htodo.subset (hbegins.subset List.mem_cons_self)
      exact absurd hmem (by decide)
  calc mailboxIdOfBody ("\x7b\"mailbox_id\":\"" ++ id ++ "\"\x7d")
      = (splitAtPattern ['"'] ([':'] ++ '"' :: (id.toList ++ '"' :: ['\x7d'])))[1]?.map String.ofList := by
        rw [mailboxIdOfBody, hbody, hkeyed]
        rfl
    _ = some (String.ofList id.toList) := by
        rw [hquoted]
        rfl
    _ = some id := by rw [String.ofList_toList]

/-- A mailbox the relay announces is one the client knows by the same id. -/
theorem createMailbox_createMailboxResponse (h : Relay.mailboxIdShapeOk id = true) :
    createMailbox (.ok (Relay.createMailboxResponse (some id))) = .ok id := by
  change (mailboxIdOfBody _).elim _ _ = _
  rw [mailboxIdOfBody_eq h, Option.elim_some]

/-! ## Derived ids -/

/-- The labels begin with different letters. -/
theorem label_append_inj {r r' : Role} {xs ys : Bytes} (h : r.label ++ xs = r'.label ++ ys) :
    r = r' ∧ xs = ys := by
  have hroles : r = r' := by
    have hhead := congrArg List.head? h
    cases r <;> cases r'
    · rfl
    · exact absurd (Option.some.inj hhead) (by decide)
    · exact absurd (Option.some.inj hhead) (by decide)
    · rfl
  subst hroles
  exact ⟨rfl, List.append_cancel_left h⟩

/-- What `derive_mailbox_id` feeds its PRF tells role and generation. -/
theorem mailboxInput_inj {r r' : Role} {g g' : ℕ} (hg : g ≤ u32Max) (hg' : g' ≤ u32Max)
    (h : mailboxLabel ++ r.label ++ toBeBytes 4 g = mailboxLabel ++ r'.label ++ toBeBytes 4 g') :
    r = r' ∧ g = g' := by
  have hgen : g < 256 ^ 4 ∧ g' < 256 ^ 4 := by
    unfold u32Max at hg hg'
    omega
  rw [List.append_assoc, List.append_assoc, List.append_cancel_left_eq] at h
  obtain ⟨hroles, hgens⟩ := label_append_inj h
  exact ⟨hroles, toBeBytes_inj hgen.1 hgen.2 hgens⟩

/-- The id a conversation's owner receives on at a generation: that of the role stored for it. -/
def recvMailboxId (hmacSha256 : Bytes → Bytes → Bytes) (root : Bytes) (ownRole : UInt8) (g : ℕ) : String :=
  deriveMailboxId hmacSha256 root (roleFromU8 ownRole) g

/-- The id it sends to. -/
def sendMailboxId (hmacSha256 : Bytes → Bytes → Bytes) (root : Bytes) (ownRole : UInt8) (g : ℕ) : String :=
  deriveMailboxId hmacSha256 root (roleFromU8 (peerRoleU8 ownRole)) g

theorem Role.eq_peer_of_ne {r r' : Role} (h : r ≠ r') : r' = r.peer := by
  rcases Role.eq_or_eq_peer r' r with heq | heq
  · exact absurd heq.symm h
  · exact heq

/-- **Both sides derive the same, separate mailboxes.** Over any PRF of 32 bytes that keeps the derivation
inputs apart: what one party receives on, the party with the other role sends to; another role or another
generation is another id. The encoder of ids loses nothing and writes four characters for three bytes, as the
relay's does, and whatever it makes of 32 bytes has the shape of a mailbox id and comes back to the client
from the body in which the relay announces it. -/
theorem mailbox_ids_agree (hmacSha256 : Bytes → Bytes → Bytes) (root : Bytes)
    (hlen : ∀ r g, g ≤ u32Max →
      (hmacSha256 root (mailboxLabel ++ Role.label r ++ toBeBytes 4 g)).length = 32)
    (hinj : ∀ r g r' g', g ≤ u32Max → g' ≤ u32Max →
      hmacSha256 root (mailboxLabel ++ Role.label r ++ toBeBytes 4 g) =
        hmacSha256 root (mailboxLabel ++ Role.label r' ++ toBeBytes 4 g') →
      mailboxLabel ++ Role.label r ++ toBeBytes 4 g = mailboxLabel ++ Role.label r' ++ toBeBytes 4 g') :
    (∀ mine theirs, roleFromU8 mine ≠ roleFromU8 theirs → ∀ g,
      recvMailboxId hmacSha256 root mine g = sendMailboxId hmacSha256 root theirs g ∧
        sendMailboxId hmacSha256 root mine g = recvMailboxId hmacSha256 root theirs g) ∧
    (∀ r g r' g', g ≤ u32Max → g' ≤ u32Max →
      deriveMailboxId hmacSha256 root r g = deriveMailboxId hmacSha256 root r' g' → r = r' ∧ g = g') ∧
    Function.Injective base64urlNopad ∧
    (∀ bytes, (asBytes (base64urlNopad bytes)).length = (4 * bytes.length + 2) / 3) ∧
    (∀ raw : Bytes, raw.length = 32 → base64urlNopad raw = Relay.encodeMailboxId raw ∧
      Relay.mailboxIdShapeOk (Relay.encodeMailboxId raw) = true ∧
      createMailbox (.ok (Relay.createMailboxResponse (some (Relay.encodeMailboxId raw)))) =
        .ok (Relay.encodeMailboxId raw)) ∧
    ∀ r g, g ≤ u32Max →
      Relay.mailboxIdShapeOk (deriveMailboxId hmacSha256 root r g) = true ∧
      createMailbox (.ok (Relay.createMailboxResponse (some (deriveMailboxId hmacSha256 root r g)))) =
        .ok (deriveMailboxId hmacSha256 root r g) := by
  refine ⟨?_, ?_, base64urlNopad_injective, length_asBytes_base64urlNopad, ?_, ?_⟩
  · intro mine theirs hne g
    have hpeer := Role.eq_peer_of_ne hne
    unfold recvMailboxId sendMailboxId
    rw [roleFromU8_peerRoleU8, roleFromU8_peerRoleU8, hpeer, Role.peer_peer]
    exact ⟨rfl, rfl⟩
  · intro r g r' g' hg hg' heq
    exact mailboxInput_inj hg hg' (hinj r g r' g' hg hg' (base64urlNopad_injective heq))
  · intro raw hraw
    have hshape := mailboxIdShapeOk_base64urlNopad hraw
    rw [base64urlNopad_eq_encodeMailboxId] at hshape
    exact ⟨base64urlNopad_eq_encodeMailboxId raw, hshape, createMailbox_createMailboxResponse hshape⟩
  · intro r g hg
    have hshape := mailboxIdShapeOk_base64urlNopad (hlen r g hg)
    exact ⟨hshape, createMailbox_createMailboxResponse hshape⟩

/-- What follows the label of the input, in 32 bytes: enough to tell the derivation inputs apart. -/
def tailHmac (_root input : Bytes) : Bytes := (input.drop 26).rightpad 32 0

theorem tailHmac_input (root : Bytes) (r : Role) (g : ℕ) :
    tailHmac root (mailboxLabel ++ r.label ++ toBeBytes 4 g) =
      r.label ++ (toBeBytes 4 g ++ List.replicate (28 - r.label.length) 0) := by
  have hlabel : mailboxLabel.length = 26 := by decide
  rw [tailHmac, List.append_assoc, List.drop_left' hlabel, List.rightpad, List.append_assoc,
    List.length_append, length_toBeBytes]
  congr 3
  omega

theorem complementary_ids_agree :
    recvMailboxId tailHmac [] 0 7 = sendMailboxId tailHmac [] 1 7 ∧
      recvMailboxId tailHmac [] 0 7 ≠ sendMailboxId tailHmac [] 0 7 := by
  have hlen : ∀ r : Role, r.label.length ≤ 28 := by
    intro r
    cases r <;> decide
  obtain ⟨hsame, hseparate, -⟩ := mailbox_ids_agree tailHmac []
    (by
      intro r g _
      have hr := hlen r
      rw [tailHmac_input, List.length_append, List.length_append, length_toBeBytes, List.length_replicate]
      omega)
    (by
      intro r g r' g' _ _ heq
      rw [tailHmac_input, tailHmac_input] at heq
      obtain ⟨rfl, hrest⟩ := label_append_inj heq
      rw [List.append_cancel_right hrest])
  constructor
  · exact (hsame 0 1 (by decide) 7).1
  · intro heq
    exact absurd (hseparate .offerer 7 .responder 7 (by decide) (by decide) heq).1 (by decide)

end Titlan
