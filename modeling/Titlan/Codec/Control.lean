import Titlan.Codec.Cursor

/-! # Control payloads

The payloads of `pair-ack/2`, `mailbox-update/1`, `/2`, `/3` and `recovery-hello/1`. Each is a version
byte, some byte strings behind their lengths, and a tail of fields of fixed width. The encoders do not
check the width of an inbox id, the parsers do: what is accepted is exactly what the encoder writes for
fields of the right width. Since the sized fields can be told apart from what follows them, the five
languages are free of proper extensions, and since the kinds that share a version byte differ in the
number of sized fields, they are disjoint. -/

namespace Titlan

open Foundation

/-- The kinds of control payloads. -/
inductive ControlKind
  | pairAckV2
  | mailboxUpdateV1
  | mailboxUpdateV2
  | mailboxUpdateV3
  | recoveryHello
deriving DecidableEq, Repr

/-- The fields of a control payload. -/
inductive ControlPayload
  | pairAckV2 (ack : PairAckV2 Bytes String String Bytes Bytes)
  | mailboxUpdateV1 (relayUrl inboxId : String)
  | mailboxUpdateV2 (relayUrl inboxId : String) (contribution : Bytes)
  | mailboxUpdateV3 (relayUrl inboxId : String)
  | recoveryHello (generation : ℕ) (nonce : Bytes)
deriving DecidableEq, Repr

/-- The parser of a kind. -/
def ControlKind.parse (kind : ControlKind) (bytes : Bytes) : Result ControlPayload :=
  match kind with
  | .pairAckV2 => (parsePairAckV2 bytes).map .pairAckV2
  | .mailboxUpdateV1 => (parseMailboxUpdate bytes).map fun out => .mailboxUpdateV1 out.1 out.2
  | .mailboxUpdateV2 => (parseMailboxUpdateV2 bytes).map fun out => .mailboxUpdateV2 out.1 out.2.1 out.2.2
  | .mailboxUpdateV3 => (parseMailboxUpdateV3 bytes).map fun out => .mailboxUpdateV3 out.1 out.2
  | .recoveryHello => (parseRecoveryHello bytes).map fun out => .recoveryHello out.1 out.2

namespace ControlPayload

def kind : ControlPayload → ControlKind
  | pairAckV2 _ => .pairAckV2
  | mailboxUpdateV1 _ _ => .mailboxUpdateV1
  | mailboxUpdateV2 _ _ _ => .mailboxUpdateV2
  | mailboxUpdateV3 _ _ => .mailboxUpdateV3
  | recoveryHello _ _ => .recoveryHello

/-- The encoder of a payload; a `pair-ack/2` is written with the proof it carries. -/
def encode : ControlPayload → Option Bytes
  | pairAckV2 ack => pairAckBytes ack
  | mailboxUpdateV1 relayUrl inboxId => encodeMailboxUpdate relayUrl inboxId
  | mailboxUpdateV2 relayUrl inboxId contribution => encodeMailboxUpdateV2 relayUrl inboxId contribution
  | mailboxUpdateV3 relayUrl inboxId => encodeMailboxUpdateV3 relayUrl inboxId
  | recoveryHello generation nonce => some (encodeRecoveryHello generation nonce)

/-- The inbox id a payload carries. -/
def inboxId? : ControlPayload → Option String
  | pairAckV2 ack => some ack.inboxId
  | mailboxUpdateV1 _ inboxId | mailboxUpdateV2 _ inboxId _ | mailboxUpdateV3 _ inboxId => some inboxId
  | recoveryHello _ _ => none

/-- The byte strings written behind their lengths. -/
def sizedFields : ControlPayload → List Bytes
  | pairAckV2 ack => [ack.responderBundle, asBytes ack.relayUrl]
  | mailboxUpdateV1 relayUrl _ | mailboxUpdateV2 relayUrl _ _ | mailboxUpdateV3 relayUrl _ =>
    [asBytes relayUrl]
  | recoveryHello _ _ => []

/-- The fields of fixed width, without the inbox id. -/
def Typed : ControlPayload → Prop
  | pairAckV2 ack => ack.rootContribution.length = recoveryContribLen ∧ ack.proof.length = proofLen
  | mailboxUpdateV2 _ _ contribution => contribution.length = recoveryContribLen
  | mailboxUpdateV1 _ _ | mailboxUpdateV3 _ _ => True
  | recoveryHello generation nonce => generation < 256 ^ 4 ∧ nonce.length = recoveryHelloNonceLen

/-- The tail behind the sized fields. -/
def tail : ControlPayload → Bytes
  | pairAckV2 ack => asBytes ack.inboxId ++ (ack.rootContribution ++ ack.proof)
  | mailboxUpdateV1 _ inboxId | mailboxUpdateV3 _ inboxId => asBytes inboxId
  | mailboxUpdateV2 _ inboxId contribution => asBytes inboxId ++ contribution
  | recoveryHello generation nonce => toBeBytes 4 generation ++ nonce

/-- The payload's inbox id, if it carries one, is of the width of a mailbox id. -/
def InboxFits (f : ControlPayload) : Prop := ∀ id ∈ f.inboxId?, (asBytes id).length = mailboxIdLen

end ControlPayload

namespace ControlKind

/-- The leading byte. -/
def version : ControlKind → UInt8
  | pairAckV2 => Titlan.pairAckV2
  | mailboxUpdateV1 => controlVersion
  | mailboxUpdateV2 => Titlan.mailboxUpdateV2
  | mailboxUpdateV3 => Titlan.mailboxUpdateV3
  | recoveryHello => recoveryHelloVersion

/-- How many sized fields there are. -/
def sizedCount : ControlKind → ℕ
  | pairAckV2 => 2
  | mailboxUpdateV1 | mailboxUpdateV2 | mailboxUpdateV3 => 1
  | recoveryHello => 0

/-- The length of the tail. -/
def tailLen : ControlKind → ℕ
  | pairAckV2 => 107
  | mailboxUpdateV1 | mailboxUpdateV3 => 43
  | mailboxUpdateV2 => 75
  | recoveryHello => 20

end ControlKind

/-! ## Sized fields -/

theorem unambiguous_sized : sized.Unambiguous :=
  reads_bytesField.unambiguous fun xs => ⟨⟨xs, 0⟩, cursorTape_start xs⟩

/-- Byte strings one after the other, each behind its length. -/
def putAll : List Bytes → Option Bytes
  | [] => some []
  | xs :: fields => do return (← putBytes xs) ++ (← putAll fields)

theorem putAll_cons_eq_some {xs : Bytes} {fields : List Bytes} {out : Bytes} :
    putAll (xs :: fields) = some out ↔
      ∃ a b, putBytes xs = some a ∧ putAll fields = some b ∧ out = a ++ b := by
  simp only [putAll, bind, pure, Option.bind_eq_some_iff, Option.some.injEq]
  constructor
  · rintro ⟨a, ha, b, hb, rfl⟩
    exact ⟨a, b, ha, hb, rfl⟩
  · rintro ⟨a, b, ha, hb, rfl⟩
    exact ⟨a, ha, b, hb, rfl⟩

/-- The more sized fields a byte string is cut into, the less of it is left. -/
theorem length_le_of_putAll_append {xs ys : List Bytes} {a b s t : Bytes} (hlen : ys.length ≤ xs.length)
    (ha : putAll xs = some a) (hb : putAll ys = some b) (h : a ++ s = b ++ t) : s.length ≤ t.length := by
  induction ys generalizing xs a b with
  | nil =>
    cases hb
    have hlen := congrArg List.length h
    rw [List.nil_append, List.length_append] at hlen
    omega
  | cons y ys ih =>
    cases xs with
    | nil => cases hlen
    | cons x xs =>
      -- the first fields are read from the same place, so they are one field
      obtain ⟨a₁, a₂, hx, hxs, rfl⟩ := putAll_cons_eq_some.mp ha
      obtain ⟨b₁, b₂, hy, hys, rfl⟩ := putAll_cons_eq_some.mp hb
      rw [List.append_assoc, List.append_assoc] at h
      obtain ⟨-, rfl⟩ := unambiguous_sized hx hy h
      exact ih (Nat.le_of_succ_le_succ hlen) hxs hys (List.append_cancel_left h)

theorem putAll_isSome {fields : List Bytes} (h : ∀ xs ∈ fields, xs.length ≤ 65535) :
    ∃ out, putAll fields = some out := by
  induction fields with
  | nil => exact ⟨[], rfl⟩
  | cons xs fields ih =>
    obtain ⟨out, hout⟩ := ih fun ys hys => h ys (List.mem_cons_of_mem xs hys)
    have hxs := h xs List.mem_cons_self
    exact ⟨_, putAll_cons_eq_some.mpr ⟨_, out, putBytes_eq_some.mpr ⟨Nat.lt_succ_of_le hxs, rfl⟩, hout, rfl⟩⟩

/-! ## Encoders -/

namespace ControlPayload

/-- What every encoder writes. -/
theorem encode_eq (f : ControlPayload) :
    f.encode = (putAll f.sizedFields).map fun fields => f.kind.version :: (fields ++ f.tail) := by
  have hrelay : ∀ (version : UInt8) (relayUrl inboxId : String), encodeRelayInbox version relayUrl inboxId =
      (putAll [asBytes relayUrl]).map fun fields => version :: (fields ++ asBytes inboxId) := by
    intro version relayUrl inboxId
    rw [encodeRelayInbox, putAll, putAll]
    cases putBytes (asBytes relayUrl) <;> simp
  cases f with
  | pairAckV2 ack =>
    simp only [encode, pairAckBytes, sizedFields, putAll, kind, ControlKind.version, tail]
    cases putBytes ack.responderBundle <;> cases putBytes (asBytes ack.relayUrl) <;> simp
  | mailboxUpdateV1 relayUrl inboxId => exact hrelay _ _ _
  | mailboxUpdateV2 relayUrl inboxId contribution =>
    simp only [encode, encodeMailboxUpdateV2, hrelay, sizedFields, kind, ControlKind.version, tail]
    cases putAll [asBytes relayUrl] <;> simp
  | mailboxUpdateV3 relayUrl inboxId => exact hrelay _ _ _
  | recoveryHello generation nonce => rfl

theorem encode_eq_some {f : ControlPayload} {bytes : Bytes} :
    f.encode = some bytes ↔
      ∃ fields, putAll f.sizedFields = some fields ∧ bytes = f.kind.version :: (fields ++ f.tail) := by
  rw [encode_eq, Option.map_eq_some_iff]
  simp only [eq_comm]

theorem length_sizedFields (f : ControlPayload) : f.sizedFields.length = f.kind.sizedCount := by
  cases f <;> rfl

/-- With the other fields of their width, the tail has its length exactly if the inbox id has. -/
theorem length_tail_iff {f : ControlPayload} (h : f.Typed) :
    f.tail.length = f.kind.tailLen ↔ f.InboxFits := by
  cases f with
  | pairAckV2 ack =>
    obtain ⟨hroot, hproof⟩ := h
    simp [tail, kind, ControlKind.tailLen, InboxFits, inboxId?, mailboxIdLen, hroot, hproof,
      recoveryContribLen, proofLen]
  | mailboxUpdateV2 relayUrl inboxId contribution =>
    have hlen : contribution.length = recoveryContribLen := h
    simp [tail, kind, ControlKind.tailLen, InboxFits, inboxId?, mailboxIdLen, hlen, recoveryContribLen]
  | recoveryHello generation nonce =>
    simp [tail, kind, ControlKind.tailLen, InboxFits, inboxId?, h.2, recoveryHelloNonceLen]
  | _ => simp [tail, kind, ControlKind.tailLen, InboxFits, inboxId?, mailboxIdLen]

end ControlPayload

/-! ## Parsers -/

/-- The relay and the inbox id behind a version byte. -/
def relayInboxFormat (version : UInt8) : Format UInt8 (String × String) :=
  byte.andThen fun got => .guard (¬ got ≠ version) <|
  sized.andThen fun relay => (Format.returned (utf8 relay)).andThen fun relayUrl =>
  (fixed mailboxIdLen).andThen fun inbox => (Format.returned (utf8 inbox)).andThen fun inboxId =>
  .nothing (relayUrl, inboxId)

variable {bytes : Bytes}

theorem readRelayInbox_eq_ok {version : UInt8} {trailing relayUrl inboxId : String} :
    (readRelayInbox version trailing).run' ⟨bytes, 0⟩ = .ok (relayUrl, inboxId) ↔
      (asBytes inboxId).length = mailboxIdLen ∧
      ∃ field, putBytes (asBytes relayUrl) = some field ∧ bytes = version :: (field ++ asBytes inboxId) := by
  rw [readRelayInbox, run'_eq_ok (F := relayInboxFormat version) (reads_u8.bindAll fun _ => ReadsAll.guard <|
    reads_bytesField.bindAll fun _ => (reads_lift _).bindAll fun _ => (reads_take _).bindAll fun _ =>
    (reads_lift _).bindAll fun _ => readsAll_finish _ _)]
  simp only [relayInboxFormat, version_andThen, sized_andThen, fixed_andThen, utf8_andThen, Format.nothing]
  constructor
  · rintro ⟨_, ⟨_, field, _, hfield, ⟨_, rfl, _, _, hlen, ⟨_, rfl, heq, rfl⟩, rfl⟩, rfl⟩, rfl⟩
    cases heq
    exact ⟨hlen, field, hfield, by simp⟩
  · rintro ⟨hlen, field, hfield, rfl⟩
    exact ⟨_, ⟨_, field, _, hfield, ⟨_, rfl, _, _, hlen, ⟨_, rfl, rfl, rfl⟩, rfl⟩, rfl⟩, by simp⟩

/-- A relay, an inbox id and a contribution behind a version byte. -/
def updateV2Format : Format UInt8 (String × String × Bytes) :=
  byte.andThen fun got => .guard (¬ got ≠ mailboxUpdateV2) <|
  sized.andThen fun relay => (Format.returned (utf8 relay)).andThen fun relayUrl =>
  (fixed mailboxIdLen).andThen fun inbox => (Format.returned (utf8 inbox)).andThen fun inboxId =>
  (fixed recoveryContribLen).andThen fun contribution => .nothing (relayUrl, inboxId, contribution)

theorem parseMailboxUpdateV2_eq_ok {relayUrl inboxId : String} {contribution bytes : Bytes} :
    parseMailboxUpdateV2 bytes = .ok (relayUrl, inboxId, contribution) ↔
      contribution.length = recoveryContribLen ∧ (asBytes inboxId).length = mailboxIdLen ∧
      ∃ field, putBytes (asBytes relayUrl) = some field ∧
        bytes = mailboxUpdateV2 :: (field ++ (asBytes inboxId ++ contribution)) := by
  rw [parseMailboxUpdateV2, run'_eq_ok (F := updateV2Format) (reads_u8.bindAll fun _ => ReadsAll.guard <|
    reads_bytesField.bindAll fun _ => (reads_lift _).bindAll fun _ => (reads_take _).bindAll fun _ =>
    (reads_lift _).bindAll fun _ => (reads_take _).bindAll fun _ => readsAll_finish _ _)]
  simp only [updateV2Format, version_andThen, sized_andThen, fixed_andThen, utf8_andThen, Format.nothing]
  constructor
  · rintro ⟨_, ⟨_, field, _, hfield, ⟨_, rfl, _, _, hlen, ⟨_, rfl, _, _, hcontrib, ⟨heq, rfl⟩, rfl⟩, rfl⟩,
      rfl⟩, rfl⟩
    cases heq
    exact ⟨hcontrib, hlen, field, hfield, by simp⟩
  · rintro ⟨hcontrib, hlen, field, hfield, rfl⟩
    exact ⟨_, ⟨_, field, _, hfield, ⟨_, rfl, _, _, hlen, ⟨_, rfl, _, [], hcontrib, ⟨rfl, rfl⟩, rfl⟩, rfl⟩,
      rfl⟩, by simp⟩

/-- The fields of a `pair-ack/2`, in order. -/
def pairAckFormat : Format UInt8 (PairAckV2 Bytes String String Bytes Bytes) :=
  byte.andThen fun got => .guard (¬ got ≠ pairAckV2) <|
  sized.andThen fun responderBundle =>
  sized.andThen fun relay => (Format.returned (utf8 relay)).andThen fun relayUrl =>
  (fixed mailboxIdLen).andThen fun inbox => (Format.returned (utf8 inbox)).andThen fun inboxId =>
  (fixed recoveryContribLen).andThen fun rootContribution =>
  (fixed proofLen).andThen fun proof =>
  .nothing { responderBundle, relayUrl, inboxId, rootContribution, proof }

theorem parsePairAckV2_eq_ok {ack : PairAckV2 Bytes String String Bytes Bytes} :
    parsePairAckV2 bytes = .ok ack ↔
      (ack.rootContribution.length = recoveryContribLen ∧ ack.proof.length = proofLen) ∧
      (asBytes ack.inboxId).length = mailboxIdLen ∧
      ∃ bundle field, putBytes ack.responderBundle = some bundle ∧
        putBytes (asBytes ack.relayUrl) = some field ∧
        bytes = pairAckV2 ::
          (bundle ++ (field ++ (asBytes ack.inboxId ++ (ack.rootContribution ++ ack.proof)))) := by
  rw [parsePairAckV2, run'_eq_ok (F := pairAckFormat) (reads_u8.bindAll fun _ => ReadsAll.guard <|
    reads_bytesField.bindAll fun _ => reads_bytesField.bindAll fun _ => (reads_lift _).bindAll fun _ =>
    (reads_take _).bindAll fun _ => (reads_lift _).bindAll fun _ => (reads_take _).bindAll fun _ =>
    (reads_take _).bindAll fun _ => readsAll_finish _ _)]
  simp only [pairAckFormat, version_andThen, sized_andThen, fixed_andThen, utf8_andThen, Format.nothing]
  constructor
  · rintro ⟨_, ⟨_, bundle, _, hbundle, ⟨_, field, _, hfield, ⟨_, rfl, _, _, hlen, ⟨_, rfl, _, _, hroot,
      ⟨_, _, hproof, ⟨rfl, rfl⟩, rfl⟩, rfl⟩, rfl⟩, rfl⟩, rfl⟩, rfl⟩
    exact ⟨⟨hroot, hproof⟩, hlen, bundle, field, hbundle, hfield, by simp⟩
  · rintro ⟨⟨hroot, hproof⟩, hlen, bundle, field, hbundle, hfield, rfl⟩
    exact ⟨_, ⟨_, bundle, _, hbundle, ⟨_, field, _, hfield, ⟨_, rfl, _, _, hlen, ⟨_, rfl, _, _, hroot,
      ⟨_, [], hproof, ⟨rfl, rfl⟩, rfl⟩, rfl⟩, rfl⟩, rfl⟩, rfl⟩, by simp⟩

theorem parseRecoveryHello_eq_ok {generation : ℕ} {nonce bytes : Bytes} :
    parseRecoveryHello bytes = .ok (generation, nonce) ↔
      (generation < 256 ^ 4 ∧ nonce.length = recoveryHelloNonceLen) ∧
        bytes = recoveryHelloVersion :: (toBeBytes 4 generation ++ nonce) := by
  constructor
  · intro h
    unfold parseRecoveryHello at h
    split at h
    · cases h
    rename_i hlen
    split at h
    · cases h
    rename_i hversion
    rw [not_not] at hlen hversion
    cases h
    obtain ⟨version, rest, rfl⟩ := List.exists_cons_of_length_eq_add_one (n := 20) hlen
    rw [List.getD_cons_zero] at hversion
    have hrest : rest.length = 20 := Nat.succ.inj hlen
    have hfield : (rest.take 4).length = 4 := by rw [List.length_take, hrest]; rfl
    have hbytes := toBeBytes_fromBeBytes (rest.take 4)
    rw [hfield] at hbytes
    refine ⟨⟨?_, ?_⟩, ?_⟩
    · have hlt := fromBeBytes_lt (rest.take 4)
      rwa [hfield] at hlt
    · simp [recoveryHelloNonceLen, hrest]
    · simp only [List.drop_succ_cons, List.drop_zero]
      rw [hbytes, List.take_append_drop, hversion]
  · rintro ⟨⟨hgen, hnonce⟩, rfl⟩
    exact parseRecoveryHello_encode (Nat.le_of_lt_succ hgen) hnonce

theorem putAll_singleton (xs : Bytes) : putAll [xs] = putBytes xs := by
  rw [putAll, putAll]
  cases putBytes xs <;> simp

variable {f : ControlPayload}

theorem kind_of_parse {kind : ControlKind} (h : kind.parse bytes = .ok f) : f.kind = kind := by
  cases kind <;> obtain ⟨out, -, rfl⟩ := result_map_eq_ok.mp h <;> rfl

/-- **What a parser accepts** is what the encoder writes for fields of their width. -/
theorem ControlPayload.parse_eq_ok :
    f.kind.parse bytes = .ok f ↔ f.Typed ∧ f.InboxFits ∧ f.encode = some bytes := by
  rw [encode_eq_some]
  cases f with
  | pairAckV2 ack =>
    simp only [kind, ControlKind.parse, result_map_eq_ok, pairAckV2.injEq, exists_eq_right,
      parsePairAckV2_eq_ok, Typed, InboxFits, inboxId?, Option.mem_def, Option.some.injEq, forall_eq',
      sizedFields, putAll_cons_eq_some, putAll_singleton, tail, ControlKind.version]
    constructor
    · rintro ⟨htyped, hinbox, bundle, field, hbundle, hfield, rfl⟩
      exact ⟨htyped, hinbox, bundle ++ field, ⟨bundle, field, hbundle, hfield, rfl⟩, by simp⟩
    · rintro ⟨htyped, hinbox, _, ⟨bundle, field, hbundle, hfield, rfl⟩, rfl⟩
      exact ⟨htyped, hinbox, bundle, field, hbundle, hfield, by simp⟩
  | mailboxUpdateV1 relayUrl inboxId =>
    simp only [kind, ControlKind.parse, result_map_eq_ok, mailboxUpdateV1.injEq, Prod.exists, Typed, InboxFits,
      inboxId?, Option.mem_def, Option.some.injEq, forall_eq', sizedFields, putAll_singleton, tail,
      ControlKind.version, ↓existsAndEq, and_true, true_and]
    exact readRelayInbox_eq_ok
  | mailboxUpdateV2 relayUrl inboxId contribution =>
    simp [kind, ControlKind.parse, result_map_eq_ok, parseMailboxUpdateV2_eq_ok, Typed,
      InboxFits, inboxId?, sizedFields, putAll_singleton, tail, ControlKind.version]
  | mailboxUpdateV3 relayUrl inboxId =>
    simp only [kind, ControlKind.parse, result_map_eq_ok, mailboxUpdateV3.injEq, Prod.exists, Typed, InboxFits,
      inboxId?, Option.mem_def, Option.some.injEq, forall_eq', sizedFields, putAll_singleton, tail,
      ControlKind.version, ↓existsAndEq, and_true, true_and]
    exact readRelayInbox_eq_ok
  | recoveryHello generation nonce =>
    simp [kind, ControlKind.parse, result_map_eq_ok, parseRecoveryHello_eq_ok, Typed,
      InboxFits, inboxId?, sizedFields, putAll, tail, ControlKind.version]

/-! ## Five languages -/

variable {f f' : ControlPayload} {k k' : ControlKind}

/-- Two accepted strings, one an initial part of the other: the kind that reads more sized fields leaves
the shorter tail. -/
theorem tailLen_le_of_parse {bytes t : Bytes}
    (h : k.parse bytes = .ok f) (h' : k'.parse (bytes ++ t) = .ok f') (hcount : k'.sizedCount ≤ k.sizedCount) :
    k.version = k'.version ∧ k.tailLen + t.length ≤ k'.tailLen := by
  obtain rfl := kind_of_parse h
  obtain rfl := kind_of_parse h'
  obtain ⟨htyped, hinbox, henc⟩ := ControlPayload.parse_eq_ok.mp h
  obtain ⟨htyped', hinbox', henc'⟩ := ControlPayload.parse_eq_ok.mp h'
  obtain ⟨a, ha, rfl⟩ := ControlPayload.encode_eq_some.mp henc
  obtain ⟨b, hb, heq⟩ := ControlPayload.encode_eq_some.mp henc'
  rw [List.cons_append, List.cons.injEq, List.append_assoc] at heq
  refine ⟨heq.1, ?_⟩
  rw [← f.length_sizedFields, ← f'.length_sizedFields] at hcount
  have hle := length_le_of_putAll_append hcount ha hb heq.2
  rwa [List.length_append, (ControlPayload.length_tail_iff htyped).mpr hinbox,
    (ControlPayload.length_tail_iff htyped').mpr hinbox'] at hle

/-- A version byte that two kinds share is followed by more sized fields and a longer tail in one. -/
theorem ControlKind.eq_of_tailLen (hversion : k.version = k'.version)
    (h : k'.sizedCount ≤ k.sizedCount → k.tailLen ≤ k'.tailLen)
    (h' : k.sizedCount ≤ k'.sizedCount → k'.tailLen ≤ k.tailLen) : k = k' := by
  cases k <;> cases k' <;> first | rfl | (exfalso; revert hversion h h'; decide)

/-- Encoding and parsing back: the fields return if the inbox id has its width, and nothing is accepted
otherwise. -/
theorem ControlPayload.parse_encode (htyped : f.Typed)
    (hsized : ∀ xs ∈ f.sizedFields, xs.length ≤ 65535) :
    ∃ bytes, f.encode = some bytes ∧ (f.InboxFits → f.kind.parse bytes = .ok f) ∧
      (¬ f.InboxFits → ∃ e, f.kind.parse bytes = .error e) := by
  obtain ⟨a, ha⟩ := putAll_isSome hsized
  have henc : f.encode = some (f.kind.version :: (a ++ f.tail)) := encode_eq_some.mpr ⟨a, ha, rfl⟩
  refine ⟨_, henc, fun hfits => parse_eq_ok.mpr ⟨htyped, hfits, henc⟩, ?_⟩
  intro hfits
  cases hparse : f.kind.parse (f.kind.version :: (a ++ f.tail)) with
  | error e => exact ⟨e, rfl⟩
  | ok f' =>
    -- what was read has as many sized fields, so the two tails are of one length
    exfalso
    have hkind := kind_of_parse hparse
    rw [← hkind] at hparse
    obtain ⟨htyped', hfits', henc'⟩ := parse_eq_ok.mp hparse
    obtain ⟨b, hb, heq⟩ := encode_eq_some.mp henc'
    rw [hkind, List.cons.injEq] at heq
    have hcount : f.sizedFields.length = f'.sizedFields.length := by
      rw [length_sizedFields, length_sizedFields, hkind]
    have htail : f'.tail.length = f.kind.tailLen := by rw [(length_tail_iff htyped').mpr hfits', hkind]
    have hle := length_le_of_putAll_append (Nat.le_of_eq hcount.symm) ha hb heq.2
    have hge := length_le_of_putAll_append (Nat.le_of_eq hcount) hb ha heq.2.symm
    exact hfits ((length_tail_iff htyped).mp (by omega))

/-- No accepted string is an initial part of another of its kind. -/
theorem ControlKind.eq_of_prefix_of_parse {k : ControlKind} {bytes bytes' : Bytes}
    (h : k.parse bytes = .ok f) (h' : k.parse bytes' = .ok f') (hpre : bytes <+: bytes') : bytes = bytes' := by
  obtain ⟨t, rfl⟩ := hpre
  obtain ⟨-, hle⟩ := tailLen_le_of_parse h h' le_rfl
  obtain rfl : t = [] := List.eq_nil_of_length_eq_zero (by omega)
  rw [List.append_nil]

/-- No string is accepted by two parsers. -/
theorem ControlKind.eq_of_parse
    (h : k.parse bytes = .ok f) (h' : k'.parse bytes = .ok f') : k = k' := by
  have hle : k'.sizedCount ≤ k.sizedCount → k.version = k'.version ∧ k.tailLen ≤ k'.tailLen :=
    tailLen_le_of_parse (t := []) h (by rwa [List.append_nil])
  have hge : k.sizedCount ≤ k'.sizedCount → k'.version = k.version ∧ k'.tailLen ≤ k.tailLen :=
    tailLen_le_of_parse (t := []) h' (by rwa [List.append_nil])
  refine eq_of_tailLen ?_ (fun hc => (hle hc).2) (fun hc => (hge hc).2)
  rcases Nat.le_total k'.sizedCount k.sizedCount with hc | hc
  · exact (hle hc).1
  · exact (hge hc).1.symm

/-- **Control payloads have one meaning each.** With sized fields of at most 65535 bytes every encoder
succeeds, and its output parses to the same fields exactly for an inbox id of 43 bytes; so does the output
of the `pair-ack/2` encoder, with the proof it computes. An accepted string is the encoding of the fields
read from it, is no proper initial part of another string its parser accepts, and is accepted by no other
parser. -/
theorem control_payloads_unambiguous :
    (∀ f : ControlPayload, f.Typed → (∀ xs ∈ f.sizedFields, xs.length ≤ 65535) →
      ∃ bytes, f.encode = some bytes ∧ (f.InboxFits → f.kind.parse bytes = .ok f) ∧
        (¬ f.InboxFits → ∃ e, f.kind.parse bytes = .error e)) ∧
    (∀ (hmacSha256 : Bytes → Bytes → Bytes) (responderBundle : Bytes) (relayUrl inboxId : String)
        (rootContribution pairingSecret : Bytes),
      let proof := computeProofOfScan hmacSha256 pairingSecret responderBundle rootContribution
      proof.length = proofLen → rootContribution.length = recoveryContribLen →
      responderBundle.length ≤ 65535 → (asBytes relayUrl).length ≤ 65535 →
      ∃ bytes, encodePairAckV2 hmacSha256 responderBundle relayUrl inboxId rootContribution pairingSecret =
          some bytes ∧
        ((asBytes inboxId).length = mailboxIdLen → parsePairAckV2 bytes =
          .ok ⟨responderBundle, relayUrl, inboxId, rootContribution, proof⟩) ∧
        ((asBytes inboxId).length ≠ mailboxIdLen → ∃ e, parsePairAckV2 bytes = .error e)) ∧
    (∀ (kind : ControlKind) (f : ControlPayload) (bytes : Bytes), kind.parse bytes = .ok f →
      f.kind = kind ∧ f.encode = some bytes) ∧
    (∀ (kind : ControlKind) (f f' : ControlPayload) (bytes bytes' : Bytes), kind.parse bytes = .ok f →
      kind.parse bytes' = .ok f' → bytes <+: bytes' → bytes = bytes') ∧
    ∀ (kind kind' : ControlKind) (f f' : ControlPayload) (bytes : Bytes), kind.parse bytes = .ok f →
      kind'.parse bytes = .ok f' → kind = kind' := by
  refine ⟨fun f htyped hsized => f.parse_encode htyped hsized, ?_, ?_, ?_, ?_⟩
  · intro hmac bundle relayUrl inboxId root secret proof hproof hroot hbundle hrelay
    obtain ⟨bytes, henc, hok, herr⟩ := ControlPayload.parse_encode
      (f := .pairAckV2 ⟨bundle, relayUrl, inboxId, root, proof⟩) ⟨hroot, hproof⟩
      (by simpa [ControlPayload.sizedFields] using ⟨hbundle, hrelay⟩)
    have hfits : ControlPayload.InboxFits (.pairAckV2 ⟨bundle, relayUrl, inboxId, root, proof⟩) ↔
        (asBytes inboxId).length = mailboxIdLen := by
      simp [ControlPayload.InboxFits, ControlPayload.inboxId?]
    refine ⟨bytes, henc, fun hlen => ?_, fun hlen => ?_⟩
    · obtain ⟨ack, hack, heq⟩ := result_map_eq_ok.mp (hok (hfits.mpr hlen))
      cases heq
      exact hack
    · obtain ⟨e, he⟩ := herr (mt hfits.mp hlen)
      cases hparse : parsePairAckV2 bytes with
      | error e => exact ⟨e, rfl⟩
      | ok ack => simp [ControlPayload.kind, ControlKind.parse, hparse, Except.map] at he
  · intro kind f bytes h
    obtain rfl := kind_of_parse h
    exact ⟨rfl, (ControlPayload.parse_eq_ok.mp h).2.2⟩
  · intro kind f f' bytes bytes' h h' hpre
    exact ControlKind.eq_of_prefix_of_parse h h' hpre
  · intro kind kind' f f' bytes h h'
    exact ControlKind.eq_of_parse h h'

/-- A `mailbox-update/1` and the same fields with an inbox id too short. -/
theorem small_update_roundtrip :
    (∃ bytes, (ControlPayload.mailboxUpdateV1 "r" (String.ofList (List.replicate 43 'A'))).encode =
        some bytes ∧
      ControlKind.mailboxUpdateV1.parse bytes =
        .ok (.mailboxUpdateV1 "r" (String.ofList (List.replicate 43 'A')))) ∧
    ∃ bytes, (ControlPayload.mailboxUpdateV1 "r" "A").encode = some bytes ∧
      ∃ e, ControlKind.mailboxUpdateV1.parse bytes = .error e := by
  constructor
  · obtain ⟨bytes, henc, hok, -⟩ := control_payloads_unambiguous.1
      (.mailboxUpdateV1 "r" (String.ofList (List.replicate 43 'A'))) trivial (by decide)
    refine ⟨bytes, henc, hok ?_⟩
    intro id hid
    obtain rfl := Option.some.inj hid
    decide
  · obtain ⟨bytes, henc, -, herr⟩ := control_payloads_unambiguous.1
      (.mailboxUpdateV1 "r" "A") trivial (by decide)
    exact ⟨bytes, henc, herr fun hfits => absurd (hfits "A" rfl) (by decide)⟩

end Titlan
