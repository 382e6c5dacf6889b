import Titlan.Codec.Cursor

/-! # Pairing bundles on the wire

The bundle's grammar, field by field, and what `parse` makes of it. The one-time prekey is the only field
that is not kept as it stands: under the absent id the parser drops whatever key comes with it, and
`serialize` writes an empty one. So a bundle is written back byte for byte exactly if it carries no key
under the absent id; and every bundle that can be written at all is read back. -/

namespace Titlan

open Foundation

/-- The fields of a bundle, in order. -/
def bundleFormat : Format UInt8 BundleData :=
  byte.andThen fun version => .guard (¬ version ≠ bundleFormatVersion) <|
  sized.andThen fun field => .given (fromUtf8 field) fun addressName =>
  (beField 4).andThen fun registrationId =>
  (beField 4).andThen fun deviceId => .guard (¬ deviceId ≠ 1) <|
  sized.andThen fun identityKey =>
  (beField 4).andThen fun signedPrekeyId =>
  sized.andThen fun signedPrekeyPub =>
  sized.andThen fun signedPrekeySig =>
  (beField 4).andThen fun kyberPrekeyId =>
  sized.andThen fun kyberPrekeyPub =>
  sized.andThen fun kyberPrekeySig => .guard (¬ kyberPrekeyPub = []) <|
  (beField 4).andThen fun onetimeId =>
  sized.andThen fun onetimePub =>
  .nothing
    { addressName, registrationId, deviceId, identityKey, signedPrekeyId, signedPrekeyPub,
      signedPrekeySig, kyberPrekeyId, kyberPrekeyPub, kyberPrekeySig,
      onetimePrekey := if onetimeId = absentId then none else some (onetimeId, onetimePub) }

theorem readsAll_bundle : ReadsAll cursorTape readBundle bundleFormat := by
  refine reads_u8.bindAll fun version => ReadsAll.guard <| reads_bytesField.bindAll fun field => ?_
  refine readsAll_given (fun addressName hname => ?_) fun hname => by rw [hname]
  rw [hname]
  exact reads_u32.bindAll fun registrationId => reads_u32.bindAll fun deviceId => ReadsAll.guard <|
    reads_bytesField.bindAll fun identityKey => reads_u32.bindAll fun signedPrekeyId =>
    reads_bytesField.bindAll fun signedPrekeyPub => reads_bytesField.bindAll fun signedPrekeySig =>
    reads_u32.bindAll fun kyberPrekeyId => reads_bytesField.bindAll fun kyberPrekeyPub =>
    reads_bytesField.bindAll fun kyberPrekeySig => ReadsAll.guard <|
    reads_u32.bindAll fun onetimeId => reads_bytesField.bindAll fun onetimePub => readsAll_finish _ _

/-! ## Layout -/

/-- The bytes of a bundle, with the one-time prekey's id and key as given. -/
def bundleLayout (data : BundleData) (onetimeId : ℕ) (onetimePub : Bytes) : Option Bytes := do
  return [bundleFormatVersion] ++ (← putBytes (asBytes data.addressName))
    ++ toBeBytes 4 data.registrationId ++ toBeBytes 4 data.deviceId
    ++ (← putBytes data.identityKey)
    ++ toBeBytes 4 data.signedPrekeyId ++ (← putBytes data.signedPrekeyPub)
    ++ (← putBytes data.signedPrekeySig)
    ++ toBeBytes 4 data.kyberPrekeyId ++ (← putBytes data.kyberPrekeyPub)
    ++ (← putBytes data.kyberPrekeySig)
    ++ toBeBytes 4 onetimeId ++ (← putBytes onetimePub)

theorem serializeBundle_eq (data : BundleData) :
    serializeBundle data = bundleLayout data (data.onetimePrekey.getD (absentId, [])).1
      (data.onetimePrekey.getD (absentId, [])).2 := rfl

/-- The ids are `u32`s. -/
structure BundleData.IdsFit (data : BundleData) : Prop where
  registrationId : data.registrationId < 256 ^ 4
  signedPrekeyId : data.signedPrekeyId < 256 ^ 4
  kyberPrekeyId : data.kyberPrekeyId < 256 ^ 4
  onetimeId : ∀ id key, data.onetimePrekey = some (id, key) → id < 256 ^ 4

/-- Every variable field fits its length prefix. -/
structure BundleData.FieldsFit (data : BundleData) : Prop where
  addressName : (asBytes data.addressName).length ≤ 65535
  identityKey : data.identityKey.length ≤ 65535
  signedPrekeyPub : data.signedPrekeyPub.length ≤ 65535
  signedPrekeySig : data.signedPrekeySig.length ≤ 65535
  kyberPrekeyPub : data.kyberPrekeyPub.length ≤ 65535
  kyberPrekeySig : data.kyberPrekeySig.length ≤ 65535
  onetimePub : ∀ id key, data.onetimePrekey = some (id, key) → key.length ≤ 65535

variable {data : BundleData}

theorem bundleLayout_eq_some {onetimeId : ℕ} {onetimePub bytes : Bytes} :
    bundleLayout data onetimeId onetimePub = some bytes ↔
      ∃ name identity signedPub signedSig kyberPub kyberSig onetime,
        putBytes (asBytes data.addressName) = some name ∧ putBytes data.identityKey = some identity ∧
        putBytes data.signedPrekeyPub = some signedPub ∧ putBytes data.signedPrekeySig = some signedSig ∧
        putBytes data.kyberPrekeyPub = some kyberPub ∧ putBytes data.kyberPrekeySig = some kyberSig ∧
        putBytes onetimePub = some onetime ∧
        bytes = [bundleFormatVersion] ++ (name ++ (toBeBytes 4 data.registrationId ++
          (toBeBytes 4 data.deviceId ++ (identity ++ (toBeBytes 4 data.signedPrekeyId ++
          (signedPub ++ (signedSig ++ (toBeBytes 4 data.kyberPrekeyId ++ (kyberPub ++ (kyberSig ++
          (toBeBytes 4 onetimeId ++ onetime))))))))))) := by
  simp only [bundleLayout, bind, pure, Option.bind_eq_some_iff, Option.some.injEq, List.append_assoc]
  constructor
  · rintro ⟨name, hname, identity, hidentity, signedPub, hsignedPub, signedSig, hsignedSig, kyberPub,
      hkyberPub, kyberSig, hkyberSig, onetime, honetime, rfl⟩
    exact ⟨name, identity, signedPub, signedSig, kyberPub, kyberSig, onetime, hname, hidentity,
      hsignedPub, hsignedSig, hkyberPub, hkyberSig, honetime, rfl⟩
  · rintro ⟨name, identity, signedPub, signedSig, kyberPub, kyberSig, onetime, hname, hidentity,
      hsignedPub, hsignedSig, hkyberPub, hkyberSig, honetime, rfl⟩
    exact ⟨name, hname, identity, hidentity, signedPub, hsignedPub, signedSig, hsignedSig, kyberPub,
      hkyberPub, kyberSig, hkyberSig, onetime, honetime, rfl⟩

/-- **What `parse` accepts**: the layouts of well-formed bundles. -/
theorem parseBundle_eq_ok {bytes : Bytes} : parseBundle bytes = .ok data ↔ ∃ onetimeId onetimePub,
      bundleLayout data onetimeId onetimePub = some bytes ∧ onetimeId < 256 ^ 4 ∧
      data.registrationId < 256 ^ 4 ∧ data.signedPrekeyId < 256 ^ 4 ∧ data.kyberPrekeyId < 256 ^ 4 ∧
      data.deviceId = 1 ∧ data.kyberPrekeyPub ≠ [] ∧
      data.onetimePrekey = if onetimeId = absentId then none else some (onetimeId, onetimePub) := by
  rw [parseBundle, run'_eq_ok readsAll_bundle, bundleFormat, version_andThen]
  simp only [bundleLayout_eq_some, sized_andThen, beField_andThen, Format.given, fromUtf8_eq_some, Format.guard,
    not_not, Format.nothing]
  constructor
  · -- part by part: one pattern for all the fields takes seconds to match
    rintro ⟨_, ⟨_, name, _, hname, ⟨_, rfl, _, _, hreg, ⟨_, _, -, ⟨rfl, _, identity, _, hidentity, hsignedPart,
      rfl⟩, rfl⟩, rfl⟩, rfl⟩, rfl⟩
    obtain ⟨_, _, hsigned, ⟨_, signedPub, _, hsignedPub, ⟨_, signedSig, _, hsignedSig, hkyberPart, rfl⟩, rfl⟩,
      rfl⟩ := hsignedPart
    obtain ⟨_, _, hkyber, ⟨_, kyberPub, _, hkyberPub, ⟨_, kyberSig, _, hkyberSig, ⟨hpq, honetimePart⟩, rfl⟩, rfl⟩,
      rfl⟩ := hkyberPart
    obtain ⟨onetimeId, _, honetimeId, ⟨onetimePub, onetime, _, honetime, ⟨rfl, rfl⟩, rfl⟩, rfl⟩ := honetimePart
    exact ⟨onetimeId, onetimePub, ⟨name, identity, signedPub, signedSig, kyberPub, kyberSig, onetime,
      hname, hidentity, hsignedPub, hsignedSig, hkyberPub, hkyberSig, honetime,
      by rw [List.append_nil]; rfl⟩, honetimeId, hreg, hsigned, hkyber, rfl, hpq, rfl⟩
  · rintro ⟨onetimeId, onetimePub, ⟨name, identity, signedPub, signedSig, kyberPub, kyberSig, onetime,
      hname, hidentity, hsignedPub, hsignedSig, hkyberPub, hkyberSig, honetime, rfl⟩, honetimeId, hreg,
      hsigned, hkyber, hdevice, hpq, hprekey⟩
    obtain ⟨addressName, registrationId, deviceId, identityKey, signedPrekeyId, signedPrekeyPub,
      signedPrekeySig, kyberPrekeyId, kyberPrekeyPub, kyberPrekeySig, onetimePrekey⟩ := data
    subst hdevice hprekey
    exact ⟨_, ⟨_, name, _, hname, ⟨_, rfl, _, _, hreg, ⟨1, _, by decide, ⟨rfl, _, identity, _, hidentity,
      ⟨_, _, hsigned, ⟨_, signedPub, _, hsignedPub, ⟨_, signedSig, _, hsignedSig, ⟨_, _, hkyber,
      ⟨_, kyberPub, _, hkyberPub, ⟨_, kyberSig, _, hkyberSig, ⟨hpq, onetimeId, _, honetimeId,
      ⟨onetimePub, onetime, [], honetime, ⟨rfl, rfl⟩, rfl⟩, rfl⟩, rfl⟩, rfl⟩, rfl⟩, rfl⟩, rfl⟩, rfl⟩, rfl⟩,
      rfl⟩, rfl⟩, rfl⟩, by rw [List.append_nil]; rfl⟩

/-! ## Canonicity -/

theorem putBytes_of_le {bytes : Bytes} (h : bytes.length ≤ 65535) :
    putBytes bytes = some (toBeBytes 2 bytes.length ++ bytes) :=
  putBytes_eq_some.mpr ⟨Nat.lt_succ_of_le h, rfl⟩

/-- Where a length-prefixed field ends is in the bytes. -/
theorem putBytes_append_inj {xs ys field field' rest rest' : Bytes} (hx : putBytes xs = some field)
    (hy : putBytes ys = some field') (h : field ++ rest = field' ++ rest') : xs = ys ∧ rest = rest' := by
  obtain ⟨hxs, rfl⟩ := putBytes_eq_some.mp hx
  obtain ⟨hys, rfl⟩ := putBytes_eq_some.mp hy
  rw [List.append_assoc, List.append_assoc] at h
  obtain ⟨hlengths, hrest⟩ := List.append_inj h (by rw [length_toBeBytes, length_toBeBytes])
  exact List.append_inj hrest (toBeBytes_inj hxs hys hlengths)

/-- The one-time prekey's id and key are what the bytes say. -/
theorem bundleLayout_inj {data' : BundleData} {id id' : ℕ} {key key' bytes : Bytes} (hid : id < 256 ^ 4)
    (hid' : id' < 256 ^ 4) (h : bundleLayout data id key = some bytes)
    (h' : bundleLayout data' id' key' = some bytes) : id = id' ∧ key = key' := by
  have hfixed : ∀ {m n : ℕ} {xs ys : Bytes}, toBeBytes 4 m ++ xs = toBeBytes 4 n ++ ys →
      toBeBytes 4 m = toBeBytes 4 n ∧ xs = ys :=
    fun h => List.append_inj h (by rw [length_toBeBytes, length_toBeBytes])
  obtain ⟨name, identity, signedPub, signedSig, kyberPub, kyberSig, onetime, hname, hidentity, hsignedPub,
    hsignedSig, hkyberPub, hkyberSig, honetime, rfl⟩ := bundleLayout_eq_some.mp h
  obtain ⟨name', identity', signedPub', signedSig', kyberPub', kyberSig', onetime', hname', hidentity',
    hsignedPub', hsignedSig', hkyberPub', hkyberSig', honetime', heq⟩ := bundleLayout_eq_some.mp h'
  obtain ⟨-, heq⟩ := putBytes_append_inj hname hname' (List.append_cancel_left heq)
  obtain ⟨-, heq⟩ := putBytes_append_inj hidentity hidentity' (hfixed (hfixed heq).2).2
  obtain ⟨-, heq⟩ := putBytes_append_inj hsignedPub hsignedPub' (hfixed heq).2
  obtain ⟨-, heq⟩ := putBytes_append_inj hsignedSig hsignedSig' heq
  obtain ⟨-, heq⟩ := putBytes_append_inj hkyberPub hkyberPub' (hfixed heq).2
  obtain ⟨-, heq⟩ := putBytes_append_inj hkyberSig hkyberSig' heq
  obtain ⟨hids, hkeys⟩ := hfixed heq
  exact ⟨toBeBytes_inj hid hid' hids,
    (putBytes_append_inj honetime honetime' (congrArg (· ++ []) hkeys)).1⟩

/-- The bytes carry a key under the absent id. -/
def StrayKey (bytes : Bytes) : Prop :=
  ∃ data key, key ≠ [] ∧ bundleLayout data absentId key = some bytes

/-- **Bundles are canonical but for a key under the absent id.** An accepted byte string is written back
as it was exactly if it carries no such key; and a bundle that can be written is read back. -/
theorem bundle_canonical_iff (bytes : Bytes) (data : BundleData) :
    (parseBundle bytes = .ok data → (serializeBundle data = some bytes ↔ ¬ StrayKey bytes)) ∧
    (data.IdsFit → data.FieldsFit → data.deviceId = 1 → data.kyberPrekeyPub ≠ [] →
      (∀ id key, data.onetimePrekey = some (id, key) → id ≠ absentId) →
      ∃ bytes, serializeBundle data = some bytes ∧ parseBundle bytes = .ok data) := by
  constructor
  · intro hparse
    obtain ⟨id, key, hlayout, hid, -, -, -, -, -, hprekey⟩ := parseBundle_eq_ok.mp hparse
    rw [serializeBundle_eq, hprekey]
    by_cases habsent : id = absentId
    · subst habsent
      rw [if_pos rfl, Option.getD_none]
      constructor
      · rintro hempty ⟨_, stray, hstray, hlayout'⟩
        exact hstray (bundleLayout_inj (by decide) (by decide) hlayout' hempty).2
      · intro hno
        have hkey : key = [] := by
          by_contra hne
          exact hno ⟨data, key, hne, hlayout⟩
        rwa [hkey] at hlayout
    · rw [if_neg habsent, Option.getD_some]
      refine iff_of_true hlayout ?_
      rintro ⟨_, stray, -, hlayout'⟩
      exact habsent (bundleLayout_inj hid (by decide) hlayout hlayout').1
  · intro hids hfields hdevice hpq hnamed
    have honetime : (data.onetimePrekey.getD (absentId, [])).1 < 256 ^ 4 ∧
        (data.onetimePrekey.getD (absentId, [])).2.length ≤ 65535 ∧
        data.onetimePrekey = if (data.onetimePrekey.getD (absentId, [])).1 = absentId then none
          else some (data.onetimePrekey.getD (absentId, [])) := by
      cases hprekey : data.onetimePrekey with
      | none => exact ⟨by decide, by decide, rfl⟩
      | some prekey =>
        obtain ⟨id, key⟩ := prekey
        refine ⟨hids.onetimeId id key hprekey, hfields.onetimePub id key hprekey, ?_⟩
        rw [Option.getD_some, if_neg (hnamed id key hprekey)]
    obtain ⟨hid, hkey, hprekey⟩ := honetime
    obtain ⟨bytes, hlayout⟩ : ∃ bytes, serializeBundle data = some bytes :=
      ⟨_, bundleLayout_eq_some.mpr ⟨_, _, _, _, _, _, _, putBytes_of_le hfields.addressName,
        putBytes_of_le hfields.identityKey, putBytes_of_le hfields.signedPrekeyPub,
        putBytes_of_le hfields.signedPrekeySig, putBytes_of_le hfields.kyberPrekeyPub,
        putBytes_of_le hfields.kyberPrekeySig, putBytes_of_le hkey, rfl⟩⟩
    exact ⟨bytes, hlayout, parseBundle_eq_ok.mpr ⟨_, _, hlayout, hid, hids.registrationId,
      hids.signedPrekeyId, hids.kyberPrekeyId, hdevice, hpq, hprekey⟩⟩

/-- A small bundle. -/
def smallBundle (onetimePrekey : Option (ℕ × Bytes)) : BundleData where
  addressName := "05"
  registrationId := 7
  deviceId := 1
  identityKey := [5, 7]
  signedPrekeyId := 1
  signedPrekeyPub := [1]
  signedPrekeySig := [2]
  kyberPrekeyId := 1
  kyberPrekeyPub := [3]
  kyberPrekeySig := [4]
  onetimePrekey := onetimePrekey

/-- A bundle whose one-time prekey has the absent id and the key `[9]`. -/
def strayBundle : Bytes :=
  [1, 0, 2, 48, 53, 0, 0, 0, 7, 0, 0, 0, 1, 0, 2, 5, 7, 0, 0, 0, 1, 0, 1, 1, 0, 1, 2, 0, 0, 0, 1, 0, 1, 3,
    0, 1, 4, 255, 255, 255, 255, 0, 1, 9]

theorem stray_key_dropped :
    parseBundle strayBundle = .ok (smallBundle none) ∧
      serializeBundle (smallBundle none) ≠ some strayBundle := by
  have hlayout : bundleLayout (smallBundle none) absentId [9] = some strayBundle := by decide
  refine ⟨parseBundle_eq_ok.mpr ⟨absentId, [9], hlayout, ?_⟩, by decide⟩
  exact ⟨by decide, by decide, by decide, by decide, rfl, by decide, rfl⟩

/-- A bundle with a one-time prekey is written and read back. -/
theorem small_bundle_roundtrip :
    ∃ bytes, serializeBundle (smallBundle (some (2, [9]))) = some bytes ∧
      parseBundle bytes = .ok (smallBundle (some (2, [9]))) ∧ ¬ StrayKey bytes := by
  obtain ⟨bytes, hwrite, hread⟩ := (bundle_canonical_iff [] (smallBundle (some (2, [9])))).2
    ⟨by decide, by decide, by decide, by rintro _ _ ⟨⟩; decide⟩
    ⟨by decide, by decide, by decide, by decide, by decide, by decide, by rintro _ _ ⟨⟩; decide⟩ rfl
    (by decide) (by rintro _ _ ⟨⟩; decide)
  exact ⟨bytes, hwrite, hread, ((bundle_canonical_iff bytes _).1 hread).mp hwrite⟩

end Titlan
