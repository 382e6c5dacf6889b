import Titlan.Codec.Cursor
import Titlan.Foundation.Search
import Mathlib.Order.Bounds.Basic

/-! # Padded frames

A padding profile is built from any list of sizes, and a frame is padded to the least that holds it. The
functions are modelled here once more with every operation of the source that can panic made explicit:
32-bit additions and subtractions, indexing and slicing. On a profile that was built none of them does, and
what is left is `encode` and `parse` as the rest of the development uses them. -/

namespace Titlan

open Foundation

/-! ## Profiles -/

theorem pairwise_mergeSort_le (sizes : List ℕ) :
    (sizes.mergeSort fun a b => decide (a ≤ b)).Pairwise (· ≤ ·) := by
  have htrans : ∀ a b c : ℕ, decide (a ≤ b) = true → decide (b ≤ c) = true → decide (a ≤ c) = true := by
    intro a b c hab hbc
    exact decide_eq_true (Nat.le_trans (of_decide_eq_true hab) (of_decide_eq_true hbc))
  have htotal : ∀ a b : ℕ, (decide (a ≤ b) || decide (b ≤ a)) = true := by
    intro a b
    rw [Bool.or_eq_true, decide_eq_true_iff, decide_eq_true_iff]
    exact Nat.le_total a b
  exact (List.pairwise_mergeSort htrans htotal sizes).imp fun hab => of_decide_eq_true hab

/-- The sizes as `PaddingProfile::new` keeps them: sorted and deduplicated. -/
def sortedSizes (sizes : List ℕ) : List ℕ :=
  dedupAdjacent (sizes.mergeSort fun a b => decide (a ≤ b))

variable {sizes : List ℕ}

theorem mem_sortedSizes {b : ℕ} : b ∈ sortedSizes sizes ↔ b ∈ sizes := by
  rw [sortedSizes, mem_dedupAdjacent, List.mem_mergeSort]

theorem pairwise_sortedSizes (sizes : List ℕ) : (sortedSizes sizes).Pairwise (· < ·) :=
  pairwise_dedupAdjacent (pairwise_mergeSort_le sizes)

theorem headD_le_of_mem {b : ℕ} (h : sizes.Pairwise (· < ·)) (hb : b ∈ sizes) :
    sizes.headD 0 ≤ b := by
  cases sizes with
  | nil => cases hb
  | cons first rest =>
    rcases List.mem_cons.mp hb with rfl | hb
    · exact Nat.le_refl b
    · exact Nat.le_of_lt (List.rel_of_pairwise_cons h hb)

/-- `PaddingProfile::new`. -/
def PaddingProfile.new (sizes : List ℕ) : Result PaddingProfile :=
  if h : sortedSizes sizes = [] ∨ (sortedSizes sizes).headD 0 < innerHeaderLen then
    .error (.malformed "invalid padding profile")
  else
    .ok
      { buckets := sortedSizes sizes
        ascending := pairwise_sortedSizes sizes
        nonempty := fun hempty => h (.inl hempty)
        header_le := fun _ hb => Nat.le_trans (Nat.not_lt.mp fun hlt => h (.inr hlt))
          (headD_le_of_mem (pairwise_sortedSizes sizes) hb) }

variable {profile : PaddingProfile}

/-- A payload that fits has a bucket. -/
theorem bucketFor_of_le {len : ℕ} (h : len ≤ profile.maxPayload) :
    ∃ bucket, profile.bucketFor (innerHeaderLen + len) = some bucket := by
  have hlast : profile.buckets.getLast profile.nonempty ∈ profile.buckets := List.getLast_mem _
  have hheader := profile.header_le _ hlast
  rw [PaddingProfile.maxPayload] at h
  refine Option.isSome_iff_exists.mp (List.find?_isSome.mpr ⟨_, hlast, ?_⟩)
  exact decide_eq_true (by omega)

/-- The bucket of a frame is the least that holds it. -/
theorem isLeast_bucketFor {len bucket : ℕ} (h : profile.bucketFor len = some bucket) :
    IsLeast {b | b ∈ profile.buckets ∧ len ≤ b} bucket := by
  obtain ⟨hholds, smaller, larger, hsplit, hsmaller⟩ := List.find?_eq_some_iff_append.mp h
  have hascending := hsplit ▸ profile.ascending
  refine ⟨⟨List.mem_of_find?_eq_some h, of_decide_eq_true hholds⟩, ?_⟩
  rintro b ⟨hb, hle⟩
  rw [hsplit, List.mem_append, List.mem_cons] at hb
  rcases hb with hb | rfl | hb
  · -- a smaller bucket would have been found first
    have hnot := hsmaller b hb
    rw [Bool.not_eq_true', decide_eq_false_iff_not] at hnot
    exact absurd hle hnot
  · exact Nat.le_refl b
  · exact Nat.le_of_lt (List.rel_of_pairwise_cons (List.pairwise_append.mp hascending).2.1 hb)

theorem encode_of_le {inner : InnerFrame} (hlen : inner.payload.length ≤ u32Max)
    (hmax : inner.payload.length ≤ profile.maxPayload) : ∃ bytes, inner.encode profile = .ok bytes := by
  obtain ⟨bucket, hbucket⟩ := bucketFor_of_le hmax
  rw [InnerFrame.encode, if_neg (Nat.not_lt.mpr hlen), if_neg (Nat.not_lt.mpr hmax), hbucket]
  exact ⟨_, rfl⟩

theorem encode_of_lt {inner : InnerFrame}
    (h : ¬ (inner.payload.length ≤ u32Max ∧ inner.payload.length ≤ profile.maxPayload)) :
    ∃ e, inner.encode profile = .error e := by
  rw [InnerFrame.encode]
  by_cases hlen : inner.payload.length ≤ u32Max
  · rw [if_neg (Nat.not_lt.mpr hlen), if_pos (Nat.not_le.mp fun hmax => h ⟨hlen, hmax⟩)]
    exact ⟨_, rfl⟩
  · rw [if_pos (Nat.not_le.mp hlen)]
    exact ⟨_, rfl⟩

theorem mem_buckets_of_new
    (h : PaddingProfile.new sizes = .ok profile) {b : ℕ} : b ∈ profile.buckets ↔ b ∈ sizes := by
  unfold PaddingProfile.new at h
  split at h
  · cases h
  · cases h
    exact mem_sortedSizes

/-- A profile is built from the lists that name a size and none below the header's. -/
theorem exists_new_iff : (∃ profile, PaddingProfile.new sizes = .ok profile) ↔
      sizes ≠ [] ∧ ∀ b ∈ sizes, innerHeaderLen ≤ b := by
  constructor
  · rintro ⟨profile, hnew⟩
    obtain ⟨b, hb⟩ := List.exists_mem_of_ne_nil _ profile.nonempty
    refine ⟨List.ne_nil_of_mem ((mem_buckets_of_new hnew).mp hb), fun b hb => ?_⟩
    exact profile.header_le b ((mem_buckets_of_new hnew).mpr hb)
  · rintro ⟨hnonempty, hheader⟩
    obtain ⟨b, hb⟩ := List.exists_mem_of_ne_nil _ hnonempty
    refine ⟨_, dif_neg ?_⟩
    have hb := mem_sortedSizes.mpr hb
    cases hsorted : sortedSizes sizes with
    | nil =>
      rw [hsorted] at hb
      cases hb
    | cons first rest =>
      have hfirst : first ∈ sizes := mem_sortedSizes.mp (hsorted ▸ List.mem_cons_self)
      rintro (hempty | hlt)
      · cases hempty
      · exact absurd (hheader first hfirst) (Nat.not_le.mpr hlt)

/-! ## Panics -/

/-- A fallible computation that may also panic: `none`. -/
abbrev Checked := ExceptT CoreError Option

/-- The value of an operation that panics where it has none. -/
def orPanic {α : Type} (value : Option α) : Checked α := ExceptT.lift value

/-- An addition of `u32`s. -/
def u32Add (a b : ℕ) : Option ℕ := if a + b ≤ u32Max then some (a + b) else none

/-- A subtraction of unsigned numbers. -/
def unsignedSub (a b : ℕ) : Option ℕ := if b ≤ a then some (a - b) else none

/-- `usize::checked_add`. -/
def usizeCheckedAdd (a b : ℕ) : Option ℕ := if a + b < 2 ^ 64 then some (a + b) else none

/-- `bytes[start..stop]`. -/
def slice (bytes : Bytes) (start stop : ℕ) : Option Bytes :=
  if start ≤ stop ∧ stop ≤ bytes.length then some ((bytes.drop start).take (stop - start)) else none

/-- `Vec::resize` with zeros. -/
def resize (bytes : Bytes) (len : ℕ) : Bytes := bytes.take len ++ List.replicate (len - bytes.length) 0x00

/-- `PaddingProfile::max_payload`, with its panics. -/
def PaddingProfile.maxPayloadChecked (profile : PaddingProfile) : Checked ℕ := do
  let last ← orPanic (unsignedSub profile.buckets.length 1)
  let bucket ← orPanic profile.buckets[last]?
  orPanic (unsignedSub bucket innerHeaderLen)

/-- `PaddingProfile::is_bucket`, by binary search. -/
def PaddingProfile.isBucketSearch (profile : PaddingProfile) (len : ℕ) : Bool :=
  (binarySearch profile.buckets len).isSome

/-- `InnerFrame::encode`, with its panics. -/
def InnerFrame.encodeChecked (frame : InnerFrame) (profile : PaddingProfile) : Checked Bytes := do
  let len := frame.payload.length
  if len > u32Max then
    throw (.malformed "payload exceeds u32")
  let max ← profile.maxPayloadChecked
  if len > max then
    throw (.payloadTooLarge len max)
  let frameLen ← orPanic (u32Add innerHeaderLen len)
  let some bucket := profile.bucketFor frameLen
    | throw (.malformed "no bucket fits frame")
  let out := [frame.payloadType.toByte, frame.typeVersion] ++ toBeBytes 4 len ++ frame.payload
  return resize out bucket

/-- `InnerFrame::parse`, with its panics. -/
def InnerFrame.parseChecked (bytes : Bytes) (profile : PaddingProfile) : Checked InnerFrame := do
  if bytes.length > u32Max then
    throw (.malformed "frame exceeds u32")
  if !profile.isBucketSearch bytes.length then
    throw (.invalidBucket bytes.length)
  let payloadType ← ExceptT.mk (some (PayloadType.tryFrom (← orPanic bytes[0]?)))
  let typeVersion ← orPanic bytes[1]?
  let declared := fromBeBytes (← orPanic (slice bytes 2 6))
  let some stop := usizeCheckedAdd innerHeaderLen declared
    | throw (.malformed "payload length overflow")
  if stop > bytes.length then
    throw (.malformed "payload length exceeds frame")
  if (← orPanic (slice bytes stop bytes.length)).any (· != 0) then
    throw .invalidPadding
  return ⟨payloadType, typeVersion, ← orPanic (slice bytes innerHeaderLen stop)⟩

/-- An operation that has its value goes on with it. -/
theorem orPanic_bind {α β : Type} {value : Option α} {a : α} {f : α → Checked β} (h : value = some a) :
    orPanic value >>= f = f a := by
  rw [h]
  rfl

theorem unsignedSub_of_le {a b : ℕ} (h : b ≤ a) : unsignedSub a b = some (a - b) := if_pos h

theorem PaddingProfile.isBucketSearch_eq (profile : PaddingProfile) (len : ℕ) :
    profile.isBucketSearch len = profile.isBucket len := by
  rw [Bool.eq_iff_iff, isBucketSearch, isBucket, isSome_binarySearch profile.ascending,
    List.contains_iff_mem]

theorem PaddingProfile.maxPayloadChecked_eq (profile : PaddingProfile) :
    profile.maxPayloadChecked = pure profile.maxPayload := by
  have hlen : 0 < profile.buckets.length := List.length_pos_of_ne_nil profile.nonempty
  have hlast : profile.buckets[profile.buckets.length - 1]? =
      some (profile.buckets.getLast profile.nonempty) := by
    rw [List.getLast_eq_getElem]
    exact List.getElem?_eq_getElem _
  have hheader := profile.header_le _ (List.getLast_mem profile.nonempty)
  rw [maxPayloadChecked, orPanic_bind (unsignedSub_of_le hlen), orPanic_bind hlast, unsignedSub_of_le hheader]
  rfl

theorem PaddingProfile.maxPayload_lt (hu32 : ∀ b ∈ profile.buckets, b ≤ u32Max) :
    innerHeaderLen + profile.maxPayload ≤ u32Max := by
  have hmem := List.getLast_mem profile.nonempty
  have hheader := profile.header_le _ hmem
  have hle := hu32 _ hmem
  rw [maxPayload]
  omega

/-- Padding to a size that holds the bytes. -/
theorem resize_of_le {bytes : Bytes} {len : ℕ} (h : bytes.length ≤ len) :
    resize bytes len = bytes ++ List.replicate (len - bytes.length) 0x00 := by
  rw [resize, List.take_of_length_le h]

theorem length_unpadded (frame : InnerFrame) :
    ([frame.payloadType.toByte, frame.typeVersion] ++ toBeBytes 4 frame.payload.length ++
      frame.payload).length = innerHeaderLen + frame.payload.length := by
  simp only [List.length_append, List.length_cons, List.length_nil, length_toBeBytes, innerHeaderLen]

/-- **`encode` does not panic**, and is what the rest of the development takes it for. -/
theorem InnerFrame.encodeChecked_eq (hu32 : ∀ b ∈ profile.buckets, b ≤ u32Max)
    (frame : InnerFrame) : frame.encodeChecked profile = ExceptT.mk (some (frame.encode profile)) := by
  rw [encodeChecked, encode]
  by_cases hlen : frame.payload.length > u32Max
  · rw [if_pos hlen, if_pos hlen]
    rfl
  rw [if_neg hlen, if_neg hlen, profile.maxPayloadChecked_eq, pure_bind]
  by_cases hmax : frame.payload.length > profile.maxPayload
  · rw [if_pos hmax, if_pos hmax]
    rfl
  have hadd : u32Add innerHeaderLen frame.payload.length = some (innerHeaderLen + frame.payload.length) := by
    have hlt := PaddingProfile.maxPayload_lt hu32
    exact if_pos (by omega)
  obtain ⟨bucket, hbucket⟩ := bucketFor_of_le (Nat.not_lt.mp hmax)
  have hholds := (isLeast_bucketFor hbucket).1.2
  rw [if_neg hmax, if_neg hmax, orPanic_bind hadd, hbucket]
  dsimp only
  rw [resize_of_le (by rw [length_unpadded]; exact hholds)]
  rfl

/-! ## Grammar -/

theorem PayloadType.tryFrom_eq_ok {value : UInt8} {payloadType : PayloadType} :
    PayloadType.tryFrom value = .ok payloadType ↔ value = payloadType.toByte := by
  constructor
  · intro h
    unfold PayloadType.tryFrom at h
    split at h <;> cases h <;> rfl
  · rintro rfl
    cases payloadType <;> rfl

/-- A frame that holds a header starts with a type byte, a version byte and a length of four bytes. -/
theorem exists_header {bytes : Bytes} (h : innerHeaderLen ≤ bytes.length) :
    ∃ kind version len rest, len.length = 4 ∧ bytes = kind :: version :: (len ++ rest) := by
  have hlen := List.take_append_drop 4 (bytes.drop 2)
  rw [List.drop_drop] at hlen
  rw [innerHeaderLen] at h
  refine ⟨bytes[0], bytes[1], (bytes.drop 2).take 4, bytes.drop 6, ?_, ?_⟩
  · rw [List.length_take, List.length_drop]
    omega
  · rw [hlen, ← List.drop_eq_getElem_cons (i := 1), ← List.drop_eq_getElem_cons (i := 0), List.drop_zero]

/-- What `parse` does behind its check of the length. -/
def parseBody (kind version : UInt8) (declared : ℕ) (rest : Bytes) : Result InnerFrame := do
  let payloadType ← PayloadType.tryFrom kind
  if declared > rest.length then
    throw (.malformed "payload length exceeds frame")
  if (rest.drop declared).any (· != 0) then
    throw .invalidPadding
  return ⟨payloadType, version, rest.take declared⟩

section Header

variable {profile : PaddingProfile} {kind version : UInt8} {len rest : Bytes}

theorem length_header (kind version : UInt8) (rest : Bytes) (hlen : len.length = 4) :
    (kind :: version :: (len ++ rest)).length = innerHeaderLen + rest.length := by
  simp only [List.length_cons, List.length_append, hlen, innerHeaderLen]
  omega

theorem drop_header (kind version : UInt8) (rest : Bytes) (hlen : len.length = 4) (n : ℕ) :
    (kind :: version :: (len ++ rest)).drop (innerHeaderLen + n) = rest.drop n := by
  have hsix : innerHeaderLen + n = (len.length + n) + 1 + 1 := by
    rw [hlen, innerHeaderLen]
    omega
  rw [hsix, List.drop_succ_cons, List.drop_succ_cons, List.drop_length_add_append]

theorem parse_header (hlen : len.length = 4) (hu32 : (kind :: version :: (len ++ rest)).length ≤ u32Max)
    (hbucket : profile.isBucket (kind :: version :: (len ++ rest)).length = true) :
    InnerFrame.parse (kind :: version :: (len ++ rest)) profile =
      parseBody kind version (fromBeBytes len) rest := by
  have hfield : ((kind :: version :: (len ++ rest)).drop 2).take 4 = len := by
    rw [← hlen]
    exact List.take_left
  have hpayload : (kind :: version :: (len ++ rest)).drop innerHeaderLen = rest :=
    drop_header kind version rest hlen 0
  have hstop : (innerHeaderLen + fromBeBytes len > (kind :: version :: (len ++ rest)).length) ↔
      fromBeBytes len > rest.length := by
    rw [length_header kind version rest hlen]
    omega
  rw [InnerFrame.parse, if_neg (Nat.not_lt.mpr hu32), hbucket]
  simp only [Bool.not_true, Bool.false_eq_true, if_false, List.getD_cons_zero, List.getD_cons_succ, hfield,
    hpayload, hstop, drop_header kind version rest hlen]
  rfl

theorem parseChecked_header (hlen : len.length = 4)
    (hu32 : (kind :: version :: (len ++ rest)).length ≤ u32Max)
    (hbucket : profile.isBucket (kind :: version :: (len ++ rest)).length = true) :
    InnerFrame.parseChecked (kind :: version :: (len ++ rest)) profile =
      ExceptT.mk (some (parseBody kind version (fromBeBytes len) rest)) := by
  have hlength := length_header kind version rest hlen
  have hkind : (kind :: version :: (len ++ rest))[0]? = some kind := rfl
  have hversion : (kind :: version :: (len ++ rest))[1]? = some version := rfl
  have hfield : slice (kind :: version :: (len ++ rest)) 2 6 = some len := by
    have htake : ((len ++ rest).take 4) = len := by
      rw [← hlen]
      exact List.take_left
    rw [slice, if_pos ⟨by decide, by rw [hlength]; exact Nat.le_add_right 6 _⟩]
    exact congrArg some htake
  have hstop : usizeCheckedAdd innerHeaderLen (fromBeBytes len) = some (innerHeaderLen + fromBeBytes len) := by
    have hlt := fromBeBytes_lt len
    rw [hlen] at hlt
    exact if_pos (by rw [innerHeaderLen]; omega)
  rw [InnerFrame.parseChecked, if_neg (Nat.not_lt.mpr hu32), PaddingProfile.isBucketSearch_eq, hbucket]
  simp only [Bool.not_true, Bool.false_eq_true, if_false]
  rw [orPanic_bind hkind, parseBody]
  cases PayloadType.tryFrom kind with
  | error e => rfl
  | ok payloadType =>
    have hbind {β : Type} (f : PayloadType → Checked β) :
        (ExceptT.mk (some (.ok payloadType)) : Checked PayloadType) >>= f = f payloadType := rfl
    rw [hbind, orPanic_bind hversion, orPanic_bind hfield, hstop, result_bind_ok rfl]
    dsimp only
    by_cases hlong : fromBeBytes len > rest.length
    · rw [if_pos hlong, if_pos (by rw [hlength]; omega)]
      rfl
    · -- what is declared is there, so both slices are in range
      have hpadding : slice (kind :: version :: (len ++ rest)) (innerHeaderLen + fromBeBytes len)
          (kind :: version :: (len ++ rest)).length = some (rest.drop (fromBeBytes len)) := by
        rw [slice, if_pos ⟨by rw [hlength]; omega, Nat.le_refl _⟩, drop_header kind version rest hlen, hlength,
          Nat.add_sub_add_left, List.take_of_length_le (by rw [List.length_drop])]
      have hpayload : slice (kind :: version :: (len ++ rest)) innerHeaderLen
          (innerHeaderLen + fromBeBytes len) = some (rest.take (fromBeBytes len)) := by
        have hdrop := drop_header kind version rest hlen 0
        rw [slice, if_pos ⟨Nat.le_add_right _ _, by rw [hlength]; omega⟩, Nat.add_sub_cancel_left]
        exact congrArg (fun xs => some (List.take (fromBeBytes len) xs)) hdrop
      rw [if_neg hlong, if_neg (by rw [hlength]; omega), orPanic_bind hpadding]
      by_cases hzero : (rest.drop (fromBeBytes len)).any (· != 0) = true
      · rw [if_pos hzero, if_pos hzero]
        rfl
      · rw [if_neg hzero, if_neg hzero, orPanic_bind hpayload]
        rfl

end Header

/-- **`parse` does not panic**, and is what the rest of the development takes it for. -/
theorem InnerFrame.parseChecked_eq (bytes : Bytes) (profile : PaddingProfile) :
    InnerFrame.parseChecked bytes profile = ExceptT.mk (some (InnerFrame.parse bytes profile)) := by
  by_cases hu32 : bytes.length > u32Max
  · rw [parseChecked, parse, if_pos hu32, if_pos hu32]
    rfl
  · cases hbucket : profile.isBucket bytes.length with
    | false =>
      rw [parseChecked, parse, if_neg hu32, if_neg hu32, PaddingProfile.isBucketSearch_eq, hbucket]
      rfl
    | true =>
      have hheader := profile.header_le _ (List.contains_iff_mem.mp hbucket)
      obtain ⟨kind, version, len, rest, hlen, rfl⟩ := exists_header hheader
      rw [parseChecked_header hlen (Nat.not_lt.mp hu32) hbucket, parse_header hlen (Nat.not_lt.mp hu32) hbucket]

variable {frame : InnerFrame}

theorem parseBody_eq_ok {kind version : UInt8} {declared : ℕ} {rest : Bytes} :
    parseBody kind version declared rest = .ok frame ↔ kind = frame.payloadType.toByte ∧
      version = frame.typeVersion ∧ declared = frame.payload.length ∧
      ∃ zeros, rest = frame.payload ++ List.replicate zeros 0x00 := by
  have hbody {payloadType : PayloadType} (hkind : PayloadType.tryFrom kind = .ok payloadType) :
      parseBody kind version declared rest = .ok frame ↔ declared ≤ rest.length ∧
        (rest.drop declared).any (· != 0) = false ∧
        (⟨payloadType, version, rest.take declared⟩ : InnerFrame) = frame := by
    rw [parseBody, result_bind_ok hkind, (check_outcome Nat.not_lt.symm).2,
      (check_outcome (Bool.not_eq_true _).symm.to_iff).2]
    simp [pure, Except.pure]
  constructor
  · intro h
    cases hkind : PayloadType.tryFrom kind with
    | error e =>
      rw [parseBody, result_bind_error hkind] at h
      cases h
    | ok payloadType =>
      obtain ⟨hle, hzero, rfl⟩ := (hbody hkind).mp h
      refine ⟨PayloadType.tryFrom_eq_ok.mp hkind, rfl, ?_, (rest.drop declared).length, ?_⟩
      · rw [List.length_take, Nat.min_eq_left hle]
      · have hpadding : rest.drop declared = List.replicate (rest.drop declared).length 0x00 := by
          refine List.eq_replicate_iff.mpr ⟨rfl, fun b hb => ?_⟩
          have hb := List.any_eq_false.mp hzero b hb
          simpa using hb
        rw [← hpadding, List.take_append_drop]
  · rintro ⟨rfl, rfl, rfl, zeros, rfl⟩
    refine (hbody (PayloadType.tryFrom_eq_ok.mpr rfl)).mpr ⟨?_, ?_, ?_⟩
    · rw [List.length_append]
      exact Nat.le_add_right _ _
    · rw [List.drop_left, List.any_eq_false]
      intro b hb
      simp [List.eq_of_mem_replicate hb]
    · rw [List.take_left]

/-- The bytes of a frame: a registered type byte, a version byte, the length of the payload in four bytes,
the payload, and zeros. -/
def InnerFrame.Grammar (frame : InnerFrame) (bytes : Bytes) : Prop :=
  frame.payload.length < 256 ^ 4 ∧ ∃ zeros, bytes = frame.payloadType.toByte :: frame.typeVersion ::
    (toBeBytes 4 frame.payload.length ++ (frame.payload ++ List.replicate zeros 0x00))

/-- **What `parse` accepts**: the grammar, at the size of a bucket. -/
theorem InnerFrame.parse_eq_ok {bytes : Bytes}
    (hu32 : ∀ b ∈ profile.buckets, b ≤ u32Max) :
    InnerFrame.parse bytes profile = .ok frame ↔ bytes.length ∈ profile.buckets ∧ frame.Grammar bytes := by
  by_cases hbucket : bytes.length ∈ profile.buckets
  · obtain ⟨kind, version, len, rest, hlen, rfl⟩ := exists_header (profile.header_le _ hbucket)
    rw [parse_header hlen (hu32 _ hbucket) (List.contains_iff_mem.mpr hbucket), parseBody_eq_ok]
    constructor
    · rintro ⟨rfl, rfl, hdeclared, zeros, rfl⟩
      have hlt := fromBeBytes_lt len
      have hfield := toBeBytes_fromBeBytes len
      rw [hlen, hdeclared] at hlt hfield
      exact ⟨hbucket, hlt, zeros, by rw [hfield]⟩
    · rintro ⟨-, hlt, zeros, heq⟩
      rw [List.cons.injEq, List.cons.injEq] at heq
      obtain ⟨rfl, rfl, heq⟩ := heq
      obtain ⟨rfl, rfl⟩ := List.append_inj heq (by rw [hlen, length_toBeBytes])
      refine ⟨rfl, rfl, ?_, zeros, rfl⟩
      rw [fromBeBytes_toBeBytes, Nat.mod_eq_of_lt hlt]
  · refine iff_of_false ?_ fun h => hbucket h.1
    intro h
    have hnot : profile.isBucket bytes.length = false := by
      rw [PaddingProfile.isBucket, ← Bool.not_eq_true, List.contains_iff_mem]
      exact hbucket
    rw [parse, (check_outcome Iff.rfl).2, hnot] at h
    obtain ⟨-, h⟩ := h
    cases h

/-- What `encode` writes. -/
theorem InnerFrame.encode_eq_ok {out : Bytes} (h : frame.encode profile = .ok out) :
    frame.payload.length ≤ u32Max ∧ frame.payload.length ≤ profile.maxPayload ∧
      profile.bucketFor (innerHeaderLen + frame.payload.length) = some out.length ∧ frame.Grammar out := by
  by_cases hfits : frame.payload.length ≤ u32Max ∧ frame.payload.length ≤ profile.maxPayload
  · obtain ⟨hlen, hmax⟩ := hfits
    obtain ⟨bucket, hbucket⟩ := bucketFor_of_le hmax
    rw [encode, if_neg (Nat.not_lt.mpr hlen), if_neg (Nat.not_lt.mpr hmax), hbucket] at h
    cases h
    have hholds := (isLeast_bucketFor hbucket).1.2
    refine ⟨hlen, hmax, ?_, Nat.lt_succ_of_le hlen, _, List.append_assoc _ _ _⟩
    rw [List.length_append, length_unpadded, List.length_replicate, hbucket, Nat.add_sub_cancel' hholds]
  · obtain ⟨e, he⟩ := encode_of_lt hfits
    rw [he] at h
    cases h

/-- A frame either has a bucket or is refused for its length. -/
theorem InnerFrame.encode_ne_no_bucket (frame : InnerFrame) (profile : PaddingProfile) :
    frame.encode profile ≠ .error (.malformed "no bucket fits frame") := by
  intro h
  rw [encode, (check_outcome Iff.rfl).1, (check_outcome Iff.rfl).1] at h
  obtain ⟨-, heq⟩ | ⟨-, ⟨-, heq⟩ | ⟨hmax, h⟩⟩ := h
  · exact absurd heq (by decide)
  · cases heq
  · obtain ⟨bucket, hbucket⟩ := bucketFor_of_le (Nat.not_lt.mp hmax)
    rw [hbucket] at h
    cases h

/-- **Inner frames are exactly their grammar.** On a profile built from any list of 32-bit sizes, `encode`
never panics, succeeds exactly for payloads of at most `max_payload` and never lacks a bucket; it pads to
the least listed size that holds the frame, and `parse` returns the frame. `parse` never panics either, and
accepts exactly the byte strings of the grammar that have a listed size. -/
theorem inner_frames_exact {sizes : List ℕ} {profile : PaddingProfile} (hu32 : ∀ b ∈ sizes, b ≤ u32Max)
    (hnew : PaddingProfile.new sizes = .ok profile) :
    IsGreatest {b | b ∈ sizes} (innerHeaderLen + profile.maxPayload) ∧
    (∀ frame : InnerFrame, ∃ outcome, (frame.encodeChecked profile).run = some outcome ∧
      ((∃ out, outcome = .ok out) ↔ frame.payload.length ≤ profile.maxPayload) ∧
      outcome ≠ .error (.malformed "no bucket fits frame") ∧
      ∀ out, outcome = .ok out →
        IsLeast {b | b ∈ sizes ∧ innerHeaderLen + frame.payload.length ≤ b} out.length ∧
        (InnerFrame.parseChecked out profile).run = some (.ok frame)) ∧
    ∀ bytes : Bytes, ∃ outcome, (InnerFrame.parseChecked bytes profile).run = some outcome ∧
      ∀ frame : InnerFrame, outcome = .ok frame ↔ bytes.length ∈ sizes ∧ frame.Grammar bytes := by
  have hmem : ∀ b, b ∈ profile.buckets ↔ b ∈ sizes := fun _ => mem_buckets_of_new hnew
  have hbuckets : ∀ b ∈ profile.buckets, b ≤ u32Max := fun b hb => hu32 b ((hmem b).mp hb)
  refine ⟨?_, fun frame => ?_, fun bytes => ?_⟩
  · have hlast := List.getLast_mem profile.nonempty
    have hmax : innerHeaderLen + profile.maxPayload = profile.buckets.getLast profile.nonempty := by
      rw [PaddingProfile.maxPayload, Nat.add_sub_cancel' (profile.header_le _ hlast)]
    rw [hmax]
    refine ⟨(hmem _).mp hlast, fun b hb => ?_⟩
    obtain ⟨i, hi, rfl⟩ := List.mem_iff_getElem.mp ((hmem b).mpr hb)
    rw [List.getLast_eq_getElem]
    rcases Nat.lt_or_eq_of_le (Nat.le_sub_one_of_lt hi) with hlt | rfl
    · exact Nat.le_of_lt (List.pairwise_iff_getElem.mp profile.ascending _ _ hi (by omega) hlt)
    · exact Nat.le_refl _
  · refine ⟨frame.encode profile, by rw [InnerFrame.encodeChecked_eq hbuckets]; rfl, ⟨?_, fun hle => ?_⟩,
      frame.encode_ne_no_bucket profile, fun out hout => ?_⟩
    · rintro ⟨out, hout⟩
      exact (InnerFrame.encode_eq_ok hout).2.1
    · have hmax := PaddingProfile.maxPayload_lt hbuckets
      exact encode_of_le (by omega) hle
    · obtain ⟨-, -, hbucket, hgrammar⟩ := InnerFrame.encode_eq_ok hout
      have hleast := isLeast_bucketFor hbucket
      refine ⟨?_, ?_⟩
      · simpa only [hmem] using hleast
      · rw [InnerFrame.parseChecked_eq]
        exact congrArg some ((InnerFrame.parse_eq_ok hbuckets).mpr ⟨hleast.1.1, hgrammar⟩)
  · refine ⟨InnerFrame.parse bytes profile, by rw [InnerFrame.parseChecked_eq]; rfl, fun frame => ?_⟩
    rw [InnerFrame.parse_eq_ok hbuckets, hmem]

/-- Sizes out of order and listed twice; a payload of one byte is padded to the least of them. -/
theorem unsorted_sizes_pad :
    ∃ profile, PaddingProfile.new [16, 7, 16] = .ok profile ∧
      ∃ out, ((⟨.chat, 1, [9]⟩ : InnerFrame).encodeChecked profile).run = some (.ok out) ∧ out.length = 7 ∧
        (InnerFrame.parseChecked out profile).run = some (.ok ⟨.chat, 1, [9]⟩) := by
  obtain ⟨profile, hnew⟩ := exists_new_iff.mpr (show [16, 7, 16] ≠ [] ∧ ∀ b ∈ [16, 7, 16], innerHeaderLen ≤ b
    by decide)
  obtain ⟨hgreatest, hencode, -⟩ := inner_frames_exact (by decide) hnew
  obtain ⟨outcome, hrun, hok, -, hout⟩ := hencode ⟨.chat, 1, [9]⟩
  have hmax : 16 ≤ innerHeaderLen + profile.maxPayload := hgreatest.2 (by decide)
  obtain ⟨out, rfl⟩ := hok.mpr (by rw [innerHeaderLen] at hmax; show 1 ≤ _; omega)
  obtain ⟨hleast, hparse⟩ := hout out rfl
  refine ⟨profile, hnew, out, hrun, ?_, hparse⟩
  exact hleast.unique ⟨⟨by decide, by decide⟩, fun b hb => hb.2⟩

end Titlan
