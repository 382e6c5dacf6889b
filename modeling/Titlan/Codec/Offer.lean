import Titlan.Codec.Bundle
import Mathlib.Order.Interval.Set.OrdConnected

/-! # Pairing offers

The offer's grammar, and the rule by which an acceptor takes one: structure, bundle, identity key,
signature, then the validity window. The window is computed in saturating 64-bit arithmetic; below the last
instant it decides what exact arithmetic does. -/

namespace Titlan

open Foundation

/-- The fields of an offer have the widths of their types, and the inbox id that of a mailbox id. -/
structure OfferV3.Fits (offer : OfferV3 Bytes String String Bytes) : Prop where
  pairingInboxId : (asBytes offer.pairingInboxId).length = mailboxIdLen
  pairingSecret : offer.pairingSecret.length = pairingSecretLen
  issuedAt : offer.issuedAt < 256 ^ 8
  ttlS : offer.ttlS < 256 ^ 4

/-! ## Structure -/

/-- The fields of an offer, in order. -/
def offerFormat : Format UInt8 (OfferV3 Bytes String String Bytes) :=
  byte.andThen fun version => .guard (¬ version ≠ offerVersionV3) <|
  sized.andThen fun bundle =>
  sized.andThen fun relay => (Format.returned (utf8 relay)).andThen fun relayUrl =>
  (fixed mailboxIdLen).andThen fun inbox => (Format.returned (utf8 inbox)).andThen fun pairingInboxId =>
  (fixed pairingSecretLen).andThen fun pairingSecret =>
  (beField 8).andThen fun issuedAt =>
  (beField 4).andThen fun ttlS =>
  (fixed offerSigLen).andThen fun _ =>
  .nothing { bundle, relayUrl, pairingInboxId, pairingSecret, issuedAt, ttlS }

theorem offerSignedBytes_eq_some {offer : OfferV3 Bytes String String Bytes} {message : Bytes} :
    offerSignedBytes offer = some message ↔
      ∃ bundle relay, putBytes offer.bundle = some bundle ∧ putBytes (asBytes offer.relayUrl) = some relay ∧
        message = offerVersionV3 :: (bundle ++ (relay ++ (asBytes offer.pairingInboxId ++
          (offer.pairingSecret ++ (toBeBytes 8 offer.issuedAt ++ toBeBytes 4 offer.ttlS))))) := by
  simp only [offerSignedBytes, bind, pure, Option.bind_eq_some_iff, Option.some.injEq, List.append_assoc,
    List.singleton_append]
  constructor
  · rintro ⟨bundle, hbundle, relay, hrelay, rfl⟩
    exact ⟨bundle, relay, hbundle, hrelay, rfl⟩
  · rintro ⟨bundle, relay, hbundle, hrelay, rfl⟩
    exact ⟨bundle, hbundle, relay, hrelay, rfl⟩

/-- **What the structural parse accepts**: the signed part of an offer that fits, and a signature. -/
theorem parseOfferV3Structure_eq_ok {offer : OfferV3 Bytes String String Bytes} {bytes : Bytes} :
    parseOfferV3Structure bytes = .ok offer ↔ offer.Fits ∧
      ∃ message sig, offerSignedBytes offer = some message ∧ sig.length = offerSigLen ∧
        bytes = message ++ sig := by
  rw [parseOfferV3Structure, run'_eq_ok (F := offerFormat) (reads_u8.bindAll fun _ => ReadsAll.guard <|
    reads_bytesField.bindAll fun _ => reads_bytesField.bindAll fun _ => (reads_lift _).bindAll fun _ =>
    (reads_take _).bindAll fun _ => (reads_lift _).bindAll fun _ => (reads_take _).bindAll fun _ =>
    reads_u64.bindAll fun _ => reads_u32.bindAll fun _ => (reads_take _).bindAll fun _ =>
    readsAll_finish _ _)]
  simp only [offerSignedBytes_eq_some, offerFormat, version_andThen, sized_andThen, fixed_andThen,
    beField_andThen, utf8_andThen, Format.nothing]
  constructor
  · rintro ⟨_, ⟨_, field, _, hbundle, ⟨_, relay, _, hrelay, ⟨_, rfl, _, _, hinbox, ⟨_, rfl, _, _, hsecret,
      ⟨_, _, hissued, ⟨_, _, httl, ⟨sig, _, hsig, ⟨rfl, rfl⟩, rfl⟩, rfl⟩, rfl⟩, rfl⟩, rfl⟩, rfl⟩, rfl⟩, rfl⟩
    exact ⟨⟨hinbox, hsecret, hissued, httl⟩, _, sig, ⟨field, relay, hbundle, hrelay, rfl⟩, hsig, by simp⟩
  · rintro ⟨⟨hinbox, hsecret, hissued, httl⟩, _, sig, ⟨field, relay, hbundle, hrelay, rfl⟩, hsig, rfl⟩
    exact ⟨_, ⟨_, field, _, hbundle, ⟨_, relay, _, hrelay, ⟨_, rfl, _, _, hinbox, ⟨_, rfl, _, _, hsecret,
      ⟨_, _, hissued, ⟨_, _, httl, ⟨sig, [], hsig, ⟨rfl, rfl⟩, rfl⟩, rfl⟩, rfl⟩, rfl⟩, rfl⟩, rfl⟩, rfl⟩, by simp⟩

/-- **One signed part, one offer**: the fields of an offer that fits are read off its signed part. -/
theorem offerSignedBytes_inj {offer other : OfferV3 Bytes String String Bytes} {message : Bytes}
    (hfits : offer.Fits) (hfits' : other.Fits) (h : offerSignedBytes offer = some message)
    (h' : offerSignedBytes other = some message) : offer = other := by
  have hsig : (List.replicate offerSigLen (0 : UInt8)).length = offerSigLen := List.length_replicate
  have hread := parseOfferV3Structure_eq_ok.mpr ⟨hfits, message, _, h, hsig, rfl⟩
  have hread' := parseOfferV3Structure_eq_ok.mpr ⟨hfits', message, _, h', hsig, rfl⟩
  exact Except.ok.inj (hread.symm.trans hread')

/-! ## Acceptance -/

/-- The structure and the embedded bundle parse, and the bundle's identity key decodes. -/
structure OfferOpens (verifySignature : Bytes → Result (Bytes → Bytes → Bool)) (bytes : Bytes)
    (offer : OfferV3 Bytes String String Bytes) (data : BundleData) (verify : Bytes → Bytes → Bool) :
    Prop where
  parsed : parseOfferV3Structure bytes = .ok offer
  bundle : parseBundle offer.bundle = .ok data
  key : verifySignature data.identityKey = .ok verify

/-- The last 64 bytes verify as a signature of all the bytes before. -/
def OfferSigned (verify : Bytes → Bytes → Bool) (bytes : Bytes) : Prop :=
  ∃ message sig, bytes = message ++ sig ∧ sig.length = offerSigLen ∧ verify message sig = true

/-- What is asked of an offer once it is open, each condition with its error, in order. -/
def OfferV3.conditions (offer : OfferV3 Bytes String String Bytes) (signed : Prop) (now : ℕ) :
    List (Prop × CoreError) :=
  [(signed, .offerSignatureInvalid),
    (1 ≤ offer.ttlS ∧ offer.ttlS ≤ 86400, .malformed "offer ttl_s out of range"),
    (offer.issuedAt ≤ now + 300, .offerExpired offer.issuedAt offer.ttlS now .notYetValid),
    (now < offer.issuedAt + offer.ttlS, .offerExpired offer.issuedAt offer.ttlS now .expired)]

/-- The error is that of the first condition that fails. -/
def FirstFailing : List (Prop × CoreError) → CoreError → Prop
  | [], _ => False
  | (holds, error) :: conditions, e => (¬ holds ∧ e = error) ∨ (holds ∧ FirstFailing conditions e)

/-- The outcome has detail `Expired`. -/
def RejectedExpired {α : Type} (outcome : Result α) : Prop :=
  ∃ issuedAt ttlS now, outcome = .error (.offerExpired issuedAt ttlS now .expired)

variable {verifySignature : Bytes → Result (Bytes → Bytes → Bool)} {bytes : Bytes}
  {offer : OfferV3 Bytes String String Bytes} {data : BundleData} {verify : Bytes → Bytes → Bool}

theorem OfferOpens.fits (h : OfferOpens verifySignature bytes offer data verify) : offer.Fits :=
  (parseOfferV3Structure_eq_ok.mp h.parsed).1

/-- The split before the last 64 bytes is the only one there is. -/
theorem OfferOpens.signed_iff (h : OfferOpens verifySignature bytes offer data verify) :
    OfferSigned verify bytes ↔
      ¬ verify (bytes.take (bytes.length - offerSigLen)) (bytes.drop (bytes.length - offerSigLen)) = false := by
  obtain ⟨-, message, sig, -, hsig, rfl⟩ := parseOfferV3Structure_eq_ok.mp h.parsed
  have hsplit : (message ++ sig).length - offerSigLen = message.length := by
    rw [List.length_append, hsig, Nat.add_sub_cancel]
  rw [hsplit, List.take_left, List.drop_left, Bool.not_eq_false]
  constructor
  · rintro ⟨message', sig', heq, hsig', hverify⟩
    obtain ⟨rfl, rfl⟩ := List.append_inj' heq (hsig.trans hsig'.symm)
    exact hverify
  · intro hverify
    exact ⟨message, sig, rfl, hsig, hverify⟩

/-- The skew check in saturating and in exact arithmetic. -/
theorem saturated_skew_iff {issuedAt : ℕ} (now : ℕ) (h : issuedAt < 256 ^ 8) :
    issuedAt ≤ now + 300 ↔ ¬ issuedAt > saturatingAdd64 now futureSkewS := by
  unfold saturatingAdd64 futureSkewS
  omega

/-- The expiry check in saturating and in exact arithmetic: only the last instant tells them apart. -/
theorem saturated_end_iff (issuedAt ttlS : ℕ) {now : ℕ} (h : now < 2 ^ 64 - 1) :
    now < issuedAt + ttlS ↔ ¬ now ≥ saturatingAdd64 issuedAt ttlS := by
  unfold saturatingAdd64
  omega

/-- **An offer that opens** is rejected with the error of the first condition that fails, and taken if
there is none. -/
theorem OfferOpens.outcome (h : OfferOpens verifySignature bytes offer data verify) {now : ℕ}
    (hnow : now < 2 ^ 64 - 1) :
    (∀ e, parsePairingOfferV3 verifySignature bytes now = .error e ↔
      FirstFailing (offer.conditions (OfferSigned verify bytes) now) e) ∧
    ∀ got, parsePairingOfferV3 verifySignature bytes now = .ok got ↔ OfferSigned verify bytes ∧
      (1 ≤ offer.ttlS ∧ offer.ttlS ≤ 86400) ∧ offer.issuedAt ≤ now + 300 ∧
      now < offer.issuedAt + offer.ttlS ∧ offer = got := by
  have httl : (1 ≤ offer.ttlS ∧ offer.ttlS ≤ 86400) ↔ ¬ (offer.ttlS = 0 ∨ offer.ttlS > maxOfferTtlS) := by
    unfold maxOfferTtlS
    omega
  have hskew := saturated_skew_iff now h.fits.issuedAt
  have hend := saturated_end_iff offer.issuedAt offer.ttlS hnow
  rw [parsePairingOfferV3, result_bind_ok h.parsed, result_bind_ok h.bundle, result_bind_ok h.key]
  constructor
  · intro e
    rw [(check_outcome h.signed_iff).1, (check_outcome httl).1, (check_outcome hskew).1,
      (check_outcome hend).1]
    simp [OfferV3.conditions, FirstFailing, pure, Except.pure]
  · intro got
    rw [(check_outcome h.signed_iff).2, (check_outcome httl).2, (check_outcome hskew).2,
      (check_outcome hend).2]
    simp [pure, Except.pure]

/-- Whatever the clock, an offer opens or is rejected before the clock is looked at. -/
theorem opens_or_error (verifySignature : Bytes → Result (Bytes → Bytes → Bool)) (bytes : Bytes) :
    (∃ offer data verify, OfferOpens verifySignature bytes offer data verify) ∨
    ∃ e, (∀ now, parsePairingOfferV3 verifySignature bytes now = .error e) ∧
      (parseOfferV3Structure bytes = .error e ∨
        ∃ offer, parseOfferV3Structure bytes = .ok offer ∧ (parseBundle offer.bundle = .error e ∨
          ∃ data, parseBundle offer.bundle = .ok data ∧ verifySignature data.identityKey = .error e)) := by
  cases hparsed : parseOfferV3Structure bytes with
  | error e =>
    refine .inr ⟨e, fun now => ?_, .inl rfl⟩
    rw [parsePairingOfferV3, result_bind_error hparsed]
  | ok offer =>
    cases hbundle : parseBundle offer.bundle with
    | error e =>
      refine .inr ⟨e, fun now => ?_, .inr ⟨offer, rfl, .inl hbundle⟩⟩
      rw [parsePairingOfferV3, result_bind_ok hparsed, result_bind_error hbundle]
    | ok data =>
      cases hkey : verifySignature data.identityKey with
      | error e =>
        refine .inr ⟨e, fun now => ?_, .inr ⟨offer, rfl, .inr ⟨data, hbundle, hkey⟩⟩⟩
        rw [parsePairingOfferV3, result_bind_ok hparsed, result_bind_ok hbundle, result_bind_error hkey]
      | ok verify => exact .inl ⟨offer, data, verify, hparsed, hbundle, hkey⟩

/-- An offer opens in one way. -/
theorem OfferOpens.unique {offer' : OfferV3 Bytes String String Bytes} {data' : BundleData}
    {verify' : Bytes → Bytes → Bool} (h : OfferOpens verifySignature bytes offer data verify)
    (h' : OfferOpens verifySignature bytes offer' data' verify') :
    offer = offer' ∧ data = data' ∧ verify = verify' := by
  obtain rfl := Except.ok.inj (h.parsed.symm.trans h'.parsed)
  obtain rfl := Except.ok.inj (h.bundle.symm.trans h'.bundle)
  obtain rfl := Except.ok.inj (h.key.symm.trans h'.key)
  exact ⟨rfl, rfl, rfl⟩

/-- **Acceptance**: the offer opens, is signed, and the instant lies in its window. -/
theorem parsePairingOfferV3_eq_ok {now : ℕ} (hnow : now < 2 ^ 64 - 1) :
    parsePairingOfferV3 verifySignature bytes now = .ok offer ↔
      ∃ data verify, OfferOpens verifySignature bytes offer data verify ∧ OfferSigned verify bytes ∧
        (1 ≤ offer.ttlS ∧ offer.ttlS ≤ 86400) ∧ offer.issuedAt ≤ now + 300 ∧
        now < offer.issuedAt + offer.ttlS := by
  constructor
  · intro haccept
    obtain ⟨got, data, verify, hopens⟩ | ⟨e, herror, -⟩ := opens_or_error verifySignature bytes
    · obtain ⟨hsigned, httl, hskew, hend, rfl⟩ := ((hopens.outcome hnow).2 offer).mp haccept
      exact ⟨data, verify, hopens, hsigned, httl, hskew, hend⟩
    · rw [herror now] at haccept
      cases haccept
  · rintro ⟨data, verify, hopens, hsigned, httl, hskew, hend⟩
    exact ((hopens.outcome hnow).2 offer).mpr ⟨hsigned, httl, hskew, hend, rfl⟩

/-- **Rejection**: the error is that of the first thing that fails, in the parser's order. -/
theorem parsePairingOfferV3_eq_error {now : ℕ} (hnow : now < 2 ^ 64 - 1) {e : CoreError} :
    parsePairingOfferV3 verifySignature bytes now = .error e ↔
      parseOfferV3Structure bytes = .error e ∨
      (∃ offer, parseOfferV3Structure bytes = .ok offer ∧ parseBundle offer.bundle = .error e) ∨
      (∃ offer data, parseOfferV3Structure bytes = .ok offer ∧ parseBundle offer.bundle = .ok data ∧
        verifySignature data.identityKey = .error e) ∨
      ∃ offer data verify, OfferOpens verifySignature bytes offer data verify ∧
        FirstFailing (offer.conditions (OfferSigned verify bytes) now) e := by
  constructor
  · intro hreject
    obtain ⟨offer, data, verify, hopens⟩ | ⟨e', herror, hwhy⟩ := opens_or_error verifySignature bytes
    · exact .inr (.inr (.inr ⟨offer, data, verify, hopens, ((hopens.outcome hnow).1 e).mp hreject⟩))
    · obtain rfl := Except.error.inj ((herror now).symm.trans hreject)
      rcases hwhy with hparsed | ⟨offer, hparsed, hbundle | ⟨data, hbundle, hkey⟩⟩
      · exact .inl hparsed
      · exact .inr (.inl ⟨offer, hparsed, hbundle⟩)
      · exact .inr (.inr (.inl ⟨offer, data, hparsed, hbundle, hkey⟩))
  · rintro (hparsed | ⟨offer, hparsed, hbundle⟩ | ⟨offer, data, hparsed, hbundle, hkey⟩ |
      ⟨offer, data, verify, hopens, hfail⟩)
    · rw [parsePairingOfferV3, result_bind_error hparsed]
    · rw [parsePairingOfferV3, result_bind_ok hparsed, result_bind_error hbundle]
    · rw [parsePairingOfferV3, result_bind_ok hparsed, result_bind_ok hbundle, result_bind_error hkey]
    · exact ((hopens.outcome hnow).1 e).mpr hfail

/-- Of the conditions of an open offer only the last is reported as `Expired`, and once it fails it fails
for good. -/
theorem FirstFailing.later {signed : Prop} {now now' issuedAt ttlS at' : ℕ} (hle : now ≤ now')
    (h : FirstFailing (offer.conditions signed now) (.offerExpired issuedAt ttlS at' .expired)) :
    FirstFailing (offer.conditions signed now') (.offerExpired offer.issuedAt offer.ttlS now' .expired) := by
  obtain ⟨-, heq⟩ | ⟨hsigned, ⟨-, heq⟩ | ⟨httl, ⟨-, heq⟩ | ⟨hskew, ⟨hend, -⟩ | ⟨-, hnone⟩⟩⟩⟩ := h
  · cases heq
  · cases heq
  · cases heq
  · refine .inr ⟨hsigned, .inr ⟨httl, .inr ⟨?_, .inl ⟨?_, rfl⟩⟩⟩⟩
    · exact Nat.le_trans hskew (Nat.add_le_add_right hle 300)
    · exact fun hlt => hend (Nat.lt_of_le_of_lt hle hlt)
  · exact hnone.elim

/-- **The validity rule is exact.** Below the last 64-bit instant an offer is taken exactly if it opens,
its last 64 bytes are a signature of the rest, and the instant lies in its window, in unbounded arithmetic;
otherwise the error is that of the first thing that fails, so that a bad signature is reported as one
whatever the clock. The instants at which a byte string is taken form an interval, and what is rejected as
expired is so at every later instant. -/
theorem offer_validity_exact (verifySignature : Bytes → Result (Bytes → Bytes → Bool)) (bytes : Bytes) :
    (∀ now < 2 ^ 64 - 1, ∀ offer, parsePairingOfferV3 verifySignature bytes now = .ok offer ↔
      ∃ data verify, OfferOpens verifySignature bytes offer data verify ∧ OfferSigned verify bytes ∧
        (1 ≤ offer.ttlS ∧ offer.ttlS ≤ 86400) ∧ offer.issuedAt ≤ now + 300 ∧
        now < offer.issuedAt + offer.ttlS) ∧
    (∀ now < 2 ^ 64 - 1, ∀ e, parsePairingOfferV3 verifySignature bytes now = .error e ↔
      parseOfferV3Structure bytes = .error e ∨
      (∃ offer, parseOfferV3Structure bytes = .ok offer ∧ parseBundle offer.bundle = .error e) ∨
      (∃ offer data, parseOfferV3Structure bytes = .ok offer ∧ parseBundle offer.bundle = .ok data ∧
        verifySignature data.identityKey = .error e) ∨
      ∃ offer data verify, OfferOpens verifySignature bytes offer data verify ∧
        FirstFailing (offer.conditions (OfferSigned verify bytes) now) e) ∧
    (∀ now < 2 ^ 64 - 1, ∀ offer data verify, OfferOpens verifySignature bytes offer data verify →
      ¬ OfferSigned verify bytes →
        parsePairingOfferV3 verifySignature bytes now = .error .offerSignatureInvalid) ∧
    Set.OrdConnected {now | now < 2 ^ 64 - 1 ∧
      ∃ offer, parsePairingOfferV3 verifySignature bytes now = .ok offer} ∧
    ∀ now now', now ≤ now' → now' < 2 ^ 64 - 1 →
      RejectedExpired (parsePairingOfferV3 verifySignature bytes now) →
      RejectedExpired (parsePairingOfferV3 verifySignature bytes now') := by
  refine ⟨fun now hnow offer => parsePairingOfferV3_eq_ok hnow,
    fun now hnow e => parsePairingOfferV3_eq_error hnow, ?_, ?_, ?_⟩
  · intro now hnow offer data verify hopens hunsigned
    exact ((hopens.outcome hnow).1 _).mpr (.inl ⟨hunsigned, rfl⟩)
  · constructor
    rintro first ⟨hfirst, offer, haccept⟩ last ⟨hlast, offer', haccept'⟩ now ⟨hge, hle⟩
    -- the two ends accept the same offer, whose window holds what lies between
    obtain ⟨data, verify, hopens, hsigned, httl, hskew, -⟩ := (parsePairingOfferV3_eq_ok hfirst).mp haccept
    obtain ⟨data', verify', hopens', -, -, -, hend⟩ := (parsePairingOfferV3_eq_ok hlast).mp haccept'
    obtain ⟨rfl, -, -⟩ := hopens.unique hopens'
    have hnow : now < 2 ^ 64 - 1 := Nat.lt_of_le_of_lt hle hlast
    refine ⟨hnow, offer, (parsePairingOfferV3_eq_ok hnow).mpr ⟨data, verify, hopens, hsigned, httl, ?_, ?_⟩⟩
    · exact Nat.le_trans hskew (Nat.add_le_add_right hge 300)
    · exact Nat.lt_of_le_of_lt hle hend
  · rintro now now' hle hnow' ⟨issuedAt, ttlS, at', hreject⟩
    obtain ⟨offer, data, verify, hopens⟩ | ⟨e, herror, -⟩ := opens_or_error verifySignature bytes
    · have hfail := ((hopens.outcome (Nat.lt_of_le_of_lt hle hnow')).1 _).mp hreject
      exact ⟨_, _, _, ((hopens.outcome hnow').1 _).mpr (hfail.later hle)⟩
    · exact ⟨issuedAt, ttlS, at', (herror now').trans ((herror now).symm.trans hreject)⟩

end Titlan
