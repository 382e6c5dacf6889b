import Titlan.Codec.Offer
import Titlan.Foundation.Run

/-! # Minted offers

What an identity signs over its life: the prekeys of its bundle, and the offers it mints. A signature binds
a message, not fields; that an accepted offer has the fields of one mint rests on the signed part of an
offer being readable in one way only, and on no prekey being the signed part of an offer. -/

namespace Titlan

open Foundation

/-- The holder of an identity key, as it looks back: the offers it was asked to mint, and the messages
it signed. -/
structure Holder where
  minted : List (OfferV3 Bytes String String Bytes) := []
  signed : List Bytes := []
deriving DecidableEq, Repr

/-- What a holder does with its private key. -/
inductive HolderAct
  /-- Mints an offer; libsignal answers the request for a signature with `outcome`. -/
  | mint (offer : OfferV3 Bytes String String Bytes) (outcome : Bytes → Result Bytes)
  /-- Signs the public key of a prekey, as it is serialized. -/
  | signPrekey (publicKey : Bytes)

/-- `PrivateKey::calculate_signature`, with the messages signed so far. -/
def calculateSignature (outcome : Bytes → Result Bytes) (message : Bytes) :
    StateM (List Bytes) (Result Bytes) := do
  modify (message :: ·)
  return outcome message

def Holder.step (h : Holder) : HolderAct → Option Holder
  | .mint offer outcome =>
    some
      { minted := offer :: h.minted
        signed := ((encodePairingOfferV3 (calculateSignature outcome) offer).run h.signed).2 }
  | .signPrekey publicKey => some { h with signed := publicKey :: h.signed }

/-- The holder mints with inbox ids of the right width, and the serialized public keys it signs start
with their key type, which is not the version of an offer. -/
def Holder.Honest (_ : Holder) : HolderAct → Prop
  | .mint offer _ => offer.Fits
  | .signPrekey publicKey => publicKey.head? ≠ some offerVersionV3

/-- An encoder asks for one signature at most, of the signed part. -/
theorem run_encodePairingOfferV3 (offer : OfferV3 Bytes String String Bytes) (outcome : Bytes → Result Bytes)
    (log : List Bytes) :
    ((encodePairingOfferV3 (calculateSignature outcome) offer).run log).2 =
      (offerSignedBytes offer).elim log (· :: log) := by
  unfold encodePairingOfferV3
  cases offerSignedBytes offer with
  | none => rfl
  | some out =>
    cases houtcome : outcome out with
    | error e =>
      simp only [calculateSignature, houtcome]
      rfl
    | ok sig =>
      -- the answer is looked at only after the message has been signed
      simp only [calculateSignature, houtcome, ne_eq, ite_not, StateT.run_bind, StateT.run_modify,
        StateT.run_pure, pure_bind]
      split <;> rfl

theorem Holder.step_mint (h : Holder) (offer : OfferV3 Bytes String String Bytes)
    (outcome : Bytes → Result Bytes) :
    h.step (.mint offer outcome) = some
      { minted := offer :: h.minted, signed := (offerSignedBytes offer).elim h.signed (· :: h.signed) } := by
  rw [Holder.step, run_encodePairingOfferV3]

/-- Every signed message that starts as an offer does is the signed part of a minted one. -/
def Holder.Accounted (h : Holder) : Prop :=
  ∀ message ∈ h.signed, message.head? = some offerVersionV3 →
    ∃ offer ∈ h.minted, offer.Fits ∧ offerSignedBytes offer = some message

theorem Holder.Accounted.step {h h' : Holder} {act : HolderAct} (hh : h.Accounted) (hok : h.Honest act)
    (hstep : h.step act = some h') : h'.Accounted := by
  cases act with
  | mint offer outcome =>
    rw [Holder.step_mint] at hstep
    cases hstep
    have hkept : ∀ message ∈ h.signed, message.head? = some offerVersionV3 →
        ∃ o ∈ offer :: h.minted, o.Fits ∧ offerSignedBytes o = some message := by
      intro message hmem hhead
      obtain ⟨o, ho, hfits⟩ := hh message hmem hhead
      exact ⟨o, List.mem_cons_of_mem offer ho, hfits⟩
    intro message hmem hhead
    cases hsigned : offerSignedBytes offer with
    | none =>
      simp only [hsigned, Option.elim_none] at hmem
      exact hkept message hmem hhead
    | some out =>
      simp only [hsigned, Option.elim_some, List.mem_cons] at hmem
      rcases hmem with rfl | hmem
      · exact ⟨offer, List.mem_cons_self, hok, hsigned⟩
      · exact hkept message hmem hhead
  | signPrekey publicKey =>
    cases hstep
    intro message hmem hhead
    rcases List.mem_cons.mp hmem with rfl | hmem
    · exact absurd hhead hok
    · exact hh message hmem hhead

theorem Holder.accounted_run {acts : List HolderAct} {h : Holder}
    (hok : Along Holder.step Holder.Honest {} acts) (hrun : run Holder.step {} acts = some h) :
    h.Accounted := by
  refine run_invariant (I := Holder.Accounted) (fun _ _ _ hh hact hstep => hh.step hact hstep) ?_ hok hrun
  intro message hmem
  cases hmem

/-- Whatever the clock, what is accepted opens and is signed. -/
theorem opens_of_accepted {verifySignature : Bytes → Result (Bytes → Bytes → Bool)} {bytes : Bytes} {now : ℕ}
    {offer : OfferV3 Bytes String String Bytes}
    (h : parsePairingOfferV3 verifySignature bytes now = .ok offer) :
    ∃ data verify, OfferOpens verifySignature bytes offer data verify ∧ OfferSigned verify bytes := by
  obtain ⟨got, data, verify, hopens⟩ | ⟨e, herror, -⟩ := opens_or_error verifySignature bytes
  · rw [parsePairingOfferV3, result_bind_ok hopens.parsed, result_bind_ok hopens.bundle,
      result_bind_ok hopens.key, (check_outcome hopens.signed_iff).2, (check_outcome Iff.rfl).2,
      (check_outcome Iff.rfl).2, (check_outcome Iff.rfl).2] at h
    obtain ⟨hsigned, -, -, -, hgot⟩ := h
    cases hgot
    exact ⟨data, verify, hopens, hsigned⟩
  · rw [herror now] at h
    cases h

theorem head?_offerSignedBytes {offer : OfferV3 Bytes String String Bytes} {message : Bytes}
    (h : offerSignedBytes offer = some message) : message.head? = some offerVersionV3 := by
  obtain ⟨bundle, relay, -, -, rfl⟩ := offerSignedBytes_eq_some.mp h
  rfl

/-- **An accepted offer is one its identity minted.** If only messages the holder signed verify under its
key, then whatever is accepted under that key, at whatever clock, has together the fields of one mint, and
no other fields have the signed part it carries. -/
theorem accepted_offer_minted {verifySignature : Bytes → Result (Bytes → Bytes → Bool)} {identityKey : Bytes}
    {acts : List HolderAct} {h : Holder} (hhonest : Along Holder.step Holder.Honest {} acts)
    (hrun : run Holder.step {} acts = some h)
    (hideal : ∀ verify, verifySignature identityKey = .ok verify →
      ∀ message sig, verify message sig = true → message ∈ h.signed)
    {bytes : Bytes} {now : ℕ} {offer : OfferV3 Bytes String String Bytes} {data : BundleData}
    (haccept : parsePairingOfferV3 verifySignature bytes now = .ok offer)
    (hbundle : parseBundle offer.bundle = .ok data) (hkey : data.identityKey = identityKey) :
    offer ∈ h.minted ∧ ∃ message sig, bytes = message ++ sig ∧ sig.length = offerSigLen ∧
      offerSignedBytes offer = some message ∧
      ∀ other : OfferV3 Bytes String String Bytes, other.Fits → offerSignedBytes other = some message →
        other = offer := by
  obtain ⟨data', verify, hopens, message, sig, rfl, hsig, hverify⟩ := opens_of_accepted haccept
  obtain rfl := Except.ok.inj (hbundle.symm.trans hopens.bundle)
  obtain ⟨hfits, message', sig', hmessage, hsig', heq⟩ := parseOfferV3Structure_eq_ok.mp hopens.parsed
  obtain ⟨rfl, rfl⟩ := List.append_inj' heq (hsig.trans hsig'.symm)
  have hsigned : message ∈ h.signed := hideal verify (hkey ▸ hopens.key) message sig hverify
  obtain ⟨minted, hminted, hmintedFits, hmintedMessage⟩ :=
    Holder.accounted_run hhonest hrun message hsigned (head?_offerSignedBytes hmessage)
  obtain rfl := offerSignedBytes_inj hmintedFits hfits hmintedMessage hmessage
  exact ⟨hminted, message, sig, rfl, hsig, hmessage,
    fun other hother hsame => offerSignedBytes_inj hother hfits hsame hmessage⟩

/-- An offer of a small bundle. -/
def smallOffer : OfferV3 Bytes String String Bytes where
  bundle := [1, 0, 2, 48, 53, 0, 0, 0, 7, 0, 0, 0, 1, 0, 2, 5, 7, 0, 0, 0, 1, 0, 1, 1, 0, 1, 2, 0, 0, 0, 1,
    0, 1, 3, 0, 1, 4, 255, 255, 255, 255, 0, 0]
  relayUrl := "r"
  pairingInboxId := String.ofList (List.replicate 43 'A')
  pairingSecret := List.replicate 32 0
  issuedAt := 1000
  ttlS := 3600

/-- A holder signs a prekey and mints an offer; a reader that knows only what was signed accepts it. -/
theorem small_offer_minted :
    ∃ message, offerSignedBytes smallOffer = some message ∧
      parsePairingOfferV3 (fun _ => .ok fun m _ => decide (m = message))
        (message ++ List.replicate 64 0) 1200 = .ok smallOffer ∧
      ∃ h, run Holder.step {} [.signPrekey [5, 1], .mint smallOffer fun _ => .ok (List.replicate 64 0)] =
        some h ∧ smallOffer ∈ h.minted := by
  have hfits : smallOffer.Fits := ⟨by decide, by decide, by decide, by decide⟩
  obtain ⟨message, hmessage⟩ : ∃ message, offerSignedBytes smallOffer = some message :=
    ⟨_, offerSignedBytes_eq_some.mpr ⟨_, _, putBytes_of_le (by decide), putBytes_of_le (by decide), rfl⟩⟩
  have hbundle : parseBundle smallOffer.bundle = .ok (smallBundle none) :=
    parseBundle_eq_ok.mpr ⟨absentId, [], by decide, by decide, by decide, by decide, by decide, rfl,
      by decide, rfl⟩
  have haccept : parsePairingOfferV3 (fun _ => .ok fun m _ => decide (m = message))
      (message ++ List.replicate 64 0) 1200 = .ok smallOffer := by
    refine (parsePairingOfferV3_eq_ok (by decide)).mpr ⟨smallBundle none, _, ⟨?_, hbundle, rfl⟩,
      ⟨message, List.replicate 64 0, rfl, by decide, decide_eq_true rfl⟩, by decide, by decide, by decide⟩
    exact parseOfferV3Structure_eq_ok.mpr ⟨hfits, message, _, hmessage, by decide, rfl⟩
  have hrun : run Holder.step {} [.signPrekey [5, 1], .mint smallOffer fun _ => .ok (List.replicate 64 0)] =
      some { minted := [smallOffer], signed := [message, [5, 1]] } := by
    have hprekey : Holder.step {} (.signPrekey [5, 1]) = some { signed := [[5, 1]] } := rfl
    rw [run_cons, hprekey, Option.bind_some, run_cons, Holder.step_mint, hmessage]
    rfl
  have hhead : ([5, 1] : Bytes).head? ≠ some offerVersionV3 := by decide
  have hhonest : Along Holder.step Holder.Honest {}
      [.signPrekey [5, 1], .mint smallOffer fun _ => .ok (List.replicate 64 0)] :=
    ⟨hhead, fun _ _ => ⟨hfits, fun _ _ => trivial⟩⟩
  refine ⟨message, hmessage, haccept, _, hrun, ?_⟩
  refine (accepted_offer_minted hhonest hrun ?_ haccept hbundle rfl).1
  intro verify hverify m sig hm
  obtain rfl := Except.ok.inj hverify
  obtain rfl := of_decide_eq_true hm
  exact List.mem_cons_self

end Titlan
