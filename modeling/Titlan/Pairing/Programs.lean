import Titlan.Device.Bytes
import Titlan.Engine.Listener

/-! # The pairing handshake

The offerer's listener on its pairing inbox (`pairing_listener_v2`, `handle_pair_ack_v2`) and the
responder's call (`begin_pairing_from_offer`), as programs over an effect signature of their own. Both
work on the table of conversations as a whole: they insert rows, and from then on name the row they
inserted. An operation of the engine is performed either for such a conversation or for none.

Session calls are single operations here, each with the outcome libsignal and the store give it. A
payload that makes the encoder panic is a call that never answers. -/

namespace Titlan

open Foundation

/-! ## Representations -/

/-- What the handshake's programs are generic in, beyond the engine's representations. -/
structure PairingCarrier extends Carrier where
  /-- Scanned offers. -/
  Payload : Type
  Bundle : Type
  Secret : Type
  Proof : Type
  Inner : Type

namespace PairingCarrier

variable (C : PairingCarrier)

/-- Offers over the carrier. -/
abbrev Offer : Type := OfferV3 C.Bundle C.Relay C.Id C.Secret

/-- `pair-ack/2` over the carrier. -/
abbrev PairAck : Type := PairAckV2 C.Bundle C.Relay C.Id C.Contribution C.Proof

end PairingCarrier

/-- An inner frame as far as a pairing inbox tells frames apart. -/
inductive PairingFrame (C : PairingCarrier)
  | pairAck (ack : C.PairAck)
  /-- A `pair-ack/2` whose payload its parser refuses. -/
  | malformedAck (e : CoreError)
  | other (frame : C.toCarrier.Frame)

/-- What the handshake is configured with: the engine, the offer's validity rule, the proof-of-scan MAC
and the reading of an inner frame. -/
structure PairingLib (C : PairingCarrier) where
  engine : Engine C.toCarrier
  /-- `pairing::parse_pairing_offer_v3`. -/
  parsePairingOfferV3 : C.Payload → ℕ → Result C.Offer
  /-- `pairing::compute_proof_of_scan`. -/
  computeProofOfScan : C.Secret → C.Bundle → C.Contribution → C.Proof
  /-- The type and version checks of the handlers, and their payload parsers. -/
  readFrame : C.Inner → PairingFrame C

/-- `pairing::verify_proof_of_scan`. -/
def PairingLib.verifyProofOfScan {C : PairingCarrier} [DecidableEq C.Proof] (L : PairingLib C)
    (secret : C.Secret) (ack : C.PairAck) : Result Unit :=
  if L.computeProofOfScan secret ack.responderBundle ack.rootContribution = ack.proof then .ok ()
  else .error .proofOfScanFailed

/-! ## Effects -/

/-- A conversation's id: the number of rows inserted before it. -/
abbrev ConversationId := ℕ

/-- Everything the handshake does. -/
inductive PairingOp (C : PairingCarrier)
  | unixNow
  /-- 32 random bytes, as a pairing secret. -/
  | drawSecret
  /-- 32 random bytes, as a contribution to the recovery root. -/
  | drawContribution
  /-- `pairing::encode_pairing_offer_v3`: the offer, signed by the identity key. -/
  | encodePairingOfferV3 (offer : C.Offer)
  /-- `session::establish_session`: the peer's address. -/
  | establishSession (bundle : C.Bundle)
  /-- `identity::export_prekey_bundle`. -/
  | exportPrekeyBundle
  /-- `session::encrypt_message`. -/
  | encryptMessage (peer : String) (frame : PairingFrame C)
  /-- `session::decrypt_setup_from_unknown`: the sender's address and the frame. -/
  | decryptSetupFromUnknown (envelope : C.Wire)
  | createRoutedConversation (convo : Conversation C.toCarrier)
  | setRecoveryPairing (conv : ConversationId) (role : UInt8) (contribution : C.Contribution)
  /-- An operation of the engine that concerns no conversation. -/
  | call (o : Op C.toCarrier)
  /-- An operation of the engine for a conversation. -/
  | about (conv : ConversationId) (o : Op C.toCarrier)
  | spawnConversation (conv : ConversationId)

/-- What an operation returns. -/
@[reducible] def PairingOp.Answer {C : PairingCarrier} : PairingOp C → Type
  | .unixNow => ℕ
  | .drawSecret => C.Secret
  | .drawContribution => C.Contribution
  | .encodePairingOfferV3 _ => Result C.Payload
  | .establishSession _ => Result String
  | .exportPrekeyBundle => Result C.Bundle
  | .encryptMessage _ _ => Result C.Wire
  | .decryptSetupFromUnknown _ => Result (String × C.Inner)
  | .createRoutedConversation _ => Result ConversationId
  | .setRecoveryPairing _ _ _ => Result Unit
  | .call o => o.Answer
  | .about _ o => o.Answer
  | .spawnConversation _ => Unit

/-- The handshake's effect signature. -/
@[reducible] def pairingSig (C : PairingCarrier) : Signature := ⟨PairingOp C, PairingOp.Answer⟩

/-- A program of the handshake. -/
abbrev PairingM (C : PairingCarrier) := Program (pairingSig C)

/-- One operation. -/
abbrev pairing {C : PairingCarrier} (o : PairingOp C) : PairingM C o.Answer :=
  Program.perform (S := pairingSig C) o

/-- An engine program, run for a conversation. -/
def aboutConversation {C : PairingCarrier} {α : Type} (conv : ConversationId)
    (p : EngineM C.toCarrier α) : PairingM C α :=
  p.rename (T := pairingSig C) (PairingOp.about conv) fun _ r => r

/-! ## Programs -/

namespace PairingLib

variable {C : PairingCarrier} (L : PairingLib C)

/-- The end of `begin_pairing_from_offer`: the `pair-ack/2` is deposited and the handoff awaited. No
conversation when the model's fuel is spent. -/
def finishPairing (offer : C.Offer) (peerAddr : String) (myInbox : C.Id) (conv : ConversationId)
    (bContrib : C.Contribution) (wire : C.Wire) (fuel : ℕ) :
    PairingM C (Result (Option ConversationId)) := do
  match ← pairing (.call (.relay (.deposit offer.relayUrl offer.pairingInboxId wire))) with
  | .error e => return .error e
  | .ok .notFound => return .error .pairingUnavailable
  | .ok (.other status) =>
    return .error (.network ("pair-ack/2 deposit status " ++ toString status))
  | .ok .accepted =>
    match ← aboutConversation conv
        (L.engine.awaitInboxHandoffV2 peerAddr myInbox bContrib fuel) with
    | none => return .ok none
    | some (.error e) => return .error e
    | some (.ok ()) => return .ok (some conv)

/-- `begin_pairing_from_offer`. -/
def beginPairingFromOffer (payload : C.Payload) (fuel : ℕ) :
    PairingM C (Result (Option ConversationId)) := do
  let now ← pairing .unixNow
  match L.parsePairingOfferV3 payload now with
  | .error e => return .error e
  | .ok offer =>
    (pairing (.establishSession offer.bundle)).attempt fun peerAddr =>
    (pairing (.call (.relay .createMailbox))).attempt fun myInbox =>
    (pairing (.createRoutedConversation ⟨peerAddr, offer.relayUrl, none, some myInbox⟩)).attempt
      fun conv => do
    let bContrib ← pairing .drawContribution
    (pairing (.setRecoveryPairing conv roleResponder bContrib)).attempt fun _ =>
    (pairing .exportPrekeyBundle).attempt fun myBundle =>
    let proof := L.computeProofOfScan offer.pairingSecret myBundle bContrib
    (pairing (.encryptMessage peerAddr
        (.pairAck ⟨myBundle, L.engine.myRelay, myInbox, bContrib, proof⟩))).attempt fun wire =>
    L.finishPairing offer peerAddr myInbox conv bContrib wire fuel

/-- `handle_pair_ack_v2` from a verified `pair-ack/2` on. -/
def completePairing (pairingInbox : C.Id) (peerAddr : String) (ack : C.PairAck) :
    PairingM C (Result (Option ConversationId)) :=
  (pairing (.call (.relay .createMailbox))).attempt fun myInbox =>
  (pairing (.createRoutedConversation ⟨peerAddr, ack.relayUrl, some ack.inboxId, some myInbox⟩)).attempt
    fun conv => do
  let aContrib ← pairing .drawContribution
  (pairing (.setRecoveryPairing conv roleOfferer aContrib)).attempt fun _ =>
  (pairing (.about conv (.store (.setRecoveryRoot ack.rootContribution
    (L.engine.deriveRoot aContrib ack.rootContribution))))).attempt fun _ => do
  let _ ← pairing (.call (.relay (.deleteMailbox pairingInbox)))
  (pairing (.encryptMessage peerAddr
    (.other (.mailboxUpdateV2 L.engine.myRelay myInbox aContrib)))).attempt fun wire =>
  (pairing (.call (.relay (.deposit ack.relayUrl ack.inboxId wire)))).attempt fun _ => do
  pairing (.spawnConversation conv)
  return .ok (some conv)

variable [DecidableEq C.Proof]

/-- `handle_pair_ack_v2`. -/
def handlePairAckV2 (pairingInbox : C.Id) (secret : C.Secret) (envelope : C.Wire) :
    PairingM C (Result (Option ConversationId)) :=
  (pairing (.decryptSetupFromUnknown envelope)).attempt fun opened =>
  match L.readFrame opened.2 with
  | .other _ => return .ok none
  | .malformedAck e => return .error e
  | .pairAck ack =>
    match L.verifyProofOfScan secret ack with
    | .error e => return .error e
    | .ok () => L.completePairing pairingInbox opened.1 ack

/-- How the listener goes on after one subscription. -/
inductive ListenerExit
  /-- The pairing is complete or the offer is burned. -/
  | finished
  | disconnected
  | outOfFuel

/-- The delivery loop of `pairing_listener_v2`. Anything but a completed pairing or a failed proof is
acked and ignored. -/
def pairingLoop (pairingInbox : C.Id) (secret : C.Secret) : ℕ → PairingM C ListenerExit
  | 0 => return .outOfFuel
  | fuel + 1 => do
    match ← pairing (.call (.socket .next)) with
    | .closed => return .disconnected
    | .idle => pairingLoop pairingInbox secret fuel
    | .delivery msgId envelope =>
      match ← L.handlePairAckV2 pairingInbox secret envelope with
      | .ok (some _) =>
        pairing (.call (.socket (.ack msgId)))
        return .finished
      | .error .proofOfScanFailed =>
        pairing (.call (.socket (.ack msgId)))
        let _ ← pairing (.call (.relay (.deleteMailbox pairingInbox)))
        return .finished
      | _ =>
        pairing (.call (.socket (.ack msgId)))
        pairingLoop pairingInbox secret fuel

/-- `pairing_listener_v2`, with as many turns as the fuel allows. The offer's time-to-live ends it at any
of its operations. -/
def pairingListenerV2 (pairingInbox : C.Id) (secret : C.Secret) : ℕ → PairingM C Unit
  | 0 => return ()
  | fuel + 1 => do
    match ← pairing (.call (.socket (.subscribe pairingInbox))) with
    | .ok =>
      match ← L.pairingLoop pairingInbox secret fuel with
      | .finished | .outOfFuel => return ()
      | .disconnected => pairingListenerV2 pairingInbox secret fuel
    | .notFound => return ()
    | .unreachable => pairingListenerV2 pairingInbox secret fuel

/-- `export_offer`. The listener it spawns runs on in its place. -/
def exportOffer (bundle : C.Bundle) (fuel : ℕ) : PairingM C (Result Unit) :=
  (pairing (.call (.relay .createMailbox))).attempt fun pairingInbox => do
  let secret ← pairing .drawSecret
  let issuedAt ← pairing .unixNow
  (pairing (.encodePairingOfferV3
    ⟨bundle, L.engine.myRelay, pairingInbox, secret, issuedAt, offerDefaultTtlS⟩)).attempt fun _ => do
  L.pairingListenerV2 pairingInbox secret fuel
  return .ok ()

end PairingLib

/-! ## Over the wire formats -/

/-- The client's own representations. -/
abbrev bytePairingCarrier (Session : Type) : PairingCarrier where
  toCarrier := byteCarrier Session
  Payload := Bytes
  Bundle := Bytes
  Secret := Bytes
  Proof := Bytes
  Inner := InnerFrame

/-- The pairing inbox's reading of an inner frame. -/
def readPairingFrame {Session : Type} (f : InnerFrame) : PairingFrame (bytePairingCarrier Session) :=
  if f.payloadType = .pairAck ∧ f.typeVersion = pairAckV2 then
    match parsePairAckV2 f.payload with
    | .ok ack => .pairAck ack
    | .error e => .malformedAck e
  else .other (classify f)

/-- The handshake of a client of the relay `myRelay`. -/
def bytePairing {Session : Type} (lib : Libsignal Session)
    (verifySignature : Bytes → Result (Bytes → Bytes → Bool)) (profile : PaddingProfile)
    (myRelay : String) : PairingLib (bytePairingCarrier Session) where
  engine := byteEngine lib profile myRelay
  parsePairingOfferV3 := parsePairingOfferV3 verifySignature
  computeProofOfScan := computeProofOfScan lib.hmacSha256
  readFrame := readPairingFrame

end Titlan
