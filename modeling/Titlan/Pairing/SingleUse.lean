import Titlan.Device.Dispatch
import Titlan.Foundation.History
import Titlan.Pairing.Programs

/-! # An offer is used once, unless the handoff fails

The listener of an offer against an arbitrary environment: whatever frames are delivered, however they
decrypt, and whatever comes of every request and write. A conversation is created only for a frame whose
proof verifies, and never after a frame whose proof failed. A second conversation can be created only
after something failed between the insert of the first one and the end of its handoff, because the
listener treats that like a frame it does not know: it acks it and listens on. -/

namespace Titlan.Pairing

open Foundation

variable {C : PairingCarrier}

/-! ## Events -/

/-- One operation of the handshake with its answer. -/
abbrev PairingEvent (C : PairingCarrier) : Type := Performed (pairingSig C)

/-- The conversation an event created. -/
def created (e : PairingEvent C) : Option (Conversation C.toCarrier) :=
  match e with
  | ⟨.createRoutedConversation convo, .ok _⟩ => some convo
  | _ => none

/-- What a delivered envelope decrypted to: the sender's address and the frame. -/
def opened (e : PairingEvent C) : Option (String × C.Inner) :=
  match e with
  | ⟨.decryptSetupFromUnknown _, .ok frame⟩ => some frame
  | _ => none

/-- A step of the handshake failed that stands behind the insert of the conversation: a write of the
recovery columns, the sealing of the handoff, or its deposit. -/
def failedLate (e : PairingEvent C) : Bool :=
  match e with
  | ⟨.setRecoveryPairing _ _ _, .error _⟩ => true
  | ⟨.about _ (.store (.setRecoveryRoot _ _)), .error _⟩ => true
  | ⟨.encryptMessage _ _, .error _⟩ => true
  | ⟨.call (.relay (.deposit _ _ _)), .error _⟩ => true
  | _ => false

section Frames

variable (L : PairingLib C) (secret : C.Secret)

/-- The event opened this `pair-ack/2`. -/
def Acknowledged (e : PairingEvent C) (peer : String) (ack : C.PairAck) : Prop :=
  ∃ inner, opened e = some (peer, inner) ∧ L.readFrame inner = .pairAck ack

/-- The acknowledgement's proof verifies under the secret, over its bundle and its contribution. -/
def Proven (ack : C.PairAck) : Prop :=
  L.computeProofOfScan secret ack.responderBundle ack.rootContribution = ack.proof

/-- The event opened a `pair-ack/2` whose proof fails. -/
def ProofFailed (e : PairingEvent C) : Prop :=
  ∃ peer ack, Acknowledged L e peer ack ∧ ¬ Proven L secret ack

/-- The conversation is the one a proven `pair-ack/2` of the history asks for. -/
def AskedFor (h : List (PairingEvent C)) (convo : Conversation C.toCarrier) : Prop :=
  ∃ e ∈ h, ∃ peer ack inbox, Acknowledged L e peer ack ∧ Proven L secret ack ∧
    convo = ⟨peer, ack.relayUrl, some ack.inboxId, some inbox⟩

/-- Unless something failed late, no conversation has been created. -/
def Unused (h : List (PairingEvent C)) : Prop :=
  (∀ e ∈ h, failedLate e = false) → ∀ e ∈ h, created e = none

/-- Every creation was asked for by a proven frame, came before any failed proof, and was the first one
unless something had failed late. -/
def Sound : List (PairingEvent C) → Prop
  | [] => True
  | e :: h => Sound h ∧ ∀ convo, created e = some convo →
      AskedFor L secret h convo ∧ (∀ e' ∈ h, ¬ ProofFailed L secret e') ∧ Unused h

/-- The listener may go on: every creation so far is in order, and no proof has failed. -/
structure Standing (h : List (PairingEvent C)) : Prop where
  sound : Sound L secret h
  proofs : ∀ e ∈ h, ¬ ProofFailed L secret e

/-- The offer stands, and is unused unless something failed late. -/
structure Offered (h : List (PairingEvent C)) : Prop extends Standing L secret h where
  unused : Unused h

end Frames

/-! ## Operations that neither open a frame nor create a conversation -/

/-- The operation neither opens a frame nor creates a conversation. -/
def Plain : PairingOp C → Prop
  | .createRoutedConversation _ | .decryptSetupFromUnknown _ => False
  | _ => True

theorem created_plain {o : PairingOp C} (ho : Plain o) (r : o.Answer) :
    created (C := C) ⟨o, r⟩ = none := by
  cases o with
  | createRoutedConversation convo => exact ho.elim
  | _ => rfl

theorem opened_plain {o : PairingOp C} (ho : Plain o) (r : o.Answer) :
    opened (C := C) ⟨o, r⟩ = none := by
  cases o with
  | decryptSetupFromUnknown envelope => exact ho.elim
  | _ => rfl

variable {L : PairingLib C} {secret : C.Secret} {h : List (PairingEvent C)} {e : PairingEvent C}

theorem not_proofFailed_of_opened (he : opened e = none) : ¬ ProofFailed L secret e := by
  rintro ⟨peer, ack, ⟨inner, hopened, -⟩, -⟩
  rw [he] at hopened
  cases hopened

theorem Standing.cons (hs : Standing L secret h)
    (hcreated : created e = none) (hproof : ¬ ProofFailed L secret e) :
    Standing L secret (e :: h) := by
  refine ⟨⟨hs.sound, fun convo hconvo => ?_⟩, fun e' he' => ?_⟩
  · rw [hcreated] at hconvo
    cases hconvo
  · rcases List.mem_cons.mp he' with rfl | he'
    · exact hproof
    · exact hs.proofs e' he'

theorem Standing.plain {o : PairingOp C} (hs : Standing L secret h) (ho : Plain o) (r : o.Answer) :
    Standing L secret (⟨o, r⟩ :: h) :=
  hs.cons (created_plain ho r) (not_proofFailed_of_opened (opened_plain ho r))

theorem Unused.cons (hu : Unused h) (hcreated : created e = none) : Unused (e :: h) := by
  intro hnone e' he'
  rcases List.mem_cons.mp he' with rfl | he'
  · exact hcreated
  · exact hu (fun e'' he'' => hnone e'' (List.mem_cons_of_mem _ he'')) e' he'

/-- After a late failure nothing is asked any more. -/
theorem unused_of_failedLate (he : failedLate e = true) : Unused (e :: h) := by
  intro hnone
  have hfalse := hnone e List.mem_cons_self
  rw [he] at hfalse
  cases hfalse

theorem Offered.plain {o : PairingOp C} (hs : Offered L secret h) (ho : Plain o) (r : o.Answer) :
    Offered L secret (⟨o, r⟩ :: h) :=
  ⟨hs.toStanding.plain ho r, hs.unused.cons (created_plain ho r)⟩

/-- Inserting a conversation that was asked for. If the insert fails, the offer stands as before. -/
theorem Offered.insert {convo : Conversation C.toCarrier} (hs : Offered L secret h)
    (hasked : AskedFor L secret h convo) (r : Result ConversationId) :
    Standing L secret (⟨.createRoutedConversation convo, r⟩ :: h) ∧
      ((∃ e, r = .error e) → Unused (C := C) (⟨.createRoutedConversation convo, r⟩ :: h)) := by
  have hproof : ¬ ProofFailed L secret (⟨.createRoutedConversation convo, r⟩ : PairingEvent C) :=
    not_proofFailed_of_opened rfl
  cases r with
  | error e => exact ⟨hs.toStanding.cons rfl hproof, fun _ => hs.unused.cons rfl⟩
  | ok id =>
    refine ⟨⟨⟨hs.sound, fun convo' hconvo' => ?_⟩, fun e he => ?_⟩, fun ⟨_, herror⟩ => by cases herror⟩
    · cases hconvo'
      exact ⟨hasked, hs.proofs, hs.unused⟩
    · rcases List.mem_cons.mp he with rfl | he
      · exact hproof
      · exact hs.proofs e he

/-! ## The handshake, operation by operation -/

section Triples

variable (L secret) in
/-- The listener's history, and what each event keeps. -/
abbrev listening : Setting (pairingSig C) (List (PairingEvent C)) :=
  History.setting (pairingSig C) (Sound L secret)

variable {α : Type} {post : α → List (PairingEvent C) → Prop} {o : PairingOp C}

/-- Plain operations keep every creation in order. -/
theorem Sound.plain (hs : Sound L secret h) (ho : Plain o) (r : o.Answer) :
    Sound L secret (⟨o, r⟩ :: h) := by
  refine ⟨hs, fun convo hconvo => ?_⟩
  rw [created_plain ho r] at hconvo
  cases hconvo

/-- A plain operation under an assertion that such operations keep. -/
theorem triple_plain {pre : List (PairingEvent C) → Prop} (hsound : ∀ h, pre h → Sound L secret h)
    (ho : Plain o) (hpre : ∀ h r, pre h → pre (⟨o, r⟩ :: h))
    {k : o.Answer → PairingM C α} (hk : ∀ r, Triple (listening L secret) pre (k r) post) :
    Triple (listening L secret) pre (pairing o >>= k) post :=
  History.triple_perform (fun h r hs => ⟨(hsound h hs).plain ho r, hpre h r hs⟩) hk

/-- A plain operation while the offer stands. -/
theorem triple_offered (ho : Plain o) {k : o.Answer → PairingM C α}
    (hk : ∀ r, Triple (listening L secret) (Offered L secret) (k r) post) :
    Triple (listening L secret) (Offered L secret) (pairing o >>= k) post :=
  triple_plain (fun _ hs => hs.sound) ho (fun _ r hs => hs.plain ho r) hk

/-- A plain operation after the conversation was created. -/
theorem triple_standing (ho : Plain o) {k : o.Answer → PairingM C α}
    (hk : ∀ r, Triple (listening L secret) (Standing L secret) (k r) post) :
    Triple (listening L secret) (Standing L secret) (pairing o >>= k) post :=
  triple_plain (fun _ hs => hs.sound) ho (fun _ r hs => hs.plain ho r) hk

/-- A plain operation after the offer's end. -/
theorem triple_sound (ho : Plain o) {k : o.Answer → PairingM C α}
    (hk : ∀ r, Triple (listening L secret) (Sound L secret) (k r) post) :
    Triple (listening L secret) (Sound L secret) (pairing o >>= k) post :=
  triple_plain (fun _ hs => hs) ho (fun _ r hs => hs.plain ho r) hk

end Triples

/-- The listener listens on after this result of the handler. -/
def goesOn : Result (Option ConversationId) → Bool
  | .ok (some _) => false
  | .error .proofOfScanFailed => false
  | _ => true

/-- After a result the listener listens on from, the offer stands. -/
def Handled (L : PairingLib C) (secret : C.Secret) (r : Result (Option ConversationId))
    (h : List (PairingEvent C)) : Prop :=
  Sound L secret h ∧ (goesOn r = true → Offered L secret h)

theorem Offered.handled (hs : Offered L secret h) (r : Result (Option ConversationId)) :
    Handled L secret r h :=
  ⟨hs.sound, fun _ => hs⟩

section Triples

/-- An operation behind the insert of the conversation. -/
theorem triple_late {o : PairingOp C} (ho : Plain o) {fails : o.Answer → Prop}
    (hfails : ∀ r, fails r → failedLate (C := C) ⟨o, r⟩ = true) :
    Triple (listening L secret) (Standing L secret) (pairing o)
      fun r h => Standing L secret h ∧ (fails r → Unused h) := by
  refine History.triple_performed fun h r hs => ?_
  have hplain := hs.plain ho r
  exact ⟨hplain.sound, hplain, fun hr => unused_of_failedLate (hfails r hr)⟩

/-- If it fails, the handler returns the error and the offer is as good as new. -/
theorem triple_attempt_late {β : Type} {q : PairingM C (Result β)}
    {f : β → PairingM C (Result (Option ConversationId))}
    (hq : Triple (listening L secret) (Standing L secret) q
      fun r h => Standing L secret h ∧ ((∃ e, r = .error e) → Unused h))
    (hf : ∀ b, Triple (listening L secret) (Standing L secret) (f b) (Handled L secret)) :
    Triple (listening L secret) (Standing L secret) (q.attempt f) (Handled L secret) := by
  refine triple_attempt hq (fun e => ?_) fun b => (hf b).of_pre fun _ hs => hs.1
  refine History.triple_ret fun h hs => ?_
  exact ⟨hs.1.sound, fun _ => ⟨hs.1, hs.2 ⟨e, rfl⟩⟩⟩

variable (inbox : C.Id)

/-- **From a proven `pair-ack/2` on.** -/
theorem triple_completePairing (peer : String) (ack : C.PairAck) (hproven : Proven L secret ack) :
    Triple (listening L secret)
      (fun h => Offered L secret h ∧ ∃ e ∈ h, Acknowledged L e peer ack)
      (L.completePairing inbox peer ack) (Handled L secret) := by
  refine triple_attempt (m := fun _ h => Offered L secret h ∧ ∃ e ∈ h, Acknowledged L e peer ack)
    (History.triple_performed fun h r hs => ?_) (fun e => History.triple_ret fun h hs => hs.1.handled _)
    fun myInbox => ?_
  · obtain ⟨hs, e, he, hack⟩ := hs
    have hplain := hs.plain (o := .call (.relay .createMailbox)) trivial r
    exact ⟨hplain.sound, hplain, e, List.mem_cons_of_mem _ he, hack⟩
  refine triple_attempt (m := fun r h => Standing L secret h ∧ ((∃ e, r = .error e) → Unused h))
    (History.triple_performed fun h r hs => ?_)
    (fun e => History.triple_ret fun h hs => ⟨hs.1.sound, fun _ => ⟨hs.1, hs.2 ⟨e, rfl⟩⟩⟩)
    fun conv => Triple.of_pre ?_ fun h hs => hs.1
  · obtain ⟨hs, e, he, hack⟩ := hs
    have hasked : AskedFor L secret h ⟨peer, ack.relayUrl, some ack.inboxId, some myInbox⟩ :=
      ⟨e, he, peer, ack, myInbox, hack, hproven, rfl⟩
    have hinsert := hs.insert hasked r
    exact ⟨hinsert.1.sound, hinsert⟩
  -- from here on the conversation exists
  refine triple_standing (by trivial) fun aContrib => ?_
  refine triple_attempt_late (triple_late (by trivial) fun r ⟨e, hr⟩ => by rw [hr]; rfl) fun _ => ?_
  refine triple_attempt_late (triple_late (by trivial) fun r ⟨e, hr⟩ => by rw [hr]; rfl) fun _ => ?_
  refine triple_standing (by trivial) fun _ => ?_
  refine triple_attempt_late (triple_late (by trivial) fun r ⟨e, hr⟩ => by rw [hr]; rfl) fun wire => ?_
  refine triple_attempt_late (triple_late (by trivial) fun r ⟨e, hr⟩ => by rw [hr]; rfl) fun _ => ?_
  refine triple_standing (by trivial) fun _ => ?_
  exact History.triple_ret fun h hs => ⟨hs.sound, fun hgoes => by cases hgoes⟩

variable [DecidableEq C.Proof]

/-- After an envelope was opened: the offer stands unless it held a `pair-ack/2` with a failing proof. -/
def Read (L : PairingLib C) (secret : C.Secret) (r : Result (String × C.Inner))
    (h : List (PairingEvent C)) : Prop :=
  Sound L secret h ∧
  ((∀ peer inner ack, r = .ok (peer, inner) → L.readFrame inner = .pairAck ack →
    Proven L secret ack) → Offered L secret h) ∧
  ∀ peer inner ack, r = .ok (peer, inner) → L.readFrame inner = .pairAck ack →
    ∃ e ∈ h, Acknowledged L e peer ack

omit [DecidableEq C.Proof] in
theorem Offered.read (hs : Offered L secret h) (envelope : C.Wire) (r : Result (String × C.Inner)) :
    Read L secret r (⟨.decryptSetupFromUnknown envelope, r⟩ :: h) := by
  refine ⟨⟨hs.sound, fun convo hconvo => by cases hconvo⟩, fun hproven => ?_, ?_⟩
  · refine ⟨hs.toStanding.cons rfl ?_, hs.unused.cons rfl⟩
    rintro ⟨peer, ack, ⟨inner, hopened, hread⟩, hfails⟩
    cases r with
    | error e => cases hopened
    | ok frame =>
      cases hopened
      exact hfails (hproven peer inner ack rfl hread)
  · rintro peer inner ack rfl hread
    exact ⟨_, List.mem_cons_self, inner, rfl, hread⟩

theorem verifyProofOfScan_of_proven {ack : C.PairAck} (hproven : Proven L secret ack) :
    L.verifyProofOfScan secret ack = .ok () := if_pos hproven

theorem verifyProofOfScan_of_not {ack : C.PairAck} (hproven : ¬ Proven L secret ack) :
    L.verifyProofOfScan secret ack = .error .proofOfScanFailed := if_neg hproven

/-- **The handler.** -/
theorem triple_handlePairAckV2 (envelope : C.Wire) :
    Triple (listening L secret) (Offered L secret) (L.handlePairAckV2 inbox secret envelope)
      (Handled L secret) := by
  refine triple_attempt (m := Read L secret)
    (History.triple_performed fun h r hs => ⟨(hs.read envelope r).1, hs.read envelope r⟩)
    (fun e => ?_) fun frame => ?_
  · exact History.triple_ret fun h hs => (hs.2.1 fun _ _ _ herror => by cases herror).handled _
  · obtain ⟨peer, inner⟩ := frame
    dsimp only
    cases hread : L.readFrame inner with
    | other f =>
      refine History.triple_ret fun h hs => (hs.2.1 fun _ _ ack hframe hack => ?_).handled _
      cases hframe
      cases hread.symm.trans hack
    | malformedAck e =>
      refine History.triple_ret fun h hs => (hs.2.1 fun _ _ ack hframe hack => ?_).handled _
      cases hframe
      cases hread.symm.trans hack
    | pairAck ack =>
      dsimp only
      by_cases hproven : Proven L secret ack
      · rw [verifyProofOfScan_of_proven hproven]
        refine (triple_completePairing inbox peer ack hproven).of_pre fun h hs => ⟨?_, ?_⟩
        · refine hs.2.1 fun _ _ ack' hframe hack => ?_
          cases hframe
          cases hread.symm.trans hack
          exact hproven
        · exact hs.2.2 peer inner ack rfl hread
      · rw [verifyProofOfScan_of_not hproven]
        exact History.triple_ret fun h hs => ⟨hs.1, fun hgoes => by cases hgoes⟩

/-- **The delivery loop.** Once it is disconnected or out of fuel, the offer stands. -/
theorem triple_pairingLoop (fuel : ℕ) :
    Triple (listening L secret) (Offered L secret) (L.pairingLoop inbox secret fuel)
      fun exit h => exit = .disconnected → Offered L secret h := by
  induction fuel with
  | zero => exact History.triple_ret fun h _ hexit => by cases hexit
  | succ fuel ih =>
    rw [PairingLib.pairingLoop]
    refine triple_offered (by trivial) fun event => ?_
    cases event with
    | closed => exact History.triple_ret fun h hs _ => hs
    | idle => exact ih
    | delivery msgId envelope =>
      refine triple_bind (triple_handlePairAckV2 inbox envelope) fun r => ?_
      split
      · refine Triple.of_pre (triple_sound (by trivial) fun _ => ?_) fun h hs => hs.1
        exact History.triple_ret fun h _ hexit => by cases hexit
      · refine Triple.of_pre (triple_sound (by trivial) fun _ => ?_) fun h hs => hs.1
        refine triple_sound (by trivial) fun _ => ?_
        exact History.triple_ret fun h _ hexit => by cases hexit
      · rename_i hpaired hfailed
        have hgoes : goesOn r = true := by
          unfold goesOn
          split
          · exact absurd rfl (hpaired _)
          · exact absurd rfl hfailed
          · rfl
        exact Triple.of_pre (triple_offered (by trivial) fun _ => ih) fun h hs => hs.2 hgoes

/-- **The listener.** -/
theorem triple_pairingListenerV2 (fuel : ℕ) :
    Triple (listening L secret) (Offered L secret) (L.pairingListenerV2 inbox secret fuel)
      fun _ _ => True := by
  induction fuel with
  | zero => exact History.triple_ret fun _ _ => trivial
  | succ fuel ih =>
    rw [PairingLib.pairingListenerV2]
    refine triple_offered (by trivial) fun connected => ?_
    cases connected with
    | ok =>
      refine triple_bind (triple_pairingLoop inbox fuel) fun exit => ?_
      cases exit with
      | finished => exact History.triple_ret fun _ _ => trivial
      | disconnected => exact ih.of_pre fun h hs => hs rfl
      | outOfFuel => exact History.triple_ret fun _ _ => trivial
    | notFound => exact History.triple_ret fun _ _ => trivial
    | unreachable => exact ih

end Triples

/-! ## Every run -/

theorem sound_suffix {later earlier : List (PairingEvent C)} (hs : Sound L secret (later ++ earlier)) :
    Sound L secret earlier := by
  induction later with
  | nil => exact hs
  | cons e later ih => exact ih hs.1

theorem filterMap_created_eq_nil (hnone : ∀ e ∈ h, created e = none) : h.filterMap created = [] :=
  List.filterMap_eq_nil_iff.mpr hnone

/-- Unless something failed late, at most one conversation has been created. -/
theorem Sound.created_length_le (hs : Sound L secret h) (hlate : ∀ e ∈ h, failedLate e = false) :
    (h.filterMap created).length ≤ 1 := by
  induction h with
  | nil => exact Nat.zero_le 1
  | cons e h ih =>
    have hrest : ∀ e' ∈ h, failedLate e' = false := fun e' he' => hlate e' (List.mem_cons_of_mem _ he')
    cases hcreated : created e with
    | none =>
      rw [List.filterMap_cons_none hcreated]
      exact ih hs.1 hrest
    | some convo =>
      obtain ⟨-, -, hunused⟩ := hs.2 convo hcreated
      rw [List.filterMap_cons_some hcreated, filterMap_created_eq_nil (hunused hrest)]
      exact Nat.le_refl 1

/-- **An offer is single use, unless its handoff fails.** In every run of the listener: if nothing failed
between the insert of a conversation and the end of its handoff, at most one conversation has been
created; and whatever failed, each was created for a `pair-ack/2` delivered before whose proof verifies
under the offer's secret over its own bundle and contribution, with no failed proof before it. -/
theorem offer_single_use [DecidableEq C.Proof] (L : PairingLib C) (inbox : C.Id) (secret : C.Secret)
    (fuel : ℕ) (answers : List ((o : PairingOp C) → o.Answer)) (h : List (PairingEvent C))
    (p : PairingM C Unit)
    (hrun : run History.step ([], L.pairingListenerV2 inbox secret fuel) answers = some (h, p)) :
    ((∀ e ∈ h, failedLate e = false) → (h.filterMap created).length ≤ 1) ∧
    ∀ later e earlier convo, h = later ++ e :: earlier → created e = some convo →
      AskedFor L secret earlier convo ∧ ∀ e' ∈ earlier, ¬ ProofFailed L secret e' := by
  have hstart : Offered L secret [] :=
    ⟨⟨trivial, fun e he => absurd he List.not_mem_nil⟩, fun _ e he => absurd he List.not_mem_nil⟩
  have hsound : Sound L secret h :=
    History.holds_of_run (triple_pairingListenerV2 inbox fuel) hstart trivial hrun
  refine ⟨hsound.created_length_le, fun later e earlier convo hsplit hcreated => ?_⟩
  rw [hsplit] at hsound
  obtain ⟨-, hcreation⟩ := sound_suffix hsound
  obtain ⟨hasked, hproofs, -⟩ := hcreation convo hcreated
  exact ⟨hasked, hproofs⟩

/-- A `pair-ack/2` with an empty bundle and relay, an inbox of forty-three letters, and the proof the
plain MAC gives. -/
def plainAck : InnerFrame :=
  ⟨.pairAck, pairAckV2, [pairAckV2, 0, 0, 0, 0] ++ List.replicate mailboxIdLen 65 ++
    List.replicate (recoveryContribLen + proofLen) 0⟩

/-- The handshake of a client with the plain libsignal. -/
def plainPairing : PairingLib (bytePairingCarrier Unit) :=
  bytePairing plainLib (fun _ => .ok fun _ _ => true) smallProfile "wss://relay"

/-- An environment that delivers `plainAck` again and again; storage works, no relay can be reached for a
deletion, and a deposit ends as given. -/
def deliveringAck (deposited : Result DepositOutcome) :
    (o : PairingOp (bytePairingCarrier Unit)) → o.Answer
  | .unixNow => 0
  | .drawSecret => []
  | .drawContribution => []
  | .encodePairingOfferV3 _ => .ok []
  | .establishSession _ => .ok "peer"
  | .exportPrekeyBundle => .ok []
  | .encryptMessage _ _ => .ok []
  | .decryptSetupFromUnknown _ => .ok ("peer", plainAck)
  | .createRoutedConversation _ => .ok 0
  | .setRecoveryPairing _ _ _ => .ok ()
  | .call (.socket (.subscribe _)) => .ok
  | .call (.socket .next) => .delivery 0 []
  | .call (.relay .createMailbox) => .ok "inbox"
  | .call (.relay (.deposit _ _ _)) => deposited
  | .call o => offlineTurn.answer o
  | .about _ (.store (.setRecoveryRoot _ _)) => .ok ()
  | .about _ o => offlineTurn.answer o
  | .spawnConversation _ => ()

/-- The pairing completes with the first frame. -/
theorem completed_offer_used_once :
    ∃ h p, run History.step ([], plainPairing.pairingListenerV2 "pairing" [] 4)
        (List.replicate 13 (deliveringAck (.ok .accepted))) = some (h, p) ∧
      (h.filterMap created).length = 1 ∧ (h.filterMap created).length ≤ 1 := by
  obtain ⟨⟨h, p⟩, hrun, hone, hlate⟩ : ∃ x, run History.step
      ([], plainPairing.pairingListenerV2 "pairing" [] 4)
      (List.replicate 13 (deliveringAck (.ok .accepted))) = some x ∧
        (x.1.filterMap created).length = 1 ∧ ∀ e ∈ x.1, failedLate e = false := by
    decide +kernel
  exact ⟨h, p, hrun, hone, (offer_single_use plainPairing "pairing" [] 4 _ h p hrun).1 hlate⟩

/-- **A failed handoff leaves the offer open.** The first handoff cannot be deposited; the next
acknowledgement creates a second conversation. -/
theorem offer_used_twice :
    ∃ h p, run History.step ([], plainPairing.pairingListenerV2 "pairing" [] 4)
        (List.replicate 16 (deliveringAck (.error (.network "unreachable")))) = some (h, p) ∧
      ¬ (h.filterMap created).length ≤ 1 := by
  obtain ⟨⟨h, p⟩, hrun, htwo⟩ : ∃ x, run History.step
      ([], plainPairing.pairingListenerV2 "pairing" [] 4)
      (List.replicate 16 (deliveringAck (.error (.network "unreachable")))) = some x ∧
        ¬ (x.1.filterMap created).length ≤ 1 := by
    decide +kernel
  exact ⟨h, p, hrun, htwo⟩

end Titlan.Pairing
