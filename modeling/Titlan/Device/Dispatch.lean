import Titlan.Device.Bytes
import Titlan.Device.State

/-! # Versions a receiver does not implement

A control frame of a version the receiver does not implement is to be acked and discarded. This module
follows such a frame through `handle_incoming`, over the byte formats and against any relay and any
pattern of later storage failures: mailbox updates and pair acks leave nothing behind, but a
recovery hello of any version is handled whenever its payload parses and it is no replay. -/

namespace Titlan

open Foundation

/-- A control frame whose version is not one the receiver implements for its type on a conversation
inbox: `mailbox-update` 1 and 3, `recovery-hello` 1, and no `pair-ack`. -/
def InnerFrame.Unimplemented (f : InnerFrame) : Prop :=
  match f.payloadType with
  | .pairAck => True
  | .mailboxUpdate => f.typeVersion ≠ mailboxUpdateV1 ∧ f.typeVersion ≠ mailboxUpdateV3
  | .recoveryHello => f.typeVersion ≠ recoveryHelloVersion
  | _ => False

instance : DecidablePred InnerFrame.Unimplemented
  | ⟨.pairAck, _, _⟩ => .isTrue trivial
  | ⟨.mailboxUpdate, v, _⟩ => inferInstanceAs (Decidable (v ≠ mailboxUpdateV1 ∧ v ≠ mailboxUpdateV3))
  | ⟨.recoveryHello, v, _⟩ => inferInstanceAs (Decidable (v ≠ recoveryHelloVersion))
  | ⟨.chat, _, _⟩ => .isFalse id
  | ⟨.posture, _, _⟩ => .isFalse id
  | ⟨.policy, _, _⟩ => .isFalse id
  | ⟨.alert, _, _⟩ => .isFalse id

/-- The conversation's coordinates and generations, the in-memory entries, the message table and the
mailboxes are exactly as they were. -/
structure Untouched {C : Carrier} (d d' : Device C) : Prop where
  convo : d'.convo = d.convo
  recovery : d'.recovery = d.recovery
  rotation : d'.rotation = d.rotation
  helloSeen : d'.helloSeen = d.helloSeen
  exhaustion : d'.exhaustion = d.exhaustion
  messages : d'.messages = d.messages
  boxes : d'.boxes = d.boxes

/-- A frame of a version that is not implemented is dispatched as nothing, as a pairing handoff, or as
the hello its payload parses to. -/
theorem classify_of_unimplemented {Session : Type} {f : InnerFrame} (h : f.Unimplemented) :
    (f.payloadType ≠ .recoveryHello ∧ ((classify f : (byteCarrier Session).Frame) = .discarded ∨
        ∃ relayUrl inbox contribution,
          (classify f : (byteCarrier Session).Frame) = .mailboxUpdateV2 relayUrl inbox contribution)) ∨
      f.payloadType = .recoveryHello ∧
        ((∃ e, parseRecoveryHello f.payload = .error e) ∧
            (classify f : (byteCarrier Session).Frame) = .discarded ∨
          ∃ g n, parseRecoveryHello f.payload = .ok (g, n) ∧
            (classify f : (byteCarrier Session).Frame) = .recoveryHello g n) := by
  obtain ⟨payloadType, typeVersion, payload⟩ := f
  cases payloadType with
  | pairAck => exact .inl ⟨by simp, .inl rfl⟩
  | mailboxUpdate =>
    obtain ⟨hv1, hv3⟩ := h
    refine .inl ⟨by simp, ?_⟩
    simp only [classify, if_neg hv1, if_neg hv3]
    split
    · split
      · exact .inr ⟨_, _, _, rfl⟩
      · exact .inl rfl
    · exact .inl rfl
  | recoveryHello =>
    refine .inr ⟨rfl, ?_⟩
    simp only [classify]
    cases parseRecoveryHello payload with
    | error e => exact .inl ⟨⟨e, rfl⟩, rfl⟩
    | ok out => exact .inr ⟨out.1, out.2, rfl, rfl⟩
  | _ => exact h.elim

/-- A new hello is in the ring afterwards. -/
theorem mem_markHelloSeen {Nonce : Type} [DecidableEq Nonce] {ring : List (ℕ × Nonce)} {g : ℕ}
    {n : Nonce} (h : (g, n) ∉ ring) : (g, n) ∈ (markHelloSeen ring g n).2 := by
  have hle : (ring ++ [(g, n)]).length - helloRingLen ≤ ring.length := by
    simp only [List.length_append, List.length_singleton, helloRingLen]
    omega
  simp only [markHelloSeen, if_neg h]
  rw [List.drop_append_of_le_length hle]
  exact List.mem_append_right _ (List.mem_singleton.mpr rfl)

section Handling

variable {C : Carrier} [C.Comparable] {E : Engine C}

/-- Only `mark_hello_seen` changes the ring. -/
theorem helloSeen_perform (t : Turn C) (d : Device C) {o : Op C}
    (ho : ∀ g n, o ≠ .ram (.markHelloSeen g n)) : (d.perform E t o).2.helloSeen = d.helloSeen := by
  cases o with
  | store o =>
    simp only [Device.perform]
    split
    · rfl
    · cases o <;> rfl
  | ram o =>
    cases o with
    | markHelloSeen g n => exact absurd rfl (ho g n)
    | _ => rfl
  | relay o =>
    simp only [Device.perform, Device.performRelay]
    split <;> rfl
  | socket o => rfl
  | notify n => rfl

/-- A handler leaves the ring as it finds it. -/
theorem triple_helloSeen {α : Type} {p : EngineM C α} (h : Composed E.Handling p)
    (ring : List (ℕ × C.Nonce)) :
    Triple (Device.alone E) (fun d => d.helloSeen = ring) p fun _ d => d.helloSeen = ring := by
  refine Device.triple_const (fun d => d.helloSeen) (fun t d o ho => helloSeen_perform t d ho)
    (h.expand fun _ q hq => ?_) ring
  cases hq with
  | plain o ho =>
    refine Engine.each_op o ?_
    rintro g n rfl
    exact ho
  | encrypt address frame =>
    exact Engine.each_encryptMessage address frame (fun _ _ h => by cases h) fun _ _ _ h => by cases h

/-- The client after `decrypt_message` has stored an advanced session. -/
def Device.withSession (d : Device C) (peer : String) (session : C.Session) : Device C :=
  { d with sessions := Function.update d.sessions peer (some session) }

/-- Once an envelope opens and the two storage accesses of `decrypt_message` succeed, `handle_incoming`
is the dispatch of the frame. -/
theorem exec_handleIncoming {peer : String} {wire : C.Wire} {session : C.Session} {frame : C.Frame}
    {d d' : Device C} {ts : List (Turn C)} {changed : Bool}
    (hopen : E.messageDecrypt (d.sessions peer) wire = .ok (session, .ok frame))
    (hts : ∀ t ∈ ts.take 2, t.fault = none)
    (hexec : Device.exec E (E.handleIncoming peer wire) ts d = some (changed, d')) :
    Device.exec E (E.dispatch frame) (ts.drop 2) (d.withSession peer session) =
      some (changed, d') := by
  rw [Engine.handleIncoming, Engine.decryptMessage, Program.bind_assoc] at hexec
  cases ts with
  | nil => cases hexec
  | cons t ts =>
    have ht : t.fault = none := hts t (by simp)
    rw [Device.exec_perform_bind] at hexec
    simp only [Device.perform, ht, Device.performStore] at hexec
    rw [hopen] at hexec
    dsimp only at hexec
    rw [Program.bind_assoc] at hexec
    cases ts with
    | nil => cases hexec
    | cons t' ts =>
      have ht' : t'.fault = none := hts t' (by simp)
      rw [Device.exec_perform_bind] at hexec
      simp only [Device.perform, ht', Device.performStore] at hexec
      exact hexec

/-- A hello leaves the client as it was exactly when it is a replay. -/
theorem untouched_hello_iff {g : ℕ} {n : C.Nonce} {d d' : Device C} {ts : List (Turn C)}
    {changed : Bool} (hexec : Device.exec E (E.dispatch (.recoveryHello g n)) ts d = some (changed, d')) :
    Untouched d d' ↔ (g, n) ∈ d.helloSeen := by
  obtain ⟨k, hk, hreplay, hrest⟩ := Engine.handleRecoveryHello_eq (E := E) g n
  rw [Engine.dispatch, hk] at hexec
  cases ts with
  | nil => cases hexec
  | cons t ts =>
    rw [Device.exec_perform_bind] at hexec
    simp only [Device.perform, Device.performRam] at hexec
    by_cases hseen : (g, n) ∈ d.helloSeen
    · simp only [markHelloSeen, if_pos hseen, hreplay] at hexec
      refine iff_of_true ?_ hseen
      cases ts with
      | nil =>
        cases hexec
        constructor <;> rfl
      | cons t ts => cases hexec
    · -- the ring keeps the new hello, whatever the handler goes on to do
      refine iff_of_false (fun huntouched => ?_) hseen
      have hsafe := triple_helloSeen (Engine.handling_of_serving (hrest (markHelloSeen d.helloSeen g n).1))
        (markHelloSeen d.helloSeen g n).2 { d with helloSeen := (markHelloSeen d.helloSeen g n).2 } rfl
      have hring : d'.helloSeen = (markHelloSeen d.helloSeen g n).2 :=
        Device.exec_of_safe hsafe hexec
      exact hseen (huntouched.helloSeen ▸ hring ▸ mem_markHelloSeen hseen)

end Handling

variable {Session : Type}

/-- **A control frame of a version that is not implemented is left without effect exactly when it is no
fresh hello.** For every client and every frame it opens, once `decrypt_message` has succeeded and
against every relay and every later storage failure: `handle_incoming` leaves the conversation, the
in-memory entries, the message table and the mailboxes as they were if and only if the frame is not a
`recovery-hello`, or its payload does not parse, or the hello has been seen before. -/
theorem untouched_by_unimplemented_iff (lib : Libsignal Session) (profile : PaddingProfile)
    (myRelay : String) (d d' : Device (byteCarrier Session)) (peer : String) (wire : Bytes)
    (session : Session) (f : InnerFrame) (ts : List (Turn (byteCarrier Session))) (changed : Bool)
    (hopen : openEnvelope lib profile (d.sessions peer) wire = .ok (session, .ok f))
    (hf : f.Unimplemented) (hts : ∀ t ∈ ts.take 2, t.fault = none)
    (hexec : Device.exec (byteEngine lib profile myRelay)
      ((byteEngine lib profile myRelay).handleIncoming peer wire) ts d = some (changed, d')) :
    Untouched d d' ↔ (f.payloadType = .recoveryHello →
      ∀ g n, parseRecoveryHello f.payload = .ok (g, n) → (g, n) ∈ d.helloSeen) := by
  have hdecrypt : (byteEngine lib profile myRelay).messageDecrypt (d.sessions peer) wire =
      .ok (session, .ok (classify f)) := by
    simp only [byteEngine, hopen]
    rfl
  have hdispatch := exec_handleIncoming hdecrypt hts hexec
  -- a frame that is dispatched as nothing, or as a handoff, ends there
  have hnothing : Device.exec (byteEngine lib profile myRelay) (.ret false) (ts.drop 2)
      (d.withSession peer session) = some (changed, d') → Untouched d d' := by
    intro h
    cases hdrop : ts.drop 2 with
    | nil =>
      rw [hdrop] at h
      cases h
      constructor <;> rfl
    | cons t ts' =>
      rw [hdrop] at h
      cases h
  rcases classify_of_unimplemented hf with
    ⟨htype, hclass⟩ | ⟨htype, ⟨⟨e, he⟩, hclass⟩ | ⟨g, n, hparse, hclass⟩⟩
  · refine iff_of_true (hnothing ?_) fun h => absurd h htype
    rcases hclass with hclass | ⟨relayUrl, inbox, contribution, hclass⟩
    · rwa [hclass] at hdispatch
    · rwa [hclass] at hdispatch
  · rw [hclass] at hdispatch
    refine iff_of_true (hnothing hdispatch) fun _ g n hparse => ?_
    rw [he] at hparse
    cases hparse
  · rw [hclass] at hdispatch
    have hiff := untouched_hello_iff hdispatch
    have hsame : Untouched d d' ↔ Untouched (d.withSession peer session) d' :=
      ⟨fun h => ⟨h.1, h.2, h.3, h.4, h.5, h.6, h.7⟩, fun h => ⟨h.1, h.2, h.3, h.4, h.5, h.6, h.7⟩⟩
    rw [hsame, hiff]
    constructor
    · intro hseen _ g' n' hparse'
      rw [hparse] at hparse'
      cases hparse'
      exact hseen
    · exact fun h => h htype g n hparse

/-! ## A hello of a version nobody speaks -/

/-- A libsignal that seals nothing. -/
def plainLib : Libsignal Unit where
  messageEncrypt _ plaintext := .ok ((), .ratchet, plaintext)
  messageDecrypt _ _ ciphertext := .ok ((), ciphertext)
  hmacSha256 _ message := message

/-- One bucket of 32 bytes. -/
def smallProfile : PaddingProfile where
  buckets := [32]
  ascending := by decide
  nonempty := by decide
  header_le := by decide

/-- A client of one relay, over a libsignal that seals nothing. -/
def plainEngine : Engine (byteCarrier Unit) := byteEngine plainLib smallProfile "wss://relay"

/-- The envelope of a frame. -/
def plainEnvelope (f : InnerFrame) : Bytes :=
  match f.encode smallProfile with
  | .ok plaintext => Envelope.encode ⟨.ratchet, plaintext⟩
  | .error _ => []

/-- A responder at generation 0 with a recovery root. -/
def rootedDevice : Device (byteCarrier Unit) where
  convo := ⟨"peer", "wss://relay", some "send", some "recv"⟩
  recovery := ⟨some roleResponder, some [], 0, 0⟩
  sessions _ := some ()
  messages := []
  rotation := none
  helloSeen := []
  exhaustion := none
  boxes _ _ := none

/-- A turn in which the storage works and no relay answers. -/
def offlineTurn : Turn (byteCarrier Unit) := ⟨none, fun
  | .store o => o.failWith .badDbKey
  | .ram .takeRotation => none
  | .ram (.insertRotation _) => ()
  | .ram (.markHelloSeen _ _) => true
  | .ram .cyclesExhausted => false
  | .ram .noteProbeCycle => ()
  | .ram .resetExhaustion => ()
  | .ram .drawNonce => []
  | .ram .lockFlush => ()
  | .ram .unlockFlush => ()
  | .relay .createMailbox => .error (.network "unreachable")
  | .relay (.putMailbox _ _) => .error (.network "unreachable")
  | .relay (.deposit _ _ _) => .error (.network "unreachable")
  | .relay (.deleteMailbox _) => .error (.network "unreachable")
  | .socket (.subscribe _) => .unreachable
  | .socket .next => .closed
  | .socket .nextBeforeDeadline => none
  | .socket .deadlinePassed => true
  | .socket (.ack _) => ()
  | .notify _ => ()⟩

/-- A `recovery-hello` of version 2 that reports generation 7. -/
def helloV2 : InnerFrame := ⟨.recoveryHello, 2, encodeRecoveryHello 7 (List.replicate 16 0)⟩

/-- **A hello of an unknown version moves the client.** The frame opens, its version is 2, and the client
adopts the generation it reports. -/
theorem unknown_hello_adopted :
    helloV2.Unimplemented ∧
      openEnvelope plainLib smallProfile (rootedDevice.sessions "peer") (plainEnvelope helloV2) =
        .ok ((), .ok helloV2) ∧
      ∃ changed d', Device.exec plainEngine
          (plainEngine.handleIncoming "peer" (plainEnvelope helloV2)) (List.replicate 8 offlineTurn)
          rootedDevice = some (changed, d') ∧
        d'.recovery.ownGen = 7 ∧ ¬ Untouched rootedDevice d' := by
  refine ⟨by decide, rfl, _, _, rfl, rfl, fun huntouched => ?_⟩
  have hgen : (7 : ℕ) = 0 := congrArg RecoveryRecord.ownGen huntouched.recovery
  exact absurd hgen (by decide)

/-- A `mailbox-update` of version 9. -/
def updateV9 : InnerFrame := ⟨.mailboxUpdate, 9, []⟩

/-- A mailbox update of an unknown version is discarded. -/
theorem unknown_update_discarded :
    ∃ d', Device.exec plainEngine (plainEngine.handleIncoming "peer" (plainEnvelope updateV9))
        (List.replicate 2 offlineTurn) rootedDevice = some (false, d') ∧
      Untouched rootedDevice d' := by
  refine ⟨rootedDevice.withSession "peer" (), rfl, ?_⟩
  refine (untouched_by_unimplemented_iff plainLib smallProfile "wss://relay" rootedDevice _ "peer"
    (plainEnvelope updateV9) () updateV9 (List.replicate 2 offlineTurn) false rfl (by decide) ?_
    rfl).mpr fun h => by cases h
  intro t ht
  simp only [List.take_replicate, List.mem_replicate] at ht
  rw [ht.2]
  rfl

end Titlan
