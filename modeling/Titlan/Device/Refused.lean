import Titlan.Device.Flushing
import Titlan.Device.Pacing
import Titlan.Relay.Admission
import Titlan.Relay.Capacity

/-! # Chats that are given up

A flush against relays of one configuration. The client gives a chat up on a 400 or a 413, which the relay
says of a body alone, and its envelopes have the form the relay asks for. So a chat is given up for its
size only, by a relay none like which would ever accept it, and any other refusal leaves it queued. -/

namespace Titlan

variable {Session : Type}

/-- In one of the turns the deposit of the envelope was answered so. -/
def Told (ts : List (Turn (byteCarrier Session))) (wire : Bytes) (answer : Result DepositOutcome) : Prop :=
  ∃ t ∈ ts, ∃ relayUrl id, t.answer (.relay (.deposit relayUrl id wire)) = answer

/-- Deposits that are answered are answered by relays of the configuration. -/
def RelayedBy (cfg : Relay.Config) (ts : List (Turn (byteCarrier Session))) : Prop :=
  ∀ wire outcome, Told ts wire (.ok outcome) → cfg.Answers wire outcome

/-- Every ciphertext has bytes. -/
def Libsignal.Writes (lib : Libsignal Session) : Prop :=
  ∀ session plaintext session' kind ciphertext,
    lib.messageEncrypt session plaintext = .ok (session', kind, ciphertext) → ciphertext ≠ []

/-- The relay admits every envelope the client seals. -/
theorem Libsignal.Writes.depositAdmissible {lib : Libsignal Session} (hlib : lib.Writes)
    {profile : PaddingProfile} {myRelay : String} {session : Option Session} {session' : Session}
    {frame : (byteCarrier Session).Frame} {wire : Bytes}
    (h : (byteEngine lib profile myRelay).messageEncrypt session frame = .ok (session', wire)) :
    Relay.depositAdmissible wire = true := by
  cases hinner : innerFrame frame with
  | none =>
    simp only [byteEngine, hinner] at h
    cases h
  | some inner =>
    have hseal : sealEnvelope lib profile session inner = .ok (session', wire) := by
      simpa only [byteEngine, hinner] using h
    unfold sealEnvelope at hseal
    cases hplaintext : inner.encode profile with
    | error e =>
      rw [hplaintext] at hseal
      cases hseal
    | ok plaintext =>
      rw [hplaintext] at hseal
      cases hout : lib.messageEncrypt session plaintext with
      | error e =>
        simp only [bind, Except.bind, hout] at hseal
        cases hseal
      | ok out =>
        simp only [bind, Except.bind, hout] at hseal
        cases hseal
        exact depositAdmissible_of_parse (Envelope.parse_encode _ (hlib _ _ _ _ _ hout))

/-- **A chat is given up for its size only.** For every client that can send, a libsignal whose ciphertexts
are not empty, storage that does not fail, and relays of one configuration in any states: a completed flush
takes chats off the front of the queue; each was accepted and fits the configuration's limit, or was
answered 413, is larger, and would be accepted by no relay of the configuration. The chat it stopped at, if
any is left, could not be sealed or was told neither; it stays queued with all behind it. -/
theorem flush_gives_up_oversized (lib : Libsignal Session) (hlib : lib.Writes) (profile : PaddingProfile)
    (myRelay : String) (cfg : Relay.Config) (d d' : Device (byteCarrier Session)) (hready : d.Ready)
    (ts : List (Turn (byteCarrier Session))) (hcalm : Calm ts) (hrelay : RelayedBy cfg ts)
    (result : Result Unit)
    (hflush : Device.exec (byteEngine lib profile myRelay) (byteEngine lib profile myRelay).flushPending
      ts d = some (result, d')) :
    ∃ gone, d.pending = gone ++ d'.pending ∧
      (∀ x ∈ gone, ∃ session session' wire,
        (byteEngine lib profile myRelay).messageEncrypt (some session) x.2 = .ok (session', wire) ∧
        (Told ts wire (.ok .accepted) ∧ wire.length ≤ cfg.maxBlobBytes ∨
          Told ts wire (.ok (.other 413)) ∧ cfg.maxBlobBytes < wire.length ∧
            ¬ cfg.Answers wire .accepted)) ∧
      ∀ x, d'.pending.head? = some x →
        (∃ session e, (byteEngine lib profile myRelay).messageEncrypt (some session) x.2 = .error e) ∨
        ∃ session session' wire answer,
          (byteEngine lib profile myRelay).messageEncrypt (some session) x.2 = .ok (session', wire) ∧
          Told ts wire answer ∧ ∀ outcome, answer = .ok outcome → ¬ outcome.Final := by
  have hts : Answering (Told ts) ts := fun t ht => ⟨hcalm t ht, fun _ _ _ => ⟨t, ht, _, _, rfl⟩⟩
  obtain ⟨-, gone, hpending, hgone, hrest⟩ := exec_flushPending hts hready hflush
  refine ⟨gone, hpending, fun x hx => ?_, fun x hx => ?_⟩
  · obtain ⟨outcome, ⟨session, session', wire, hout, htold⟩, hfinal⟩ := hgone x hx
    have hform := hlib.depositAdmissible hout
    have htells := (hrelay wire outcome htold).tells
    refine ⟨session, session', wire, hout, ?_⟩
    rcases hfinal with rfl | rfl | rfl
    · exact .inl ⟨htold, (htells.accepted rfl).1⟩
    · exact absurd hform (htells.badRequest rfl)
    · have hsize := htells.payloadTooLarge rfl
      exact .inr ⟨htold, hsize, fun h => Nat.not_lt.mpr (h.tells.accepted rfl).1 hsize⟩
  · obtain hunsealed | ⟨answer, ⟨session, session', wire, hout, htold⟩, hopen⟩ := hrest x hx
    · exact .inl hunsealed
    · exact .inr ⟨session, session', wire, answer, hout, htold, hopen⟩

/-! ## A long text and a short one -/

/-- Buckets of 32 and of 64 bytes. -/
def twoSizes : PaddingProfile where
  buckets := [32, 64]
  ascending := by decide
  nonempty := by decide
  header_le := by decide

/-- Ciphertexts are the plaintexts behind one byte. -/
def taggedLib : Libsignal Unit :=
  { plainLib with messageEncrypt := fun _ plaintext => .ok ((), .ratchet, 0 :: plaintext) }

/-- A text of forty bytes is pending, and behind it one of one byte. -/
def twoTexts : Device (byteCarrier Unit) :=
  { rootedDevice with messages := [⟨0, .outgoing, chatV1 (List.replicate 40 0x61), .pending⟩,
      ⟨1, .outgoing, chatV1 [0x62], .pending⟩] }

/-- The relay is reached by what it refuses for its size, and by nothing else. -/
def oversizeTurn : Turn (byteCarrier Unit) := ⟨none, fun
  | .relay (.deposit _ _ wire) =>
    if Relay.smallConfig.maxBlobBytes < wire.length then .ok (.other 413) else .error (.network "reset")
  | o => offlineTurn.answer o⟩

theorem relayedBy_oversize (n : ℕ) : RelayedBy Relay.smallConfig (List.replicate n oversizeTurn) := by
  rintro wire outcome ⟨t, ht, relayUrl, id, hanswer⟩
  rw [List.eq_of_mem_replicate ht] at hanswer
  change (if Relay.smallConfig.maxBlobBytes < wire.length then _ else _) = _ at hanswer
  split at hanswer
  next hsize =>
    cases hanswer
    refine ⟨Relay.smallRelay, _, Relay.localhost, Relay.idA, [.act 0 (Relay.envAt 1 0 .nothing)],
      .payloadTooLarge, rfl, rfl, ?_, rfl⟩
    show (Relay.Server.depositAdmit _ _ _ _ _ wire).tasks[0]? = _
    rw [Relay.Server.depositAdmit, if_pos (by exact hsize)]
    rfl
  next => cases hanswer

/-- The long text is given up, and the short one is left for a retry. -/
theorem long_text_given_up :
    ∃ d' result, Device.exec (byteEngine taggedLib twoSizes "wss://relay")
        (byteEngine taggedLib twoSizes "wss://relay").flushPending (List.replicate 12 oversizeTurn)
        twoTexts = some (result, d') ∧
      d'.pending = [(1, chatV1 [0x62])] ∧
      ∃ wire, 64 < wire.length ∧ ¬ Relay.smallConfig.Answers wire .accepted := by
  refine ⟨_, _, rfl, rfl, ?_⟩
  obtain ⟨gone, hpending, hgone, -⟩ := flush_gives_up_oversized taggedLib
    (by rintro _ _ _ _ _ ⟨⟩; simp) twoSizes "wss://relay" Relay.smallConfig twoTexts _
    ⟨rfl, rfl, rfl⟩ (List.replicate 12 oversizeTurn) (Calm.replicate rfl 12) (relayedBy_oversize 12) _ rfl
  cases gone with
  | nil => cases hpending
  | cons x gone =>
    obtain ⟨-, -, wire, -, ⟨⟨t, ht, _, _, hanswer⟩, -⟩ | ⟨-, hsize, hno⟩⟩ := hgone x List.mem_cons_self
    · rw [List.eq_of_mem_replicate ht] at hanswer
      change (if Relay.smallConfig.maxBlobBytes < wire.length then _ else _) = _ at hanswer
      split at hanswer <;> cases hanswer
    · exact ⟨wire, hsize, hno⟩

end Titlan
