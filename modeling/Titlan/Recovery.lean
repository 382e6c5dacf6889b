import Titlan.Pairing

/-! # Recovery: derived mailboxes, generations, the `recovery-hello` payload

A conversation that lost its mailboxes re-establishes routing on ids both parties derive from a
shared root, a role and a generation. This module holds the pure part: the derivation, the
`recovery-hello` codec, the pair of generation counters with its convergence rule and outbound
window, and the probe-cycle counter. -/

namespace Titlan

/-! ## Roles -/

/-- The pairing role of a derived mailbox's owner (`recovery::Role`). -/
inductive Role
  /-- The party that displayed the offer. -/
  | offerer
  /-- The party that scanned the offer. -/
  | responder
deriving DecidableEq, Repr

/-- The other party. -/
def Role.peer : Role → Role
  | .offerer => .responder
  | .responder => .offerer

variable (r : Role)

@[simp] theorem Role.peer_peer : r.peer.peer = r := by cases r <;> rfl

@[simp] theorem Role.peer_ne : r.peer ≠ r := by cases r <;> decide

@[simp] theorem Role.ne_peer : r ≠ r.peer := by cases r <;> decide

/-- A role is one party's or the other's. -/
theorem Role.eq_or_eq_peer (r p : Role) : r = p ∨ r = p.peer := by cases r <;> cases p <;> decide

/-- The stored role code of the offerer. -/
def roleOfferer : UInt8 := 0

/-- The stored role code of the responder. -/
def roleResponder : UInt8 := 1

/-- `role_from_u8`. -/
def roleFromU8 (role : UInt8) : Role :=
  if role = roleOfferer then .offerer else .responder

/-- `peer_role_u8`. -/
def peerRoleU8 (ownRole : UInt8) : UInt8 :=
  if ownRole = roleOfferer then roleResponder else roleOfferer

/-- The code a role is stored as. -/
def Role.code : Role → UInt8
  | .offerer => roleOfferer
  | .responder => roleResponder

@[simp] theorem roleFromU8_code : roleFromU8 r.code = r := by cases r <;> rfl

@[simp] theorem roleFromU8_peerRoleU8 (code : UInt8) :
    roleFromU8 (peerRoleU8 code) = (roleFromU8 code).peer := by
  by_cases h : code = roleOfferer
  · rw [peerRoleU8, if_pos h, roleFromU8, if_neg (by decide), roleFromU8, if_pos h, Role.peer]
  · rw [peerRoleU8, if_neg h, roleFromU8, if_pos rfl, roleFromU8, if_neg h, Role.peer]

@[simp] theorem Role.code_eq_roleOfferer : r.code = roleOfferer ↔ r = .offerer := by
  cases r <;> decide

/-! ## Derived mailbox ids -/

/-- Domain-separation label of the mailbox-id PRF (`"titlan-recovery-mailbox-v1"`). -/
def mailboxLabel : Bytes := asBytes "titlan-recovery-mailbox-v1"

/-- `Role::label`. -/
def Role.label : Role → Bytes
  | .offerer => asBytes "offerer"
  | .responder => asBytes "responder"

/-- The RFC 4648 §5 alphabet. -/
def base64urlAlphabet : List Char :=
  "ABCDEFGHIJKLMNOPQRSTUVWXYZabcdefghijklmnopqrstuvwxyz0123456789-_".toList

/-- The `i`-th of the four characters a 24-bit group is written as. -/
def sextet (n i : ℕ) : Char := base64urlAlphabet.getD (n / 64 ^ (3 - i) % 64) 'A'

/-- Three bytes to four characters, the last group cut short. -/
def base64urlChars : Bytes → List Char
  | [] => []
  | [b0] =>
    let n := b0.toNat * 65536
    [sextet n 0, sextet n 1]
  | [b0, b1] =>
    let n := b0.toNat * 65536 + b1.toNat * 256
    [sextet n 0, sextet n 1, sextet n 2]
  | b0 :: b1 :: b2 :: rest =>
    let n := b0.toNat * 65536 + b1.toNat * 256 + b2.toNat
    sextet n 0 :: sextet n 1 :: sextet n 2 :: sextet n 3 :: base64urlChars rest

/-- `base64url_nopad`. -/
def base64urlNopad (bytes : Bytes) : String := String.ofList (base64urlChars bytes)

/-- `derive_mailbox_id`: the id of the mailbox owned by `ownerRole` at `generation`, over libsignal's
HMAC-SHA256. -/
def deriveMailboxId (hmacSha256 : Bytes → Bytes → Bytes) (root : Bytes) (ownerRole : Role)
    (generation : ℕ) : String :=
  base64urlNopad (hmacSha256 root (mailboxLabel ++ ownerRole.label ++ toBeBytes 4 generation))

/-! ## `recovery-hello` -/

/-- `recovery-hello` version. -/
def recoveryHelloVersion : UInt8 := 1

/-- `recovery-hello` nonce length. -/
def recoveryHelloNonceLen : ℕ := 16

/-- `encode_recovery_hello`: version, generation, nonce. -/
def encodeRecoveryHello (generation : ℕ) (nonce : Bytes) : Bytes :=
  [recoveryHelloVersion] ++ toBeBytes 4 generation ++ nonce

/-- `parse_recovery_hello`: strict length and version. -/
def parseRecoveryHello (bytes : Bytes) : Result (ℕ × Bytes) :=
  if bytes.length ≠ 1 + 4 + recoveryHelloNonceLen then
    .error (.malformed "recovery-hello wrong length")
  else if bytes.getD 0 0 ≠ recoveryHelloVersion then
    .error (.malformed "unknown recovery-hello version")
  else
    .ok (fromBeBytes ((bytes.drop 1).take 4), bytes.drop 5)

/-- **Recovery-hello round trip.** -/
theorem parseRecoveryHello_encode {generation : ℕ} {nonce : Bytes} (hg : generation ≤ u32Max)
    (hn : nonce.length = recoveryHelloNonceLen) :
    parseRecoveryHello (encodeRecoveryHello generation nonce) = .ok (generation, nonce) := by
  have hfield : fromBeBytes (toBeBytes 4 generation) = generation := by
    rw [fromBeBytes_toBeBytes]
    exact Nat.mod_eq_of_lt (Nat.lt_succ_of_le hg)
  simp [parseRecoveryHello, encodeRecoveryHello, hn, hfield, recoveryHelloNonceLen]

/-! ## Generations -/

/-- The convergence window `W`. -/
def recoveryWindow : ℕ := 4

/-- Probe cycles without verified contact that exhaust recovery. -/
def recoveryProbeCycles : ℕ := 3

/-- A conversation's generation counters (`recovery::GenerationState`). -/
structure GenerationState where
  own : ℕ
  /-- The last generation seen in a verified control frame of the peer. -/
  peer : ℕ
deriving DecidableEq, Repr

namespace GenerationState

/-- `outbound_window`: the peer generations a probe goes to, `peer .. peer.saturating_add(W)`. -/
def outboundWindow (gs : GenerationState) : List ℕ :=
  List.range' gs.peer (saturatingAdd32 gs.peer recoveryWindow - gs.peer)

/-- `converge`: adopt the larger generation; `true` when this party's own generation moved. -/
def converge (gs : GenerationState) (peerGeneration : ℕ) : Bool × GenerationState :=
  let peer := max gs.peer peerGeneration
  let target := max gs.own peerGeneration
  if target = gs.own then (false, ⟨gs.own, peer⟩) else (true, ⟨target, peer⟩)

/-- `is_exhausted`: the relative offset has reached the window. -/
def isExhausted (gs : GenerationState) : Bool := absDiff gs.own gs.peer ≥ recoveryWindow

theorem mem_outboundWindow {gs : GenerationState} {k : ℕ} :
    k ∈ gs.outboundWindow ↔ gs.peer ≤ k ∧ k < gs.peer + recoveryWindow ∧ k < u32Max := by
  simp only [outboundWindow, List.mem_range'_1, saturatingAdd32]
  omega

variable (gs : GenerationState)

theorem nodup_outboundWindow : gs.outboundWindow.Nodup :=
  List.nodup_range'

/-- A hello moves the own generation exactly when it reports a larger one. -/
theorem converge_fst (g : ℕ) : (gs.converge g).1 = decide (gs.own < g) := by
  simp only [converge]
  split <;> rename_i h <;> simp <;> omega

theorem converge_snd (g : ℕ) : (gs.converge g).2 = ⟨max gs.own g, max gs.peer g⟩ := by
  simp only [converge]
  split <;> rename_i h
  · rw [h]
  · rfl

end GenerationState

/-- Probe cycles completed without verified contact (`recovery::ExhaustionTracker`). -/
structure ExhaustionTracker where
  cycles : ℕ
deriving DecidableEq, Repr

namespace ExhaustionTracker

/-- `ExhaustionTracker::new`. -/
def new : ExhaustionTracker := ⟨0⟩

/-- `note_probe_cycle`. -/
def noteProbeCycle (t : ExhaustionTracker) : ExhaustionTracker := ⟨saturatingAdd32 t.cycles 1⟩

/-- `reset`. -/
def reset (_ : ExhaustionTracker) : ExhaustionTracker := ⟨0⟩

/-- `is_exhausted`. -/
def isExhausted (t : ExhaustionTracker) : Bool := t.cycles ≥ recoveryProbeCycles

end ExhaustionTracker

end Titlan
