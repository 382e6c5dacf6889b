import Titlan.Device.Pacing

/-! # Recovery without contact is bounded

Two bounds keep a client from probing for ever: a counter in memory, three cycles to a process, and the
offset of the stored generations, four in all. A new hello resets the counter and closes the offset as
far as the peer has come; anything else that comes in, and an attempt that enters nothing, moves
neither. -/

namespace Titlan

open Foundation

variable {C : Carrier} {E : Engine C} [C.Comparable]
  {d d' : Device C} {ts : List (Turn C)} {role : UInt8} {root : C.Root}

/-! ## Hellos -/

/-- The hello in an envelope, if it is one and has not been seen. -/
def Device.newHello (E : Engine C) (d : Device C) (peer : String) (envelope : C.Wire) : Option ℕ :=
  match E.messageDecrypt (d.sessions peer) envelope with
  | .ok (_, .ok (.recoveryHello g nonce)) => if (g, nonce) ∈ d.helloSeen then none else some g
  | _ => none

/-- **A new hello** resets the counter and raises both generations to the one it reports. -/
theorem counters_newHello {g : ℕ} {nonce : C.Nonce} {changed : Bool} (hcalm : Calm ts)
    (hrole : d.recovery.role = some role) (hroot : d.recovery.root = some root)
    (hnew : (g, nonce) ∉ d.helloSeen)
    (h : Device.exec E (E.handleRecoveryHello g nonce) ts d = some (changed, d')) :
    d'.cycles = 0 ∧ d'.recovery = { d.recovery with
      ownGen := max d.recovery.ownGen g, peerGen := max d.recovery.peerGen g } := by
  obtain ⟨opening, rest, d₁, rfl, -, hledger, hrest⟩ := exec_handleRecoveryHello hcalm hrole hroot hnew h
  have hexhaustion₁ : d₁.exhaustion = d.exhaustion.map .reset := congrArg Ledger.exhaustion hledger
  have hrecovery₁ : d₁.recovery = { d.recovery with
      ownGen := max d.recovery.ownGen g, peerGen := max d.recovery.peerGen g } :=
    congrArg Ledger.recovery hledger
  have hzero : d₁.cycles = 0 := by
    rw [Device.cycles, hexhaustion₁]
    cases d.exhaustion <;> rfl
  split_ifs at hrest with hbehind
  · -- the generation is entered with the counters already at it
    have hconvo₁ : d₁.convo = d.convo := congrArg Ledger.convo hledger
    obtain ⟨-, hexhaustion, hfalse, htrue⟩ := exec_enterRecoveryGen hconvo₁ hrest
    refine ⟨(congrArg (fun e => (e.getD .new).cycles) hexhaustion).trans hzero, ?_⟩
    rw [← hrecovery₁]
    cases changed with
    | false => exact Device.recovery_of_ledger (hfalse rfl)
    | true =>
      refine (congrArg Ledger.recovery (htrue rfl hcalm.of_append.2)).trans ?_
      rw [hrecovery₁, Nat.max_eq_right (Nat.le_of_lt hbehind)]
  · obtain ⟨hrecovery, hexhaustion⟩ := hrest
    exact ⟨(congrArg (fun e => (e.getD .new).cycles) hexhaustion).trans hzero,
      hrecovery.trans hrecovery₁⟩

/-- An envelope with a new hello does the same. -/
theorem incoming_newHello {peer : String} {envelope : C.Wire} {g : ℕ} {changed : Bool}
    (hcalm : Calm ts) (hrole : d.recovery.role = some role) (hroot : d.recovery.root = some root)
    (hnew : d.newHello E peer envelope = some g)
    (h : Device.exec E (E.handleIncoming peer envelope) ts d = some (changed, d')) :
    d'.cycles = 0 ∧ d'.recovery = { d.recovery with
      ownGen := max d.recovery.ownGen g, peerGen := max d.recovery.peerGen g } := by
  rw [Device.newHello] at hnew
  split at hnew
  · next session g' nonce hopen =>
    split_ifs at hnew with hseen
    cases hnew
    have hexec := exec_handleIncoming hopen (fun t ht => hcalm t (List.mem_of_mem_take ht)) h
    exact counters_newHello (d := d.withSession peer session)
      (fun t ht => hcalm t (List.mem_of_mem_drop ht)) hrole hroot hseen hexec
  · cases hnew

/-- A frame comes out of `decrypt_message` only if the envelope opens to it. -/
theorem opened_of_exec {peer : String} {wire : C.Wire} {frame : C.Frame} (hcalm : Calm ts)
    (h : Device.exec E (E.decryptMessage peer wire) ts d = some (.ok frame, d')) :
    ∃ session, E.messageDecrypt (d.sessions peer) wire = .ok (session, .ok frame) ∧
      d' = d.withSession peer session := by
  rw [Engine.decryptMessage] at h
  obtain ⟨loading, ts₁, rfl, hcalm₁, h₁⟩ := exec_store_bind hcalm h
  simp only [Device.performStore] at h₁
  cases hopen : E.messageDecrypt (d.sessions peer) wire with
  | error e =>
    rw [hopen] at h₁
    obtain ⟨-, hno, -⟩ := Device.exec_ret_eq h₁
    cases hno
  | ok opened =>
    rw [hopen] at h₁
    obtain ⟨storing, ts₂, rfl, -, h₂⟩ := exec_store_bind hcalm₁ h₁
    obtain ⟨-, hframe, hd'⟩ := Device.exec_ret_eq h₂
    exact ⟨opened.1, by rw [hframe], hd'⟩

/-- Any other envelope leaves the counters alone. -/
theorem incoming_other {peer : String} {envelope : C.Wire} {changed : Bool} (hcalm : Calm ts)
    (hnew : d.newHello E peer envelope = none)
    (h : Device.exec E (E.handleIncoming peer envelope) ts d = some (changed, d')) :
    d'.cycles = d.cycles ∧ d'.recovery = d.recovery := by
  suffices hkept : d'.recovery = d.recovery ∧ d'.exhaustion = d.exhaustion from
    ⟨congrArg (fun e => (e.getD .new).cycles) hkept.2, hkept.1⟩
  rw [Engine.handleIncoming] at h
  obtain ⟨ts₁, ts₂, opened, d₁, rfl, hdecrypt, h⟩ := Device.exec_bind h
  obtain ⟨hrecovery₁, hexhaustion₁⟩ := counters_exec
    (Engine.each_decryptMessage peer envelope trivial fun _ => trivial) hdecrypt
  cases opened with
  | error e =>
    obtain ⟨-, -, rfl⟩ := Device.exec_ret_eq h
    exact ⟨hrecovery₁, hexhaustion₁⟩
  | ok frame =>
    have hkept : d'.recovery = d₁.recovery ∧ d'.exhaustion = d₁.exhaustion := by
      cases frame with
      | recoveryHello g nonce =>
        -- a hello that is not new is a replay
        obtain ⟨session, hopen, rfl⟩ := opened_of_exec hcalm.of_append.1 hdecrypt
        have hseen : (g, nonce) ∈ d.helloSeen := by
          by_contra hnot
          simp [Device.newHello, hopen, hnot] at hnew
        have huntouched := (untouched_hello_iff h).mpr hseen
        exact ⟨huntouched.recovery, huntouched.exhaustion⟩
      | _ => exact counters_exec (keeps_of_routing (Engine.routing_dispatch rfl)) h
    exact ⟨hkept.1.trans hrecovery₁, hkept.2.trans hexhaustion₁⟩

/-! ## Exhausted -/

/-- **Turned away.** An exhausted conversation is refused after three reads, with no request to a
relay. -/
theorem recover_exhausted (hex : d.Exhausted) (hrole : d.recovery.role = some role)
    (hroot : d.recovery.root = some root) (hcalm : Calm ts) (hlen : 3 ≤ ts.length) :
    (∃ d', Device.exec E E.recover (ts.take 3) d = some (.needsRepair, d')) ∧
      ∀ x ∈ Device.trace E E.recover ts d, x.isRequest = false := by
  obtain ⟨convo, ⟨_, _, own, peer⟩, sessions, messages, rotation, helloSeen, exhaustion, boxes⟩ := d
  cases hrole
  cases hroot
  match ts, hlen with
  | ⟨_, reading⟩ :: ⟨_, recovering⟩ :: checking :: rest, _ =>
    cases hcalm _ List.mem_cons_self
    cases hcalm _ (List.mem_cons_of_mem _ List.mem_cons_self)
    have hcheck := Device.exhausted_iff.mpr hex
    -- what is left after the three reads
    let left : EngineM C RecoveryOutcome :=
      if ((exhaustion.getD .new).isExhausted || GenerationState.isExhausted ⟨own, peer⟩) = true then
        pure .needsRepair
      else do
        if ← E.enterRecoveryGen convo role root (saturatingAdd32 own 1) peer then
          ram .noteProbeCycle
          pure .oneSided
        else
          pure .failed
    have hleft : left = pure .needsRepair := if_pos hcheck
    let d₀ : Device C := ⟨convo, ⟨some role, some root, own, peer⟩, sessions, messages, rotation, helloSeen,
      some (exhaustion.getD .new), boxes⟩
    constructor
    · refine ⟨d₀, ?_⟩
      show Device.exec E left [] d₀ = _
      rw [hleft]
      rfl
    · show ∀ x ∈ _ :: _ :: _ :: Device.trace E left rest d₀, _
      rw [hleft]
      simp [Done.isRequest, Device.trace]

/-! ## Whole lives -/

/-- What can happen to a conversation. A loss shows only in how the relays answer. -/
inductive Encounter (C : Carrier)
  | attempt (ts : List (Turn C))
  | incoming (peer : String) (envelope : C.Wire) (ts : List (Turn C))
  | restart

/-- The turns the event takes. -/
def Encounter.turns : Encounter C → List (Turn C)
  | .attempt ts | .incoming _ _ ts => ts
  | .restart => []

/-- A killed process loses what was in memory. -/
def Device.forgotten (d : Device C) : Device C :=
  { d with rotation := none, helloSeen := [], exhaustion := none }

/-- A client with the probes completed since the last new hello: by this process, and in all. -/
structure Probing (C : Carrier) where
  device : Device C
  inProcess : ℕ
  total : ℕ

namespace Probing

/-- One event. -/
def step (E : Engine C) (s : Probing C) : Encounter C → Option (Probing C)
  | .attempt ts => do
    let (outcome, d') ← Device.exec E E.recover ts s.device
    return if outcome = .oneSided then ⟨d', s.inProcess + 1, s.total + 1⟩ else { s with device := d' }
  | .incoming peer envelope ts => do
    let (_, d') ← Device.exec E (E.handleIncoming peer envelope) ts s.device
    return if (s.device.newHello E peer envelope).isSome then ⟨d', 0, 0⟩ else { s with device := d' }
  | .restart => some ⟨s.device.forgotten, 0, s.total⟩

/-- No storage access fails and the generations stay clear of the end of their type. -/
def Clear (s : Probing C) (e : Encounter C) : Prop :=
  s.device.recovery.ownGen < 2 ^ 32 - 5 ∧ Calm e.turns

/-- The invariant: the probes in all are paid for by the offset of the generations, those of the process
by the counter. -/
structure Paid (role : UInt8) (root : C.Root) (s : Probing C) : Prop where
  role_eq : s.device.recovery.role = some role
  root_eq : s.device.recovery.root = some root
  total_le : s.total + s.device.recovery.peerGen ≤ s.device.recovery.ownGen
  ownGen_le : s.device.recovery.ownGen ≤ s.device.recovery.peerGen + recoveryWindow
  inProcess_le : s.inProcess ≤ s.device.cycles
  bounded : s.inProcess ≤ recoveryProbeCycles

variable {s s' : Probing C} {e : Encounter C}

theorem Paid.attempt (hs : Paid role root s) (hclear : Clear s (.attempt ts))
    (h : step E s (.attempt ts) = some s') : Paid role root s' := by
  obtain ⟨⟨outcome, d'⟩, hexec, h⟩ := Option.bind_eq_some_iff.mp h
  cases h
  obtain ⟨houtcome, hcycles, hrecovery, -⟩ | ⟨rfl, hex, hcycles, hrecovery, -⟩ :=
    exec_recover_calm hclear.2 hs.role_eq hs.root_eq hexec
  · rw [if_neg houtcome]
    exact ⟨hrecovery ▸ hs.role_eq, hrecovery ▸ hs.root_eq, hrecovery ▸ hs.total_le,
      hrecovery ▸ hs.ownGen_le, hcycles ▸ hs.inProcess_le, hs.bounded⟩
  · rw [if_pos rfl]
    -- the attempt was not turned away: there was room under both bounds
    have hroom := hex
    rw [Device.Exhausted, not_or, Nat.not_le, Nat.not_le] at hroom
    have hnext : saturatingAdd32 s.device.recovery.ownGen 1 = s.device.recovery.ownGen + 1 :=
      saturatingAdd32_of_le (by have := hclear.1; simp only [u32Max]; omega)
    rw [hnext] at hrecovery
    have htotal := hs.total_le
    have hinProcess := hs.inProcess_le
    refine ⟨?_, ?_, ?_, ?_, ?_, ?_⟩ <;> simp only [hrecovery, hcycles]
    · exact hs.role_eq
    · exact hs.root_eq
    · omega
    · simp only [absDiff] at hroom
      omega
    · omega
    · omega

theorem Paid.incoming {peer : String} {envelope : C.Wire} (hs : Paid role root s)
    (hclear : Clear s (.incoming peer envelope ts))
    (h : step E s (.incoming peer envelope ts) = some s') : Paid role root s' := by
  obtain ⟨⟨changed, d'⟩, hexec, h⟩ := Option.bind_eq_some_iff.mp h
  cases h
  cases hnew : s.device.newHello E peer envelope with
  | none =>
    obtain ⟨hcycles, hrecovery⟩ := incoming_other hclear.2 hnew hexec
    exact ⟨hrecovery ▸ hs.role_eq, hrecovery ▸ hs.root_eq, hrecovery ▸ hs.total_le,
      hrecovery ▸ hs.ownGen_le, hcycles ▸ hs.inProcess_le, hs.bounded⟩
  | some g =>
    obtain ⟨-, hrecovery⟩ := incoming_newHello hclear.2 hs.role_eq hs.root_eq hnew hexec
    have htotal := hs.total_le
    have hoffset := hs.ownGen_le
    rw [if_pos Option.isSome_some]
    refine ⟨?_, ?_, ?_, ?_, Nat.zero_le _, Nat.zero_le _⟩ <;> simp only [hrecovery]
    · exact hs.role_eq
    · exact hs.root_eq
    · omega
    · omega

/-- **Step.** -/
theorem Paid.step (hs : Paid role root s) (hclear : Clear s e) (h : Probing.step E s e = some s') :
    Paid role root s' := by
  cases e with
  | attempt ts => exact hs.attempt hclear h
  | incoming peer envelope ts => exact hs.incoming hclear h
  | restart =>
    cases h
    exact ⟨hs.role_eq, hs.root_eq, hs.total_le, hs.ownGen_le, Nat.zero_le _, Nat.zero_le _⟩

omit [C.Comparable] in
/-- At either bound the conversation is exhausted. -/
theorem Paid.exhausted (hs : Paid role root s) (h : s.inProcess = 3 ∨ s.total = 4) :
    s.device.Exhausted := by
  obtain h | h := h
  · exact .inl (Nat.le_trans (Nat.le_of_eq h.symm) hs.inProcess_le)
  · refine .inr ?_
    have htotal := hs.total_le
    simp only [absDiff, recoveryWindow]
    omega

end Probing

/-- **Recovery without contact is bounded.** A conversation that started with both generations at 0, with
storage that never fails and generations clear of the end of their type: whatever the relays answer,
whatever comes in, and however often the process is restarted, since the last new hello at most 3 probes
have completed in this process and at most 4 in all. At either bound an attempt is turned away after
three reads, with no request to a relay. An attempt that enters nothing, and an envelope without a new
hello, change neither the counter nor the stored columns. -/
theorem probes_bounded (E : Engine C) (d : Device C) (role : UInt8) (root : C.Root)
    (hrole : d.recovery.role = some role) (hroot : d.recovery.root = some root)
    (hown : d.recovery.ownGen = 0) (hpeer : d.recovery.peerGen = 0) (es : List (Encounter C))
    (s : Probing C) (hrun : run (Probing.step E) ⟨d, 0, 0⟩ es = some s)
    (hclear : Along (Probing.step E) Probing.Clear ⟨d, 0, 0⟩ es) :
    s.inProcess ≤ 3 ∧ s.total ≤ 4 ∧
    (s.inProcess = 3 ∨ s.total = 4 → ∀ ts, Calm ts → 3 ≤ ts.length →
      (∃ d', Device.exec E E.recover (ts.take 3) s.device = some (.needsRepair, d')) ∧
        ∀ x ∈ Device.trace E E.recover ts s.device, x.isRequest = false) ∧
    (∀ ts outcome d', Device.exec E E.recover ts s.device = some (outcome, d') →
      s.device.EntersNothing E ts →
      d'.cycles = s.device.cycles ∧ d'.recovery = s.device.recovery) ∧
    ∀ peer envelope ts changed d',
      Device.exec E (E.handleIncoming peer envelope) ts s.device = some (changed, d') → Calm ts →
      s.device.newHello E peer envelope = none →
      d'.cycles = s.device.cycles ∧ d'.recovery = s.device.recovery := by
  have hstart : Probing.Paid role root (⟨d, 0, 0⟩ : Probing C) :=
    ⟨hrole, hroot, by simp only [hown, hpeer]; omega, by simp only [hown]; omega, Nat.zero_le _,
      Nat.zero_le _⟩
  have hpaid : Probing.Paid role root s :=
    run_invariant (fun _ _ _ hs hok h => hs.step hok h) hstart hclear hrun
  refine ⟨hpaid.bounded, ?_, ?_, ?_, ?_⟩
  · have htotal := hpaid.total_le
    have hoffset := hpaid.ownGen_le
    simp only [recoveryWindow] at hoffset
    omega
  · intro hbound ts hcalm hlen
    exact recover_exhausted (hpaid.exhausted hbound) hpaid.role_eq hpaid.root_eq hcalm hlen
  · intro ts outcome d' hexec hnothing
    obtain ⟨-, hcycles, hrecovery, -⟩ | ⟨hno, -, -⟩ :=
      attempt_cases hpaid.role_eq hpaid.root_eq hexec
    · exact ⟨hcycles, hrecovery⟩
    · exact absurd hnothing hno
  · intro peer envelope ts changed d' hexec hcalm hnew
    exact incoming_other hcalm hnew hexec

/-- Three probes, a restart, and a fourth. -/
def fourProbes : List (Encounter (byteCarrier Unit)) :=
  [.attempt pacedAttempt, .attempt pacedAttempt, .attempt pacedAttempt, .restart, .attempt pacedAttempt]

theorem calm_pacedAttempt : Calm pacedAttempt := by
  intro t ht
  obtain (ht | ht) | ht := (List.mem_append.mp ht).imp_left List.mem_append.mp
  · exact Calm.replicate rfl 3 t ht
  · exact List.mem_singleton.mp ht ▸ rfl
  · exact Calm.replicate rfl 9 t ht

/-- After them the client, restarted again, turns every attempt away. -/
theorem four_probes_exhaust :
    ∃ s, run (Probing.step plainEngine) ⟨rootedDevice, 0, 0⟩ (fourProbes ++ [.restart]) = some s ∧
      s.inProcess = 0 ∧ s.total = 4 ∧ ∀ ts, Calm ts → 3 ≤ ts.length →
        (∃ d', Device.exec plainEngine plainEngine.recover (ts.take 3) s.device =
          some (.needsRepair, d')) ∧
        ∀ x ∈ Device.trace plainEngine plainEngine.recover ts s.device, x.isRequest = false := by
  refine ⟨_, rfl, rfl, rfl, ?_⟩
  refine (probes_bounded plainEngine rootedDevice roleResponder [] rfl rfl rfl rfl
    (fourProbes ++ [.restart]) _ rfl ?_).2.2.1 (.inr rfl)
  refine (along_cons_of_some rfl).mpr ⟨⟨by decide, calm_pacedAttempt⟩, ?_⟩
  refine (along_cons_of_some rfl).mpr ⟨⟨by decide, calm_pacedAttempt⟩, ?_⟩
  refine (along_cons_of_some rfl).mpr ⟨⟨by decide, calm_pacedAttempt⟩, ?_⟩
  refine (along_cons_of_some rfl).mpr ⟨⟨by decide, fun _ h => by cases h⟩, ?_⟩
  refine (along_cons_of_some rfl).mpr ⟨⟨by decide, calm_pacedAttempt⟩, ?_⟩
  exact (along_cons_of_some rfl).mpr ⟨⟨by decide, fun _ h => by cases h⟩, trivial⟩

/-! ## Generations -/

/-- From `r` to `r'` the own generation neither goes back nor stays behind what was reported, and the peer's
rises to the highest reported and no further. -/
structure Risen (r : RecoveryRecord C) (reports : List ℕ) (r' : RecoveryRecord C) : Prop where
  role_eq : r'.role = r.role
  root_eq : r'.root = r.root
  own_le : r.ownGen ≤ r'.ownGen
  reports_le : ∀ g ∈ reports, g ≤ r'.ownGen
  peer_le_iff : ∀ g, r'.peerGen ≤ g ↔ r.peerGen ≤ g ∧ ∀ g' ∈ reports, g' ≤ g

namespace Device

/-- One event in the life of a conversation. -/
def live (E : Engine C) (d : Device C) : Encounter C → Option (Device C)
  | .attempt ts => (exec E E.recover ts d).map Prod.snd
  | .incoming peer envelope ts => (exec E (E.handleIncoming peer envelope) ts d).map Prod.snd
  | .restart => some d.forgotten

/-- The generation an event reports anew. To a restarted process an old hello is new. -/
def reported (E : Engine C) (d : Device C) : Encounter C → Option ℕ
  | .incoming peer envelope _ => d.newHello E peer envelope
  | .attempt _ | .restart => none

/-- The generations reported over a life. -/
def heard (E : Engine C) : Device C → List (Encounter C) → List ℕ
  | _, [] => []
  | d, e :: es => (d.reported E e).toList ++ ((d.live E e).map fun d' => heard E d' es).getD []

/-- **Step.** -/
theorem risen_of_live {e : Encounter C} (hrole : d.recovery.role = some role)
    (hroot : d.recovery.root = some root) (hown : d.recovery.ownGen ≤ u32Max) (hcalm : Calm e.turns)
    (h : d.live E e = some d') : Risen d.recovery (d.reported E e).toList d'.recovery := by
  have hsame : Risen d.recovery [] d.recovery := by
    constructor <;> simp
  cases e with
  | attempt ts =>
    obtain ⟨⟨outcome, d'⟩, hexec, rfl⟩ := Option.map_eq_some_iff.mp h
    obtain ⟨-, -, hrecovery, -⟩ | ⟨-, -, -, hrecovery, -⟩ := exec_recover_calm hcalm hrole hroot hexec
    · exact hrecovery ▸ hsame
    · rw [hrecovery]
      exact ⟨rfl, rfl, Nat.le_min.mpr ⟨Nat.le_succ _, hown⟩, by simp [reported], by simp [reported]⟩
  | incoming peer envelope ts =>
    obtain ⟨⟨changed, d'⟩, hexec, rfl⟩ := Option.map_eq_some_iff.mp h
    rw [reported]
    cases hnew : d.newHello E peer envelope with
    | none => exact (incoming_other hcalm hnew hexec).2 ▸ hsame
    | some g =>
      rw [(incoming_newHello hcalm hrole hroot hnew hexec).2, Option.toList_some]
      refine ⟨rfl, rfl, Nat.le_max_left _ _, List.forall_mem_singleton.mpr (Nat.le_max_right _ _), fun _ => ?_⟩
      rw [Nat.max_le, List.forall_mem_singleton]
  | restart =>
    cases h
    exact hsame

end Device

/-- **Generations only rise.** Over every life of a conversation in which no storage access fails, restarts
included, neither generation goes back, and that of the peer is the highest that hellos have reported. So a
hello that was handled before moves the conversation no more, even if a restarted process takes it for
new. -/
theorem generations_follow_hellos (E : Engine C) (d d' : Device C) (hrole : d.recovery.role = some role)
    (hroot : d.recovery.root = some root) (es : List (Encounter C)) (hrun : run (Device.live E) d es = some d')
    (hok : Along (Device.live E) (fun d e => d.recovery.ownGen ≤ u32Max ∧ Calm e.turns) d es) :
    Risen d.recovery (d.heard E es) d'.recovery ∧
    ∀ e d'', ∀ g ∈ d.heard E es, d'.reported E e = some g → Calm e.turns → d'.live E e = some d'' →
      d''.recovery = d'.recovery := by
  suffices hlife : Risen d.recovery (d.heard E es) d'.recovery by
    refine ⟨hlife, fun e d'' g hg hreported hcalm h => ?_⟩
    cases e with
    | incoming peer envelope ts =>
      obtain ⟨⟨changed, d''⟩, hexec, rfl⟩ := Option.map_eq_some_iff.mp h
      have hraised := (incoming_newHello hcalm (hlife.role_eq.trans hrole) (hlife.root_eq.trans hroot)
        hreported hexec).2
      rwa [Nat.max_eq_left (hlife.reports_le g hg),
        Nat.max_eq_left (((hlife.peer_le_iff _).mp (Nat.le_refl _)).2 g hg)] at hraised
    | _ => cases hreported
  -- what an event reports comes before what the rest of the life reports
  induction es generalizing d with
  | nil =>
    cases hrun
    constructor <;> simp [Device.heard]
  | cons e es ih =>
    obtain ⟨d₁, hstep, hrun⟩ := Option.bind_eq_some_iff.mp (run_cons d e es ▸ hrun)
    have h := Device.risen_of_live hrole hroot hok.1.1 hok.1.2 hstep
    have h' := ih d₁ (h.role_eq.trans hrole) (h.root_eq.trans hroot) hrun (hok.2 d₁ hstep)
    rw [Device.heard, hstep, Option.map_some, Option.getD_some]
    refine ⟨h'.role_eq.trans h.role_eq, h'.root_eq.trans h.root_eq, Nat.le_trans h.own_le h'.own_le,
      List.forall_mem_append.mpr ⟨fun g hg => Nat.le_trans (h.reports_le g hg) h'.own_le, h'.reports_le⟩,
      fun g => ?_⟩
    rw [h'.peer_le_iff, h.peer_le_iff, List.forall_mem_append, and_assoc]

/-- A hello of generation 1 comes in, and no relay answers. -/
def firstHello : Encounter (byteCarrier Unit) :=
  .incoming "peer" (plainEnvelope ⟨.recoveryHello, recoveryHelloVersion,
    encodeRecoveryHello 1 (List.replicate 16 0)⟩) (List.replicate 11 offlineTurn)

theorem calm_firstHello : Calm firstHello.turns := Calm.replicate rfl 11

/-- The client probes generation 1, hears the hello and is restarted: it takes the hello for new once more,
and the replay moves nothing. -/
theorem generations_after_replay :
    ∃ d d', run (Device.live plainEngine) rootedDevice [.attempt pacedAttempt, firstHello, .restart] =
        some d ∧
      Risen rootedDevice.recovery [1] d.recovery ∧ d.reported plainEngine firstHello = some 1 ∧
      d.live plainEngine firstHello = some d' ∧ d'.recovery = d.recovery := by
  have hheard : rootedDevice.heard plainEngine [.attempt pacedAttempt, firstHello, .restart] = [1] := by
    decide +kernel
  obtain ⟨d, hrun, d', hreplay, hnew⟩ : ∃ d, run (Device.live plainEngine) rootedDevice
      [.attempt pacedAttempt, firstHello, .restart] = some d ∧ ∃ d', d.live plainEngine firstHello = some d' ∧
        d.reported plainEngine firstHello = some 1 := ⟨_, rfl, _, rfl, rfl⟩
  obtain ⟨hrisen, hstays⟩ := generations_follow_hellos plainEngine rootedDevice d rfl rfl _ hrun <|
    (along_cons_of_some rfl).mpr ⟨⟨by decide, calm_pacedAttempt⟩, (along_cons_of_some rfl).mpr
      ⟨⟨by decide, calm_firstHello⟩, (along_cons_of_some rfl).mpr
        ⟨⟨by decide, fun _ h => by cases h⟩, trivial⟩⟩⟩
  rw [hheard] at hrisen hstays
  exact ⟨d, d', hrun, hrisen, hnew, hreplay,
    hstays firstHello d' 1 List.mem_cons_self hnew calm_firstHello hreplay⟩

end Titlan
