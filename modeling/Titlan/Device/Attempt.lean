import Titlan.Device.Announce

/-! # Entering a recovery generation

`enter_recovery_gen` is behind both a recovery attempt and the adoption of a peer's generation. Its run is
taken apart here once: what it writes, when it reports success, and that the probe in the middle, with up
to eight requests to the peer's relay, writes nothing the recovery logic reads. `recover` follows from
it. -/

namespace Titlan

open Foundation

variable {C : Carrier} {E : Engine C}

/-! ## The probe writes nothing -/

/-- Operations that leave the routing row, the recovery columns and the cycle counter alone. -/
def Op.KeepsLedger : Op C → Prop
  | .store (.setConversationSend _ _) | .store (.setConversationRecv _) => False
  | .store (.setRecoveryRoot _ _) | .store (.setRecoveryGenerations _ _) => False
  | .ram .cyclesExhausted | .ram .noteProbeCycle | .ram .resetExhaustion => False
  | _ => True

/-- Operations that leave the recovery columns and the cycle counter alone. -/
def Op.KeepsCounters : Op C → Prop
  | .store (.setRecoveryRoot _ _) | .store (.setRecoveryGenerations _ _) => False
  | .ram .cyclesExhausted | .ram .noteProbeCycle | .ram .resetExhaustion => False
  | _ => True

/-- Programs of operations that leave the ledger alone. -/
abbrev KeepsLedger {α : Type} (p : EngineM C α) : Prop :=
  Composed (Each (S := engineSig C) Op.KeepsLedger) p

/-- Programs of operations that leave the recovery columns and the cycle counter alone. -/
abbrev KeepsCounters {α : Type} (p : EngineM C α) : Prop :=
  Composed (Each (S := engineSig C) Op.KeepsCounters) p

theorem keeps_putCreate (relayUrl : C.Relay) (id : C.Id) :
    KeepsLedger (Engine.putCreate relayUrl id) :=
  Engine.composed_putCreate (Engine.each_op _ trivial)

theorem keeps_probe (convo : Conversation C) (root : C.Root) (peer : Role) (hello : C.Frame)
    (window : List ℕ) : KeepsLedger (E.probe convo root peer hello window) :=
  Engine.composed_probe (fun _ => Engine.each_op _ trivial) (fun _ => Engine.composed_announce
    (Engine.each_encryptMessage _ _ (by trivial) fun _ => by trivial) fun _ => Engine.each_op _ trivial)
    root peer window

theorem keeps_of_sending {α : Type} {p : EngineM C α} (h : Composed E.Sending p) : KeepsCounters p := by
  refine h.expand fun _ q hq => ?_
  cases hq with
  | plain o ho =>
    refine Engine.each_op o ?_
    cases o with
    | store o => cases o <;> trivial
    | ram o => cases o <;> trivial
    | _ => trivial
  | encrypt peer frame =>
    exact Engine.each_encryptMessage peer frame trivial fun _ => trivial

/-! ## Routing -/

namespace Engine

/-- Only a hello is about recovery. -/
theorem routing_dispatch {f : C.Frame} (hf : f.hello? = none) :
    Composed E.Routing (E.dispatch f) := by
  cases f with
  | chat typeVersion text =>
    refine (routing_plain _ (by exact rfl)).bind fun saved => ?_
    cases saved with
    | error e => exact .ret _
    | ok row => exact (routing_plain _ (by trivial)).bind fun _ => .ret _
  | mailboxUpdateV3 relayUrl inbox => exact routing_of_rerouting (rerouting_handleRotation _ _)
  | mailboxUpdateV1 relayUrl inbox =>
    exact (routing_plain _ (by trivial)).bind fun _ => routing_flushPending.bind fun _ => .ret _
  | recoveryHello g nonce => cases hf
  | mailboxUpdateV2 relayUrl inbox contribution => exact .ret _
  | discarded => exact .ret _

end Engine

theorem keeps_of_routing {α : Type} {p : EngineM C α} (h : Composed E.Routing p) : KeepsCounters p := by
  refine h.expand fun _ q hq => ?_
  cases hq with
  | plain o ho =>
    refine Engine.each_op o ?_
    cases o with
    | store o => cases o <;> first | exact ho | trivial
    | ram o => cases o <;> exact ho
    | _ => trivial
  | encrypt peer frame _ =>
    exact Engine.each_encryptMessage peer frame trivial fun _ => trivial
  | flush => exact keeps_of_sending Engine.sending_flushPending

/-- `recover_v1` never asks for a repair by that name. -/
theorem returns_recoverV1 (convo : Conversation C) :
    (E.recoverV1 convo).Returns fun outcome => outcome ≠ .needsRepair := by
  refine Program.Returns.bind fun created => ?_
  cases created with
  | error e => exact RecoveryOutcome.noConfusion
  | ok newInbox =>
    refine Program.Returns.bind fun set => ?_
    cases set with
    | error e => exact RecoveryOutcome.noConfusion
    | ok _ =>
      dsimp only
      split
      · exact RecoveryOutcome.noConfusion
      · refine Program.Returns.bind fun wire => ?_
        cases wire with
        | error e => exact RecoveryOutcome.noConfusion
        | ok wire =>
          refine Program.Returns.bind fun outcome => ?_
          split <;> exact RecoveryOutcome.noConfusion

/-- What the recovery logic reads: the routing row, the recovery columns and the cycle counter. -/
structure Ledger (C : Carrier) where
  convo : Conversation C
  recovery : RecoveryRecord C
  exhaustion : Option ExhaustionTracker

namespace Device

variable {d d' : Device C}

/-- The ledger of a client. -/
def ledger (d : Device C) : Ledger C := ⟨d.convo, d.recovery, d.exhaustion⟩

theorem convo_of_ledger (h : d'.ledger = d.ledger) : d'.convo = d.convo := congrArg Ledger.convo h

theorem recovery_of_ledger (h : d'.ledger = d.ledger) : d'.recovery = d.recovery :=
  congrArg Ledger.recovery h

theorem exhaustion_of_ledger (h : d'.ledger = d.ledger) : d'.exhaustion = d.exhaustion :=
  congrArg Ledger.exhaustion h

/-- The probe cycles counted so far. -/
def cycles (d : Device C) : ℕ := (d.exhaustion.getD .new).cycles

/-- A recovery attempt is turned away: too many cycles, or too large an offset. -/
def Exhausted (d : Device C) : Prop :=
  recoveryProbeCycles ≤ d.cycles ∨ recoveryWindow ≤ absDiff d.recovery.ownGen d.recovery.peerGen

end Device

variable [C.Comparable]

/-! ## Runs, in parts -/

namespace Device

variable {α β : Type} {d d' : Device C} {ts : List (Turn C)}

/-- What is left of a program after some turns. -/
def resume (E : Engine C) : EngineM C α → List (Turn C) → Device C → Option (EngineM C α × Device C)
  | p, [], d => some (p, d)
  | .op o k, t :: ts, d =>
    let out := d.perform E t o
    resume E (k out.1) ts out.2
  | .ret _, _ :: _, _ => none

@[simp] theorem resume_nil (p : EngineM C α) : resume E p [] d = some (p, d) := by
  cases p <;> rfl

theorem resume_perform_bind (o : Op C) (k : o.Answer → EngineM C α) (t : Turn C) :
    resume E (o.program >>= k) (t :: ts) d =
      resume E (k (d.perform E t o).1) ts (d.perform E t o).2 := rfl

/-- A run is complete when nothing is left. -/
theorem exec_eq_some_iff {p : EngineM C α} {a : α} :
    exec E p ts d = some (a, d') ↔ resume E p ts d = some (.ret a, d') := by
  induction ts generalizing p d with
  | nil =>
    cases p with
    | ret b => simp [exec, resume]
    | op o k => simp [exec, resume]
  | cons t ts ih =>
    cases p with
    | ret b => simp [exec, resume]
    | op o k => exact ih

/-- A run that has returned takes no more turns. -/
theorem resume_ret_eq {a : α} {q : EngineM C α} (h : resume E (.ret a) ts d = some (q, d')) :
    ts = [] ∧ q = .ret a ∧ d' = d := by
  cases ts with
  | nil =>
    cases h
    exact ⟨rfl, rfl, rfl⟩
  | cons t ts => cases h

/-- A program followed by another is either on its way or has handed over. -/
theorem resume_bind {p : EngineM C α} {k : α → EngineM C β} {q : EngineM C β}
    (h : resume E (p >>= k) ts d = some (q, d')) :
    (∃ o k', resume E p ts d = some (.op o k', d') ∧ q = .op o fun r => k' r >>= k) ∨
      ∃ ts₁ ts₂ a d₁, ts = ts₁ ++ ts₂ ∧ exec E p ts₁ d = some (a, d₁) ∧
        resume E (k a) ts₂ d₁ = some (q, d') := by
  induction p generalizing ts d with
  | ret a => exact .inr ⟨[], ts, a, d, rfl, rfl, h⟩
  | op o k' ih =>
    cases ts with
    | nil =>
      cases h
      exact .inl ⟨o, k', rfl, rfl⟩
    | cons t ts =>
      obtain hleft | ⟨ts₁, ts₂, a, d₁, rfl, hp, hk⟩ := ih _ h
      · exact .inl hleft
      · exact .inr ⟨t :: ts₁, ts₂, a, d₁, rfl, hp, hk⟩

/-- A program followed by another takes its own turns first. -/
theorem exec_bind {p : EngineM C α} {k : α → EngineM C β} {b : β}
    (h : exec E (p >>= k) ts d = some (b, d')) :
    ∃ ts₁ ts₂ a d₁, ts = ts₁ ++ ts₂ ∧ exec E p ts₁ d = some (a, d₁) ∧
      exec E (k a) ts₂ d₁ = some (b, d') := by
  obtain ⟨o, k', -, hq⟩ | ⟨ts₁, ts₂, a, d₁, hts, hp, hk⟩ := resume_bind (exec_eq_some_iff.mp h)
  · cases hq
  · exact ⟨ts₁, ts₂, a, d₁, hts, hp, exec_eq_some_iff.mpr hk⟩

end Device

section Ledger

variable {α : Type} {d d' : Device C} {ts : List (Turn C)}

theorem ledger_perform (t : Turn C) (d : Device C) {o : Op C} (ho : o.KeepsLedger) :
    (d.perform E t o).2.ledger = d.ledger := by
  cases o with
  | store o =>
    simp only [Device.perform]
    split
    · rfl
    · cases o <;> first | rfl | exact ho.elim
  | ram o => cases o <;> first | rfl | exact ho.elim
  | relay o =>
    simp only [Device.perform, Device.performRelay]
    split <;> rfl
  | socket o => rfl
  | notify n => rfl

theorem counters_perform (t : Turn C) (d : Device C) {o : Op C} (ho : o.KeepsCounters) :
    (d.perform E t o).2.recovery = d.recovery ∧ (d.perform E t o).2.exhaustion = d.exhaustion := by
  cases o with
  | store o =>
    simp only [Device.perform]
    split
    · exact ⟨rfl, rfl⟩
    · cases o <;> first | exact ⟨rfl, rfl⟩ | exact ho.elim
  | ram o => cases o <;> first | exact ⟨rfl, rfl⟩ | exact ho.elim
  | relay o =>
    simp only [Device.perform, Device.performRelay]
    split <;> exact ⟨rfl, rfl⟩
  | socket o => exact ⟨rfl, rfl⟩
  | notify n => exact ⟨rfl, rfl⟩

/-- On every way through a program of such operations the ledger stays as it was. -/
theorem ledger_resume {p q : EngineM C α} (hp : KeepsLedger p)
    (h : Device.resume E p ts d = some (q, d')) : d'.ledger = d.ledger := by
  induction ts generalizing p d with
  | nil =>
    rw [Device.resume_nil] at h
    cases h
    rfl
  | cons t ts ih =>
    cases p with
    | ret a => cases h
    | op o k =>
      obtain ⟨ho, hk⟩ := hp.of_op
      exact (ih (hk _) h).trans (ledger_perform t d ho)

variable {p : EngineM C α}

theorem ledger_exec {a : α} (hp : KeepsLedger p)
    (h : Device.exec E p ts d = some (a, d')) : d'.ledger = d.ledger :=
  ledger_resume hp (Device.exec_eq_some_iff.mp h)

theorem counters_exec {a : α} (hp : KeepsCounters p) (h : Device.exec E p ts d = some (a, d')) :
    d'.recovery = d.recovery ∧ d'.exhaustion = d.exhaustion := by
  have hsafe := Device.triple_const (E := E) (fun d => (d.recovery, d.exhaustion))
    (fun t d o ho => Prod.ext_iff.mpr (counters_perform t d ho)) hp (d.recovery, d.exhaustion) d rfl
  exact Prod.mk.inj (Device.exec_of_safe hsafe h)

/-- What every way through a program returns, its runs return. -/
theorem returns_exec {Q : α → Prop} {a : α} (hp : p.Returns Q)
    (h : Device.exec E p ts d = some (a, d')) : Q a := by
  induction p generalizing ts d with
  | ret b =>
    obtain ⟨-, rfl, -⟩ := Device.exec_ret_eq h
    exact hp
  | op o k ih =>
    cases ts with
    | nil => cases h
    | cons t ts => exact ih _ (hp _) h

end Ledger

/-! ## `enter_recovery_gen` -/

section Enter

variable {convo : Conversation C} {role : UInt8} {root : C.Root} {g peerGen : ℕ}
  {d d' : Device C} {ts : List (Turn C)}

/-- The relay creates this party's derived inbox, and the row takes it. -/
def Engine.Enters (E : Engine C) (role : UInt8) (root : C.Root) (g : ℕ) : List (Turn C) → Prop
  | creating :: setting :: _ =>
    creating.answer (.relay (.putMailbox E.myRelay (E.deriveMailboxId root (roleFromU8 role) g))) =
      .ok .created ∧ setting.fault = none
  | _ => False

omit [C.Comparable] in
theorem Engine.Enters.append (h : E.Enters role root g ts) (ts' : List (Turn C)) :
    E.Enters role root g (ts ++ ts') := by
  cases ts with
  | nil => exact h.elim
  | cons creating ts =>
    cases ts with
    | nil => exact h.elim
    | cons setting ts => exact h

/-- No storage access of the run fails. -/
def Calm (ts : List (Turn C)) : Prop := ∀ t ∈ ts, t.fault = none

/-- The routing row at a recovery generation. -/
def Engine.routed (E : Engine C) (convo : Conversation C) (role : UInt8) (root : C.Root) (g : ℕ) :
    Conversation C :=
  { convo with
    mailboxSend := some (E.deriveMailboxId root (roleFromU8 role).peer g)
    mailboxRecv := some (E.deriveMailboxId root (roleFromU8 role) g) }

omit [C.Comparable] in
theorem Calm.of_append {ts₁ ts₂ : List (Turn C)} (h : Calm (ts₁ ++ ts₂)) : Calm ts₁ ∧ Calm ts₂ :=
  ⟨fun t ht => h t (List.mem_append_left _ ht), fun t ht => h t (List.mem_append_right _ ht)⟩

omit [C.Comparable] in
theorem Calm.of_cons {t : Turn C} (h : Calm (t :: ts)) : t.fault = none ∧ Calm ts :=
  ⟨h t List.mem_cons_self, fun t' ht' => h t' (List.mem_cons_of_mem _ ht')⟩

omit [C.Comparable] in
theorem Calm.replicate {t : Turn C} (ht : t.fault = none) (n : ℕ) : Calm (List.replicate n t) :=
  fun _ h => List.eq_of_mem_replicate h ▸ ht

/-- A storage access that does not fail. -/
theorem exec_store_bind {α : Type} {o : StoreOp C} {k : o.Answer → EngineM C α} {x : α × Device C}
    (hcalm : Calm ts) (h : Device.exec E (store o >>= k) ts d = some x) :
    ∃ t ts', ts = t :: ts' ∧ Calm ts' ∧
      Device.exec E (k (d.performStore o).1) ts' (d.performStore o).2 = some x := by
  cases ts with
  | nil => cases h
  | cons t ts =>
    refine ⟨t, ts, rfl, hcalm.of_cons.2, ?_⟩
    rw [store, Device.exec_perform_bind] at h
    simpa only [Device.perform, hcalm.of_cons.1] using h

/-- An access to the in-memory maps. -/
theorem exec_ram_bind {α : Type} {o : RamOp C} {k : o.Answer → EngineM C α} {x : α × Device C}
    (h : Device.exec E (ram o >>= k) ts d = some x) :
    ∃ t ts', ts = t :: ts' ∧
      Device.exec E (k (d.performRam (t.answer (.ram .drawNonce)) o).1) ts'
        (d.performRam (t.answer (.ram .drawNonce)) o).2 = some x := by
  cases ts with
  | nil => cases h
  | cons t ts => exact ⟨t, ts, rfl, h⟩

/-- The two writes at the end of `enter_recovery_gen`. -/
theorem exec_recording {relayUrl : C.Relay} {inbox : C.Id} {entered : Bool}
    (h : Device.exec E (do
      let _ ← store (.setConversationSend relayUrl inbox)
      let _ ← store (.setRecoveryGenerations g peerGen)
      return true) ts d = some (entered, d')) :
    entered = true ∧ d'.exhaustion = d.exhaustion ∧ (Calm ts → d'.ledger =
      ⟨{ d.convo with relayUrl, mailboxSend := some inbox },
        { d.recovery with ownGen := g, peerGen := peerGen }, d.exhaustion⟩) := by
  cases ts with
  | nil => cases h
  | cons sending ts =>
    cases ts with
    | nil => cases h
    | cons recording ts =>
      rw [Device.exec_perform_bind, Device.exec_perform_bind] at h
      cases ts with
      | cons t ts => cases h
      | nil =>
        cases h
        refine ⟨rfl, ?_, fun hcalm => ?_⟩
        · simp only [Device.perform]
          split <;> split <;> rfl
        · have hsending : sending.fault = none := hcalm _ List.mem_cons_self
          have hrecording : recording.fault = none := hcalm _ (List.mem_cons_of_mem _ List.mem_cons_self)
          simp only [Device.perform, hsending, hrecording]
          rfl

/-- `put_create` is one request. -/
theorem exec_putCreate {relayUrl : C.Relay} {id : C.Id} {created : Bool}
    (h : Device.exec E (Engine.putCreate relayUrl id) ts d = some (created, d')) :
    d'.ledger = d.ledger ∧ ∃ creating, ts = [creating] ∧
      (created = true ↔ creating.answer (.relay (.putMailbox relayUrl id)) = .ok .created) := by
  refine ⟨ledger_exec (keeps_putCreate _ _) h, ?_⟩
  cases ts with
  | nil => cases h
  | cons creating ts =>
    rw [Engine.putCreate, Device.exec_perform_bind] at h
    simp only [Device.perform] at h
    split at h
    · next hcreated =>
      obtain ⟨rfl, rfl, -⟩ := Device.exec_ret_eq h
      exact ⟨creating, rfl, iff_of_true rfl hcreated⟩
    · next hnot =>
      obtain ⟨rfl, rfl, -⟩ := Device.exec_ret_eq h
      exact ⟨creating, rfl, iff_of_false Bool.false_ne_true hnot⟩

/-- **`enter_recovery_gen`** succeeds exactly when the inbox is created and the row takes it. Then, unless
a later write fails, the row is at the generation; else nothing of the ledger has changed. -/
theorem exec_enterRecoveryGen {entered : Bool} (hconvo : d.convo = convo)
    (h : Device.exec E (E.enterRecoveryGen convo role root g peerGen) ts d = some (entered, d')) :
    (entered = true ↔ E.Enters role root g ts) ∧ d'.exhaustion = d.exhaustion ∧
      (entered = false → d'.ledger = d.ledger) ∧
      (entered = true → Calm ts → d'.ledger = ⟨E.routed convo role root g,
        { d.recovery with ownGen := g, peerGen := peerGen }, d.exhaustion⟩) := by
  rw [Engine.enterRecoveryGen] at h
  obtain ⟨ts₁, ts₂, created, d₁, rfl, hput, h⟩ := Device.exec_bind h
  obtain ⟨hledger, creating, rfl, hcreated⟩ := exec_putCreate hput
  cases created with
  | false =>
    obtain ⟨rfl, rfl, rfl⟩ := Device.exec_ret_eq h
    refine ⟨iff_of_false Bool.false_ne_true fun hno => hno, Device.exhaustion_of_ledger hledger,
      fun _ => hledger, fun hno => by cases hno⟩
  | true =>
    cases ts₂ with
    | nil => cases h
    | cons setting ts =>
      rw [if_pos rfl, Device.exec_perform_bind] at h
      cases hfault : setting.fault with
      | some e =>
        simp only [Device.perform, hfault] at h
        obtain ⟨rfl, rfl, rfl⟩ := Device.exec_ret_eq h
        refine ⟨iff_of_false Bool.false_ne_true fun hno => ?_, Device.exhaustion_of_ledger hledger,
          fun _ => hledger, fun hno => by cases hno⟩
        have hnone := hno.2
        rw [hfault] at hnone
        cases hnone
      | none =>
        simp only [Device.perform, hfault, Device.performStore] at h
        cases ts with
        | nil => cases h
        | cons drawing ts =>
          -- the nonce is drawn, the window is probed, and the two writes follow
          rw [Device.exec_perform_bind] at h
          obtain ⟨ts₃, ts₄, _, d₂, rfl, hprobe, h⟩ := Device.exec_bind h
          have hprobed := ledger_exec (keeps_probe _ _ _ _ _) hprobe
          obtain ⟨rfl, hexhaustion, hcalm⟩ := exec_recording h
          have hrow : d₂.ledger = ⟨{ convo with
              mailboxRecv := some (E.deriveMailboxId root (roleFromU8 role) g) }, d.recovery,
              d.exhaustion⟩ := by
            refine hprobed.trans ?_
            show Ledger.mk { d₁.convo with mailboxRecv := _ } d₁.recovery d₁.exhaustion = _
            rw [Device.convo_of_ledger hledger, Device.recovery_of_ledger hledger,
              Device.exhaustion_of_ledger hledger, hconvo]
          refine ⟨iff_of_true rfl ⟨hcreated.mp rfl, hfault⟩, ?_, (fun hno => by cases hno),
            fun _ hall => ?_⟩
          · exact hexhaustion.trans (congrArg Ledger.exhaustion hrow)
          · have hcalm₄ : Calm ts₄ := fun t ht => hall t (by simp [ht])
            rw [hcalm hcalm₄, show d₂.convo = _ from congrArg Ledger.convo hrow,
              show d₂.recovery = _ from congrArg Ledger.recovery hrow,
              show d₂.exhaustion = _ from congrArg Ledger.exhaustion hrow]
            simp only [Engine.routed, roleFromU8_peerRoleU8]

end Enter

/-! ## `recover` -/

section Recover

variable {d d' : Device C} {ts : List (Turn C)} {outcome : RecoveryOutcome}

omit [C.Comparable] in
/-- The two checks of `recover_v2`. -/
theorem Device.exhausted_iff :
    ((d.exhaustion.getD .new).isExhausted ||
      GenerationState.isExhausted ⟨d.recovery.ownGen, d.recovery.peerGen⟩) = true ↔ d.Exhausted := by
  simp [Device.Exhausted, Device.cycles, ExhaustionTracker.isExhausted, GenerationState.isExhausted]

/-- What an attempt can come to, on a conversation with a role and a root, when it gets as far as the
exhaustion check. -/
inductive Attempted (E : Engine C) (role : UInt8) (root : C.Root) (d : Device C) (rest : List (Turn C)) :
    RecoveryOutcome → Device C → Prop
  | refused (d' : Device C) (hex : d.Exhausted) (hrest : rest = []) (hconvo : d'.convo = d.convo)
    (hrecovery : d'.recovery = d.recovery) (hcycles : d'.cycles = d.cycles) :
    Attempted E role root d rest .needsRepair d'
  | failed (d' : Device C) (hex : ¬ d.Exhausted)
    (hfailed : ¬ E.Enters role root (saturatingAdd32 d.recovery.ownGen 1) rest)
    (hconvo : d'.convo = d.convo) (hrecovery : d'.recovery = d.recovery)
    (hcycles : d'.cycles = d.cycles) :
    Attempted E role root d rest .failed d'
  | completed (d' : Device C) (hex : ¬ d.Exhausted)
    (hentered : E.Enters role root (saturatingAdd32 d.recovery.ownGen 1) rest)
    (hcycles : d'.cycles = saturatingAdd32 d.cycles 1)
    (hcalm : Calm rest → d'.convo =
        E.routed d.convo role root (saturatingAdd32 d.recovery.ownGen 1) ∧
      d'.recovery = { d.recovery with ownGen := saturatingAdd32 d.recovery.ownGen 1 }) :
    Attempted E role root d rest .oneSided d'

/-- **`recover_v2`.** -/
theorem exec_recoverV2 {role : UInt8} {root : C.Root}
    (h : Device.exec E (E.recoverV2 d.convo role root d.recovery.ownGen d.recovery.peerGen) ts d =
      some (outcome, d')) :
    ∃ checking rest, ts = checking :: rest ∧ Attempted E role root d rest outcome d' := by
  rw [Engine.recoverV2] at h
  cases ts with
  | nil => cases h
  | cons checking rest =>
    refine ⟨checking, rest, rfl, ?_⟩
    rw [Device.exec_perform_bind] at h
    let d₀ : Device C := { d with exhaustion := some (d.exhaustion.getD .new) }
    have hcycles₀ : d₀.cycles = d.cycles := rfl
    replace h : Device.exec E (if ((d.exhaustion.getD .new).isExhausted ||
          GenerationState.isExhausted ⟨d.recovery.ownGen, d.recovery.peerGen⟩) = true then
        (pure .needsRepair : EngineM C RecoveryOutcome)
      else do
        if ← E.enterRecoveryGen d.convo role root (saturatingAdd32 d.recovery.ownGen 1)
            d.recovery.peerGen then
          ram .noteProbeCycle
          pure .oneSided
        else
          pure .failed) rest d₀ = some (outcome, d') := h
    by_cases hex : d.Exhausted
    · rw [if_pos (Device.exhausted_iff.mpr hex)] at h
      obtain ⟨rfl, rfl, rfl⟩ := Device.exec_ret_eq h
      exact .refused d₀ hex rfl rfl rfl hcycles₀
    · rw [if_neg (Device.exhausted_iff.not.mpr hex)] at h
      obtain ⟨ts₁, ts₂, entered, d₁, rfl, henter, h⟩ := Device.exec_bind h
      obtain ⟨hiff, hexhaustion, hfalse, htrue⟩ := exec_enterRecoveryGen (d := d₀) rfl henter
      cases entered with
      | false =>
        obtain ⟨rfl, rfl, rfl⟩ := Device.exec_ret_eq h
        rw [List.append_nil]
        have hledger := hfalse rfl
        refine .failed d' hex (fun hentered => ?_) (congrArg Ledger.convo hledger)
          (congrArg Ledger.recovery hledger) ?_
        · exact Bool.false_ne_true (hiff.mpr hentered)
        · rw [Device.cycles, Device.exhaustion_of_ledger hledger]
          exact hcycles₀
      | true =>
        cases ts₂ with
        | nil => cases h
        | cons noting ts =>
          rw [if_pos rfl, Device.exec_perform_bind] at h
          obtain ⟨rfl, rfl, rfl⟩ := Device.exec_ret_eq h
          refine .completed _ hex ((hiff.mp rfl).append _) ?_ fun hcalm => ?_
          · show (ExhaustionTracker.noteProbeCycle (d₁.exhaustion.getD .new)).cycles = _
            rw [hexhaustion]
            rfl
          · have hledger := htrue rfl hcalm.of_append.1
            exact ⟨congrArg Ledger.convo hledger, congrArg Ledger.recovery hledger⟩

/-- **`recover`** on a conversation with a role and a root: if one of the two rows cannot be read the
ledger's counter and columns are left alone, else it is `recover_v2`. -/
theorem exec_recover {role : UInt8} {root : C.Root} (hrole : d.recovery.role = some role)
    (hroot : d.recovery.root = some root)
    (h : Device.exec E E.recover ts d = some (outcome, d')) :
    ∃ reading ts', ts = reading :: ts' ∧
      (reading.fault ≠ none ∧ outcome = .failed ∧ ts' = [] ∧ d' = d ∨
        reading.fault = none ∧ ∃ recovering ts'', ts' = recovering :: ts'' ∧
          (recovering.fault ≠ none ∧ outcome ≠ .needsRepair ∧ d'.recovery = d.recovery ∧
              d'.exhaustion = d.exhaustion ∨
            recovering.fault = none ∧ ∃ checking rest, ts'' = checking :: rest ∧
              Attempted E role root d rest outcome d')) := by
  rw [Engine.recover] at h
  cases ts with
  | nil => cases h
  | cons reading ts =>
    refine ⟨reading, ts, rfl, ?_⟩
    rw [Device.exec_perform_bind] at h
    cases hreading : reading.fault with
    | some e =>
      simp only [Device.perform, hreading] at h
      obtain ⟨rfl, rfl, rfl⟩ := Device.exec_ret_eq h
      exact .inl ⟨by simp, rfl, rfl, rfl⟩
    | none =>
      refine .inr ⟨rfl, ?_⟩
      simp only [Device.perform, hreading, Device.performStore] at h
      cases ts with
      | nil => cases h
      | cons recovering ts =>
        refine ⟨recovering, ts, rfl, ?_⟩
        rw [Device.exec_perform_bind] at h
        cases hrecovering : recovering.fault with
        | some e =>
          simp only [Device.perform, hrecovering] at h
          obtain ⟨hrecovery, hexhaustion⟩ := counters_exec (keeps_of_routing
            (Engine.routing_of_rerouting (Engine.rerouting_recoverV1 _))) h
          exact .inl ⟨by simp, returns_exec (Q := fun outcome => outcome ≠ .needsRepair)
            (returns_recoverV1 _) h, hrecovery, hexhaustion⟩
        | none =>
          refine .inr ⟨rfl, ?_⟩
          simp only [Device.perform, hrecovering, Device.performStore] at h
          have hrec : d.recovery = ⟨some role, some root, d.recovery.ownGen, d.recovery.peerGen⟩ := by
            rw [← hrole, ← hroot]
          rw [hrec] at h
          exact exec_recoverV2 h

/-- An attempt with no storage failure: it leaves the counter and the row, or it was not turned away and
moves both by one. -/
theorem exec_recover_calm {role : UInt8} {root : C.Root} (hcalm : Calm ts)
    (hrole : d.recovery.role = some role) (hroot : d.recovery.root = some root)
    (h : Device.exec E E.recover ts d = some (outcome, d')) :
    (outcome ≠ .oneSided ∧ d'.cycles = d.cycles ∧ d'.recovery = d.recovery ∧ d'.convo = d.convo) ∨
      (outcome = .oneSided ∧ ¬ d.Exhausted ∧ d'.cycles = d.cycles + 1 ∧
        d'.recovery = { d.recovery with ownGen := saturatingAdd32 d.recovery.ownGen 1 } ∧
        d'.convo = E.routed d.convo role root (saturatingAdd32 d.recovery.ownGen 1)) := by
  obtain ⟨reading, ts, rfl, ⟨hfault, -⟩ | ⟨-, recovering, ts, rfl, ⟨hfault, -⟩ |
      ⟨-, checking, rest, rfl, hattempted⟩⟩⟩ :=
    exec_recover hrole hroot h
  · exact absurd (hcalm _ (by simp)) hfault
  · exact absurd (hcalm _ (by simp)) hfault
  · cases hattempted with
    | refused _ hex hrest hconvo hrecovery hcycles =>
      exact .inl ⟨RecoveryOutcome.noConfusion, hcycles, hrecovery, hconvo⟩
    | failed _ hex hfailed hconvo hrecovery hcycles =>
      exact .inl ⟨RecoveryOutcome.noConfusion, hcycles, hrecovery, hconvo⟩
    | completed _ hex hentered hcycles hcompleted =>
      have hlt : d.cycles < recoveryProbeCycles := Nat.not_le.mp fun hle => hex (.inl hle)
      have hsum : saturatingAdd32 d.cycles 1 = d.cycles + 1 :=
        saturatingAdd32_of_le (by simp only [recoveryProbeCycles, u32Max] at *; omega)
      obtain ⟨hconvo, hrecovery⟩ := hcompleted fun t ht => hcalm t (by simp [ht])
      exact .inr ⟨rfl, hex, hcycles.trans hsum, hrecovery, hconvo⟩

end Recover

/-! ## `handle_recovery_hello` -/

section Hello

variable {d d' : Device C} {ts : List (Turn C)} {role : UInt8} {root : C.Root} {g : ℕ} {nonce : C.Nonce}
  {changed : Bool}

/-- **A new hello**, when no storage access fails: the counter is reset and the generations are raised;
then a party that was behind enters the generation, and any other goes on without touching the
counters. -/
theorem exec_handleRecoveryHello (hcalm : Calm ts) (hrole : d.recovery.role = some role)
    (hroot : d.recovery.root = some root) (hnew : (g, nonce) ∉ d.helloSeen)
    (h : Device.exec E (E.handleRecoveryHello g nonce) ts d = some (changed, d')) :
    ∃ opening rest d₁, ts = opening ++ rest ∧ opening.length = 5 ∧
      d₁.ledger = ⟨d.convo, { d.recovery with
        ownGen := max d.recovery.ownGen g, peerGen := max d.recovery.peerGen g },
        d.exhaustion.map .reset⟩ ∧
      if d.recovery.ownGen < g then
        Device.exec E (E.enterRecoveryGen d.convo role root g (max d.recovery.peerGen g)) rest d₁ =
          some (changed, d')
      else d'.recovery = d₁.recovery ∧ d'.exhaustion = d₁.exhaustion := by
  rw [Engine.handleRecoveryHello] at h
  obtain ⟨marking, ts₁, rfl, h₁⟩ := exec_ram_bind h
  have hfresh : (d.performRam (marking.answer (.ram .drawNonce)) (.markHelloSeen g nonce)).1 = true := by
    simp [Device.performRam, markHelloSeen, hnew]
  have hrec : (d.performRam (marking.answer (.ram .drawNonce)) (.markHelloSeen g nonce)).2.recovery =
      ⟨some role, some root, d.recovery.ownGen, d.recovery.peerGen⟩ := by
    rw [← hrole, ← hroot]
    rfl
  rw [hfresh] at h₁
  obtain ⟨recovering, ts₂, rfl, hcalm₂, h₂⟩ := exec_store_bind hcalm.of_cons.2 h₁
  simp only [Device.performStore] at h₂
  rw [hrec] at h₂
  obtain ⟨resetting, ts₃, rfl, h₃⟩ := exec_ram_bind h₂
  obtain ⟨recording, ts₄, rfl, hcalm₄, h₄⟩ := exec_store_bind hcalm₂.of_cons.2 h₃
  obtain ⟨reading, rest, rfl, -, h₅⟩ := exec_store_bind hcalm₄ h₄
  rw [GenerationState.converge_fst, GenerationState.converge_snd] at h₅
  generalize hd₁ : Prod.snd _ = d₁ at h₅
  have hledger : d₁.ledger = ⟨d.convo, { d.recovery with
      ownGen := max d.recovery.ownGen g, peerGen := max d.recovery.peerGen g },
      d.exhaustion.map .reset⟩ := by
    rw [← hd₁]
    rfl
  refine ⟨[marking, recovering, resetting, recording, reading], rest, d₁, rfl, rfl, hledger, ?_⟩
  have hconvo : d₁.convo = d.convo := congrArg Ledger.convo hledger
  simp only [Device.performStore, hconvo, decide_eq_true_eq] at h₅
  split_ifs with hbehind
  · rw [if_pos hbehind, Nat.max_eq_right (Nat.le_of_lt hbehind)] at h₅
    exact h₅
  · rw [if_neg hbehind] at h₅
    refine counters_exec ?_ h₅
    split_ifs
    · exact keeps_of_routing (Engine.routing_of_rerouting (Engine.rerouting_initiateRotation _ _ _ _))
    · exact (keeps_of_sending Engine.sending_flushPending).bind fun _ => .ret _

end Hello

end Titlan
