import Titlan.Device.Attempt

/-! # Pacing and the cycle counter

The relay may answer 429 at any time, and an attempt that was paced is not to count as a probe cycle. The
count is taken from what `enter_recovery_gen` returns, and that says only whether this party's own inbox
was created: what came of the requests to the peer's window is not in it. So an attempt counts exactly
when its own inbox is created and the row takes it, with every hello refused as with every hello
accepted. -/

namespace Titlan

open Foundation

variable {C : Carrier}

/-! ## Attempts -/

/-- The attempt is over before the row takes a derived inbox: it cannot read a row, is turned away, or
does not get the inbox. -/
def Device.EntersNothing (E : Engine C) (d : Device C) : List (Turn C) → Prop
  | reading :: recovering :: _ :: rest =>
    reading.fault = none → recovering.fault = none → ¬ d.Exhausted →
      ∀ role root, d.recovery.role = some role → d.recovery.root = some root →
        ¬ E.Enters role root (saturatingAdd32 d.recovery.ownGen 1) rest
  | _ => True

/-- The operation is a request to a relay. -/
def Done.isRequest : Done C → Bool
  | ⟨.relay _, _⟩ => true
  | _ => false

/-- The relay answered 429. -/
def Done.isPaced : Done C → Bool
  | ⟨.relay (.putMailbox _ _), .ok .rateLimited⟩ => true
  | ⟨.relay (.deposit _ _ _), .ok (.other 429)⟩ => true
  | _ => false

/-- Every request aimed at the peer's window was answered 429: the first request of an attempt is for the
own inbox, the others are for the window. -/
def Paced (trace : List (Done C)) : Prop := ∀ x ∈ (trace.filter Done.isRequest).tail, x.isPaced = true

variable [C.Comparable] {E : Engine C}
  {d d' : Device C} {ts : List (Turn C)} {outcome : RecoveryOutcome} {role : UInt8} {root : C.Root}

/-- One attempt. -/
def Device.attempt (E : Engine C) (d : Device C) (ts : List (Turn C)) : Option (Device C) :=
  (Device.exec E E.recover ts d).map Prod.snd

/-- **Step.** An attempt either enters nothing and leaves the counter and the columns, or it counts. -/
theorem attempt_cases (hrole : d.recovery.role = some role) (hroot : d.recovery.root = some root)
    (h : Device.exec E E.recover ts d = some (outcome, d')) :
    (d.EntersNothing E ts ∧ d'.cycles = d.cycles ∧ d'.recovery = d.recovery ∧
        (outcome = .needsRepair → d.Exhausted)) ∨
      (¬ d.EntersNothing E ts ∧ d'.cycles ≠ d.cycles ∧ outcome = .oneSided) := by
  obtain ⟨reading, ts, rfl, ⟨-, rfl, rfl, rfl⟩ | ⟨hreading, recovering, ts, rfl, hrest⟩⟩ :=
    exec_recover hrole hroot h
  · exact .inl ⟨trivial, rfl, rfl, fun hno => by cases hno⟩
  · obtain ⟨hfault, houtcome, hrecovery, hexhaustion⟩ |
      ⟨hrecovering, checking, rest, rfl, hattempted⟩ := hrest
    · refine .inl ⟨?_, congrArg (fun e => (e.getD .new).cycles) hexhaustion, hrecovery,
        fun hno => absurd hno houtcome⟩
      cases ts with
      | nil => trivial
      | cons checking rest => exact fun _ hno => absurd hno hfault
    · cases hattempted with
      | refused _ hex hrest hconvo hrecovery hcycles =>
        exact .inl ⟨fun _ _ hnot => absurd hex hnot, hcycles, hrecovery, fun _ => hex⟩
      | failed _ hex hfailed hconvo hrecovery hcycles =>
        refine .inl ⟨fun _ _ _ role' root' hrole' hroot' => ?_, hcycles, hrecovery, fun hno => by cases hno⟩
        cases hrole.symm.trans hrole'
        cases hroot.symm.trans hroot'
        exact hfailed
      | completed _ hex hentered hcycles _ =>
        refine .inr ⟨fun hno => hno hreading hrecovering hex role root hrole hroot hentered, ?_, rfl⟩
        -- below the bound the counter does not saturate
        have hlt : d.cycles < recoveryProbeCycles := Nat.not_le.mp fun hle => hex (.inl hle)
        have hsum : saturatingAdd32 d.cycles 1 = d.cycles + 1 :=
          saturatingAdd32_of_le (by simp only [recoveryProbeCycles, u32Max] at *; omega)
        rw [hcycles, hsum]
        omega

/-- **Run.** Attempts that enter nothing leave the counter and the columns. -/
theorem attempts_keep {attempts : List (List (Turn C))} (hrole : d.recovery.role = some role)
    (hroot : d.recovery.root = some root) (hrun : run (Device.attempt E) d attempts = some d')
    (hpaced : Along (Device.attempt E) (Device.EntersNothing E) d attempts) :
    d'.cycles = d.cycles ∧ d'.recovery = d.recovery := by
  refine run_invariant (I := fun d' => d'.cycles = d.cycles ∧ d'.recovery = d.recovery) ?_ ⟨rfl, rfl⟩
    hpaced hrun
  rintro d₁ ts d₂ ⟨hcycles, hrecovery⟩ hnothing hstep
  obtain ⟨⟨outcome, d₂⟩, hexec, rfl⟩ := Option.map_eq_some_iff.mp hstep
  obtain ⟨-, hcycles', hrecovery', -⟩ | ⟨hno, -, -⟩ :=
    attempt_cases (hrecovery ▸ hrole) (hrecovery ▸ hroot) hexec
  · exact ⟨hcycles'.trans hcycles, hrecovery'.trans hrecovery⟩
  · exact absurd hnothing hno

/-- **When an attempt leaves the counter.** For every conversation with a role and a root, every reply of
the relays and every storage failure: an attempt leaves the cycle counter exactly if it enters nothing;
and after any number of attempts that enter nothing, an attempt is turned away for a repair only if the
conversation was exhausted to begin with. -/
theorem attempt_uncounted_iff (E : Engine C) (d : Device C) (role : UInt8) (root : C.Root)
    (hrole : d.recovery.role = some role) (hroot : d.recovery.root = some root) :
    (∀ ts outcome d', Device.exec E E.recover ts d = some (outcome, d') →
      (d'.cycles = d.cycles ↔ d.EntersNothing E ts)) ∧
    ∀ attempts d', run (Device.attempt E) d attempts = some d' →
      Along (Device.attempt E) (Device.EntersNothing E) d attempts →
      d'.cycles = d.cycles ∧ d'.recovery = d.recovery ∧
        ∀ ts d'', Device.exec E E.recover ts d' = some (.needsRepair, d'') → d.Exhausted := by
  constructor
  · intro ts outcome d' hexec
    obtain ⟨hnothing, hcycles, -, -⟩ | ⟨hno, hcycles, -⟩ := attempt_cases hrole hroot hexec
    · exact iff_of_true hcycles hnothing
    · exact iff_of_false hcycles hno
  · intro attempts d' hrun hpaced
    obtain ⟨hcycles, hrecovery⟩ := attempts_keep hrole hroot hrun hpaced
    refine ⟨hcycles, hrecovery, fun ts d'' hexec => ?_⟩
    obtain ⟨-, -, -, hex⟩ | ⟨-, -, hno⟩ :=
      attempt_cases (hrecovery ▸ hrole) (hrecovery ▸ hroot) hexec
    · have hexhausted := hex rfl
      rwa [Device.Exhausted, hcycles, hrecovery] at hexhausted
    · cases hno

/-! ## Paced to exhaustion -/

/-- The relay answers a PUT with `outcome` and is otherwise at its limit. -/
def pacedTurn (outcome : PutOutcome) : Turn (byteCarrier Unit) := ⟨none, fun
  | .relay (.putMailbox _ _) => .ok outcome
  | .relay (.deposit _ _ _) => .ok (.other 429)
  | o => offlineTurn.answer o⟩

/-- An attempt in which only the own inbox is created. -/
def pacedAttempt : List (Turn (byteCarrier Unit)) :=
  List.replicate 3 offlineTurn ++ [pacedTurn .created] ++ List.replicate 9 (pacedTurn .rateLimited)

/-- **Three paced attempts exhaust recovery.** Every PUT aimed at the peer's window is answered 429, no
hello is deposited, and yet each attempt counts; the fourth is turned away. -/
theorem paced_attempts_exhaust :
    ∃ d₁ d₃ d₄, Device.exec plainEngine plainEngine.recover pacedAttempt rootedDevice =
        some (.oneSided, d₁) ∧
      Paced (Device.trace plainEngine plainEngine.recover pacedAttempt rootedDevice) ∧
      d₁.cycles ≠ rootedDevice.cycles ∧
      run (Device.attempt plainEngine) rootedDevice [pacedAttempt, pacedAttempt, pacedAttempt] =
        some d₃ ∧
      Device.exec plainEngine plainEngine.recover (List.replicate 3 offlineTurn) d₃ =
        some (.needsRepair, d₄) := by
  refine ⟨_, _, _, rfl, ?_, ?_, rfl, rfl⟩
  · exact List.all_eq_true.mp rfl
  · exact Nat.one_ne_zero

/-- An attempt whose own inbox is refused. -/
def refusedAttempt : List (Turn (byteCarrier Unit)) :=
  List.replicate 3 offlineTurn ++ [pacedTurn .rateLimited]

/-- It leaves the counter. -/
theorem refused_attempt_uncounted :
    ∃ d', Device.exec plainEngine plainEngine.recover refusedAttempt rootedDevice =
      some (.failed, d') ∧ d'.cycles = rootedDevice.cycles := by
  refine ⟨_, rfl, ?_⟩
  refine ((attempt_uncounted_iff plainEngine rootedDevice roleResponder [] rfl rfl).1 refusedAttempt
    .failed _ rfl).mpr ?_
  intro _ _ _ role root _ _ hentered
  exact hentered

end Titlan
