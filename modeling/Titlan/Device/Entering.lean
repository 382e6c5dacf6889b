import Titlan.Device.Pacing

/-! # Entering a recovery generation

A conversation enters a generation in three writes: the derived inbox, the send coordinate and the
generation. `recover_v2` makes the first before the window is probed and the others after it, so a
recovery that `stop_sync` drops while the window is probed leaves the inbox alone written.
`handle_recovery_hello` makes the last first, and an inbox the relay then refuses leaves it alone. -/

namespace Titlan

open Foundation

variable {C : Carrier}

/-! ## Await points -/

/-- The operation is awaited: a request, a socket or the flush lock. Storage and the other maps are
accessed without giving up the thread. -/
def Op.Awaited : Op C → Prop
  | .relay _ | .socket _ | .ram .lockFlush => True
  | _ => False

/-- The program has returned, or waits. Only then can its future be dropped. -/
def Parked {α : Type} : EngineM C α → Prop
  | .ret _ => True
  | .op o _ => o.Awaited

/-- The program has returned. -/
def Returned {α : Type} : EngineM C α → Prop
  | .ret _ => True
  | .op _ _ => False

/-- The row is as it was, apart from the peer generation, or at generation `g` in all three columns. -/
def AllOrNothing (E : Engine C) (role : UInt8) (root : C.Root) (g : ℕ) (d d' : Device C) : Prop :=
  (d'.convo = d.convo ∧ d'.recovery = { d.recovery with peerGen := d'.recovery.peerGen }) ∨
    (d'.recovery.ownGen = g ∧
      d'.convo.mailboxRecv = some (E.deriveMailboxId root (roleFromU8 role) g) ∧
      d'.convo.mailboxSend = some (E.deriveMailboxId root (roleFromU8 role).peer g))

/-- The routing row with the inbox of a generation alone. -/
def Engine.halfRouted (E : Engine C) (convo : Conversation C) (role : UInt8) (root : C.Root) (g : ℕ) :
    Conversation C :=
  { convo with mailboxRecv := some (E.deriveMailboxId root (roleFromU8 role) g) }

variable [C.Comparable] {E : Engine C}
  {α : Type} {d d' : Device C} {ts : List (Turn C)} {q : EngineM C α} {role : UInt8} {root : C.Root}
  {g peerGen : ℕ}

/-- A program is not dropped at a storage access. -/
theorem resume_store_bind {o : StoreOp C} {k : o.Answer → EngineM C α} (hcalm : Calm ts)
    (hparked : Parked q) (h : Device.resume E (store o >>= k) ts d = some (q, d')) :
    ∃ t ts', ts = t :: ts' ∧ Calm ts' ∧
      Device.resume E (k (d.performStore o).1) ts' (d.performStore o).2 = some (q, d') := by
  cases ts with
  | nil =>
    cases h
    exact hparked.elim
  | cons t ts =>
    refine ⟨t, ts, rfl, hcalm.of_cons.2, ?_⟩
    have hperform : d.perform E t (.store o) = d.performStore o := by
      simp only [Device.perform, hcalm.of_cons.1]
    rw [← hperform]
    exact h

/-- Nor at an access to a map. -/
theorem resume_ram_bind {o : RamOp C} {k : o.Answer → EngineM C α} (ho : o ≠ .lockFlush)
    (hparked : Parked q) (h : Device.resume E (ram o >>= k) ts d = some (q, d')) :
    ∃ t ts', ts = t :: ts' ∧
      Device.resume E (k (d.performRam (t.answer (.ram .drawNonce)) o).1) ts'
        (d.performRam (t.answer (.ram .drawNonce)) o).2 = some (q, d') := by
  cases ts with
  | nil =>
    cases h
    cases o with
    | lockFlush => exact absurd rfl ho
    | _ => exact hparked.elim
  | cons t ts => exact ⟨t, ts, rfl, h⟩

/-! ## Dropped recoveries -/

/-- **`enter_recovery_gen`, dropped.** Before the own inbox is answered nothing is written; after it only
the inbox is. -/
theorem resume_enterRecoveryGen {convo : Conversation C} {q : EngineM C Bool} (hconvo : d.convo = convo)
    (hcalm : Calm ts) (hparked : Parked q) (hopen : ¬ Returned q)
    (h : Device.resume E (E.enterRecoveryGen convo role root g peerGen) ts d = some (q, d')) :
    d'.recovery = d.recovery ∧
      d'.convo = if ts = [] then convo else E.halfRouted convo role root g := by
  rw [Engine.enterRecoveryGen] at h
  obtain ⟨o, k, hput, rfl⟩ | ⟨ts₁, ts₂, created, d₁, rfl, hput, h₁⟩ := Device.resume_bind h
  · -- the own PUT is one request: its answer is awaited
    have hledger := ledger_resume (keeps_putCreate _ _) hput
    have hnil : ts = [] := by
      cases ts with
      | nil => rfl
      | cons creating ts =>
        rw [Engine.putCreate, Device.resume_perform_bind] at hput
        simp only [Device.perform] at hput
        split at hput <;> cases (Device.resume_ret_eq hput).2.1
    rw [if_pos hnil, ← hconvo]
    exact ⟨Device.recovery_of_ledger hledger, Device.convo_of_ledger hledger⟩
  · obtain ⟨hledger, creating, rfl, -⟩ := exec_putCreate hput
    cases created with
    | false =>
      obtain ⟨-, rfl, -⟩ := Device.resume_ret_eq h₁
      exact (hopen trivial).elim
    | true =>
      obtain ⟨setting, ts₃, rfl, hcalm₃, h₂⟩ := resume_store_bind hcalm.of_append.2 hparked h₁
      obtain ⟨drawing, ts₄, rfl, h₃⟩ := resume_ram_bind (by simp) hparked h₂
      obtain ⟨o, k, hprobe, rfl⟩ | ⟨ts₅, ts₆, _, d₂, rfl, -, h₄⟩ := Device.resume_bind h₃
      · have hprobed := ledger_resume (keeps_probe _ _ _ _ _) hprobe
        rw [if_neg (by simp)]
        have hrecovery : d'.recovery = d₁.recovery := congrArg Ledger.recovery hprobed
        refine ⟨hrecovery.trans (Device.recovery_of_ledger hledger),
          (Device.convo_of_ledger hprobed).trans ?_⟩
        show E.halfRouted d₁.convo role root g = _
        rw [Device.convo_of_ledger hledger, hconvo]
      · -- between the last two writes there is no await
        obtain ⟨sending, ts₇, rfl, hcalm₇, h₅⟩ :=
          resume_store_bind hcalm₃.of_cons.2.of_append.2 hparked h₄
        obtain ⟨recording, ts₈, rfl, -, h₆⟩ := resume_store_bind hcalm₇ hparked h₅
        obtain ⟨-, rfl, -⟩ := Device.resume_ret_eq h₆
        exact (hopen trivial).elim

/-- **`recover`, dropped.** -/
theorem resume_recover {q : EngineM C RecoveryOutcome} (hrole : d.recovery.role = some role)
    (hroot : d.recovery.root = some root) (hcalm : Calm ts) (hparked : Parked q) (hopen : ¬ Returned q)
    (h : Device.resume E E.recover ts d = some (q, d')) :
    d'.recovery = d.recovery ∧ d'.convo = if ts.length ≤ 3 then d.convo else
      E.halfRouted d.convo role root (saturatingAdd32 d.recovery.ownGen 1) := by
  have hrec : d.recovery = ⟨some role, some root, d.recovery.ownGen, d.recovery.peerGen⟩ := by
    rw [← hrole, ← hroot]
  rw [Engine.recover] at h
  obtain ⟨reading, ts₁, rfl, hcalm₁, h₁⟩ := resume_store_bind hcalm hparked h
  obtain ⟨recovering, ts₂, rfl, hcalm₂, h₂⟩ := resume_store_bind hcalm₁ hparked h₁
  simp only [Device.performStore] at h₂
  rw [hrec] at h₂
  simp only [Engine.recoverV2] at h₂
  obtain ⟨checking, ts₃, rfl, h₃⟩ := resume_ram_bind (by simp) hparked h₂
  split at h₃
  · obtain ⟨-, rfl, -⟩ := Device.resume_ret_eq h₃
    exact (hopen trivial).elim
  · obtain ⟨o, k, henter, rfl⟩ | ⟨ts₄, ts₅, entered, d₁, rfl, -, h₄⟩ := Device.resume_bind h₃
    · have hrow : (d.performRam (checking.answer (.ram .drawNonce)) .cyclesExhausted).2.convo =
          d.convo := rfl
      obtain ⟨hrecovery, hconvo⟩ := resume_enterRecoveryGen (q := .op o k) hrow hcalm₂.of_cons.2
        hparked (fun hno => hno) henter
      refine ⟨hrecovery, hconvo.trans ?_⟩
      cases ts₃ with
      | nil => rfl
      | cons creating ts => rw [if_neg (by simp), if_neg (by simp)]
    · cases entered with
      | false =>
        obtain ⟨-, rfl, -⟩ := Device.resume_ret_eq h₄
        exact (hopen trivial).elim
      | true =>
        obtain ⟨noting, ts₆, rfl, h₅⟩ := resume_ram_bind (by simp) hparked h₄
        obtain ⟨-, rfl, -⟩ := Device.resume_ret_eq h₅
        exact (hopen trivial).elim

/-- An attempt that has returned is all or nothing. -/
theorem recovered_whole {outcome : RecoveryOutcome} (hrole : d.recovery.role = some role)
    (hroot : d.recovery.root = some root) (hcalm : Calm ts)
    (h : Device.exec E E.recover ts d = some (outcome, d')) :
    AllOrNothing E role root (saturatingAdd32 d.recovery.ownGen 1) d d' := by
  obtain ⟨-, -, hrecovery, hconvo⟩ | ⟨-, -, -, hrecovery, hconvo⟩ :=
    exec_recover_calm hcalm hrole hroot h
  · exact .inl ⟨hconvo, by rw [hrecovery]⟩
  · exact .inr ⟨by rw [hrecovery], by rw [hconvo, Engine.routed], by rw [hconvo, Engine.routed]⟩

omit [C.Comparable] in
/-- With the inbox alone written, the row is whole only if the rest had been there. -/
theorem halfRouted_whole_iff (hrecovery : d'.recovery = d.recovery)
    (hconvo : d'.convo = E.halfRouted d.convo role root g) :
    AllOrNothing E role root g d d' ↔
      d.convo.mailboxRecv = some (E.deriveMailboxId root (roleFromU8 role) g) ∨
      d.recovery.ownGen = g ∧
        d.convo.mailboxSend = some (E.deriveMailboxId root (roleFromU8 role).peer g) := by
  rw [AllOrNothing, hconvo, hrecovery]
  constructor
  · rintro (⟨hsame, -⟩ | ⟨hown, -, hsend⟩)
    · exact .inl (congrArg Conversation.mailboxRecv hsame).symm
    · exact .inr ⟨hown, hsend⟩
  · rintro (hrecv | ⟨hown, hsend⟩)
    · refine .inl ⟨?_, rfl⟩
      rw [Engine.halfRouted, ← hrecv]
    · exact .inr ⟨hown, rfl, hsend⟩

theorem recover_whole_iff {q : EngineM C RecoveryOutcome} (hrole : d.recovery.role = some role)
    (hroot : d.recovery.root = some root) (hcalm : Calm ts) (hstopped : ts = [] ∨ Parked q)
    (h : Device.resume E E.recover ts d = some (q, d')) :
    AllOrNothing E role root (saturatingAdd32 d.recovery.ownGen 1) d d' ↔
      Returned q ∨ ts.length ≤ 3 ∨
      d.convo.mailboxRecv =
        some (E.deriveMailboxId root (roleFromU8 role) (saturatingAdd32 d.recovery.ownGen 1)) ∨
      d.recovery.ownGen = saturatingAdd32 d.recovery.ownGen 1 ∧ d.convo.mailboxSend =
        some (E.deriveMailboxId root (roleFromU8 role).peer (saturatingAdd32 d.recovery.ownGen 1)) := by
  obtain rfl | hparked := hstopped
  · rw [Device.resume_nil] at h
    cases h
    exact iff_of_true (.inl ⟨rfl, rfl⟩) (.inr (.inl (Nat.zero_le _)))
  · cases q with
    | ret outcome =>
      exact iff_of_true (recovered_whole hrole hroot hcalm (Device.exec_eq_some_iff.mpr h))
        (.inl trivial)
    | op o k =>
      obtain ⟨hrecovery, hconvo⟩ := resume_recover hrole hroot hcalm hparked (fun hno => hno) h
      by_cases hearly : ts.length ≤ 3
      · rw [if_pos hearly] at hconvo
        exact iff_of_true (.inl ⟨hconvo, by rw [hrecovery]⟩) (.inr (.inl hearly))
      · rw [if_neg hearly] at hconvo
        rw [halfRouted_whole_iff hrecovery hconvo]
        simp [Returned, hearly]

theorem hello_whole_iff {nonce : C.Nonce} {changed : Bool} (hrole : d.recovery.role = some role)
    (hroot : d.recovery.root = some root) (hcalm : Calm ts) (hnew : (g, nonce) ∉ d.helloSeen)
    (hbehind : d.recovery.ownGen < g)
    (h : Device.exec E (E.handleRecoveryHello g nonce) ts d = some (changed, d')) :
    AllOrNothing E role root g d d' ↔
      E.Enters role root g (ts.drop 5) ∨
      d.convo.mailboxRecv = some (E.deriveMailboxId root (roleFromU8 role) g) ∧
        d.convo.mailboxSend = some (E.deriveMailboxId root (roleFromU8 role).peer g) := by
  obtain ⟨opening, rest, d₁, rfl, hlen, hledger, henter⟩ :=
    exec_handleRecoveryHello hcalm hrole hroot hnew h
  rw [if_pos hbehind] at henter
  have hconvo₁ : d₁.convo = d.convo := congrArg Ledger.convo hledger
  have hown₁ : d₁.recovery.ownGen = g :=
    (congrArg (·.recovery.ownGen) hledger).trans (Nat.max_eq_right (Nat.le_of_lt hbehind))
  obtain ⟨hiff, -, hfalse, htrue⟩ := exec_enterRecoveryGen hconvo₁ henter
  rw [← hlen, List.drop_left]
  cases changed with
  | true =>
    have hrow := htrue rfl hcalm.of_append.2
    refine iff_of_true (.inr ⟨congrArg (·.recovery.ownGen) hrow, ?_, ?_⟩) (.inl (hiff.mp rfl))
    · exact congrArg (·.convo.mailboxRecv) hrow
    · exact congrArg (·.convo.mailboxSend) hrow
  | false =>
    -- the generation is written and nothing else is
    have hsame := hfalse rfl
    have hconvo : d'.convo = d.convo := (Device.convo_of_ledger hsame).trans hconvo₁
    have hown : d'.recovery.ownGen = g :=
      (congrArg RecoveryRecord.ownGen (Device.recovery_of_ledger hsame)).trans hown₁
    rw [or_iff_right fun hentered => Bool.false_ne_true (hiff.mpr hentered), AllOrNothing, hconvo]
    constructor
    · rintro (⟨-, hno⟩ | ⟨-, hrecv, hsend⟩)
      · rw [hno] at hown
        exact absurd hown (Nat.ne_of_lt hbehind)
      · exact ⟨hrecv, hsend⟩
    · exact fun hrow => .inr ⟨hown, hrow⟩

/-- **When a generation is entered whole.** For every conversation with a role and a root, whatever the
relays answer and with no storage failure. A recovery that has returned, or that was dropped unstarted or
at an await point, has left the row as it was or at the next generation exactly if it has returned, or
was dropped before its own inbox was answered, or the inbox was in the row before, or the generation was
and the send coordinate too. A new hello of a later generation has done so exactly if the own inbox is
created, or both coordinates were in the row before. -/
theorem entered_whole_iff (E : Engine C) (d : Device C) (role : UInt8) (root : C.Root)
    (hrole : d.recovery.role = some role) (hroot : d.recovery.root = some root) :
    (∀ ts q d', Calm ts → ts = [] ∨ Parked q → Device.resume E E.recover ts d = some (q, d') →
      (AllOrNothing E role root (saturatingAdd32 d.recovery.ownGen 1) d d' ↔
        Returned q ∨ ts.length ≤ 3 ∨
        d.convo.mailboxRecv =
          some (E.deriveMailboxId root (roleFromU8 role) (saturatingAdd32 d.recovery.ownGen 1)) ∨
        d.recovery.ownGen = saturatingAdd32 d.recovery.ownGen 1 ∧ d.convo.mailboxSend =
          some (E.deriveMailboxId root (roleFromU8 role).peer
            (saturatingAdd32 d.recovery.ownGen 1)))) ∧
    ∀ g nonce ts changed d', Calm ts → (g, nonce) ∉ d.helloSeen → d.recovery.ownGen < g →
      Device.exec E (E.handleRecoveryHello g nonce) ts d = some (changed, d') →
      (AllOrNothing E role root g d d' ↔
        E.Enters role root g (ts.drop 5) ∨
        d.convo.mailboxRecv = some (E.deriveMailboxId root (roleFromU8 role) g) ∧
          d.convo.mailboxSend = some (E.deriveMailboxId root (roleFromU8 role).peer g)) := by
  constructor
  · intro ts q d' hcalm hstopped hresume
    exact recover_whole_iff hrole hroot hcalm hstopped hresume
  · intro g nonce ts changed d' hcalm hnew hbehind hexec
    exact hello_whole_iff hrole hroot hcalm hnew hbehind hexec

/-- The relay creates every inbox. -/
def createdTurn : Turn (byteCarrier Unit) := pacedTurn .created

/-- Dropped while the own inbox is awaited, or given it on a hello. -/
theorem entered_whole :
    (∃ q d', Device.resume plainEngine plainEngine.recover (List.replicate 3 createdTurn) rootedDevice =
        some (q, d') ∧ AllOrNothing plainEngine roleResponder [] 1 rootedDevice d') ∧
    ∃ changed d', Device.exec plainEngine (plainEngine.handleRecoveryHello 1 [])
        (List.replicate 26 createdTurn) rootedDevice = some (changed, d') ∧
      AllOrNothing plainEngine roleResponder [] 1 rootedDevice d' := by
  have hwhole := entered_whole_iff plainEngine rootedDevice roleResponder [] rfl rfl
  refine ⟨⟨_, _, rfl, ?_⟩, ⟨_, _, rfl, ?_⟩⟩
  · exact (hwhole.1 (List.replicate 3 createdTurn) _ _ (Calm.replicate rfl 3) (.inr (by trivial)) rfl).mpr
      (.inr (.inl (by decide)))
  · exact (hwhole.2 1 [] (List.replicate 26 createdTurn) _ _ (Calm.replicate rfl 26) (by decide)
      (by decide) rfl).mpr (.inl ⟨rfl, rfl⟩)

/-! ## Half entered -/

/-- **Half a generation.** A recovery whose own inbox was created is dropped at its next request, and a
hello of generation 1 is handled while the relay refuses the own inbox. The first leaves the derived
inbox with the old send coordinate and generation 0, the second leaves generation 1 with both old
coordinates. -/
theorem half_entered :
    (∃ q d', Device.resume plainEngine plainEngine.recover (List.replicate 6 createdTurn) rootedDevice =
        some (q, d') ∧ Calm (List.replicate 6 createdTurn) ∧ Parked q ∧
      ¬ AllOrNothing plainEngine roleResponder [] 1 rootedDevice d') ∧
    ∃ changed d', Device.exec plainEngine (plainEngine.handleRecoveryHello 1 [])
        (List.replicate 6 (pacedTurn .rateLimited)) rootedDevice = some (changed, d') ∧
      Calm (List.replicate 6 (pacedTurn .rateLimited)) ∧
      ¬ AllOrNothing plainEngine roleResponder [] 1 rootedDevice d' := by
  refine ⟨⟨_, _, rfl, ?_, trivial, ?_⟩, ⟨_, _, rfl, ?_, ?_⟩⟩
  · exact Calm.replicate rfl 6
  · rintro (⟨hrow, -⟩ | ⟨hown, -⟩)
    · exact absurd (congrArg Conversation.mailboxRecv hrow) (by decide)
    · exact Nat.zero_ne_one hown
  · exact Calm.replicate rfl 6
  · rintro (⟨-, hrecovery⟩ | ⟨-, hrecv, -⟩)
    · exact Nat.one_ne_zero (congrArg RecoveryRecord.ownGen hrecovery)
    · exact absurd hrecv (by decide)

end Titlan
