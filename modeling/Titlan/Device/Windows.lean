import Titlan.Device.Bounded

/-! # Probed windows

Two parties that both lost their inboxes probe each other: each sends a hello into the peer's derived
inboxes across its window, and listens on its own derived inbox at its new generation. They meet if one
party's new generation is in the window the other probed. What a party knows of the other is never more
than one generation ahead of what the other has stored, since a hello is sealed before its generation is
recorded; this carries over any sequence of attempts, hellos and restarts. The windows then meet except
in one case: both parties are at the same generation and three past what they know of each other. Each is
let through by the exhaustion check, and each moves one past the other's window. -/

namespace Titlan

open Foundation

variable {C : Carrier}

/-! ## One party -/

/-- The generation of the hello an operation begins to seal. -/
def Op.hello? : Op C → Option ℕ
  | .store (.loadSession _ (.encrypt frame)) => frame.hello?
  | _ => none

/-- The recovery columns of a party that has heard of no generation past `heard`. -/
structure Held (heard : ℕ) (r : RecoveryRecord C) : Prop where
  peer_le : r.peerGen ≤ r.ownGen
  own_le : r.ownGen ≤ u32Max
  heard_le : r.peerGen ≤ heard

theorem Held.mono {heard heard' : ℕ} {r : RecoveryRecord C} (h : Held heard r) (hle : heard ≤ heard') :
    Held heard' r :=
  ⟨h.peer_le, h.own_le, Nat.le_trans h.heard_le hle⟩

/-- No message row is a hello. -/
def Device.NoHelloRows (d : Device C) : Prop := ∀ row ∈ d.messages, row.frame.hello? = none

/-- The columns are as given, and no row is a hello. -/
def Recorded (r : RecoveryRecord C) (d : Device C) : Prop := d.recovery = r ∧ d.NoHelloRows

/-- What a party may always be left with. -/
def Sound (heard : ℕ) (d : Device C) : Prop := Held heard d.recovery ∧ d.NoHelloRows

theorem Recorded.sound {heard : ℕ} {r : RecoveryRecord C} {d : Device C} (hheld : Held heard r)
    (h : Recorded r d) : Sound heard d :=
  ⟨h.1.symm ▸ hheld, h.2⟩

/-- Operations that leave the recovery columns, add no hello row and seal no hello past `n`. -/
structure Op.Quiet (n : ℕ) (o : Op C) : Prop where
  root : ∀ peer root, o ≠ .store (.setRecoveryRoot peer root)
  generations : ∀ own peer, o ≠ .store (.setRecoveryGenerations own peer)
  row : ∀ direction frame status, o = .store (.insertMessage direction frame status) →
    frame.hello? = none
  sealed : ∀ g, o.hello? = some g → g ≤ n

theorem Op.Routes.quiet {o : Op C} (h : o.Routes) (n : ℕ) : o.Quiet n where
  root := by rintro _ _ rfl; exact h
  generations := by rintro _ _ rfl; exact h
  row := by rintro _ _ _ rfl; exact h
  sealed := by
    intro g hg
    cases o with
    | store o =>
      cases o with
      | loadSession peer call => exact h.elim
      | _ => cases hg
    | _ => cases hg

variable {E : Engine C} {n : ℕ}

theorem quiet_encryptMessage (peer : String) {frame : C.Frame} (h : ∀ g, frame.hello? = some g → g ≤ n) :
    Composed (Each (S := engineSig C) (Op.Quiet n)) (E.encryptMessage peer frame) :=
  Engine.each_encryptMessage peer frame
    ⟨fun _ _ h => (by cases h), fun _ _ h => (by cases h), fun _ _ _ h => (by cases h), h⟩ fun _ =>
    ⟨fun _ _ h => (by cases h), fun _ _ h => (by cases h), fun _ _ _ h => (by cases h),
      fun _ h => (by cases h)⟩

theorem quiet_op {o : Op C} (h : o.Routes) :
    Composed (Each (S := engineSig C) (Op.Quiet n)) o.program :=
  Engine.each_op o (h.quiet n)

theorem quiet_ram (o : RamOp C) :
    Composed (Each (S := engineSig C) (Op.Quiet n)) (Program.perform (S := engineSig C) (.ram o)) :=
  Engine.each_op _ ⟨fun _ _ h => (by cases h), fun _ _ h => (by cases h), fun _ _ _ h => (by cases h),
    fun _ h => (by cases h)⟩

/-- So is what a flush does when no row is a hello. -/
theorem quiet_of_flushing {o : Op C} (h : (E.flushing fun frame => frame.hello? = none).performs o) :
    o.Quiet n where
  root := by rintro _ _ rfl; exact h
  generations := by rintro _ _ rfl; exact h
  row := by rintro _ _ _ rfl; exact h.elim
  sealed := by
    intro g hg
    cases o with
    | store o =>
      cases o with
      | loadSession peer call =>
        obtain ⟨frame, rfl, hframe⟩ := h
        cases hframe.symm.trans hg
      | _ => cases hg
    | _ => cases hg

theorem quiet_probe (convo : Conversation C) (root : C.Root) (peer : Role) {g : ℕ} (nonce : C.Nonce)
    (window : List ℕ) :
    Composed (Each (S := engineSig C) (Op.Quiet g))
      (E.probe convo root peer (.recoveryHello g nonce) window) := by
  induction window with
  | nil => exact .ret _
  | cons k window ih =>
    have hput : Composed (Each (S := engineSig C) (Op.Quiet g))
        (Engine.putCreate convo.relayUrl (E.deriveMailboxId root peer k)) := by
      refine (quiet_op (by trivial)).bind fun outcome => ?_
      split <;> exact .ret _
    refine hput.bind fun created => ?_
    dsimp only
    split
    · refine Composed.bind ?_ fun _ => ih
      refine (quiet_encryptMessage _ fun k hk => ?_).bind fun wire => ?_
      · cases hk
        exact Nat.le_refl _
      · cases wire with
        | error e => exact .ret _
        | ok wire => exact (quiet_op (by trivial)).bind fun _ => .ret _
    · exact ih

variable [C.Comparable] {heard : ℕ}
  {d d' : Device C} {r : RecoveryRecord C}

theorem recovery_perform (t : Turn C) (d : Device C) {o : Op C}
    (hroot : ∀ peer root, o ≠ .store (.setRecoveryRoot peer root))
    (hgen : ∀ own peer, o ≠ .store (.setRecoveryGenerations own peer)) :
    (d.perform E t o).2.recovery = d.recovery := by
  cases o with
  | store o =>
    simp only [Device.perform]
    split
    · rfl
    · cases o with
      | setRecoveryRoot peer root => exact absurd rfl (hroot peer root)
      | setRecoveryGenerations own peer => exact absurd rfl (hgen own peer)
      | _ => rfl
  | ram o => cases o <;> rfl
  | relay o =>
    simp only [Device.perform, Device.performRelay]
    split <;> rfl
  | socket o => rfl
  | notify n => rfl

theorem noHelloRows_perform (t : Turn C) (h : d.NoHelloRows) {o : Op C}
    (ho : ∀ direction frame status, o = .store (.insertMessage direction frame status) →
      frame.hello? = none) : (d.perform E t o).2.NoHelloRows := by
  by_cases hinsert : ∃ direction frame status, o = .store (.insertMessage direction frame status)
  · obtain ⟨direction, frame, status, rfl⟩ := hinsert
    intro row hrow
    simp only [Device.perform] at hrow
    split at hrow
    · exact h row hrow
    · rcases mem_concat hrow with hrow | rfl
      · exact h row hrow
      · exact ho _ _ _ rfl
  · obtain ⟨f, hf, hmessages⟩ := Device.messages_perform E t d (o := o)
      fun direction frame status heq => hinsert ⟨direction, frame, status, heq⟩
    intro row hrow
    rw [hmessages] at hrow
    obtain ⟨row', hrow', rfl⟩ := List.mem_map.mp hrow
    rw [(hf row').2]
    exact h row' hrow'

/-- A party on its own, with storage that does not fail: its generation only grows, what it knows of the
peer stays within what it has heard, and it seals hellos at most one generation ahead. -/
def generating (E : Engine C) (heard : ℕ) : Setting (engineSig C) (Device C) where
  exec o d r d' := ∃ t, t.fault = none ∧ d.perform E t o = (r, d')
  check o d := ∀ g, o.hello? = some g → g ≤ d.recovery.ownGen + 1 ∧ g ≤ u32Max
  rely _ _ := False
  guar d d' := d.recovery.ownGen ≤ d'.recovery.ownGen ∧ d'.recovery.role = d.recovery.role ∧
    d'.recovery.root = d.recovery.root ∧ Held heard d'.recovery ∧ d'.NoHelloRows

theorem stable_generating (I : Device C → Prop) : Stable (generating E heard) I := fun _ _ h => h.elim

/-- What a safe program guarantees holds wherever it is stopped. -/
theorem resume_generating {α : Type} {post : α → Device C → Prop} {p q : EngineM C α}
    {ts : List (Turn C)} (hsafe : Safe (generating E heard) post p d) (hcalm : Calm ts)
    (hheld : Held heard d.recovery) (hrows : d.NoHelloRows)
    (h : Device.resume E p ts d = some (q, d')) :
    (generating E heard).guar d d' ∧ ∀ x ∈ Device.trace E p ts d, ∀ g, x.1.hello? = some g →
      g ≤ d'.recovery.ownGen + 1 ∧ g ≤ u32Max := by
  induction ts generalizing p d with
  | nil =>
    rw [Device.resume_nil] at h
    cases h
    refine ⟨⟨Nat.le_refl _, rfl, rfl, hheld, hrows⟩, fun x hx => ?_⟩
    cases q <;> cases hx
  | cons t ts ih =>
    cases p with
    | ret a => cases h
    | op o k =>
      obtain ⟨hguar, hnext⟩ := hsafe.step ⟨t, hcalm.of_cons.1, rfl⟩
      obtain ⟨hown, hrole, hroot, hheld₁, hrows₁⟩ := hguar
      obtain ⟨⟨hown', hrole', hroot', hheld', hrows'⟩, htrace⟩ :=
        ih hnext hcalm.of_cons.2 hheld₁ hrows₁ h
      refine ⟨⟨Nat.le_trans hown hown', hrole'.trans hrole, hroot'.trans hroot, hheld', hrows'⟩, ?_⟩
      intro x hx g hg
      obtain rfl | hx := List.mem_cons.mp hx
      · obtain ⟨hle, hmax⟩ := hsafe.check g hg
        exact ⟨Nat.le_trans hle (Nat.succ_le_succ (Nat.le_trans hown hown')), hmax⟩
      · exact htrace x hx g hg

/-! ## Its programs -/

/-- A quiet operation leaves the columns as they are. -/
theorem Recorded.perform {o : Op C} {t : Turn C} {x : o.Answer} (hheld : Held heard r) (ho : o.Quiet n)
    (hd : Recorded r d) (ht : d.perform E t o = (x, d')) :
    (generating E heard).guar d d' ∧ Recorded r d' := by
  obtain ⟨rfl, hrows⟩ := hd
  have hrecovery : d'.recovery = d.recovery := by
    have := recovery_perform (E := E) t d ho.root ho.generations
    rwa [ht] at this
  have hrows' : d'.NoHelloRows := by
    have := noHelloRows_perform (E := E) t hrows ho.row
    rwa [ht] at this
  refine ⟨⟨?_, ?_, ?_, ?_, hrows'⟩, hrecovery, hrows'⟩ <;> rw [hrecovery]
  exact hheld

theorem triple_quiet {α : Type} {p : EngineM C α} (hheld : Held heard r) (hn : n ≤ r.ownGen + 1)
    (hmax : n ≤ u32Max) (hp : Composed (Each (S := engineSig C) (Op.Quiet n)) p) :
    Triple (generating E heard) (Recorded r) p fun _ => Recorded r := by
  refine hp.triple (stable_generating _) fun _ q hq => ?_
  cases hq with
  | op o ho =>
    rw [← Program.bind_ret (Program.perform o)]
    refine triple_perform (m := fun _ => Recorded r) (stable_generating _) ?_ ?_
      fun _ => triple_ret (stable_generating _) fun _ h => h
    · rintro d ⟨rfl, -⟩ g hg
      exact ⟨Nat.le_trans (ho.sealed g hg) hn, Nat.le_trans (ho.sealed g hg) hmax⟩
    · rintro d x d' hd ⟨t, -, ht⟩
      exact hd.perform hheld ho ht

/-- The rows a flush sends are no hellos. -/
theorem triple_flushPending (hheld : Held heard r) :
    Triple (generating E heard) (Recorded r) E.flushPending fun _ => Recorded r := by
  refine ((Engine.kept_flushPending fun frame => frame.hello? = none).triple (stable_generating _) ?_ ?_).mono
    (fun _ => id) fun _ _ h => h.1
  · intro o d ho _ g hg
    have hle : g ≤ 0 := (quiet_of_flushing ho).sealed g hg
    exact ⟨Nat.le_trans hle (Nat.zero_le _), Nat.le_trans hle (Nat.zero_le _)⟩
  · rintro o d x d' ho hd ⟨t, hcalm, ht⟩
    obtain ⟨hguar, hd'⟩ := hd.perform hheld (quiet_of_flushing (n := 0) ho) ht
    refine ⟨hguar, hd', ?_⟩
    simp only [Engine.flushing]
    split
    · rintro rows rfl row hrow
      simp only [Device.perform, hcalm, Device.performStore] at ht
      cases ht
      obtain ⟨m, hm, rfl⟩ := List.mem_map.mp hrow
      exact hd.2 m (List.mem_filter.mp hm).1
    · trivial

theorem triple_routing {α : Type} {p : EngineM C α} (hheld : Held heard r)
    (hp : Composed E.Routing p) :
    Triple (generating E heard) (Recorded r) p fun _ => Recorded r := by
  refine hp.triple (stable_generating _) fun _ q hq => ?_
  cases hq with
  | plain o ho => exact triple_quiet hheld (Nat.zero_le _) (Nat.zero_le _) (quiet_op ho)
  | encrypt peer frame hframe =>
    exact triple_quiet hheld (Nat.zero_le _) (Nat.zero_le _) (quiet_encryptMessage peer (by simp [hframe]))
  | flush => exact triple_flushPending hheld

/-- `enter_recovery_gen` at most one generation ahead. -/
theorem triple_enterRecoveryGen {convo : Conversation C} {role : UInt8} {root : C.Root} {g peerGen : ℕ}
    (hheld : Held heard r) (hown : r.ownGen ≤ g) (hnext : g ≤ r.ownGen + 1) (hmax : g ≤ u32Max)
    (hpeer : peerGen ≤ g) (hheard : peerGen ≤ heard) :
    Triple (generating E heard) (Recorded r) (E.enterRecoveryGen convo role root g peerGen)
      fun _ => Sound heard := by
  have hquiet : ∀ {α : Type} {p : EngineM C α}, Composed (Each (S := engineSig C) (Op.Quiet g)) p →
      Triple (generating E heard) (Recorded r) p fun _ => Recorded r := triple_quiet hheld hnext hmax
  have hret : ∀ b : Bool, Triple (generating E heard) (Recorded r) (.ret b) fun _ => Sound heard :=
    fun b => triple_ret (stable_generating _) fun d hd => ⟨hd.1.symm ▸ hheld, hd.2⟩
  rw [Engine.enterRecoveryGen]
  refine triple_bind (hquiet (Composed.bind (quiet_op (by trivial)) fun outcome => ?_)) fun created => ?_
  · split <;> exact .ret _
  · split
    · refine triple_bind (hquiet (quiet_op (by trivial))) fun set => ?_
      cases set with
      | error e => exact hret false
      | ok _ =>
        refine triple_bind (hquiet (quiet_op (by trivial))) fun nonce =>
          triple_bind (hquiet (quiet_probe _ _ _ nonce _)) fun _ =>
          triple_bind (hquiet (quiet_op (by trivial))) fun _ =>
          triple_perform (m := fun _ => Sound heard) (stable_generating _) (fun _ _ _ h => by cases h) ?_
            fun _ => triple_ret (stable_generating _) fun _ h => h
        -- the generation is recorded
        rintro d x d' ⟨rfl, hrows⟩ ⟨t, hcalm, ht⟩
        simp only [Device.perform, hcalm, Device.performStore] at ht
        cases ht
        have hheld' : Held heard { d.recovery with ownGen := g, peerGen := peerGen } :=
          ⟨hpeer, hmax, hheard⟩
        exact ⟨⟨hown, rfl, rfl, hheld', hrows⟩, hheld', hrows⟩
    · exact hret false

/-- A read of the recovery columns. -/
theorem triple_recoveryState {α : Type} {k : Result (Option (RecoveryRecord C)) → EngineM C α}
    {post : α → Device C → Prop} (hheld : Held heard r)
    (hk : Triple (generating E heard) (Recorded r) (k (.ok (some r))) post) :
    Triple (generating E heard) (Recorded r) (store .recoveryState >>= k) post := by
  refine triple_perform (m := fun x d => Recorded r d ∧ x = .ok (some r)) (stable_generating _)
    (fun _ _ _ h => by cases h) ?_ ?_
  · rintro d x d' ⟨rfl, hrows⟩ ⟨t, hcalm, ht⟩
    simp only [Device.perform, hcalm, Device.performStore] at ht
    cases ht
    exact ⟨⟨Nat.le_refl _, rfl, rfl, hheld, hrows⟩, ⟨rfl, hrows⟩, rfl⟩
  · rintro x d ⟨hd, rfl⟩
    exact hk d hd

theorem triple_recover (hheld : Held heard r) :
    Triple (generating E heard) (Recorded r) E.recover fun _ => Sound heard := by
  have hret : ∀ outcome : RecoveryOutcome,
      Triple (generating E heard) (Recorded r) (.ret outcome) fun _ => Sound heard :=
    fun _ => triple_ret (stable_generating _) fun _ hd => hd.sound hheld
  rw [Engine.recover]
  refine triple_bind (triple_routing hheld (Engine.routing_plain _ trivial)) fun convo? => ?_
  split
  · refine triple_recoveryState hheld ?_
    split
    · next role root ownGen peerGen hr =>
      cases hr
      rw [Engine.recoverV2]
      refine triple_bind (triple_quiet hheld (Nat.zero_le _) (Nat.zero_le _) (quiet_ram _)) fun _ => ?_
      split
      · exact hret _
      · refine triple_bind (triple_enterRecoveryGen hheld ?_ ?_ ?_ ?_ hheld.heard_le) fun entered => ?_
        · have := hheld.own_le
          simp only [saturatingAdd32] at *
          omega
        · exact Nat.min_le_left _ _
        · exact saturatingAdd32_le _ _
        · have := hheld.own_le
          have := hheld.peer_le
          simp only [saturatingAdd32] at *
          omega
        · cases entered with
          | false => exact triple_ret (stable_generating _) fun _ hd => hd
          | true =>
            rintro d ⟨hd, hrows⟩
            refine (triple_bind (triple_quiet hd (Nat.zero_le _) (Nat.zero_le _) (quiet_ram _))
              fun _ => triple_ret (stable_generating _) fun _ hd' => hd'.sound hd) d ⟨rfl, hrows⟩
    · exact (triple_routing hheld
        (Engine.routing_of_rerouting (Engine.rerouting_recoverV1 _))).mono (fun _ hd => hd)
        fun _ _ hd => hd.sound hheld
  · exact hret _

theorem triple_handleRecoveryHello {g : ℕ} (nonce : C.Nonce) (hheld : Held heard r) (hg : g ≤ heard)
    (hmax : g ≤ u32Max) :
    Triple (generating E heard) (Recorded r) (E.handleRecoveryHello g nonce) fun _ => Sound heard := by
  have hquiet : ∀ {α : Type} {p : EngineM C α}, Composed (Each (S := engineSig C) (Op.Quiet 0)) p →
      Triple (generating E heard) (Recorded r) p fun _ => Recorded r :=
    triple_quiet hheld (Nat.zero_le _) (Nat.zero_le _)
  have hret : Triple (generating E heard) (Recorded r) (.ret false) fun _ => Sound heard :=
    triple_ret (stable_generating _) fun _ hd => hd.sound hheld
  rw [Engine.handleRecoveryHello]
  refine triple_bind (hquiet (quiet_ram _)) fun fresh => ?_
  split
  · refine triple_recoveryState hheld ?_
    split
    · next role root ownGen peerGen hr =>
      cases hr
      refine triple_bind (hquiet (quiet_ram _)) fun _ => ?_
      have hraised : Held heard (⟨some role, some root, max ownGen g, max peerGen g⟩ : RecoveryRecord C) :=
        ⟨by have := hheld.peer_le; simp only at *; omega, Nat.max_le.mpr ⟨hheld.own_le, hmax⟩,
          Nat.max_le.mpr ⟨hheld.heard_le, hg⟩⟩
      rw [show GenerationState.converge ⟨ownGen, peerGen⟩ g =
        (decide (ownGen < g), ⟨max ownGen g, max peerGen g⟩) from
          Prod.ext (GenerationState.converge_fst _ g) (GenerationState.converge_snd _ g)]
      refine triple_perform (m := fun _ => Recorded ⟨some role, some root, max ownGen g, max peerGen g⟩)
        (stable_generating _) (fun _ _ _ h => by cases h) ?_ fun _ => ?_
      · rintro d x d' ⟨hd, hrows⟩ ⟨t, hcalm, ht⟩
        simp only [Device.perform, hcalm, Device.performStore, hd] at ht
        cases ht
        refine ⟨⟨?_, ?_, ?_, hraised, hrows⟩, rfl, hrows⟩ <;> rw [hd]
        exact Nat.le_max_left _ _
      · refine triple_bind (triple_routing hraised (Engine.routing_plain _ trivial)) fun convo? => ?_
        split
        · split
          · exact triple_enterRecoveryGen hraised (Nat.le_refl _) (Nat.le_succ _) hraised.own_le
              hraised.peer_le hraised.heard_le
          · refine (triple_routing hraised ?_).mono (fun _ hd => hd) fun _ _ hd => hd.sound hraised
            split
            · exact Engine.routing_of_rerouting (Engine.rerouting_initiateRotation _ _ _ _)
            · exact Engine.routing_flushPending.bind fun _ => .ret _
        · exact triple_ret (stable_generating _) fun _ hd => hd.sound hraised
    · exact hret
  · exact hret

/-- The generation a hello in an envelope reports, if the envelope opens to one. -/
def Device.helloIn (E : Engine C) (d : Device C) (peer : String) (envelope : C.Wire) : Option ℕ :=
  match E.messageDecrypt (d.sessions peer) envelope with
  | .ok (_, .ok frame) => frame.hello?
  | _ => none

/-- `decrypt_message` returns what the envelope opens to. -/
theorem triple_decryptMessage {peer : String} {envelope : C.Wire} {hello : Option ℕ}
    (hheld : Held heard r) :
    Triple (generating E heard) (fun d => Recorded r d ∧ d.helloIn E peer envelope = hello)
      (E.decryptMessage peer envelope)
      fun opened d => Recorded r d ∧ ∀ frame, opened = .ok frame → frame.hello? = hello := by
  rw [Engine.decryptMessage]
  refine triple_perform (m := fun session d => Recorded r d ∧ ∀ s, session = .ok s →
    ∀ s' frame, E.messageDecrypt s envelope = .ok (s', .ok frame) → frame.hello? = hello)
    (stable_generating _) (fun _ _ _ h => by cases h) ?_ fun session => ?_
  · rintro d x d' ⟨⟨rfl, hrows⟩, hhello⟩ ⟨t, hcalm, ht⟩
    simp only [Device.perform, hcalm, Device.performStore] at ht
    cases ht
    refine ⟨⟨Nat.le_refl _, rfl, rfl, hheld, hrows⟩, ⟨rfl, hrows⟩, ?_⟩
    rintro s hs s' frame hopen
    cases hs
    rw [← hhello, Device.helloIn, hopen]
  · rintro d ⟨hd, hopens⟩
    have hkept : ∀ x : Result C.Frame, (∀ frame, x = .ok frame → frame.hello? = hello) →
        Triple (generating E heard) (Recorded r) (.ret x)
          fun opened d => Recorded r d ∧ ∀ frame, opened = .ok frame → frame.hello? = hello :=
      fun x hx => triple_ret (stable_generating _) fun _ hd => ⟨hd, hx⟩
    cases session with
    | error e => exact hkept (.error e) (fun _ h => by cases h) d hd
    | ok s =>
      dsimp only
      split
      · next e _ => exact hkept (.error e) (fun _ h => by cases h) d hd
      · next s' frame? hopen =>
        refine triple_bind (triple_quiet hheld (Nat.zero_le _) (Nat.zero_le _) (Engine.each_op _
          ⟨fun _ _ h => (by cases h), fun _ _ h => (by cases h), fun _ _ _ h => (by cases h),
            fun _ h => (by cases h)⟩)) (fun stored => ?_) d hd
        cases stored with
        | error e => exact hkept (.error e) fun _ h => by cases h
        | ok _ =>
          refine hkept frame? fun frame hframe => hopens s rfl s' frame ?_
          rw [hopen, hframe]

/-- `handle_incoming`, when the hello in the envelope, if there is one, is within what has been heard. -/
theorem triple_handleIncoming {peer : String} {envelope : C.Wire} {hello : Option ℕ}
    (hheld : Held heard r) (hhello : ∀ g, hello = some g → g ≤ heard ∧ g ≤ u32Max) :
    Triple (generating E heard) (fun d => Recorded r d ∧ d.helloIn E peer envelope = hello)
      (E.handleIncoming peer envelope) fun _ => Sound heard := by
  rw [Engine.handleIncoming]
  refine triple_bind (triple_decryptMessage hheld) fun opened => ?_
  rintro d ⟨hd, hopened⟩
  cases opened with
  | error e => exact triple_ret (stable_generating _) (fun _ hd => hd.sound hheld) d hd
  | ok frame =>
    cases hframe : frame.hello? with
    | none =>
      exact ((triple_routing hheld (Engine.routing_dispatch hframe)).mono (fun _ hd => hd)
        fun _ _ hd => hd.sound hheld) d hd
    | some g =>
      obtain ⟨hg, hmax⟩ := hhello g ((hopened frame rfl).symm.trans hframe)
      cases frame with
      | recoveryHello g' nonce =>
        cases hframe
        exact triple_handleRecoveryHello nonce hheld hg hmax d hd
      | _ => cases hframe

/-! ## Two parties -/

/-- Two paired parties and the generations of the hellos each has begun to seal. -/
structure Joint (C : Carrier) where
  party : Role → Device C
  greeted : Role → List ℕ

/-- What can happen to one of them. -/
inductive Joint.Event (C : Carrier)
  /-- It has lost its inbox and attempts a recovery. -/
  | attempt (p : Role) (ts : List (Turn C))
  | incoming (p : Role) (peer : String) (envelope : C.Wire) (ts : List (Turn C))
  | restart (p : Role)

/-- The turns the event takes. -/
def Joint.Event.turns : Joint.Event C → List (Turn C)
  | .attempt _ ts | .incoming _ _ _ ts => ts
  | .restart _ => []

namespace Joint

/-- One party has done some operations. -/
def acted (s : Joint C) (p : Role) (d : Device C) (trace : List (Done C)) : Joint C where
  party := Function.update s.party p d
  greeted := Function.update s.greeted p (s.greeted p ++ trace.filterMap fun x => x.1.hello?)

/-- One event. A program takes any number of its turns, so it may be stopped anywhere in it; a hello opens
only if the other party sealed it, at any time after and any number of times. -/
def step (E : Role → Engine C) (s : Joint C) : Event C → Option (Joint C)
  | .attempt p ts => do
    let (_, d) ← Device.resume (E p) (E p).recover ts (s.party p)
    return s.acted p d (Device.trace (E p) (E p).recover ts (s.party p))
  | .incoming p peer envelope ts => do
    let (_, d) ← Device.resume (E p) ((E p).handleIncoming peer envelope) ts (s.party p)
    if ((s.party p).helloIn (E p) peer envelope).all (· ∈ s.greeted p.peer) then
      return s.acted p d (Device.trace (E p) ((E p).handleIncoming peer envelope) ts (s.party p))
    else none
  | .restart p => some (s.acted p (s.party p).forgotten [])

/-- A party's own generation. -/
abbrev own (s : Joint C) (p : Role) : ℕ := (s.party p).recovery.ownGen

/-- What it knows of the other's. -/
abbrev known (s : Joint C) (p : Role) : ℕ := (s.party p).recovery.peerGen

/-- A party whose peer is at generation `other`: it neither knows of, nor has greeted with, more than one
generation past what is stored. -/
structure Near (role : UInt8) (root : C.Root) (other : ℕ) (d : Device C) (greeted : List ℕ) : Prop where
  role_eq : d.recovery.role = some role
  root_eq : d.recovery.root = some root
  held : Held (other + 1) d.recovery
  rows : d.NoHelloRows
  greeted_le : ∀ g ∈ greeted, g ≤ d.recovery.ownGen + 1 ∧ g ≤ u32Max

/-- The invariant. -/
def Close (role : Role → UInt8) (root : Role → C.Root) (s : Joint C) : Prop :=
  ∀ p, Near (role p) (root p) (s.own p.peer) (s.party p) (s.greeted p)

variable {E : Role → Engine C} {role : Role → UInt8} {root : Role → C.Root} {s s' : Joint C}
  {e : Event C}

/-- What one party does within its guarantee keeps the two close. -/
theorem Close.acted {p : Role} {trace : List (Done C)} (hs : Close role root s)
    (hguar : (generating (E p) (s.own p.peer + 1)).guar (s.party p) d)
    (htrace : ∀ x ∈ trace, ∀ g, x.1.hello? = some g → g ≤ d.recovery.ownGen + 1 ∧ g ≤ u32Max) :
    Close role root (s.acted p d trace) := by
  obtain ⟨hown, hrole, hroot, hheld, hrows⟩ := hguar
  have hself : (s.acted p d trace).party p = d := Function.update_self _ _ _
  have hother : ∀ q, q ≠ p → (s.acted p d trace).party q = s.party q :=
    fun q hq => Function.update_of_ne hq _ _
  intro q
  by_cases hq : q = p
  · subst hq
    have hgreeted : (s.acted q d trace).greeted q =
        s.greeted q ++ trace.filterMap fun x => x.1.hello? := Function.update_self _ _ _
    rw [hself, hgreeted, own, hother q.peer (by cases q <;> decide)]
    refine ⟨hrole.trans (hs q).role_eq, hroot.trans (hs q).root_eq, hheld, hrows, fun g hg => ?_⟩
    obtain hg | hg := List.mem_append.mp hg
    · obtain ⟨hle, hmax⟩ := (hs q).greeted_le g hg
      exact ⟨Nat.le_trans hle (Nat.succ_le_succ hown), hmax⟩
    · obtain ⟨x, hx, hxg⟩ := List.mem_filterMap.mp hg
      exact htrace x hx g hxg
  · -- the other party's peer has moved on
    have hpeer : q.peer = p := by cases p <;> cases q <;> first | rfl | exact absurd rfl hq
    have hgreeted : (s.acted p d trace).greeted q = s.greeted q := Function.update_of_ne hq _ _
    rw [hother q hq, hgreeted, own, hpeer, hself]
    obtain ⟨hrole', hroot', hheld', hrows', hgreeted'⟩ := hs q
    exact ⟨hrole', hroot', hheld'.mono (Nat.succ_le_succ (hpeer ▸ hown)), hrows', hgreeted'⟩

/-- **Step.** -/
theorem Close.step (hs : Close role root s) (hcalm : Calm e.turns) (h : Joint.step E s e = some s') :
    Close role root s' := by
  cases e with
  | attempt p ts =>
    obtain ⟨⟨q, d⟩, hresume, h⟩ := Option.bind_eq_some_iff.mp h
    cases h
    obtain ⟨hguar, htrace⟩ := resume_generating (triple_recover (hs p).held _ ⟨rfl, (hs p).rows⟩) hcalm
      (hs p).held (hs p).rows hresume
    exact hs.acted hguar htrace
  | incoming p peer envelope ts =>
    obtain ⟨⟨q, d⟩, hresume, h⟩ := Option.bind_eq_some_iff.mp h
    dsimp only at h
    split_ifs at h with hsealed
    cases h
    have hhello : ∀ g, (s.party p).helloIn (E p) peer envelope = some g →
        g ≤ s.own p.peer + 1 ∧ g ≤ u32Max := by
      intro g hg
      rw [hg] at hsealed
      exact (hs p.peer).greeted_le g (of_decide_eq_true hsealed)
    obtain ⟨hguar, htrace⟩ := resume_generating
      (triple_handleIncoming (hs p).held hhello _ ⟨⟨rfl, (hs p).rows⟩, rfl⟩) hcalm (hs p).held (hs p).rows
      hresume
    exact hs.acted hguar htrace
  | restart p =>
    cases h
    exact hs.acted (E := E) ⟨Nat.le_refl _, rfl, rfl, (hs p).held, (hs p).rows⟩ fun _ h => by cases h

end Joint

/-! ## Meeting -/

/-- The window a party probed. -/
def Device.window (d : Device C) : List ℕ :=
  GenerationState.outboundWindow ⟨d.recovery.ownGen, d.recovery.peerGen⟩

/-- The next generation of one of two parties is in the other's window, unless it is the last, or both are
at one generation and three past what they know. -/
theorem windows_meet {a b knownA knownB : ℕ} (ha : knownA ≤ a) (hb : knownB ≤ b)
    (hA : knownA ≤ b + 1) (hB : knownB ≤ a + 1) (hroomA : a < knownA + recoveryWindow)
    (hroomB : b < knownB + recoveryWindow) :
    saturatingAdd32 a 1 ∈ GenerationState.outboundWindow ⟨saturatingAdd32 b 1, knownB⟩ ∨
        saturatingAdd32 b 1 ∈ GenerationState.outboundWindow ⟨saturatingAdd32 a 1, knownA⟩ ↔
      min a b + 1 < u32Max ∧ ¬ (a = b ∧ a = knownA + 3 ∧ b = knownB + 3) := by
  simp only [GenerationState.mem_outboundWindow, saturatingAdd32, recoveryWindow] at *
  omega

/-- **When two recovering parties can hear each other.** From generations 0 on both sides, after any
sequence of attempts and handled envelopes, each stopped anywhere or run to its end, and of restarts, with
hellos lost, delayed and repeated at will and no storage failure: no party knows of a generation past its
own. If then both complete a probe, one party's new generation is in the window the other probed exactly
if the lower generation is not at the end of its type, and the two are not at one generation with each
three past what it knows of the other. -/
theorem windows_meet_iff (E : Role → Engine C) (role : Role → UInt8) (root : Role → C.Root)
    (s₀ s : Joint C) (hrole : ∀ p, (s₀.party p).recovery.role = some (role p))
    (hroot : ∀ p, (s₀.party p).recovery.root = some (root p)) (hown : ∀ p, s₀.own p = 0)
    (hknown : ∀ p, s₀.known p = 0) (hrows : ∀ p, (s₀.party p).NoHelloRows)
    (hgreeted : ∀ p, s₀.greeted p = []) (es : List (Joint.Event C))
    (hrun : run (Joint.step E) s₀ es = some s) (hcalm : ∀ e ∈ es, Calm e.turns) :
    (∀ p, s.known p ≤ s.own p) ∧
    ∀ (ts : Role → List (Turn C)) (d : Role → Device C), (∀ p, Calm (ts p)) →
      (∀ p, Device.exec (E p) (E p).recover (ts p) (s.party p) = some (.oneSided, d p)) →
      ((d .offerer).recovery.ownGen ∈ (d .responder).window ∨
          (d .responder).recovery.ownGen ∈ (d .offerer).window ↔
        min (s.own .offerer) (s.own .responder) + 1 < u32Max ∧
        ¬ (s.own .offerer = s.own .responder ∧ s.own .offerer = s.known .offerer + 3 ∧
          s.own .responder = s.known .responder + 3)) := by
  have hstart : Joint.Close role root s₀ := by
    intro p
    refine ⟨hrole p, hroot p, ⟨?_, ?_, ?_⟩, hrows p, fun g hg => ?_⟩
    · exact Nat.le_of_eq ((hknown p).trans (hown p).symm)
    · exact Nat.le_trans (Nat.le_of_eq (hown p)) (Nat.zero_le _)
    · exact Nat.le_trans (Nat.le_of_eq (hknown p)) (Nat.zero_le _)
    · rw [hgreeted p] at hg
      cases hg
  have halong : Along (Joint.step E) (fun _ e => Calm e.turns ∧ True) s₀ es :=
    Along.and_of_forall hcalm (Along.of_forall fun _ _ => trivial)
  have hclose : Joint.Close role root s :=
    run_invariant (fun _ _ _ hs hok h => Joint.Close.step hs hok.1 h) hstart halong hrun
  refine ⟨fun p => (hclose p).held.peer_le, fun ts d hts hexec => ?_⟩
  -- both attempts were let through, and moved one generation on
  have hprobed : ∀ p, s.own p < s.known p + recoveryWindow ∧
      (d p).recovery = { (s.party p).recovery with ownGen := saturatingAdd32 (s.own p) 1 } := by
    intro p
    obtain ⟨hno, -⟩ | ⟨-, hex, -, hrecovery, -⟩ :=
      exec_recover_calm (hts p) (hclose p).role_eq (hclose p).root_eq (hexec p)
    · exact absurd rfl hno
    · rw [Device.Exhausted, not_or, Nat.not_le, Nat.not_le, absDiff] at hex
      have := hex.2
      exact ⟨by simp only [Joint.own, Joint.known]; omega, hrecovery⟩
  have hO := (hclose .offerer).held
  have hR := (hclose .responder).held
  rw [Device.window, Device.window, (hprobed .offerer).2, (hprobed .responder).2]
  exact windows_meet hO.peer_le hR.peer_le hO.heard_le hR.heard_le (hprobed .offerer).1
    (hprobed .responder).1

/-- Two clients that have just paired. -/
def pairedClients : Joint (byteCarrier Unit) where
  party p := { rootedDevice with recovery := ⟨some p.code, some [], 0, 0⟩ }
  greeted _ := []

/-- One of them after its first probe. -/
def probedOnce (p : Role) : Device (byteCarrier Unit) :=
  ((Device.attempt plainEngine (pairedClients.party p) pacedAttempt)).getD (pairedClients.party p)

/-- Their first probes meet. -/
theorem first_probes_meet :
    (probedOnce .offerer).recovery.ownGen ∈ (probedOnce .responder).window ∨
      (probedOnce .responder).recovery.ownGen ∈ (probedOnce .offerer).window := by
  refine ((windows_meet_iff (fun _ => plainEngine) Role.code (fun _ => []) pairedClients pairedClients
    (fun _ => rfl) (fun _ => rfl) (fun _ => rfl) (fun _ => rfl) ?_ (fun _ => rfl) [] rfl ?_).2
    (fun _ => pacedAttempt) probedOnce (fun _ => calm_pacedAttempt) ?_).mpr ?_
  · exact fun _ _ h => by cases h
  · exact fun _ h => by cases h
  · intro p
    cases p <;> rfl
  · decide

/-! ## Past each other -/

/-- Both probe three times unheard and are restarted. -/
def threeProbesEach : List (Joint.Event (byteCarrier Unit)) :=
  List.replicate 3 (.attempt .offerer pacedAttempt) ++
    List.replicate 3 (.attempt .responder pacedAttempt) ++ [.restart .offerer, .restart .responder]

/-- **Past each other.** A fourth probe of each is let through, and puts both at generation 4, with windows
that end at 3. -/
theorem fourth_probes_miss :
    ∃ s dO dR, run (Joint.step fun _ => plainEngine) pairedClients threeProbesEach = some s ∧
      (∀ e ∈ threeProbesEach, Calm e.turns) ∧ Calm pacedAttempt ∧
      Device.exec plainEngine plainEngine.recover pacedAttempt (s.party .offerer) =
        some (.oneSided, dO) ∧
      Device.exec plainEngine plainEngine.recover pacedAttempt (s.party .responder) =
        some (.oneSided, dR) ∧
      ¬ (dO.recovery.ownGen ∈ dR.window ∨ dR.recovery.ownGen ∈ dO.window) := by
  refine ⟨_, _, _, rfl, ?_, calm_pacedAttempt, rfl, rfl, ?_⟩
  · intro e he
    obtain (he | he) | he := (List.mem_append.mp he).imp_left List.mem_append.mp
    · exact List.eq_of_mem_replicate he ▸ calm_pacedAttempt
    · exact List.eq_of_mem_replicate he ▸ calm_pacedAttempt
    · simp only [List.mem_cons, List.not_mem_nil, or_false] at he
      obtain rfl | rfl := he <;> exact fun _ h => by cases h
  · decide

end Titlan
