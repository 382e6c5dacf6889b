import Titlan.Relay.Steps

/-! # Retention

A blob the relay has accepted stays in its mailbox's queue, as it was deposited and behind what was
deposited before it, until an ack with its id comes in on a connection of that mailbox or the mailbox is
deleted; only the sweep may drop it otherwise. `accepted` is the history of all deposits answered 202,
so the queues are read against it. -/

namespace Titlan.Relay

open Foundation

namespace Server

/-- The deposits a mailbox id has accepted, in order. -/
def deposits (s : Server) (id : String) : List QueuedMsg :=
  (s.accepted.filter fun x => x.1 = id).map Prod.snd

/-- The message is in the queue of the mailbox. -/
def Queued (s : Server) (id : String) (msg : QueuedMsg) : Prop :=
  ∃ m, s.app.boxes.lookup id = some m ∧ msg ∈ m.queue

/-- Every queue holds deposits of its mailbox id, as deposited and in their order. -/
def Kept (s : Server) : Prop :=
  ∀ id m, s.app.boxes.lookup id = some m → m.queue.Sublist (s.deposits id)

/-- The step handles an ack with the message id on a connection of the mailbox. -/
def Acks (s : Server) (id : String) (msgId : MsgId) : Label → Prop
  | .act n e => ∃ c phase data, s.tasks[n]? = some (.deliver c phase) ∧
      (phase = .wait ∨ phase = .drain) ∧ c.mailbox = id ∧ e.event = .binary data ∧
      parseAckFrame data = some msgId
  | _ => False

/-- The step deletes the mailbox. -/
def Deletes (s : Server) (id : String) : Label → Prop
  | .act n _ => s.tasks[n]? = some (.deleteRemove id)
  | _ => False

variable {s s' : Server} {n : ℕ} {e : Env} {id : String} {m m' : Mailbox} {msg : QueuedMsg}

/-! ## Order -/

theorem deposits_append_self (s : Server) (id : String) (msg : QueuedMsg) :
    ({ s with accepted := s.accepted ++ [(id, msg)] } : Server).deposits id =
      s.deposits id ++ [msg] := by
  simp [deposits]

theorem deposits_append_of_ne (s : Server) {id id' : String} (msg : QueuedMsg) (h : id' ≠ id) :
    ({ s with accepted := s.accepted ++ [(id, msg)] } : Server).deposits id' = s.deposits id' := by
  simp [deposits, Ne.symm h]

theorem Kept.of_same (h : s.Kept) (hboxes : s'.app.boxes = s.app.boxes)
    (hlog : s'.accepted = s.accepted) : s'.Kept := by
  intro id m hid
  rw [hboxes] at hid
  unfold deposits
  rw [hlog]
  exact h id m hid

theorem Kept.of_row (h : s.Kept) (hboxes : s'.app.boxes = s.app.boxes.insert id m')
    (hlog : s'.accepted = s.accepted) (hrow : m'.queue.Sublist (s.deposits id)) : s'.Kept := by
  intro id' m'' hm
  unfold deposits
  rw [hlog]
  rw [hboxes] at hm
  rcases Table.lookup_insert_cases hm with ⟨rfl, rfl⟩ | ⟨-, hm⟩
  · exact hrow
  · exact h id' m'' hm

/-- **Step: order.** -/
theorem Kept.did (h : s.Kept) (hd : Did s n e s') : s'.Kept := by
  cases hd with
  | quiet t t' app ht hq hq' hsweep happ => exact h.of_same happ.boxes rfl
  | opened t id r ht hq hid => exact h.of_row rfl rfl (List.nil_sublist _)
  | accepted id body m limiter ht hid =>
    intro id' m' hm
    rcases Table.lookup_insert_cases hm with ⟨rfl, rfl⟩ | ⟨hne, hm⟩
    · show List.Sublist (m.queue ++ [_]) (deposits { s with accepted := _ } _)
      rw [deposits_append_self]
      exact (h id' m hid).append (List.Sublist.refl _)
    · show List.Sublist m'.queue (deposits { s with accepted := _ } id')
      rw [deposits_append_of_ne s _ hne]
      exact h id' m' hm
  | removed id m ht hid => exact fun id' m' hm => h id' m' (Table.lookup_of_erase hm)
  | registered id m ht hid => exact h.of_row rfl rfl (h id m hid)
  | acked c phase data acked m removed queue ht hphase hevent hack hid hrem =>
    exact h.of_row rfl rfl ((removeFirst_sublist hrem).trans (h _ m hid))
  | swept now ht =>
    intro id m' hm'
    obtain ⟨m, hm, -, rfl⟩ := lookup_sweepBoxes hm'
    exact (List.dropWhile_sublist _).trans (h id m hm)
  | _ => exact h.of_same rfl rfl

theorem Kept.step {l : Label} (h : s.Kept) (hstep : s.step l = some s') : s'.Kept := by
  obtain ⟨t, hq, -, rfl⟩ | ⟨n, e, s₁, rfl, -, -, -, hd, rfl⟩ := step_cases hstep
  · exact h.of_same rfl rfl
  · exact (h.did hd).of_same rfl rfl

/-! ## Presence -/

theorem Queued.of_same (h : s.Queued id msg) (hboxes : s'.app.boxes = s.app.boxes) :
    s'.Queued id msg := by
  unfold Queued
  rw [hboxes]
  exact h

/-- A changed row keeps the message if the row it had kept it. -/
theorem Queued.of_row {id' : String} (h : s.Queued id msg)
    (hboxes : s'.app.boxes = s.app.boxes.insert id' m')
    (hrow : ∀ m, id = id' → s.app.boxes.lookup id' = some m → msg ∈ m.queue → msg ∈ m'.queue) :
    s'.Queued id msg := by
  obtain ⟨m, hm, hmsg⟩ := h
  unfold Queued
  rw [hboxes]
  by_cases hne : id = id'
  · rw [hne] at hm ⊢
    exact ⟨m', AList.lookup_insert _, hrow m hne hm hmsg⟩
  · exact ⟨m, (AList.lookup_insert_ne hne).trans hm, hmsg⟩

/-- An ack of another message leaves the message. -/
theorem mem_of_removeFirst_ne {acked : MsgId} {queue rest : List QueuedMsg} {removed : QueuedMsg}
    (h : AppState.removeFirst acked queue = some (removed, rest)) (hmsg : msg ∈ queue)
    (hne : msg.id ≠ acked) : msg ∈ rest := by
  obtain ⟨hid, before, after, rfl, rfl⟩ := AppState.removeFirst_eq h
  rcases List.mem_append.mp hmsg with hmsg | hmsg
  · exact List.mem_append_left _ hmsg
  · rcases List.mem_cons.mp hmsg with rfl | hmsg
    · exact absurd hid hne
    · exact List.mem_append_right _ hmsg

/-- **Step: presence.** Only an ack of the message, a delete of its mailbox or a sweep can take it out. -/
theorem Queued.did (h : s.Queued id msg) (hd : Did s n e s') (hack : ¬ s.Acks id msg.id (.act n e))
    (hdelete : ¬ s.Deletes id (.act n e)) (hsweep : ∀ t, s.tasks[n]? = some t → ¬ t.Sweeping) :
    s'.Queued id msg := by
  cases hd with
  | quiet t t' app ht hq hq' _ happ => exact h.of_same happ.boxes
  | opened t id' r ht hq hid =>
    exact h.of_row rfl fun m _ hm _ => by cases hid.symm.trans hm
  | accepted id' body m limiter ht hid =>
    refine h.of_row rfl fun m₁ _ hm hmsg => ?_
    cases hid.symm.trans hm
    exact List.mem_append_left _ hmsg
  | removed id' m ht hid =>
    obtain ⟨m₁, hm, hmsg⟩ := h
    have hne : id ≠ id' := fun heq => hdelete (heq ▸ ht)
    exact ⟨m₁, (AList.lookup_erase_ne hne).trans hm, hmsg⟩
  | registered id' m ht hid =>
    refine h.of_row rfl fun m₁ _ hm hmsg => ?_
    cases hid.symm.trans hm
    exact hmsg
  | acked c phase data acked m removed queue ht hphase hevent hparse hid hrem =>
    refine h.of_row rfl fun m₁ hbox hm hmsg => ?_
    cases hid.symm.trans hm
    refine mem_of_removeFirst_ne hrem hmsg fun heq => hack ?_
    exact ⟨c, phase, data, ht, hphase, hbox.symm, hevent, heq ▸ hparse⟩
  | swept now ht => exact absurd trivial (hsweep _ ht)
  | _ => exact h.of_same rfl

/-- A deposit answered 202 is in its queue. -/
theorem queued_of_accepted (hd : Did s n e s') (hnew : (id, msg) ∈ s'.accepted)
    (hold : (id, msg) ∉ s.accepted) : s'.Queued id msg := by
  cases hd with
  | accepted id' body m limiter ht hid =>
    rcases mem_concat hnew with hnew | hnew
    · exact absurd hnew hold
    · cases hnew
      exact ⟨_, AList.lookup_insert _, List.mem_append_right _ List.mem_cons_self⟩
  | _ => exact absurd hnew hold

/-! ## Runs without a sweep -/

/-- No sweep is under way. -/
def NoSweep (s : Server) : Prop := ∀ (n : ℕ) (t : Task), s.tasks[n]? = some t → ¬ t.Sweeping

theorem NoSweep.of_set (h : s.NoSweep) {t t' : Task} (ht : s.tasks[n]? = some t)
    (htasks : s'.tasks = s.tasks.set n t') (hsweep : t'.Sweeping → t.Sweeping) : s'.NoSweep := by
  intro k u hu
  rw [htasks] at hu
  obtain ⟨-, rfl⟩ | ⟨-, hu⟩ := getElem?_set_cases ht hu
  · exact fun h' => h n t ht (hsweep h')
  · exact h k u hu

theorem NoSweep.did (h : s.NoSweep) (hd : Did s n e s') : s'.NoSweep := by
  cases hd with
  | quiet t t' app ht hq hq' hsweep happ => exact h.of_set ht rfl hsweep
  | acked c phase data acked m removed queue ht hphase hevent hack hid hrem =>
    exact h.of_set ht rfl False.elim
  | _ => exact h.of_set (by assumption) rfl False.elim

theorem NoSweep.step {l : Label} (h : s.NoSweep) (hl : l ≠ .tick) (hstep : s.step l = some s') :
    s'.NoSweep := by
  obtain ⟨t, -, htick, rfl⟩ | ⟨n, e, s₁, rfl, -, -, -, hd, rfl⟩ := step_cases hstep
  · intro k u hu
    obtain ⟨-, rfl⟩ | hu := getElem?_append_cases hu
    · exact fun hu => hl (htick hu)
    · exact h k u hu
  · exact fun k u hu => h.did hd k u hu

/-! ## First batches -/

/-- A connection that has collected no batch has sent nothing and is about to collect. -/
def Unopened (s : Server) : Prop :=
  ∀ (n : ℕ) (c : Connection) (phase : Phase), s.tasks[n]? = some (.deliver c phase) →
    c.batches = [] → c.sent = [] ∧ phase = .collect

theorem Unopened.of_set (h : s.Unopened) {t t' : Task} (ht : s.tasks[n]? = some t)
    (htasks : s'.tasks = s.tasks.set n t')
    (hnew : ∀ c phase, t' = .deliver c phase → c.batches = [] → c.sent = [] ∧ phase = .collect) :
    s'.Unopened := by
  intro k c phase hc
  rw [htasks] at hc
  obtain ⟨-, heq⟩ | ⟨-, hc⟩ := getElem?_set_cases ht hc
  · exact hnew c phase heq.symm
  · exact h k c phase hc

theorem Unopened.did (h : s.Unopened) (hd : Did s n e s') : s'.Unopened := by
  cases hd with
  | quiet t t' app ht hq hq' hsweep happ =>
    exact h.of_set ht rfl fun c phase heq => absurd heq (hq'.ne_deliver c phase)
  | registered id m ht hid =>
    refine h.of_set ht rfl fun c phase heq _ => ?_
    cases heq
    exact ⟨rfl, rfl⟩
  | collected c m ht hid hreg =>
    refine h.of_set ht rfl fun c' phase heq hnone => ?_
    cases heq
    exact absurd hnone (by simp)
  | wrote c frame rest ht =>
    refine h.of_set ht rfl fun c' phase heq hnone => ?_
    cases heq
    cases (h n c _ ht hnone).2
  | parked c ht =>
    refine h.of_set ht rfl fun c' phase heq hnone => ?_
    cases heq
    cases (h n c _ ht hnone).2
  | woken c ht hwake =>
    refine h.of_set ht rfl fun c' phase heq hnone => ?_
    cases heq
    cases (h n c _ ht hnone).2
  | resumed c phase phase' ht hphase hphase' =>
    refine h.of_set ht rfl fun c' phase'' heq hnone => ?_
    cases heq
    have hcollect := (h n c _ ht hnone).2
    rcases hphase with rfl | rfl <;> cases hcollect
  | acked c phase data acked m removed queue ht hphase hevent hack hid hrem =>
    refine h.of_set ht rfl fun c' phase'' heq hnone => ?_
    cases heq
    have hcollect := (h n c _ ht hnone).2
    rcases hphase with rfl | rfl <;> cases hcollect
  | _ => exact h.of_set (by assumption) rfl fun _ _ heq => by cases heq

theorem Unopened.step {l : Label} (h : s.Unopened) (hstep : s.step l = some s') : s'.Unopened := by
  obtain ⟨t, hq, -, rfl⟩ | ⟨n, e, s₁, rfl, -, -, -, hd, rfl⟩ := step_cases hstep
  · intro k c phase hc
    obtain ⟨-, heq⟩ | hc := getElem?_append_cases hc
    · exact absurd heq.symm (hq.ne_deliver c phase)
    · exact h k c phase hc
  · exact fun k c phase hc => h.did hd k c phase hc

/-- The first batch of a connection is the whole queue. -/
theorem first_batch (h : s.Unopened) {c c' : Connection} {phase phase' : Phase}
    (hc : s.tasks[n]? = some (.deliver c phase)) (hnone : c.batches = [])
    (hstep : s.step (.act n e) = some s') (hc' : s'.tasks[n]? = some (.deliver c' phase')) :
    ∃ m, s.app.boxes.lookup c.mailbox = some m ∧
      c'.batches = [m.queue.map fun msg => deliveryFrame msg.id msg.bytes] := by
  obtain ⟨hsent, rfl⟩ := h n c phase hc hnone
  obtain ⟨hne, -⟩ | ⟨m, hid, -, hbatches⟩ := batches_of_act hc hstep hc'
  · exact absurd rfl hne
  · refine ⟨m, hid, ?_⟩
    rw [hbatches, hnone, hsent, Mailbox.unsent_nil]
    rfl

/-! ## The theorem -/

/-- What a run keeps of the deposits. -/
def Retaining (s : Server) : Prop := s.Kept ∧ s.Unopened

theorem retaining_start (cfg : Config) (hasher : Bytes → UInt64) : (start cfg hasher).Retaining :=
  ⟨fun _ _ h => (by cases h), fun _ _ _ h => (by cases h)⟩

theorem retained_step {l : Label} (id : String) (msg : QueuedMsg)
    (h : s.NoSweep ∧ ((id, msg) ∈ s.accepted → s.Queued id msg))
    (hl : ¬ (l = .tick ∨ (id, msg) ∈ s.accepted ∧ (s.Acks id msg.id l ∨ s.Deletes id l)))
    (hstep : s.step l = some s') :
    s'.NoSweep ∧ ((id, msg) ∈ s'.accepted → s'.Queued id msg) := by
  refine ⟨h.1.step (fun heq => hl (.inl heq)) hstep, fun hacc' => ?_⟩
  obtain ⟨task, -, -, rfl⟩ | ⟨n, e, s₁, rfl, -, -, -, hd, rfl⟩ := step_cases hstep
  · exact (h.2 hacc').of_same rfl
  · by_cases hacc : (id, msg) ∈ s.accepted
    · have hacks : ¬ s.Acks id msg.id (.act n e) := fun ha => hl (.inr ⟨hacc, .inl ha⟩)
      have hdel : ¬ s.Deletes id (.act n e) := fun ha => hl (.inr ⟨hacc, .inr ha⟩)
      exact ((h.2 hacc).did hd hacks hdel fun task htask => h.1 n task htask).of_same rfl
    · exact (queued_of_accepted hd hacc' hacc).of_same rfl

/-- **Accepted blobs are retained.** In every state of every run without a sweep: each queue holds
deposits of its mailbox id, byte for byte and in deposit order; every deposit answered 202 is still in
its queue, unless since its acceptance an ack with its id was handled on a connection of that mailbox or
the mailbox was deleted; and the first batch a connection collects is the whole queue. -/
theorem blobs_retained (cfg : Config) (hasher : Bytes → UInt64) (ls : List Label) (s : Server)
    (hrun : run step (start cfg hasher) ls = some s) (hsweep : Label.tick ∉ ls) :
    (∀ id m, s.app.boxes.lookup id = some m → m.queue.Sublist (s.deposits id)) ∧
      (∀ id msg, (id, msg) ∈ s.accepted → s.Queued id msg ∨
        ∃ done l rest t, ls = done ++ l :: rest ∧ run step (start cfg hasher) done = some t ∧
          (id, msg) ∈ t.accepted ∧ (t.Acks id msg.id l ∨ t.Deletes id l)) ∧
      ∀ n e s' c c' phase phase', s.tasks[n]? = some (.deliver c phase) → c.batches = [] →
        s.step (.act n e) = some s' → s'.tasks[n]? = some (.deliver c' phase') →
        ∃ m, s.app.boxes.lookup c.mailbox = some m ∧
          c'.batches = [m.queue.map fun msg => deliveryFrame msg.id msg.bytes] := by
  have hret : s.Retaining := run_invariant
    (fun _ _ _ h (_ : True) hstep => ⟨h.1.step hstep, h.2.step hstep⟩) (retaining_start cfg hasher)
    (Along.of_forall fun _ _ => trivial) hrun
  refine ⟨hret.1, fun id msg hmsg => ?_, fun n e s' c c' phase phase' hc hnone hstep hc' =>
    first_batch hret.2 hc hnone hstep hc'⟩
  -- follow the message from its acceptance on: it stays until one of the marked steps
  obtain hend | ⟨done, l, rest, t, hls, ht, hbrk⟩ := holds_or_broken
    (fun _ _ _ h hl hstep => retained_step id msg h hl hstep)
    ⟨fun _ _ h => (by cases h), fun h => (by cases h)⟩ hrun
  · exact .inl (hend.2 hmsg)
  · rcases hbrk with rfl | ⟨hacc, hbrk⟩
    · refine absurd ?_ hsweep
      rw [hls]
      exact List.mem_append_right _ List.mem_cons_self
    · exact .inr ⟨done, l, rest, t, hls, ht, hacc, hbrk⟩

/-- Two blobs are deposited, a subscriber receives both and acks the first. -/
def firstAcked : List Label :=
  served (.put localhost idA) 0 2 1 ++ served (.deposit localhost idA (blobOf 7)) 1 2 2 1 ++
    served (.deposit localhost idA (blobOf 8)) 2 2 3 2 ++ served (.subscribe idA) 3 7 4 ++
    [.act 3 (envAt 6 0 (.binary (0x02 :: (msgIdOf 1).1)))]

/-- The first blob is gone, the second still queued, and both had been accepted. -/
theorem first_acked_retained :
    ∃ s, run step smallRelay firstAcked = some s ∧
      (s.app.boxes.lookup idA).map Mailbox.queue = some [⟨msgIdOf 2, blobOf 8, 3⟩] ∧
      ∀ m, s.app.boxes.lookup idA = some m → m.queue.Sublist (s.deposits idA) := by
  obtain ⟨s, hs, hqueue⟩ : ∃ s, run step smallRelay firstAcked = some s ∧
      (s.app.boxes.lookup idA).map Mailbox.queue = some [⟨msgIdOf 2, blobOf 8, 3⟩] := ⟨_, rfl, rfl⟩
  exact ⟨s, hs, hqueue, fun m hm =>
    (blobs_retained smallConfig (fun _ => 0) firstAcked s hs (by simp [firstAcked, served])).1 idA m hm⟩

end Server

end Titlan.Relay
