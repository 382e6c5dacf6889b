import Titlan.Relay.Server

/-! # What a step of the relay does

One step of one task, sorted by what it does to the mailbox table, the byte count and the connections.
Everything said later about runs of the relay goes through this list. -/

namespace Titlan.Relay

open Foundation

/-! ## Sections -/

/-- The table, the byte count and the configuration are as they were. -/
structure AppState.SameBoxes (s s' : AppState) : Prop where
  cfg : s'.cfg = s.cfg
  boxes : s'.boxes = s.boxes
  globalBytes : s'.globalBytes = s.globalBytes
  underflowed : s'.underflowed = s.underflowed

theorem AppState.SameBoxes.refl (s : AppState) : s.SameBoxes s := ⟨rfl, rfl, rfl, rfl⟩

/-- The table after an accepted deposit. -/
def AppState.queued (s : AppState) (id : String) (mailbox : Mailbox) (m : QueuedMsg) (now : ℕ) :
    AppState :=
  { s with
    globalBytes := s.globalBytes + m.bytes.length
    boxes := s.boxes.insert id { mailbox with
      queuedBytes := mailbox.queuedBytes + m.bytes.length
      queue := mailbox.queue ++ [m]
      lastActivity := some now } }

/-- The table after an ack that found its message. -/
def AppState.unqueued (s : AppState) (id : String) (mailbox : Mailbox) (removed : QueuedMsg)
    (queue : List QueuedMsg) (now : ℕ) : AppState :=
  { s with
    boxes := s.boxes.insert id { mailbox with
      queue
      queuedBytes := mailbox.queuedBytes - removed.bytes.length
      lastActivity := some now }
    globalBytes := s.globalBytes - removed.bytes.length
    underflowed := s.underflowed || decide (mailbox.queuedBytes < removed.bytes.length) ||
      decide (s.globalBytes < removed.bytes.length) }

/-- The table after a connection has registered. -/
def AppState.subscribed (s : AppState) (id : String) (mailbox : Mailbox) (tx now : ℕ) : AppState :=
  { s with boxes := s.boxes.insert id { mailbox with notify := some tx, lastActivity := some now } }

/-- A new connection has sent nothing. -/
theorem Mailbox.unsent_nil (m : Mailbox) :
    m.unsent [] = m.queue.map fun m => deliveryFrame m.id m.bytes := by
  have hall : m.queue.filter (QueuedMsg.notAmong []) = m.queue :=
    List.filter_eq_self.mpr fun msg _ => decide_eq_true (List.not_mem_nil : msg.id.val ∉ [])
  rw [unsent, hall]

/-- A deposit under the lock is refused, or accepted into an existing mailbox. -/
theorem AppState.queueDeposit_cases (s : AppState) (id : String) (body : Bytes) (msgId : MsgId)
    (minute retryAfter : ℕ) (now : Instants) :
    (∃ r s', s.queueDeposit id body msgId minute retryAfter now = (r, s', none) ∧ r ≠ .accepted ∧
        s.SameBoxes s') ∨
      ∃ mailbox limiter, s.boxes.lookup id = some mailbox ∧
        mailbox.queue.length < s.cfg.mailboxMaxMessages ∧
        mailbox.queuedBytes + body.length ≤ s.cfg.mailboxMaxBytes ∧
        s.queueDeposit id body msgId minute retryAfter now =
          (.accepted, ({ s with boxLimiter := limiter } : AppState).queued id mailbox
            ⟨msgId, body, now.t₁⟩ now.t₂, mailbox.notify) := by
  unfold queueDeposit
  cases hbox : s.boxes.lookup id with
  | none => exact .inl ⟨_, _, rfl, by simp, .refl s⟩
  | some mailbox =>
    simp only
    split
    · exact .inl ⟨_, _, rfl, by simp, ⟨rfl, rfl, rfl, rfl⟩⟩
    · split
      · exact .inl ⟨_, _, rfl, by simp, ⟨rfl, rfl, rfl, rfl⟩⟩
      · rename_i hroom
        obtain ⟨hmessages, hbytes⟩ := not_or.mp hroom
        exact .inr ⟨mailbox, (s.boxLimiter.admitDeposit s.cfg id minute now.t₀).2, rfl,
          Nat.lt_of_not_le hmessages, Nat.le_of_not_lt hbytes, rfl⟩

/-- An ack changes nothing, or takes the first message with its id out of the queue. -/
theorem AppState.handleAck_cases (s : AppState) (id : String) (data : Bytes) (now : ℕ) :
    s.handleAck id data now = s ∨
      ∃ acked mailbox removed queue, parseAckFrame data = some acked ∧
        s.boxes.lookup id = some mailbox ∧ removeFirst acked mailbox.queue = some (removed, queue) ∧
        s.handleAck id data now = s.unqueued id mailbox removed queue now := by
  unfold handleAck
  cases hack : parseAckFrame data with
  | none => exact .inl rfl
  | some acked =>
    cases hbox : s.boxes.lookup id with
    | none => exact .inl rfl
    | some mailbox =>
      cases hrem : removeFirst acked mailbox.queue with
      | none => exact .inl (by simp only [hrem])
      | some out =>
        exact .inr ⟨acked, mailbox, out.1, out.2, rfl, rfl, hrem, by simp only [hrem]; rfl⟩

/-- What `removeFirst` takes out and what it leaves. -/
theorem AppState.removeFirst_eq {acked : MsgId} {queue rest : List QueuedMsg} {m : QueuedMsg}
    (h : removeFirst acked queue = some (m, rest)) :
    m.id = acked ∧ ∃ before after, queue = before ++ m :: after ∧ rest = before ++ after := by
  induction queue generalizing m rest with
  | nil => cases h
  | cons head queue ih =>
    rw [removeFirst] at h
    by_cases hid : head.id = acked
    · rw [if_pos hid] at h
      cases h
      exact ⟨hid, [], _, rfl, rfl⟩
    · rw [if_neg hid] at h
      obtain ⟨⟨m', rest'⟩, hrec, hout⟩ := Option.map_eq_some_iff.mp h
      cases hout
      obtain ⟨hm, before, after, hqueue, hrest⟩ := ih hrec
      refine ⟨hm, head :: before, after, ?_, ?_⟩
      · rw [hqueue]
        rfl
      · rw [hrest]
        rfl

/-! ## Steps -/

/-- The task neither owns a connection nor has bytes to subtract. -/
def Task.Quiet : Task → Prop
  | .deleteSubtract _ _ | .deliver _ _ | .closed _ => False
  | _ => True

/-- A quiet task is no connection. -/
theorem Task.Quiet.ne_deliver {t : Task} (h : t.Quiet) (c : Connection) (phase : Phase) :
    t ≠ .deliver c phase := by
  rintro rfl
  exact h

/-- The task belongs to a sweep that has not gone over the table yet. -/
def Task.Sweeping : Task → Prop
  | .sweepStart | .sweepBoxes _ => True
  | _ => False

namespace Server

variable {s s' : Server} {n : ℕ} {e : Env}

/-- What one step of task `n` can do. -/
inductive Did (s : Server) (n : ℕ) (e : Env) : Server → Prop
  /-- A step of a quiet task that leaves the table alone. -/
  | quiet (t t' : Task) (app : AppState) (ht : s.tasks[n]? = some t) (hq : t.Quiet) (hq' : t'.Quiet)
    (hsweep : t'.Sweeping → t.Sweeping) (happ : s.app.SameBoxes app) : Did s n e (s.become n app t')
  | opened (t : Task) (id : String) (r : Response) (ht : s.tasks[n]? = some t) (hq : t.Quiet)
    (hid : s.app.boxes.lookup id = none) (hcap : s.app.boxes.size < s.app.cfg.maxMailboxes) :
    Did s n e (s.become n { s.app with boxes := s.app.boxes.insert id (.opened e.now.t₀) } (.answered r))
  | accepted (id : String) (body : Bytes) (mailbox : Mailbox) (limiter : BoxLimiter)
    (ht : s.tasks[n]? = some (.depositQueue id body)) (hid : s.app.boxes.lookup id = some mailbox)
    (hmessages : mailbox.queue.length < s.app.cfg.mailboxMaxMessages)
    (hbytes : mailbox.queuedBytes + body.length ≤ s.app.cfg.mailboxMaxBytes) :
    Did s n e { (s.become n (({ s.app with boxLimiter := limiter } : AppState).queued id mailbox
        ⟨e.msgId, body, e.now.t₁⟩ e.now.t₂) (.answered .accepted)).wake mailbox.notify with
      accepted := s.accepted ++ [(id, ⟨e.msgId, body, e.now.t₁⟩)] }
  | removed (id : String) (mailbox : Mailbox) (ht : s.tasks[n]? = some (.deleteRemove id))
    (hid : s.app.boxes.lookup id = some mailbox) :
    Did s n e (s.become n { s.app with boxes := s.app.boxes.erase id }
      (.deleteSubtract id mailbox.queuedBytes))
  | subtracted (id : String) (bytes : ℕ) (ht : s.tasks[n]? = some (.deleteSubtract id bytes)) :
    Did s n e (s.become n (s.app.subtractGlobal bytes) (.deleteForget id))
  /-- A new connection finds no mailbox. -/
  | missed (id : String) (ht : s.tasks[n]? = some (.deliverRegister id)) :
    Did s n e (s.become n s.app (.closed ⟨id, [], [], []⟩))
  | registered (id : String) (mailbox : Mailbox) (ht : s.tasks[n]? = some (.deliverRegister id))
    (hid : s.app.boxes.lookup id = some mailbox) :
    Did s n e (s.become n (s.app.subscribed id mailbox n e.now.t₀)
      (.deliver ⟨id, [], [], []⟩ .collect))
  | collected (c : Connection) (mailbox : Mailbox) (ht : s.tasks[n]? = some (.deliver c .collect))
    (hid : s.app.boxes.lookup c.mailbox = some mailbox) (hreg : mailbox.notify = some n) :
    Did s n e (s.become n s.app (.deliver
      { c with batches := c.batches ++ [mailbox.unsent c.sent] } (.send (mailbox.unsent c.sent))))
  | left (c : Connection) (phase : Phase) (ht : s.tasks[n]? = some (.deliver c phase)) :
    Did s n e (s.become n s.app (.closed c))
  | wrote (c : Connection) (frame : Bytes) (rest : List Bytes)
    (ht : s.tasks[n]? = some (.deliver c (.send (frame :: rest)))) :
    Did s n e (s.become n s.app (.deliver
      { c with sent := frameId frame :: c.sent, frames := c.frames ++ [frame] } (.send rest)))
  | parked (c : Connection) (ht : s.tasks[n]? = some (.deliver c (.send []))) :
    Did s n e (s.become n s.app (.deliver c .wait))
  | woken (c : Connection) (ht : s.tasks[n]? = some (.deliver c .wait)) (hwake : s.wakes n ≠ 0) :
    Did s n e ((s.takeWake n).become n s.app (.deliver c .collect))
  /-- The client has sent something else, or nothing more. -/
  | resumed (c : Connection) (phase phase' : Phase) (ht : s.tasks[n]? = some (.deliver c phase))
    (hphase : phase = .wait ∨ phase = .drain) (hphase' : phase' = .collect ∨ phase' = .drain) :
    Did s n e (s.become n s.app (.deliver c phase'))
  | acked (c : Connection) (phase : Phase) (data : Bytes) (acked : MsgId) (mailbox : Mailbox)
    (removed : QueuedMsg) (queue : List QueuedMsg) (ht : s.tasks[n]? = some (.deliver c phase))
    (hphase : phase = .wait ∨ phase = .drain) (hevent : e.event = .binary data)
    (hack : parseAckFrame data = some acked) (hid : s.app.boxes.lookup c.mailbox = some mailbox)
    (hrem : AppState.removeFirst acked mailbox.queue = some (removed, queue)) :
    Did s n e (s.become n (s.app.unqueued c.mailbox mailbox removed queue e.now.t₀) (.deliver c .drain))
  | swept (now : ℕ) (ht : s.tasks[n]? = some (.sweepBoxes now)) :
    Did s n e (s.become n (s.app.sweepBoxes now) (.pruneSources now))

@[simp] theorem wake_none (s : Server) : s.wake none = s := by
  simp [wake]

/-- Most quiet steps leave the whole table as it is, and none but `sweepStart` begins a sweep. -/
theorem did_quiet {t t' : Task} {app : AppState} (ht : s.tasks[n]? = some t)
    (h : t.Quiet ∧ t'.Quiet ∧ ¬ t'.Sweeping) (happ : s.app.SameBoxes app) :
    Did s n e (s.become n app t') :=
  .quiet t t' app ht h.1 h.2.1 (fun hsweep => (h.2.2 hsweep).elim) happ

variable {id : String}

theorem did_depositAdmit {ip : IpAddr} {body : Bytes}
    (ht : s.tasks[n]? = some (.depositAdmit ip id body)) :
    Did s n e (s.depositAdmit n e ip id body) := by
  unfold depositAdmit
  split
  · exact did_quiet ht ⟨trivial, trivial, not_false⟩ ⟨rfl, rfl, rfl, rfl⟩
  · split
    · exact did_quiet ht ⟨trivial, trivial, not_false⟩ ⟨rfl, rfl, rfl, rfl⟩
    · simp only
      split
      · exact did_quiet ht ⟨trivial, trivial, not_false⟩ ⟨rfl, rfl, rfl, rfl⟩
      · split <;> exact did_quiet ht ⟨trivial, trivial, not_false⟩ ⟨rfl, rfl, rfl, rfl⟩

theorem did_depositQueue {body : Bytes}
    (ht : s.tasks[n]? = some (.depositQueue id body)) : Did s n e (s.depositQueue n e id body) := by
  unfold depositQueue
  obtain ⟨r, app, hout, hr, hsame⟩ | ⟨mailbox, limiter, hid, hmessages, hbytes, hout⟩ :=
    s.app.queueDeposit_cases id body e.msgId e.minute e.retryAfter e.now
  · simp only [hout, if_neg hr, wake_none]
    exact did_quiet ht ⟨trivial, trivial, not_false⟩ hsame
  · simp only [hout, if_true]
    exact .accepted id body mailbox limiter ht hid hmessages hbytes

theorem did_ack {c : Connection} {phase : Phase} {data : Bytes}
    (ht : s.tasks[n]? = some (.deliver c phase)) (hphase : phase = .wait ∨ phase = .drain)
    (hevent : e.event = .binary data) :
    Did s n e (s.become n (s.app.handleAck c.mailbox data e.now.t₀) (.deliver c .drain)) := by
  obtain hsame | ⟨acked, mailbox, removed, queue, hack, hid, hrem, hout⟩ :=
    s.app.handleAck_cases c.mailbox data e.now.t₀
  · rw [hsame]
    exact .resumed c phase .drain ht hphase (.inr rfl)
  · rw [hout]
    exact .acked c phase data acked mailbox removed queue ht hphase hevent hack hid hrem

theorem did_deliver {c : Connection} {phase : Phase} (ht : s.tasks[n]? = some (.deliver c phase))
    (h : s.deliver n e c phase = some s') : Did s n e s' := by
  cases phase with
  | collect =>
    unfold deliver AppState.collect at h
    cases hid : s.app.boxes.lookup c.mailbox with
    | none =>
      simp only [hid] at h
      cases h
      exact .left c .collect ht
    | some mailbox =>
      by_cases hreg : mailbox.notify = some n
      · simp only [hid, hreg, if_true] at h
        cases h
        exact .collected c mailbox ht hid hreg
      · simp only [hid, hreg, if_false] at h
        cases h
        exact .left c .collect ht
  | send rest =>
    cases rest with
    | nil =>
      cases h
      exact .parked c ht
    | cons frame rest =>
      unfold deliver at h
      by_cases hw : e.written = true
      · simp only [hw, if_true] at h
        cases h
        exact .wrote c frame rest ht
      · simp only [hw] at h
        cases h
        exact .left c _ ht
  | wait =>
    unfold deliver at h
    cases hevent : e.event with
    | wake =>
      simp only [hevent] at h
      by_cases hzero : s.wakes n = 0
      · rw [if_pos hzero] at h
        cases h
      · rw [if_neg hzero] at h
        cases h
        exact .woken c ht hzero
    | binary data =>
      simp only [hevent] at h
      cases h
      exact did_ack ht (.inl rfl) hevent
    | close =>
      simp only [hevent] at h
      cases h
      exact .left c .wait ht
    | other =>
      simp only [hevent] at h
      cases h
      exact .resumed c .wait .collect ht (.inl rfl) (.inl rfl)
    | failed =>
      simp only [hevent] at h
      cases h
      exact .left c .wait ht
    | nothing =>
      simp only [hevent] at h
      cases h
  | drain =>
    unfold deliver at h
    cases hevent : e.event with
    | wake =>
      simp only [hevent] at h
      cases h
    | binary data =>
      simp only [hevent] at h
      cases h
      exact did_ack ht (.inr rfl) hevent
    | close =>
      simp only [hevent] at h
      cases h
      exact .left c .drain ht
    | other =>
      simp only [hevent] at h
      cases h
      exact .resumed c .drain .drain ht (.inr rfl) (.inr rfl)
    | failed =>
      simp only [hevent] at h
      cases h
      exact .resumed c .drain .collect ht (.inr rfl) (.inl rfl)
    | nothing =>
      simp only [hevent] at h
      cases h
      exact .resumed c .drain .collect ht (.inr rfl) (.inl rfl)

theorem did_create (ht : s.tasks[n]? = some .createInsert)
    (h : s.perform n e .createInsert = some s') : Did s n e s' := by
  simp only [perform, AppState.createMailbox] at h
  by_cases hcap : s.app.cfg.maxMailboxes ≤ s.app.boxes.size
  · rw [if_pos hcap] at h
    cases h
    exact did_quiet ht ⟨trivial, trivial, not_false⟩ ⟨rfl, rfl, rfl, rfl⟩
  · rw [if_neg hcap] at h
    obtain ⟨out, hout, rfl⟩ := Option.map_eq_some_iff.mp h
    obtain ⟨id, hfind, rfl⟩ := Option.map_eq_some_iff.mp hout
    have hfree : id ∉ s.app.boxes := by simpa using List.find?_some hfind
    exact .opened _ id _ ht trivial (AList.lookup_eq_none.mpr hfree) (Nat.lt_of_not_le hcap)

theorem did_put (ht : s.tasks[n]? = some (.putInsert id))
    (h : s.perform n e (.putInsert id) = some s') : Did s n e s' := by
  simp only [perform, AppState.putMailbox] at h
  by_cases hcap : s.app.cfg.maxMailboxes ≤ s.app.boxes.size
  · simp only [hcap, if_true] at h
    cases h
    exact did_quiet ht ⟨trivial, trivial, not_false⟩ ⟨rfl, rfl, rfl, rfl⟩
  · by_cases hid : id ∈ s.app.boxes
    · simp only [hcap, hid, if_true, if_false] at h
      cases h
      exact did_quiet ht ⟨trivial, trivial, not_false⟩ ⟨rfl, rfl, rfl, rfl⟩
    · simp only [hcap, hid, if_true, if_false] at h
      cases h
      exact .opened _ id _ ht trivial (AList.lookup_eq_none.mpr hid) (Nat.lt_of_not_le hcap)

theorem did_delete (ht : s.tasks[n]? = some (.deleteRemove id))
    (h : s.perform n e (.deleteRemove id) = some s') : Did s n e s' := by
  simp only [perform, AppState.removeMailbox] at h
  split at h
  · cases h
    exact did_quiet ht ⟨trivial, trivial, not_false⟩ ⟨rfl, rfl, rfl, rfl⟩
  · cases hid : s.app.boxes.lookup id with
    | none =>
      simp only [hid, Option.map_none, Option.elim_none] at h
      cases h
      refine did_quiet ht ⟨trivial, trivial, not_false⟩ ⟨rfl, ?_, rfl, rfl⟩
      exact AList.ext (List.kerase_of_notMem_keys (AList.lookup_eq_none.mp hid))
    | some mailbox =>
      simp only [hid, Option.map_some, Option.elim_some] at h
      cases h
      exact .removed id mailbox ht hid

theorem did_register (ht : s.tasks[n]? = some (.deliverRegister id))
    (h : s.perform n e (.deliverRegister id) = some s') : Did s n e s' := by
  cases hid : s.app.boxes.lookup id with
  | none =>
    simp only [perform, AppState.register, hid, Option.map_none] at h
    cases h
    exact .missed id ht
  | some mailbox =>
    simp only [perform, AppState.register, hid, Option.map_some] at h
    cases h
    exact .registered id mailbox ht hid

/-- **Inversion.** Every step of a task is one of these. -/
theorem did_of_perform {t : Task} (ht : s.tasks[n]? = some t) (h : s.perform n e t = some s') :
    Did s n e s' := by
  cases t with
  | createInsert => exact did_create ht h
  | depositAdmit ip id body => cases h; exact did_depositAdmit ht
  | depositQueue id body => cases h; exact did_depositQueue ht
  | putInsert id => exact did_put ht h
  | deleteRemove id => exact did_delete ht h
  | deliverRegister id => exact did_register ht h
  | deliver c phase => exact did_deliver ht h
  | deleteSubtract id bytes => cases h; exact .subtracted id bytes ht
  | sweepBoxes now => cases h; exact .swept now ht
  | createAdmit ip =>
    cases h
    refine .quiet _ _ _ ht trivial ?_ ?_ ⟨rfl, rfl, rfl, rfl⟩
    · split <;> trivial
    · split <;> exact False.elim
  | putAdmit ip id =>
    simp only [perform] at h
    split at h
    · cases h
      exact did_quiet ht ⟨trivial, trivial, not_false⟩ ⟨rfl, rfl, rfl, rfl⟩
    · cases h
      refine .quiet _ _ _ ht trivial ?_ ?_ ⟨rfl, rfl, rfl, rfl⟩
      · split <;> trivial
      · split <;> exact False.elim
  | deleteForget id => cases h; exact did_quiet ht ⟨trivial, trivial, not_false⟩ ⟨rfl, rfl, rfl, rfl⟩
  | subscribeLook id =>
    simp only [perform] at h
    split at h <;> (cases h; exact did_quiet ht ⟨trivial, trivial, not_false⟩ ⟨rfl, rfl, rfl, rfl⟩)
  | subscribeAdmit id =>
    cases h
    refine .quiet _ _ _ ht trivial ?_ ?_ ⟨rfl, rfl, rfl, rfl⟩
    · split <;> trivial
    · split <;> exact False.elim
  | sweepStart => cases h; exact .quiet _ _ _ ht trivial trivial (fun _ => trivial) (.refl _)
  | pruneSources now => cases h; exact did_quiet ht ⟨trivial, trivial, not_false⟩ ⟨rfl, rfl, rfl, rfl⟩
  | pruneBoxes now => cases h; exact did_quiet ht ⟨trivial, trivial, not_false⟩ ⟨rfl, rfl, rfl, rfl⟩
  | answered r => cases h
  | closed c => cases h
  | swept => cases h

theorem quiet_task (r : Request) : r.task.Quiet := by
  cases r <;> trivial

theorem not_sweeping_task (r : Request) : ¬ r.task.Sweeping := by
  cases r <;> exact id

/-- **Inversion of a step of the system.** -/
theorem step_cases {l : Label} (h : s.step l = some s') :
    (∃ t : Task, t.Quiet ∧ (t.Sweeping → l = .tick) ∧ s' = { s with tasks := s.tasks ++ [t] }) ∨
      ∃ n e s₁, l = .act n e ∧ s.clock ≤ e.now.t₀ ∧ e.now.t₀ ≤ e.now.t₁ ∧ e.now.t₁ ≤ e.now.t₂ ∧
        Did s n e s₁ ∧ s' = { s₁ with clock := e.now.t₂ } := by
  cases l with
  | request r =>
    cases h
    exact .inl ⟨r.task, quiet_task r, fun hr => absurd hr (not_sweeping_task r), rfl⟩
  | tick =>
    cases h
    exact .inl ⟨.sweepStart, trivial, fun _ => rfl, rfl⟩
  | act n e =>
    simp only [step] at h
    split at h
    · rename_i hclock
      obtain ⟨t, ht, h⟩ := Option.bind_eq_some_iff.mp h
      obtain ⟨s₁, hs₁, rfl⟩ := Option.map_eq_some_iff.mp h
      exact .inr ⟨n, e, s₁, rfl, hclock.1, hclock.2.1, hclock.2.2, did_of_perform ht hs₁, rfl⟩
    · cases h

theorem did_of_act (h : s.step (.act n e) = some s') :
    ∃ s₁, Did s n e s₁ ∧ s' = { s₁ with clock := e.now.t₂ } := by
  simp only [step] at h
  split at h
  · obtain ⟨t, ht, h⟩ := Option.bind_eq_some_iff.mp h
    obtain ⟨s₁, hs₁, rfl⟩ := Option.map_eq_some_iff.mp h
    exact ⟨s₁, did_of_perform ht hs₁, rfl⟩
  · cases h

/-- What a step of a connection that stays open does to its batches: it collects one as the registered
subscriber, or leaves them. -/
theorem batches_of_act {c c' : Connection} {phase phase' : Phase}
    (hc : s.tasks[n]? = some (.deliver c phase)) (hstep : s.step (.act n e) = some s')
    (hc' : s'.tasks[n]? = some (.deliver c' phase')) :
    (phase ≠ .collect ∧ c'.batches = c.batches) ∨
      ∃ m, s.app.boxes.lookup c.mailbox = some m ∧ m.notify = some n ∧
        c'.batches = c.batches ++ [m.unsent c.sent] := by
  obtain ⟨s₁, hd, rfl⟩ := did_of_act hstep
  have hc' : s₁.tasks[n]? = some (.deliver c' phase') := hc'
  have htask : ∀ u, s₁.tasks = s.tasks.set n u → u = .deliver c' phase' := by
    intro u htasks
    rw [htasks] at hc'
    obtain ⟨-, heq⟩ | ⟨hne, -⟩ := getElem?_set_cases hc hc'
    · exact heq.symm
    · exact absurd rfl hne
  cases hd with
  | collected c₁ m hc₁ hid hreg =>
    cases hc.symm.trans hc₁
    cases htask _ rfl
    exact .inr ⟨m, hid, hreg, rfl⟩
  | quiet t t' app ht hq hq' hsweep happ => cases hc.symm.trans ht; exact hq.elim
  | opened t id r ht hq hid => cases hc.symm.trans ht; exact hq.elim
  | left c₁ phase₁ hc₁ => cases htask _ rfl
  | wrote c₁ frame rest ht =>
    cases hc.symm.trans ht
    cases htask _ rfl
    exact .inl ⟨Phase.noConfusion, rfl⟩
  | parked c₁ ht =>
    cases hc.symm.trans ht
    cases htask _ rfl
    exact .inl ⟨Phase.noConfusion, rfl⟩
  | woken c₁ ht hwake =>
    cases hc.symm.trans ht
    cases htask _ rfl
    exact .inl ⟨Phase.noConfusion, rfl⟩
  | resumed c₁ phase₁ phase₂ ht hphase hphase' =>
    cases hc.symm.trans ht
    cases htask _ rfl
    rcases hphase with rfl | rfl <;> exact .inl ⟨Phase.noConfusion, rfl⟩
  | acked c₁ phase₁ data acked m removed queue ht hphase hevent hack hid hrem =>
    cases hc.symm.trans ht
    cases htask _ rfl
    rcases hphase with rfl | rfl <;> exact .inl ⟨Phase.noConfusion, rfl⟩
  | _ => cases hc.symm.trans (by assumption)

end Server

/-! ## One mailbox through one step -/

/-- What a step does to a mailbox it does not open or remove. -/
inductive Mailbox.Change (ttl : ℕ) (e : Env) (m : Mailbox) : Mailbox → Prop
  | same : Change ttl e m m
  | queued (msg : QueuedMsg) (bytes : ℕ) (hat : msg.depositedAt = e.now.t₁) :
    Change ttl e m { m with queue := m.queue ++ [msg], queuedBytes := bytes, lastActivity := some e.now.t₂ }
  | subscribed (tx : ℕ) : Change ttl e m { m with notify := some tx, lastActivity := some e.now.t₀ }
  | unqueued (queue : List QueuedMsg) (bytes : ℕ) (hsub : queue.Sublist m.queue) :
    Change ttl e m { m with queue, queuedBytes := bytes, lastActivity := some e.now.t₀ }
  | swept (now bytes : ℕ) (hidle : m.idle ttl now = false) :
    Change ttl e m { m with queue := m.kept ttl now, queuedBytes := bytes }

namespace Server

variable {s s' : Server} {n : ℕ} {e : Env} {id : String} {m m' : Mailbox}

theorem removeFirst_sublist {acked : MsgId} {queue rest : List QueuedMsg} {removed : QueuedMsg}
    (h : AppState.removeFirst acked queue = some (removed, rest)) : rest.Sublist queue := by
  obtain ⟨-, before, after, rfl, rfl⟩ := AppState.removeFirst_eq h
  exact (List.Sublist.refl before).append (List.sublist_cons_self removed after)

/-- What a sweep leaves of a mailbox. -/
theorem lookup_sweepBoxes {now : ℕ} (h : (s.app.sweepBoxes now).boxes.lookup id = some m') :
    ∃ m, s.app.boxes.lookup id = some m ∧ m.idle s.app.cfg.ttl now = false ∧
      m' = { m with
        queue := m.kept s.app.cfg.ttl now
        queuedBytes := m.queuedBytes - m.dropped s.app.cfg.ttl now } := by
  obtain ⟨m, hm, hsweep⟩ :=
    Option.bind_eq_some_iff.mp ((Table.lookup_retain _ s.app.boxes id).symm.trans h)
  obtain ⟨hidle, hm'⟩ := Option.ite_none_left_eq_some.mp hsweep
  exact ⟨m, hm, Bool.not_eq_true _ ▸ hidle, (Option.some.inj hm').symm⟩

/-- A mailbox in the table after a step was opened by it or has gone through a change. -/
theorem Did.row (hd : Did s n e s') (h : s'.app.boxes.lookup id = some m') :
    m' = .opened e.now.t₀ ∨ ∃ m, s.app.boxes.lookup id = some m ∧ m.Change s.app.cfg.ttl e m' := by
  have hsame (hrow : s.app.boxes.lookup id = some m') :
      m' = .opened e.now.t₀ ∨ ∃ m, s.app.boxes.lookup id = some m ∧ m.Change s.app.cfg.ttl e m' :=
    .inr ⟨m', hrow, .same⟩
  cases hd with
  | quiet t t' app ht hq hq' hsweep happ => exact hsame (happ.boxes ▸ h)
  | opened t id' r ht hq hid hcap =>
    rcases Table.lookup_insert_cases h with ⟨-, rfl⟩ | ⟨-, h⟩
    · exact .inl rfl
    · exact hsame h
  | accepted id' body m limiter ht hid hmessages hbytes =>
    rcases Table.lookup_insert_cases h with ⟨rfl, rfl⟩ | ⟨-, h⟩
    · exact .inr ⟨m, hid, .queued _ _ rfl⟩
    · exact hsame h
  | removed id' m ht hid => exact hsame (Table.lookup_of_erase h)
  | registered id' m ht hid =>
    rcases Table.lookup_insert_cases h with ⟨rfl, rfl⟩ | ⟨-, h⟩
    · exact .inr ⟨m, hid, .subscribed n⟩
    · exact hsame h
  | acked c phase data acked m removed queue ht hphase hevent hack hid hrem =>
    rcases Table.lookup_insert_cases h with ⟨rfl, rfl⟩ | ⟨-, h⟩
    · exact .inr ⟨m, hid, .unqueued queue _ (removeFirst_sublist hrem)⟩
    · exact hsame h
  | swept now ht =>
    obtain ⟨m, hm, hidle, rfl⟩ := lookup_sweepBoxes h
    exact .inr ⟨m, hm, .swept now _ hidle⟩
  | _ => exact hsame h

end Server

end Titlan.Relay
