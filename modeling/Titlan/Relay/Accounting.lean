import Mathlib.Data.List.TakeWhile
import Titlan.Relay.Steps

/-! # Byte accounting

The relay counts queued bytes twice: per mailbox, and once for the whole process. The two counts are
updated under different locking: a deposit, an ack and a sweep change both while they hold the table's
lock, a delete takes the mailbox out first and subtracts its bytes afterwards. Between any two steps the
counts agree with the queues, once the subtractions still outstanding are added. -/

namespace Titlan.Relay

open Foundation

/-- The bytes a task has still to subtract. -/
def Task.outstanding : Task → ℕ
  | .deleteSubtract _ bytes => bytes
  | _ => 0

theorem Task.Quiet.outstanding {t : Task} (h : t.Quiet) : t.outstanding = 0 := by
  cases t <;> first | rfl | exact h.elim

/-! ## Dates -/

/-- A mailbox's dates at an instant: its queue is sorted by the time of deposit, and its last activity lies
between every deposit still queued and the instant. -/
structure Mailbox.Dated (clock : ℕ) (m : Mailbox) : Prop where
  sorted : m.queue.Pairwise fun a b => a.depositedAt ≤ b.depositedAt
  active : ∃ last, m.lastActivity = some last ∧ last ≤ clock ∧ ∀ msg ∈ m.queue, msg.depositedAt ≤ last

namespace Mailbox.Dated

variable {clock : ℕ} {m m' : Mailbox} {e : Env} {ttl : ℕ}

theorem opened (now : ℕ) : (Mailbox.opened now).Dated now :=
  ⟨List.Pairwise.nil, now, rfl, Nat.le_refl now, fun _ h => by cases h⟩

theorem mono {clock' : ℕ} (h : m.Dated clock) (hle : clock ≤ clock') : m.Dated clock' := by
  obtain ⟨last, hlast, hclock, hqueue⟩ := h.active
  exact ⟨h.sorted, last, hlast, Nat.le_trans hclock hle, hqueue⟩

/-- **Step**: every change keeps the dates. -/
theorem change (h : m.Dated clock) (hc : m.Change ttl e m') (h₀ : clock ≤ e.now.t₀)
    (h₁ : e.now.t₀ ≤ e.now.t₁) (h₂ : e.now.t₁ ≤ e.now.t₂) : m'.Dated e.now.t₂ := by
  obtain ⟨last, hlast, hclock, hqueue⟩ := h.active
  have hold : ∀ msg ∈ m.queue, msg.depositedAt ≤ e.now.t₀ := fun msg hmsg =>
    Nat.le_trans (hqueue msg hmsg) (Nat.le_trans hclock h₀)
  cases hc with
  | same => exact h.mono (by omega)
  | queued msg bytes hat =>
    refine ⟨List.pairwise_append.mpr ⟨h.sorted, List.pairwise_singleton _ _, ?_⟩, _, rfl, Nat.le_refl _, ?_⟩
    · intro a ha b hb
      obtain rfl := List.mem_singleton.mp hb
      rw [hat]
      exact Nat.le_trans (hold a ha) h₁
    · intro a ha
      rcases mem_concat ha with ha | rfl
      · exact Nat.le_trans (hold a ha) (Nat.le_trans h₁ h₂)
      · rw [hat]
        exact h₂
  | subscribed tx => exact ⟨h.sorted, _, rfl, Nat.le_trans h₁ h₂, hold⟩
  | unqueued queue bytes hsub =>
    exact ⟨h.sorted.sublist hsub, _, rfl, Nat.le_trans h₁ h₂, fun msg hmsg => hold msg (hsub.subset hmsg)⟩
  | swept now bytes hidle =>
    have hsub : (m.kept ttl now).Sublist m.queue := List.dropWhile_sublist _
    exact ⟨h.sorted.sublist hsub, last, hlast, by omega, fun msg hmsg => hqueue msg (hsub.subset hmsg)⟩

/-- Every message of an idle mailbox has expired. -/
theorem expired_of_idle (h : m.Dated clock) {now : ℕ} (hidle : m.idle ttl now = true) :
    ∀ msg ∈ m.queue, msg.expired ttl now = true := by
  obtain ⟨last, hlast, -, hqueue⟩ := h.active
  intro msg hmsg
  have hle := hqueue msg hmsg
  simp only [idle, hlast, QueuedMsg.expired, decide_eq_true_eq] at hidle ⊢
  omega

/-- An idle mailbox is empty once the expired messages are popped. -/
theorem kept_of_idle (h : m.Dated clock) {now : ℕ} (hidle : m.idle ttl now = true) :
    m.kept ttl now = [] := by
  rw [Mailbox.kept, List.dropWhile_eq_nil_iff]
  exact h.expired_of_idle hidle

end Mailbox.Dated

namespace Server

/-- The bytes of deletes whose subtraction is outstanding. -/
def outstanding (s : Server) : ℕ := (s.tasks.map Task.outstanding).sum

/-- The counts are exact, and none of them ever went below zero. -/
structure Exact (s : Server) : Prop where
  mailbox : ∀ id m, s.app.boxes.lookup id = some m → m.queuedBytes = totalBytes m.queue
  global : s.app.globalBytes = s.app.boxes.total Mailbox.queuedBytes + s.outstanding
  underflow : s.app.underflowed = false

/-- Every mailbox in the table has its dates. -/
def Dated (s : Server) : Prop := ∀ id m, s.app.boxes.lookup id = some m → m.Dated s.clock

variable {s s' : Server} {n : ℕ} {e : Env} {id : String} {m m' : Mailbox} {t t' : Task}

/-! ## One task changes -/

theorem outstanding_set (ht : s.tasks[n]? = some t) (htasks : s'.tasks = s.tasks.set n t') :
    s'.outstanding + t.outstanding = s.outstanding + t'.outstanding := by
  unfold outstanding
  rw [htasks]
  exact Table.sum_map_set Task.outstanding ht t'

theorem outstanding_set_of_eq (ht : s.tasks[n]? = some t) (htasks : s'.tasks = s.tasks.set n t')
    (h : t.outstanding = t'.outstanding) : s'.outstanding = s.outstanding := by
  have hsum := outstanding_set ht htasks
  omega

theorem outstanding_become (ht : s.tasks[n]? = some t) (t' : Task) :
    (s.become n s.app t').outstanding + t.outstanding = s.outstanding + t'.outstanding :=
  outstanding_set ht rfl

/-! ## One row changes -/

/-- The counts stay exact when the table does not change. -/
theorem Exact.of_same (h : s.Exact) (hboxes : s'.app.boxes = s.app.boxes)
    (hglobal : s'.app.globalBytes + s.outstanding = s.app.globalBytes + s'.outstanding)
    (hflow : s'.app.underflowed = false) : s'.Exact where
  mailbox := by
    rw [hboxes]
    exact h.mailbox
  global := by
    have hold := h.global
    rw [hboxes]
    omega
  underflow := hflow

/-- The counts stay exact when a row changes along with the process count. -/
theorem Exact.of_row (h : s.Exact) (hid : s.app.boxes.lookup id = some m)
    (hboxes : s'.app.boxes = s.app.boxes.insert id m') (hbytes : m'.queuedBytes = totalBytes m'.queue)
    (hglobal : s'.app.globalBytes + m.queuedBytes = s.app.globalBytes + m'.queuedBytes)
    (hout : s'.outstanding = s.outstanding) (hflow : s'.app.underflowed = false) : s'.Exact where
  mailbox id' m'' hm := by
    rw [hboxes] at hm
    rcases Table.lookup_insert_cases hm with ⟨rfl, rfl⟩ | ⟨-, hm⟩
    · exact hbytes
    · exact h.mailbox id' m'' hm
  global := by
    have htotal := Table.total_insert_of_some Mailbox.queuedBytes hid m'
    have hold := h.global
    rw [hboxes]
    omega
  underflow := hflow

theorem totalBytes_append (xs ys : List QueuedMsg) :
    totalBytes (xs ++ ys) = totalBytes xs + totalBytes ys := by
  simp [totalBytes]

/-- The bytes of a message in a queue are among the queue's. -/
theorem totalBytes_removeFirst {acked : MsgId} {queue rest : List QueuedMsg} {removed : QueuedMsg}
    (h : AppState.removeFirst acked queue = some (removed, rest)) :
    totalBytes rest + removed.bytes.length = totalBytes queue := by
  obtain ⟨-, before, after, rfl, rfl⟩ := AppState.removeFirst_eq h
  simp only [totalBytes, List.map_append, List.map_cons, List.sum_append, List.sum_cons]
  omega

/-- A row never counts more than the process. -/
theorem Exact.row_le (h : s.Exact) (hid : s.app.boxes.lookup id = some m) :
    m.queuedBytes ≤ s.app.globalBytes := by
  have hle := Table.le_total Mailbox.queuedBytes hid
  have hglobal := h.global
  omega

/-- What is outstanding is still counted. -/
theorem Exact.outstanding_le (h : s.Exact) (ht : s.tasks[n]? = some t) :
    t.outstanding ≤ s.app.globalBytes := by
  have hsum := Table.sum_map_set Task.outstanding ht .sweepStart
  have hglobal := h.global
  have hnone : Task.sweepStart.outstanding = 0 := rfl
  rw [hnone, Nat.add_zero] at hsum
  unfold outstanding at hglobal
  omega

/-! ## The sweep -/

theorem popped_append_kept (m : Mailbox) (ttl now : ℕ) : m.popped ttl now ++ m.kept ttl now = m.queue :=
  List.takeWhile_append_dropWhile

theorem dropped_add_kept (m : Mailbox) (ttl now : ℕ) :
    m.dropped ttl now + totalBytes (m.kept ttl now) = totalBytes m.queue := by
  rw [Mailbox.dropped, ← totalBytes_append, popped_append_kept]

/-- The sweep keeps the counts exact: what it drops it subtracts, and a mailbox it removes is empty. -/
theorem Exact.sweepBoxes (h : s.Exact) (hs : s.Dated) (now : ℕ)
    (hboxes : s'.app = s.app.sweepBoxes now) (hout : s'.outstanding = s.outstanding) : s'.Exact := by
  have hrow : ∀ id m, s.app.boxes.lookup id = some m →
      m.dropped s.app.cfg.ttl now ≤ m.queuedBytes ∧
        ((m.sweep s.app.cfg.ttl now).elim 0 Mailbox.queuedBytes + m.dropped s.app.cfg.ttl now =
          m.queuedBytes) := by
    intro id m hid
    have hbytes := h.mailbox id m hid
    have hsplit := dropped_add_kept m s.app.cfg.ttl now
    refine ⟨by omega, ?_⟩
    unfold Mailbox.sweep
    by_cases hidle : m.idle s.app.cfg.ttl now = true
    · -- removed: its queue is empty by now, so nothing it counted is left
      rw [(hs id m hid).kept_of_idle hidle, totalBytes, List.map_nil, List.sum_nil] at hsplit
      rw [if_pos hidle, Option.elim_none]
      omega
    · rw [if_neg hidle, Option.elim_some]
      show m.queuedBytes - m.dropped s.app.cfg.ttl now + m.dropped s.app.cfg.ttl now = m.queuedBytes
      omega
  have htotal := Table.total_retain Mailbox.queuedBytes s.app.boxes fun id m hid => (hrow id m hid).2
  have hglobal := h.global
  constructor
  · intro id m' hid
    rw [hboxes] at hid
    obtain ⟨m, hm, -, rfl⟩ := lookup_sweepBoxes hid
    have hbytes := h.mailbox id m hm
    have hsplit := dropped_add_kept m s.app.cfg.ttl now
    show m.queuedBytes - m.dropped s.app.cfg.ttl now = totalBytes (m.kept s.app.cfg.ttl now)
    omega
  · rw [hboxes, hout]
    show s.app.globalBytes - s.app.boxes.total (Mailbox.dropped s.app.cfg.ttl now) =
      (s.app.boxes.retain (Mailbox.sweep s.app.cfg.ttl now)).total Mailbox.queuedBytes + s.outstanding
    omega
  · have hany : (s.app.boxes.entries.any fun row =>
        decide (row.2.queuedBytes < row.2.dropped s.app.cfg.ttl now)) = false := by
      rw [List.any_eq_false]
      intro row hmem
      have hle := (hrow row.1 row.2 (Table.lookup_of_mem hmem)).1
      simpa using hle
    have hle : ¬ s.app.globalBytes < s.app.boxes.total (Mailbox.dropped s.app.cfg.ttl now) := by
      omega
    rw [hboxes]
    simp only [AppState.sweepBoxes, h.underflow, hany, hle, decide_false, Bool.or_false]

/-! ## Steps -/

/-- A step that leaves table and counts alone, of a task that stays clear of deletes. -/
theorem Exact.of_app (h : s.Exact) (happ : s'.app = s.app) (ht : s.tasks[n]? = some t)
    (htasks : s'.tasks = s.tasks.set n t') (hout : t.outstanding = t'.outstanding) : s'.Exact := by
  have hsame : s'.outstanding = s.outstanding := outstanding_set_of_eq ht htasks hout
  refine h.of_same (by rw [happ]) ?_ (by rw [happ]; exact h.underflow)
  rw [happ, hsame]

/-- **Step: exactness.** -/
theorem Exact.did (h : s.Exact) (hs : s.Dated) (hd : Did s n e s') : s'.Exact := by
  have hglobal := h.global
  cases hd with
  | quiet t t' app ht hq hq' _ happ =>
    have hout : (s.become n app t').outstanding = s.outstanding :=
      outstanding_set_of_eq ht rfl (hq.outstanding.trans hq'.outstanding.symm)
    refine h.of_same happ.boxes ?_ (happ.underflowed.trans h.underflow)
    rw [hout]
    exact congrArg (· + s.outstanding) happ.globalBytes
  | opened t id r ht hq hid =>
    have htotal := Table.total_insert_of_none Mailbox.queuedBytes hid (.opened e.now.t₀)
    refine ⟨?_, ?_, h.underflow⟩
    · intro id' m hm
      rcases Table.lookup_insert_cases hm with ⟨-, rfl⟩ | ⟨-, hm⟩
      · rfl
      · exact h.mailbox id' m hm
    · have hout := outstanding_become ht (.answered r)
      have hnone : (Task.answered r).outstanding = 0 := rfl
      have hnew : (Mailbox.opened e.now.t₀).queuedBytes = 0 := rfl
      rw [hq.outstanding] at hout
      show s.app.globalBytes = Table.total Mailbox.queuedBytes (s.app.boxes.insert id _) +
        (s.become n s.app (.answered r)).outstanding
      omega
  | accepted id body m limiter ht hid =>
    have hbytes := h.mailbox id m hid
    refine h.of_row hid rfl ?_ ?_ (outstanding_set_of_eq ht rfl rfl) h.underflow
    · show m.queuedBytes + body.length = totalBytes (m.queue ++ [_])
      rw [totalBytes_append, hbytes]
      rfl
    · show s.app.globalBytes + body.length + m.queuedBytes =
        s.app.globalBytes + (m.queuedBytes + body.length)
      omega
  | removed id m ht hid =>
    -- the bytes leave the table and become outstanding
    have herase := Table.total_erase Mailbox.queuedBytes s.app.boxes id
    rw [hid, Option.elim_some] at herase
    have hout : (s.become n s.app _).outstanding + 0 = s.outstanding + m.queuedBytes :=
      outstanding_become ht (.deleteSubtract id m.queuedBytes)
    refine ⟨fun id' m' hm => h.mailbox id' m' (Table.lookup_of_erase hm), ?_, h.underflow⟩
    show s.app.globalBytes = Table.total Mailbox.queuedBytes (s.app.boxes.erase id) +
      (s.become n s.app (.deleteSubtract id m.queuedBytes)).outstanding
    omega
  | subtracted id bytes ht =>
    have hout : (s.become n s.app _).outstanding + bytes = s.outstanding + 0 :=
      outstanding_become ht (.deleteForget id)
    have hle : bytes ≤ s.app.globalBytes := h.outstanding_le ht
    refine h.of_same rfl ?_ ?_
    · show s.app.globalBytes - bytes + s.outstanding =
        s.app.globalBytes + (s.become n s.app (.deleteForget id)).outstanding
      omega
    · have hge : ¬ s.app.globalBytes < bytes := by omega
      show (s.app.underflowed || decide (s.app.globalBytes < bytes)) = false
      simp only [h.underflow, hge, decide_false, Bool.or_false]
  | missed id ht => exact h.of_app rfl ht rfl rfl
  | registered id m ht hid =>
    exact h.of_row hid rfl (h.mailbox id m hid) rfl (outstanding_set_of_eq ht rfl rfl) h.underflow
  | collected c m ht hid hreg => exact h.of_app rfl ht rfl rfl
  | left c phase ht => exact h.of_app rfl ht rfl rfl
  | wrote c frame rest ht => exact h.of_app rfl ht rfl rfl
  | parked c ht => exact h.of_app rfl ht rfl rfl
  | woken c ht hwake => exact h.of_app rfl ht rfl rfl
  | resumed c phase phase' ht hphase hphase' => exact h.of_app rfl ht rfl rfl
  | acked c phase data acked m removed queue ht hphase hevent hack hid hrem =>
    have hbytes := h.mailbox _ m hid
    have hrest := totalBytes_removeFirst hrem
    have hle := h.row_le hid
    have hrow : ¬ m.queuedBytes < removed.bytes.length := by omega
    have hproc : ¬ s.app.globalBytes < removed.bytes.length := by omega
    refine h.of_row hid rfl ?_ ?_ (outstanding_set_of_eq ht rfl rfl) ?_
    · show m.queuedBytes - removed.bytes.length = totalBytes queue
      omega
    · show s.app.globalBytes - removed.bytes.length + m.queuedBytes =
        s.app.globalBytes + (m.queuedBytes - removed.bytes.length)
      omega
    · show (s.app.underflowed || decide (m.queuedBytes < removed.bytes.length) ||
        decide (s.app.globalBytes < removed.bytes.length)) = false
      simp only [h.underflow, hrow, hproc, decide_false, Bool.or_false]
  | swept now ht => exact h.sweepBoxes hs now rfl (outstanding_set_of_eq ht rfl rfl)

/-! ## Runs -/

theorem Dated.step {l : Label} (h : s.Dated) (hstep : s.step l = some s') : s'.Dated := by
  obtain ⟨t, -, -, rfl⟩ | ⟨n, e, s₁, rfl, h₀, h₁, h₂, hd, rfl⟩ := step_cases hstep
  · exact h
  · intro id m' hm'
    rcases hd.row hm' with rfl | ⟨m, hm, hchange⟩
    · exact (Mailbox.Dated.opened _).mono (Nat.le_trans h₁ h₂)
    · exact (h id m hm).change hchange h₀ h₁ h₂

theorem dated_run {cfg : Config} {hasher : Bytes → UInt64} {labels : List Label}
    (h : run step (start cfg hasher) labels = some s) : s.Dated := by
  refine run_invariant (fun _ _ _ hs (_ : True) hstep => hs.step hstep) ?_ (.of_forall fun _ _ => trivial) h
  intro id m hm
  cases hm

theorem Exact.step {l : Label} (h : s.Exact) (hs : s.Dated) (hstep : s.step l = some s') : s'.Exact := by
  obtain ⟨t, hq, -, rfl⟩ | ⟨n, e, s₁, rfl, h₀, h₁, h₂, hd, rfl⟩ := step_cases hstep
  · refine h.of_same rfl ?_ h.underflow
    simp [outstanding, hq.outstanding]
  · have hexact := h.did hs hd
    exact ⟨hexact.mailbox, hexact.global, hexact.underflow⟩

theorem exact_run {cfg : Config} {hasher : Bytes → UInt64} {labels : List Label}
    (h : run step (start cfg hasher) labels = some s) : s.Exact := by
  refine (run_invariant (I := fun s => s.Exact ∧ s.Dated) (fun _ _ _ hs (_ : True) hstep =>
    ⟨hs.1.step hs.2 hstep, hs.2.step hstep⟩) ⟨⟨?_, rfl, rfl⟩, ?_⟩ (.of_forall fun _ _ => trivial) h).1
  · intro id m hm
    cases hm
  · intro id m hm
    cases hm

/-- The table after the sweep has gone over it. -/
theorem boxes_of_sweep {n : ℕ} {e : Env} {now : ℕ} (ht : s.tasks[n]? = some (.sweepBoxes now))
    (hstep : s.step (.act n e) = some s') (id : String) :
    s'.app.boxes.lookup id = (s.app.boxes.lookup id).bind (Mailbox.sweep s.app.cfg.ttl now) := by
  obtain ⟨-, hstep⟩ := Option.ite_none_right_eq_some.mp hstep
  rw [ht] at hstep
  cases hstep
  exact Table.lookup_retain _ _ _

/-- **Byte accounting is exact.** In every state of every run, each mailbox's count is the sum of its
blobs' lengths, the process count is the sum over the mailboxes plus what deletes have still to
subtract, and no subtraction has gone below zero; and whenever a sweep removes a mailbox, its queue is
empty by then. -/
theorem accounting_exact (cfg : Config) (hasher : Bytes → UInt64) (ls : List Label) (s : Server)
    (hrun : run step (start cfg hasher) ls = some s) :
    s.Exact ∧ ∀ n e now s', s.tasks[n]? = some (.sweepBoxes now) → s.step (.act n e) = some s' →
      ∀ id m, s.app.boxes.lookup id = some m → s'.app.boxes.lookup id = none →
        m.kept s.app.cfg.ttl now = [] := by
  refine ⟨exact_run hrun, fun n e now s' ht hstep id m hid hnone => ?_⟩
  rw [boxes_of_sweep ht hstep id, hid, Option.bind_some] at hnone
  refine (dated_run hrun id m hid).kept_of_idle ?_
  by_contra hidle
  rw [Mailbox.sweep, if_neg hidle] at hnone
  cases hnone

/-- A mailbox is put, two blobs are deposited, and a delete has taken the mailbox out but not yet
subtracted, while a sweep is about to take the lock. -/
def deleteUnderway : List Label :=
  served (.put localhost idA) 0 2 1 ++ served (.deposit localhost idA (blobOf 7)) 1 2 2 1 ++
    served (.deposit localhost idA (blobOf 8)) 2 2 3 2 ++ [.tick, .act 3 (envAt 4 0 .nothing)] ++
    served (.delete idA) 4 1 5

/-- Eighteen bytes are outstanding, and the process still counts them. -/
theorem delete_underway_exact :
    ∃ s, run step smallRelay deleteUnderway = some s ∧ s.app.globalBytes = 18 ∧
      s.outstanding = 18 ∧ s.Exact := by
  exact ⟨_, rfl, rfl, rfl, (accounting_exact smallConfig (fun _ => 0) deleteUnderway _ rfl).1⟩

end Server

end Titlan.Relay
