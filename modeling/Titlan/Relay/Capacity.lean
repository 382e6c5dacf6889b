import Titlan.Engine.Effects
import Titlan.Relay.Accounting
import Titlan.Relay.Retention

/-! # Capacity

The relay bounds what it holds: the number of mailboxes, and in each mailbox the number of messages and
of queued bytes. The bounds are checked under the table's lock, so they hold in every state of every
run; and a request that is turned down there, or asks for a mailbox that exists, leaves the table as it
was. -/

namespace Titlan.Relay

open Foundation

/-- The mailbox is within its limits. -/
structure Mailbox.Within (cfg : Config) (m : Mailbox) : Prop where
  messages : m.queue.length ≤ cfg.mailboxMaxMessages
  bytes : m.queuedBytes ≤ cfg.mailboxMaxBytes

/-- The step from `t` to `t'` is one of a request that is not granted: of a deposit that is not accepted,
of a create that is not granted, of a PUT that is not granted or asks for an existing mailbox. -/
def Task.Refused (s : AppState) : Task → Task → Prop
  | .depositAdmit _ _ _, t' | .depositQueue _ _, t' => t' ≠ .answered .accepted
  | .createAdmit _, t' | .createInsert, t' => ∀ id, t' ≠ .answered (.createdWith id)
  | .putAdmit _ id, t' | .putInsert id, t' => t' ≠ .answered .created ∨ id ∈ s.boxes
  | _, _ => False

namespace Server

variable {cfg : Config} {s s' : Server} {n : ℕ} {e : Env} {id : String} {m : Mailbox}

/-- The relay is within its limits. -/
structure Within (cfg : Config) (s : Server) : Prop where
  config : s.app.cfg = cfg
  mailboxes : s.app.boxes.size ≤ cfg.maxMailboxes
  mailbox : ∀ id m, s.app.boxes.lookup id = some m → m.Within cfg

/-- All queues, byte counts, activity times and subscribers are as they were. -/
structure Unchanged (s s' : Server) : Prop where
  boxes : s'.app.boxes = s.app.boxes
  globalBytes : s'.app.globalBytes = s.app.globalBytes
  wakes : s'.wakes = s.wakes

/-! ## Bounds -/

theorem Within.of_same (h : s.Within cfg) (hcfg : s'.app.cfg = s.app.cfg)
    (hboxes : s'.app.boxes = s.app.boxes) : s'.Within cfg := by
  refine ⟨hcfg.trans h.config, ?_, ?_⟩
  · rw [hboxes]
    exact h.mailboxes
  · rw [hboxes]
    exact h.mailbox

/-- One row is written. -/
theorem Within.of_row (h : s.Within cfg) (hcfg : s'.app.cfg = s.app.cfg)
    (hboxes : s'.app.boxes = s.app.boxes.insert id m)
    (hsize : Table.size (s.app.boxes.insert id m) ≤ cfg.maxMailboxes) (hm : m.Within cfg) :
    s'.Within cfg := by
  refine ⟨hcfg.trans h.config, ?_, fun id' m' hm' => ?_⟩
  · rw [hboxes]
    exact hsize
  · rw [hboxes] at hm'
    rcases Table.lookup_insert_cases hm' with ⟨rfl, rfl⟩ | ⟨-, hm'⟩
    · exact hm
    · exact h.mailbox id' m' hm'

/-- An existing row is rewritten. -/
theorem Within.of_rewrite (h : s.Within cfg) {m₀ : Mailbox} (hid : s.app.boxes.lookup id = some m₀)
    (hcfg : s'.app.cfg = s.app.cfg) (hboxes : s'.app.boxes = s.app.boxes.insert id m)
    (hm : m.Within cfg) : s'.Within cfg := by
  refine h.of_row hcfg hboxes ?_ hm
  rw [Table.size_insert_of_some hid]
  exact h.mailboxes

/-- A sweep drops mailboxes and messages. -/
theorem Within.sweep (h : s.Within cfg) (now : ℕ) (hcfg : s'.app.cfg = s.app.cfg)
    (hboxes : s'.app.boxes = (s.app.sweepBoxes now).boxes) : s'.Within cfg := by
  refine ⟨hcfg.trans h.config, ?_, fun id m' hm' => ?_⟩
  · rw [hboxes]
    exact Nat.le_trans (Table.size_retain_le _ _) h.mailboxes
  · rw [hboxes] at hm'
    obtain ⟨m, hm, -, rfl⟩ := lookup_sweepBoxes hm'
    have hold := h.mailbox id m hm
    exact ⟨Nat.le_trans (List.dropWhile_suffix _).length_le hold.messages,
      Nat.le_trans (Nat.sub_le _ _) hold.bytes⟩

/-- **Step: bounds.** -/
theorem Within.did (h : s.Within cfg) (hd : Did s n e s') : s'.Within cfg := by
  cases hd with
  | quiet t t' app ht hq hq' _ happ => exact h.of_same happ.cfg happ.boxes
  | opened t id r ht hq hid hcap =>
    rw [h.config] at hcap
    refine h.of_row rfl rfl ?_ ⟨Nat.zero_le _, Nat.zero_le _⟩
    rw [Table.size_insert_of_none hid]
    exact hcap
  | accepted id body m limiter ht hid hmessages hbytes =>
    rw [h.config] at hmessages hbytes
    refine h.of_rewrite hid rfl rfl ⟨?_, hbytes⟩
    rw [List.length_append]
    exact hmessages
  | removed id m ht hid =>
    exact ⟨h.config, Nat.le_trans (Table.size_erase_le _ _) h.mailboxes, fun id' m' hm' =>
      h.mailbox id' m' (Table.lookup_of_erase hm')⟩
  | registered id m ht hid =>
    have hold := h.mailbox id m hid
    exact h.of_rewrite hid rfl rfl ⟨hold.messages, hold.bytes⟩
  | acked c phase data acked m removed queue ht hphase hevent hack hid hrem =>
    have hold := h.mailbox _ m hid
    have hlen := (removeFirst_sublist hrem).length_le
    exact h.of_rewrite hid rfl rfl
      ⟨Nat.le_trans hlen hold.messages, Nat.le_trans (Nat.sub_le _ _) hold.bytes⟩
  | swept now ht => exact h.sweep now rfl rfl
  | _ => exact h.of_same rfl rfl

theorem Within.step {l : Label} (h : s.Within cfg) (hstep : s.step l = some s') : s'.Within cfg := by
  obtain ⟨t, -, -, rfl⟩ | ⟨n, e, s₁, rfl, -, -, -, hd, rfl⟩ := step_cases hstep
  · exact h.of_same rfl rfl
  · exact (h.did hd).of_same rfl rfl

theorem within_start (cfg : Config) (hasher : Bytes → UInt64) : (start cfg hasher).Within cfg :=
  ⟨rfl, Nat.zero_le _, fun _ _ h => by cases h⟩

/-! ## Refusals -/

/-- A task that goes on without touching the table. -/
theorem unchanged_become (s : Server) (n : ℕ) (t : Task) {app : AppState} (hboxes : app.boxes = s.app.boxes)
    (hbytes : app.globalBytes = s.app.globalBytes) : s.Unchanged (s.become n app t) :=
  ⟨hboxes, hbytes, rfl⟩

theorem unchanged_depositAdmit (s : Server) (n : ℕ) (e : Env) (ip : IpAddr) (id : String) (body : Bytes) :
    s.Unchanged (s.depositAdmit n e ip id body) := by
  unfold depositAdmit
  split
  · exact unchanged_become s n _ rfl rfl
  · split
    · exact unchanged_become s n _ rfl rfl
    · dsimp only
      split
      · exact unchanged_become s n _ rfl rfl
      · split <;> exact unchanged_become s n _ rfl rfl

theorem unchanged_depositQueue {t' : Task} {body : Bytes} (hn : n < s.tasks.length)
    (ht' : (s.depositQueue n e id body).tasks[n]? = some t') (hr : t' ≠ .answered .accepted) :
    s.Unchanged (s.depositQueue n e id body) := by
  unfold depositQueue at ht' ⊢
  obtain ⟨r, app, hout, hne, hsame⟩ | ⟨mailbox, limiter, -, -, -, hout⟩ :=
    s.app.queueDeposit_cases id body e.msgId e.minute e.retryAfter e.now
  · simp only [hout, if_neg hne, wake_none] at ht' ⊢
    exact unchanged_become s n _ hsame.boxes hsame.globalBytes
  · simp only [hout, if_true] at ht'
    have hget : (s.tasks.set n (.answered .accepted))[n]? = some t' := ht'
    rw [List.getElem?_set_self hn, Option.some.injEq] at hget
    exact absurd hget.symm hr

theorem unchanged_create {t' : Task} (hn : n < s.tasks.length)
    (hstep : s.perform n e .createInsert = some s') (ht' : s'.tasks[n]? = some t')
    (hr : ∀ id, t' ≠ .answered (.createdWith id)) : s.Unchanged s' := by
  simp only [perform, AppState.createMailbox] at hstep
  by_cases hcap : s.app.cfg.maxMailboxes ≤ s.app.boxes.size
  · rw [if_pos hcap] at hstep
    cases hstep
    exact unchanged_become s n _ rfl rfl
  · rw [if_neg hcap] at hstep
    obtain ⟨out, hout, rfl⟩ := Option.map_eq_some_iff.mp hstep
    obtain ⟨id, -, rfl⟩ := Option.map_eq_some_iff.mp hout
    rw [become_tasks hn, Option.some.injEq] at ht'
    exact absurd ht'.symm (hr id)

theorem unchanged_put {t' : Task} (hn : n < s.tasks.length)
    (hstep : s.perform n e (.putInsert id) = some s') (ht' : s'.tasks[n]? = some t')
    (hr : t' ≠ .answered .created ∨ id ∈ s.app.boxes) : s.Unchanged s' := by
  simp only [perform, AppState.putMailbox] at hstep
  by_cases hcap : s.app.cfg.maxMailboxes ≤ s.app.boxes.size
  · simp only [hcap, if_true] at hstep
    cases hstep
    exact unchanged_become s n _ rfl rfl
  · by_cases hid : id ∈ s.app.boxes
    · simp only [hcap, hid, if_true, if_false] at hstep
      cases hstep
      exact unchanged_become s n _ rfl rfl
    · simp only [hcap, hid, if_true, if_false] at hstep
      cases hstep
      rw [become_tasks hn, Option.some.injEq] at ht'
      rcases hr with hr | hr
      · exact absurd ht'.symm hr
      · exact absurd hr hid

/-- **Step: refusals.** -/
theorem unchanged_of_refused {t t' : Task} (ht : s.tasks[n]? = some t)
    (hstep : s.step (.act n e) = some s') (ht' : s'.tasks[n]? = some t') (hr : t.Refused s.app t') :
    s.Unchanged s' := by
  have hn : n < s.tasks.length := (List.getElem?_eq_some_iff.mp ht).1
  simp only [step, ht, Option.bind_some] at hstep
  split at hstep
  · obtain ⟨s₁, hs₁, rfl⟩ := Option.map_eq_some_iff.mp hstep
    -- the reading of the clock is no part of what is compared
    suffices h : s.Unchanged s₁ from ⟨h.boxes, h.globalBytes, h.wakes⟩
    cases t with
    | depositAdmit ip id body =>
      cases hs₁
      exact unchanged_depositAdmit s n e ip id body
    | depositQueue id body =>
      cases hs₁
      exact unchanged_depositQueue hn ht' hr
    | createAdmit ip =>
      cases hs₁
      exact unchanged_become s n _ rfl rfl
    | createInsert => exact unchanged_create hn hs₁ ht' hr
    | putAdmit ip id =>
      simp only [perform] at hs₁
      split at hs₁
      · cases hs₁
        exact unchanged_become s n _ rfl rfl
      · cases hs₁
        exact unchanged_become s n _ rfl rfl
    | putInsert id => exact unchanged_put hn hs₁ ht' hr
    | _ => exact hr.elim
  · cases hstep

/-! ## The theorem -/

/-- **Capacity holds, and refusals change nothing.** In every state of every run the relay is within its
limits; and no step of a request that is turned down, or of a PUT of an existing mailbox, changes a
queue, a byte count, an activity time or a subscriber. -/
theorem capacity_holds (cfg : Config) (hasher : Bytes → UInt64) (ls : List Label) (s : Server)
    (hrun : run step (start cfg hasher) ls = some s) :
    s.Within cfg ∧ ∀ n e t t' s', s.tasks[n]? = some t → s.step (.act n e) = some s' →
      s'.tasks[n]? = some t' → t.Refused s.app t' → s.Unchanged s' := by
  refine ⟨?_, fun n e t t' s' ht hstep ht' hr => unchanged_of_refused ht hstep ht' hr⟩
  exact run_invariant (fun _ _ _ h (_ : True) hstep => h.step hstep) (within_start cfg hasher)
    (Along.of_forall fun _ _ => trivial) hrun

/-- A mailbox is put and asked for again. -/
def putTwice : List Label :=
  served (.put localhost idA) 0 2 1 ++ served (.put localhost idA) 1 1 2

/-- The second PUT finds the mailbox, is granted, and leaves it as it was. -/
theorem second_put_unchanged :
    ∃ s s', run step smallRelay putTwice = some s ∧ s.step (.act 1 (envAt 9 0 .nothing)) = some s' ∧
      s'.tasks[1]? = some (.answered .created) ∧ s.Within smallConfig ∧ s.Unchanged s' := by
  have hcap := fun s hs => capacity_holds smallConfig (fun _ => 0) putTwice s hs
  refine ⟨_, _, rfl, rfl, rfl, (hcap _ rfl).1, ?_⟩
  exact (hcap _ rfl).2 1 (envAt 9 0 .nothing) (.putInsert idA) (.answered .created) _ rfl rfl rfl
    (.inr (by decide))

end Server

/-! ## Refusals for good

The client gives a message up when its deposit is answered 400 or 413, and tries again later on any other
refusal. Both answers come of checks that look at the body alone, so what they refuse is accepted by no
relay of the same configuration. -/

/-- `http::deposit`, from the status of the response on. -/
def Response.depositOutcome : Response → DepositOutcome
  | .accepted => .accepted
  | .notFound => .notFound
  | .createdWith _ | .created => .other 201
  | .noContent => .other 204
  | .badRequest => .other 400
  | .payloadTooLarge => .other 413
  | .tooManyRequests _ => .other 429
  | .serviceUnavailable => .other 503
  | .insufficientStorage => .other 507

/-- What is asked of a body. -/
def Config.Takes (cfg : Config) (body : Bytes) : Prop :=
  body.length ≤ cfg.maxBlobBytes ∧ depositAdmissible body = true

/-- What the answer to a deposit says of the body. -/
structure Config.Tells (cfg : Config) (body : Bytes) (outcome : DepositOutcome) : Prop where
  accepted : outcome = .accepted → cfg.Takes body
  badRequest : outcome = .other 400 → ¬ depositAdmissible body = true
  payloadTooLarge : outcome = .other 413 → cfg.maxBlobBytes < body.length

/-- A deposit of `body` on its way to an answer. -/
def Config.Serves (cfg : Config) (body : Bytes) : Task → Prop
  | .depositAdmit _ _ body' => body' = body
  | .depositQueue _ body' => body' = body ∧ cfg.Takes body
  | .answered r => cfg.Tells body r.depositOutcome
  | _ => False

namespace Server

variable {cfg : Config} {s s' : Server} {n k : ℕ} {e : Env} {t : Task} {body : Bytes}

/-- **Step of the deposit.** The source's limit is asked between the two checks of the body, the mailbox and
its limits after both. -/
theorem serves_perform (hk : k < s.tasks.length) (ht : s.app.cfg.Serves body t)
    (h : s.perform k e t = some s') : ∃ t', s'.tasks[k]? = some t' ∧ s.app.cfg.Serves body t' := by
  cases t with
  | depositAdmit ip id body' =>
    cases h
    cases ht
    unfold depositAdmit
    split
    next hlen => exact ⟨_, become_tasks hk _ _, nofun, nofun, fun _ => hlen⟩
    next hlen =>
    dsimp only
    split
    · exact ⟨_, become_tasks hk _ _, nofun, nofun, nofun⟩
    split
    · exact ⟨_, become_tasks hk _ _, nofun, nofun, nofun⟩
    split
    next hnot => exact ⟨_, become_tasks hk _ _, nofun, fun _ => hnot, nofun⟩
    next hnot => exact ⟨_, become_tasks hk _ _, rfl, Nat.le_of_not_lt hlen, Decidable.not_not.mp hnot⟩
  | depositQueue id body' =>
    cases h
    cases ht.1
    let out := s.app.queueDeposit id body e.msgId e.minute e.retryAfter e.now
    have hopen : ∀ status, out.1.depositOutcome = .other status → status ≠ 400 ∧ status ≠ 413 := by
      simp only [out, AppState.queueDeposit]
      split
      · nofun
      · split_ifs <;> rintro status ⟨⟩ <;> decide
    refine ⟨.answered out.1, ?_, fun _ => ht.2, fun h => ?_, fun h => ?_⟩
    · unfold depositQueue
      dsimp only
      split <;> exact become_tasks hk out.2.1 _
    · exact absurd rfl (hopen _ h).1
    · exact absurd rfl (hopen _ h).2
  | answered r => cases h
  | _ => exact ht.elim

/-- A step of one task leaves the configuration and the other tasks. -/
theorem Did.others (hd : Did s n e s') :
    s'.app.cfg = s.app.cfg ∧ ∀ k ≠ n, s'.tasks[k]? = s.tasks[k]? := by
  cases hd with
  | quiet t t' app ht hq hq' hsweep happ => exact ⟨happ.cfg, fun k hk => List.getElem?_set_ne hk.symm⟩
  | _ => exact ⟨rfl, fun k hk => List.getElem?_set_ne hk.symm⟩

/-- **Step.** -/
theorem serves_step {l : Label} (h : s.app.cfg = cfg ∧ ∃ t, s.tasks[k]? = some t ∧ cfg.Serves body t)
    (hstep : s.step l = some s') : s'.app.cfg = cfg ∧ ∃ t, s'.tasks[k]? = some t ∧ cfg.Serves body t := by
  obtain ⟨rfl, t, ht, hserves⟩ := h
  have hk := (List.getElem?_eq_some_iff.mp ht).1
  cases l with
  | act n e =>
    simp only [step] at hstep
    split at hstep
    · obtain ⟨t', ht', hstep⟩ := Option.bind_eq_some_iff.mp hstep
      obtain ⟨s₁, hs₁, rfl⟩ := Option.map_eq_some_iff.mp hstep
      obtain ⟨hcfg, hothers⟩ := (did_of_perform ht' hs₁).others
      refine ⟨hcfg, ?_⟩
      by_cases hn : k = n
      · subst hn
        cases ht.symm.trans ht'
        exact (serves_perform hk hserves hs₁ :)
      · exact ⟨t, (hothers k hn).trans ht, hserves⟩
    · cases hstep
  | _ =>
    cases hstep
    exact ⟨rfl, t, (List.getElem?_append_left hk).trans ht, hserves⟩

end Server

/-- Some relay of the configuration, in some state and some interleaving of its tasks, answers a deposit of the
body so. -/
def Config.Answers (cfg : Config) (body : Bytes) (outcome : DepositOutcome) : Prop :=
  ∃ s s' ip id ls r, s.app.cfg = cfg ∧
    run Server.step s (.request (.deposit ip id body) :: ls) = some s' ∧
    s'.tasks[s.tasks.length]? = some (.answered r) ∧ r.depositOutcome = outcome

/-- **Run.** -/
theorem Config.Answers.tells {cfg : Config} {body : Bytes} {outcome : DepositOutcome}
    (h : cfg.Answers body outcome) : cfg.Tells body outcome := by
  obtain ⟨s, s', ip, id, ls, r, rfl, hrun, hr, rfl⟩ := h
  obtain ⟨s₁, hs₁, hrun⟩ := Option.bind_eq_some_iff.mp (run_cons s _ ls ▸ hrun)
  cases hs₁
  obtain ⟨-, t, ht, hserves⟩ := run_invariant (fun _ _ _ h (_ : True) hstep => Server.serves_step h hstep)
    ⟨rfl, .depositAdmit ip id body, List.getElem?_concat_length, rfl⟩ (Along.of_forall fun _ _ => trivial) hrun
  cases ht.symm.trans hr
  exact hserves

end Titlan.Relay
