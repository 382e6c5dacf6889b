import Titlan.Relay.Retention

/-! # Delivery

A connection's delivery loop holds the table's lock only while it collects a batch. While it sends the
batch, waits, or drains acks, deposits land, acks and sweeps remove messages, the mailbox may be deleted
and opened again at the same id, and another subscriber may take over. The argument for order and for
wakes is one invariant of a connection: what it has sent, then the rest of its batch, then what else is
queued in its mailbox, is a part of the deposits in their order, as long as the connection is the
registered one; and a message in neither of the first two has left a wake in the channel. -/

namespace Titlan.Relay

open Foundation

/-- The frame a message is delivered in. -/
abbrev QueuedMsg.frame (m : QueuedMsg) : Bytes := deliveryFrame m.id m.bytes

/-- The rest of the batch being sent. -/
def Phase.rest : Phase → List Bytes
  | .send rest => rest
  | _ => []

/-- The connection has collected since it last took a wake. -/
def Phase.Settled : Phase → Prop
  | .send _ | .wait => True
  | _ => False

/-- The connection of a task, open or closed. -/
def Task.connection : Task → Option Connection
  | .deliver c _ | .closed c => some c
  | _ => none

theorem Task.Quiet.connection {t : Task} (h : t.Quiet) : t.connection = none := by
  cases t <;> first | rfl | exact h.elim

/-- What a mailbox holds beyond what the connection has sent and what is left of its batch. -/
def Mailbox.beyond (m : Mailbox) (c : Connection) (rest : List Bytes) : List QueuedMsg :=
  m.queue.filter fun msg => msg.notAmong c.sent && msg.notAmong (rest.map frameId)

namespace Server

/-- The frames of the deposits of a mailbox id, in order. -/
def depositFrames (s : Server) (id : String) : List Bytes := (s.deposits id).map QueuedMsg.frame

/-- Connection `n` is the registered subscriber of the mailbox. -/
def Registered (s : Server) (n : ℕ) (id : String) (m : Mailbox) : Prop :=
  s.app.boxes.lookup id = some m ∧ m.notify = some n

/-- Where an open connection is in its mailbox. -/
structure Tracked (s : Server) (n : ℕ) (c : Connection) (phase : Phase) : Prop where
  sent : ∀ id, id ∈ c.sent ↔ id ∈ c.frames.map frameId
  order : (c.frames ++ phase.rest).Sublist (s.depositFrames c.mailbox)
  ahead : ∀ m, s.Registered n c.mailbox m →
    (c.frames ++ phase.rest ++ (m.beyond c phase.rest).map QueuedMsg.frame).Sublist
      (s.depositFrames c.mailbox)
  woken : ∀ m, s.Registered n c.mailbox m → phase.Settled → ∀ msg ∈ m.queue,
    msg.id.val ∈ c.sent ∨ msg.id.val ∈ phase.rest.map frameId ∨ 0 < s.wakes n

/-- From `s` to `s'`, the mailbox id has accepted deposits and lost messages, and if it still has
connection `n` registered, then `n` was woken for each deposit. -/
structure Follows (s s' : Server) (n : ℕ) (id : String) (added : List QueuedMsg) : Prop where
  deposits : s'.deposits id = s.deposits id ++ added
  row : ∀ m', s'.Registered n id m' → (added ≠ [] → 0 < s'.wakes n) ∧
    ∃ m, s.Registered n id m ∧ m'.queue.Sublist (m.queue ++ added)
  wakes : s.wakes n ≤ s'.wakes n

variable {s s' : Server} {n k : ℕ} {e : Env} {id : String} {m m' : Mailbox} {c : Connection}
  {phase : Phase} {added : List QueuedMsg}

/-! ## A connection while others act -/

theorem Follows.depositFrames (h : Follows s s' n id added) :
    s'.depositFrames id = s.depositFrames id ++ added.map QueuedMsg.frame := by
  unfold Server.depositFrames
  rw [h.deposits, List.map_append]

/-- The order and the wakes of a connection survive what others do to its mailbox. -/
theorem Tracked.follows (h : s.Tracked n c phase) (hf : Follows s s' n c.mailbox added) :
    s'.Tracked n c phase where
  sent := h.sent
  order := by
    rw [hf.depositFrames]
    exact h.order.trans (List.sublist_append_left _ _)
  ahead m' hm' := by
    obtain ⟨-, m, hm, hsub⟩ := (hf.row m' hm')
    have hbeyond : ((m'.beyond c phase.rest).map QueuedMsg.frame).Sublist
        ((m.beyond c phase.rest).map QueuedMsg.frame ++ added.map QueuedMsg.frame) := by
      rw [← List.map_append]
      refine List.Sublist.map _ ((hsub.filter _).trans ?_)
      rw [List.filter_append]
      exact (List.Sublist.refl _).append List.filter_sublist
    rw [hf.depositFrames]
    refine ((List.Sublist.refl _).append hbeyond).trans ?_
    rw [← List.append_assoc]
    exact (h.ahead m hm).append (List.Sublist.refl _)
  woken m' hm' hsettled msg hmsg := by
    obtain ⟨hwake, m, hm, hsub⟩ := hf.row m' hm'
    rcases List.mem_append.mp (hsub.subset hmsg) with hmsg | hmsg
    · rcases h.woken m hm hsettled msg hmsg with hsent | hrest | hpos
      · exact .inl hsent
      · exact .inr (.inl hrest)
      · exact .inr (.inr (Nat.lt_of_lt_of_le hpos hf.wakes))
    · exact .inr (.inr (hwake (List.ne_nil_of_mem hmsg)))

/-- No deposit is accepted, and the row at most loses messages. -/
theorem Follows.of_sublist (hdeposits : s'.deposits id = s.deposits id)
    (hrow : ∀ m', s'.Registered n id m' → ∃ m, s.Registered n id m ∧ m'.queue.Sublist m.queue)
    (hwakes : s.wakes n ≤ s'.wakes n) : Follows s s' n id [] where
  deposits := by rw [hdeposits, List.append_nil]
  row m' hm' := by
    obtain ⟨m, hm, hsub⟩ := hrow m' hm'
    refine ⟨fun hne => absurd rfl hne, m, hm, ?_⟩
    rw [List.append_nil]
    exact hsub
  wakes := hwakes

/-- Nothing happened to the mailbox. -/
theorem Follows.of_same (hboxes : s'.app.boxes = s.app.boxes) (hlog : s'.accepted = s.accepted)
    (hwakes : s.wakes n ≤ s'.wakes n) : Follows s s' n id [] := by
  refine .of_sublist ?_ (fun m' hm' => ⟨m', ⟨?_, hm'.2⟩, List.Sublist.refl _⟩) hwakes
  · unfold Server.deposits
    rw [hlog]
  · rw [← hboxes]
    exact hm'.1

/-- A row of the table changes, and no deposit is accepted. -/
theorem Follows.of_row {id' : String} (hboxes : s'.app.boxes = s.app.boxes.insert id' m')
    (hlog : s'.accepted = s.accepted) (hwakes : s'.wakes = s.wakes)
    (hrow : m'.notify = some n → ∃ m, s.Registered n id' m ∧ m'.queue.Sublist m.queue) :
    Follows s s' n id [] := by
  refine .of_sublist ?_ (fun m'' hm'' => ?_) (by rw [hwakes])
  · unfold Server.deposits
    rw [hlog]
  · obtain ⟨hlookup, hnotify⟩ := hm''
    rw [hboxes] at hlookup
    rcases Table.lookup_insert_cases hlookup with ⟨rfl, rfl⟩ | ⟨-, hlookup⟩
    · exact hrow hnotify
    · exact ⟨m'', ⟨hlookup, hnotify⟩, List.Sublist.refl _⟩

/-- What a step of task `n` is to the mailbox of another connection, or to its own if it is an ack. -/
theorem follows_of_did (hd : Did s n e s') (hk : k ≠ n) (id : String) :
    ∃ added, Follows s s' k id added := by
  cases hd with
  | quiet t t' app ht hq hq' hsweep happ =>
    exact ⟨[], .of_same happ.boxes rfl (Nat.le_refl _)⟩
  | opened t id' r ht hq hid => exact ⟨[], .of_row rfl rfl rfl fun hnotify => by cases hnotify⟩
  | accepted id' body m limiter ht hid =>
    by_cases hne : id = id'
    · subst hne
      refine ⟨[⟨e.msgId, body, e.now.t₁⟩], deposits_append_self s id _, ?_, Nat.le_add_right _ _⟩
      rintro m' ⟨hlookup, hnotify⟩
      cases (AList.lookup_insert s.app.boxes).symm.trans hlookup
      have hnotify : m.notify = some k := hnotify
      refine ⟨fun _ => ?_, m, ⟨hid, hnotify⟩, List.Sublist.refl _⟩
      show 0 < s.wakes k + if m.notify = some k then 1 else 0
      rw [if_pos hnotify]
      exact Nat.succ_pos _
    · refine ⟨[], .of_sublist (deposits_append_of_ne s _ hne) ?_ (Nat.le_add_right _ _)⟩
      rintro m' ⟨hlookup, hnotify⟩
      exact ⟨m', ⟨(AList.lookup_insert_ne hne).symm.trans hlookup, hnotify⟩, List.Sublist.refl _⟩
  | removed id' m ht hid =>
    refine ⟨[], .of_sublist rfl ?_ (Nat.le_refl _)⟩
    rintro m' ⟨hlookup, hnotify⟩
    exact ⟨m', ⟨Table.lookup_of_erase hlookup, hnotify⟩, List.Sublist.refl _⟩
  | registered id' m ht hid =>
    -- the other connection is replaced
    exact ⟨[], .of_row rfl rfl rfl fun hnotify => absurd (Option.some.inj hnotify).symm hk⟩
  | woken c ht hwake =>
    refine ⟨[], .of_same rfl rfl (Nat.le_of_eq ?_)⟩
    exact (Function.update_of_ne hk _ _).symm
  | acked c phase data acked m removed queue ht hphase hevent hack hid hrem =>
    exact ⟨[], .of_row rfl rfl rfl fun hnotify => ⟨m, ⟨hid, hnotify⟩, removeFirst_sublist hrem⟩⟩
  | swept now ht =>
    refine ⟨[], .of_sublist rfl ?_ (Nat.le_refl _)⟩
    rintro m' ⟨hlookup, hnotify⟩
    obtain ⟨m, hm, -, rfl⟩ := lookup_sweepBoxes hlookup
    exact ⟨m, ⟨hm, hnotify⟩, List.dropWhile_sublist _⟩
  | _ => exact ⟨[], .of_same rfl rfl (Nat.le_refl _)⟩

/-! ## A connection's own steps -/

/-- A new connection has sent nothing, and its mailbox holds deposits in their order. -/
theorem tracked_registered (hkept : s.Kept) (hid : s.app.boxes.lookup id = some m) (t : Task) (now : ℕ) :
    (s.become n (s.app.subscribed id m n now) t).Tracked n ⟨id, [], [], []⟩ .collect where
  sent _ := Iff.rfl
  order := List.nil_sublist _
  ahead m' hm' := by
    cases (AList.lookup_insert s.app.boxes).symm.trans hm'.1
    exact (List.filter_sublist.trans (hkept id m hid)).map _
  woken _ _ hsettled := hsettled.elim

theorem mem_unsent {sent : List Bytes} {msg : QueuedMsg} (hmsg : msg ∈ m.queue)
    (hsent : msg.id.val ∉ sent) : msg.id.val ∈ (m.unsent sent).map frameId := by
  refine List.mem_map.mpr ⟨msg.frame, List.mem_map_of_mem (List.mem_filter.mpr ⟨hmsg, ?_⟩), ?_⟩
  · exact decide_eq_true hsent
  · exact frameId_deliveryFrame msg.id msg.bytes

/-- Collecting turns everything beyond into the batch. -/
theorem Tracked.collected (h : s.Tracked n c .collect) (hreg : s.Registered n c.mailbox m) (t : Task) :
    (s.become n s.app t).Tracked n { c with batches := c.batches ++ [m.unsent c.sent] }
      (.send (m.unsent c.sent)) := by
  have hbatch : (m.beyond c []).map QueuedMsg.frame = m.unsent c.sent := by
    have hfilter : m.beyond c [] = m.queue.filter (QueuedMsg.notAmong c.sent) := by
      refine List.filter_congr fun msg _ => ?_
      have hnil : msg.notAmong [] = true := decide_eq_true List.not_mem_nil
      rw [List.map_nil, hnil, Bool.and_true]
    rw [hfilter]
    rfl
  have hahead := h.ahead m hreg
  have horder : (c.frames ++ m.unsent c.sent).Sublist (s.depositFrames c.mailbox) := by
    have hrest : c.frames ++ Phase.collect.rest = c.frames := List.append_nil _
    rw [hrest] at hahead
    rw [← hbatch]
    exact hahead
  refine ⟨h.sent, horder, ?_, ?_⟩
  · intro m' hm'
    cases hreg.1.symm.trans hm'.1
    -- the batch is everything that was not sent
    have hnil : m.beyond { c with batches := c.batches ++ [m.unsent c.sent] } (m.unsent c.sent) = [] := by
      refine List.filter_eq_nil_iff.mpr fun msg hmsg hcond => ?_
      obtain ⟨hsent, hrest⟩ := Bool.and_eq_true_iff.mp hcond
      exact of_decide_eq_true hrest (mem_unsent hmsg (of_decide_eq_true hsent))
    show (c.frames ++ m.unsent c.sent ++ (m.beyond _ (m.unsent c.sent)).map _).Sublist _
    rw [hnil, List.map_nil, List.append_nil]
    exact horder
  · intro m' hm' _ msg hmsg
    cases hreg.1.symm.trans hm'.1
    by_cases hsent : msg.id.val ∈ c.sent
    · exact .inl hsent
    · exact .inr (.inl (mem_unsent hmsg hsent))

/-- Writing a frame moves it from the batch to what was sent. -/
theorem Tracked.wrote {frame : Bytes} {rest : List Bytes}
    (h : s.Tracked n c (.send (frame :: rest))) (t : Task) :
    (s.become n s.app t).Tracked n
      { c with sent := frameId frame :: c.sent, frames := c.frames ++ [frame] } (.send rest) := by
  have hconcat : c.frames ++ [frame] ++ rest = c.frames ++ frame :: rest := by simp
  refine ⟨?_, ?_, ?_, ?_⟩
  · intro id
    have hsent := h.sent id
    simp only [List.mem_cons, List.map_append, List.mem_append, List.map_cons, List.map_nil,
      List.not_mem_nil, or_false, hsent]
    exact or_comm
  · show (c.frames ++ [frame] ++ rest).Sublist _
    rw [hconcat]
    exact h.order
  · intro m hm
    have hbeyond : m.beyond { c with sent := frameId frame :: c.sent, frames := c.frames ++ [frame] } rest =
        m.beyond c (frame :: rest) := by
      refine List.filter_congr fun msg _ => Bool.eq_iff_iff.mpr ?_
      simp only [QueuedMsg.notAmong, Bool.and_eq_true, decide_eq_true_eq, List.mem_cons, List.map_cons]
      tauto
    show (c.frames ++ [frame] ++ rest ++ (m.beyond _ rest).map _).Sublist _
    rw [hbeyond, hconcat]
    exact h.ahead m hm
  · intro m hm _ msg hmsg
    rcases h.woken m hm trivial msg hmsg with hsent | hrest | hpos
    · exact .inl (List.mem_cons_of_mem _ hsent)
    · rcases List.mem_cons.mp hrest with heq | hrest
      · exact .inl (heq ▸ List.mem_cons_self)
      · exact .inr (.inl hrest)
    · exact .inr (.inr hpos)

/-- The loop goes from a phase without a batch to another. -/
theorem Tracked.goesOn {phase' : Phase} (h : s.Tracked n c phase) (hrest : phase'.rest = phase.rest)
    (hsettled : phase'.Settled → phase.Settled) : s.Tracked n c phase' := by
  refine ⟨h.sent, ?_, ?_, ?_⟩
  · rw [hrest]
    exact h.order
  · rw [hrest]
    exact h.ahead
  · rw [hrest]
    exact fun m hm hs => h.woken m hm (hsettled hs)

/-! ## Runs -/

/-- Every connection's frames are deposits in their order; every open one is where it should be. -/
structure Delivering (s : Server) : Prop where
  kept : s.Kept
  opened : ∀ n c phase, s.tasks[n]? = some (.deliver c phase) → s.Tracked n c phase
  closed : ∀ (n : ℕ) (c : Connection), s.tasks[n]? = some (.closed c) →
    c.frames.Sublist (s.depositFrames c.mailbox)

theorem Tracked.frames_sublist (h : s.Tracked n c phase) :
    c.frames.Sublist (s.depositFrames c.mailbox) :=
  (List.sublist_append_left _ _).trans h.order

/-- Step `n` replaces its task; every other connection follows. -/
theorem Delivering.of_set (h : s.Delivering) {t t' : Task} (hd : Did s n e s')
    (ht : s.tasks[n]? = some t) (htasks : s'.tasks = s.tasks.set n t')
    (hopened : ∀ c phase, t' = .deliver c phase → s'.Tracked n c phase)
    (hclosed : ∀ c, t' = .closed c → c.frames.Sublist (s'.depositFrames c.mailbox)) :
    s'.Delivering := by
  refine ⟨h.kept.did hd, ?_, ?_⟩
  · intro k c phase hk
    rw [htasks] at hk
    obtain ⟨rfl, heq⟩ | ⟨hne, hk⟩ := getElem?_set_cases ht hk
    · exact hopened c phase heq.symm
    · obtain ⟨added, hf⟩ := follows_of_did hd hne c.mailbox
      exact (h.opened k c phase hk).follows hf
  · intro k c hk
    rw [htasks] at hk
    obtain ⟨rfl, heq⟩ | ⟨hne, hk⟩ := getElem?_set_cases ht hk
    · exact hclosed c heq.symm
    · obtain ⟨added, hf⟩ := follows_of_did hd hne c.mailbox
      rw [hf.depositFrames]
      exact (h.closed k c hk).trans (List.sublist_append_left _ _)

/-- The step leaves its task without a connection. -/
theorem Delivering.of_plain (h : s.Delivering) {t t' : Task} (hd : Did s n e s')
    (ht : s.tasks[n]? = some t) (htasks : s'.tasks = s.tasks.set n t') (hplain : t'.connection = none) :
    s'.Delivering :=
  h.of_set hd ht htasks (fun _ _ heq => by rw [heq] at hplain; cases hplain)
    fun _ heq => by rw [heq] at hplain; cases hplain

/-- The step leaves its connection open. -/
theorem Delivering.of_open (h : s.Delivering) {t : Task} {c : Connection} {phase : Phase}
    (hd : Did s n e s') (ht : s.tasks[n]? = some t)
    (htasks : s'.tasks = s.tasks.set n (.deliver c phase)) (htracked : s'.Tracked n c phase) :
    s'.Delivering := by
  refine h.of_set hd ht htasks (fun c' phase' heq => ?_) fun c' heq => ?_
  · cases heq
    exact htracked
  · cases heq

/-- **Step: delivery.** -/
theorem Delivering.did (h : s.Delivering) (hd : Did s n e s') : s'.Delivering := by
  have hd' := hd
  cases hd with
  | quiet t t' app ht hq hq' hsweep happ => exact h.of_plain hd' ht rfl hq'.connection
  | missed id ht =>
    refine h.of_set hd' ht rfl (fun _ _ heq => by cases heq) fun c heq => ?_
    cases heq
    exact List.nil_sublist _
  | left c phase ht =>
    refine h.of_set hd' ht rfl (fun _ _ heq => by cases heq) fun c heq => ?_
    cases heq
    exact (h.opened n c phase ht).frames_sublist
  | registered id m ht hid => exact h.of_open hd' ht rfl (tracked_registered h.kept hid _ _)
  | collected c m ht hid hreg =>
    exact h.of_open hd' ht rfl ((h.opened n c _ ht).collected ⟨hid, hreg⟩ _)
  | wrote c frame rest ht => exact h.of_open hd' ht rfl ((h.opened n c _ ht).wrote _)
  | parked c ht =>
    have htracked : s.Tracked n c .wait := (h.opened n c _ ht).goesOn rfl fun _ => trivial
    exact h.of_open hd' ht rfl { htracked with }
  | woken c ht hwake =>
    have htracked : s.Tracked n c .collect := (h.opened n c _ ht).goesOn rfl False.elim
    exact h.of_open hd' ht rfl
      ⟨htracked.sent, htracked.order, htracked.ahead, fun _ _ hsettled => hsettled.elim⟩
  | resumed c phase phase' ht hphase hphase' =>
    have hrest : phase'.rest = phase.rest := by
      rcases hphase with rfl | rfl <;> rcases hphase' with rfl | rfl <;> rfl
    have hsettled : ¬ phase'.Settled := by
      rcases hphase' with rfl | rfl <;> exact False.elim
    have htracked := (h.opened n c _ ht).goesOn hrest fun hs => absurd hs hsettled
    exact h.of_open hd' ht rfl { htracked with }
  | acked c phase data acked m removed queue ht hphase hevent hack hid hrem =>
    have hrest : Phase.drain.rest = phase.rest := by
      rcases hphase with rfl | rfl <;> rfl
    have htracked := (h.opened n c _ ht).goesOn hrest False.elim
    refine h.of_open hd' ht rfl (htracked.follows (.of_row rfl rfl rfl fun hnotify => ?_))
    exact ⟨m, ⟨hid, hnotify⟩, removeFirst_sublist hrem⟩
  | _ => exact h.of_plain hd' (by assumption) rfl rfl

theorem Delivering.step {l : Label} (h : s.Delivering) (hstep : s.step l = some s') : s'.Delivering := by
  obtain ⟨t, hq, -, rfl⟩ | ⟨n, e, s₁, rfl, -, -, -, hd, rfl⟩ := step_cases hstep
  · refine ⟨h.kept.of_same rfl rfl, ?_, ?_⟩
    · intro k c phase hc
      obtain ⟨-, heq⟩ | hc := getElem?_append_cases hc
      · exact absurd heq.symm (hq.ne_deliver c phase)
      · exact (h.opened k c phase hc).follows (.of_same rfl rfl (Nat.le_refl _))
    · intro k c hc
      obtain ⟨-, heq⟩ | hc := getElem?_append_cases hc
      · rw [← heq] at hq
        exact hq.elim
      · exact h.closed k c hc
  · have hdid := h.did hd
    exact ⟨hdid.kept.of_same rfl rfl,
      fun k c phase hc => (hdid.opened k c phase hc).follows (.of_same rfl rfl (Nat.le_refl _)),
      hdid.closed⟩

theorem delivering_start (cfg : Config) (hasher : Bytes → UInt64) : (start cfg hasher).Delivering :=
  ⟨fun _ _ h => (by cases h), fun _ _ _ h => (by cases h), fun _ _ h => (by cases h)⟩

/-! ## The theorem -/

/-- A batch is collected only by the registered connection. -/
theorem registered_of_batch {c' : Connection} {phase' : Phase}
    (hc : s.tasks[n]? = some (.deliver c phase)) (hstep : s.step (.act n e) = some s')
    (hc' : s'.tasks[n]? = some (.deliver c' phase')) (hbatch : c'.batches ≠ c.batches) :
    ∃ m, s.Registered n c.mailbox m := by
  obtain ⟨-, heq⟩ | ⟨m, hid, hreg, -⟩ := batches_of_act hc hstep hc'
  · exact absurd heq hbatch
  · exact ⟨m, hid, hreg⟩

/-- The ids of the deposits of a mailbox are among all ids. -/
theorem nodup_deposits (hids : (s.accepted.map fun d => d.2.id).Nodup) (id : String) :
    ((s.deposits id).map QueuedMsg.id).Nodup := by
  unfold deposits
  rw [List.map_map]
  exact (List.filter_sublist.map _).nodup hids

theorem map_frameId_depositFrames (s : Server) (id : String) :
    (s.depositFrames id).map frameId = ((s.deposits id).map QueuedMsg.id).map Subtype.val := by
  unfold depositFrames
  rw [List.map_map, List.map_map]
  exact List.map_congr_left fun msg _ => frameId_deliveryFrame msg.id msg.bytes

/-- **No lost wakeup, no duplicate, in order.** In every state of every run in which the message ids
drawn are distinct: the frames written on a connection, open or closed, are deposits of its mailbox id
in deposit order, and no message id is among them twice; a batch is collected only by a connection that
is the registered subscriber; and when a registered subscriber is parked with an empty wake channel,
every message queued in its mailbox has been written on that connection. -/
theorem delivery_in_order (cfg : Config) (hasher : Bytes → UInt64) (ls : List Label) (s : Server)
    (hrun : run step (start cfg hasher) ls = some s)
    (hids : (s.accepted.map fun d => d.2.id).Nodup) :
    (∀ (n : ℕ) (t : Task) (c : Connection), s.tasks[n]? = some t → t.connection = some c →
      c.frames.Sublist (s.depositFrames c.mailbox) ∧ (c.frames.map frameId).Nodup) ∧
    (∀ n e s' c c' phase phase', s.tasks[n]? = some (.deliver c phase) →
      s.step (.act n e) = some s' → s'.tasks[n]? = some (.deliver c' phase') →
      c'.batches ≠ c.batches → ∃ m, s.Registered n c.mailbox m) ∧
    ∀ n c m, s.tasks[n]? = some (.deliver c .wait) → s.Registered n c.mailbox m → s.wakes n = 0 →
      ∀ msg ∈ m.queue, msg.frame ∈ c.frames := by
  have hdel : s.Delivering := run_invariant (fun _ _ _ h (_ : True) hstep => h.step hstep)
    (delivering_start cfg hasher) (Along.of_forall fun _ _ => trivial) hrun
  refine ⟨fun n t c ht hc => ?_, fun n e s' c c' phase phase' hc hstep hc' hbatch =>
    registered_of_batch hc hstep hc' hbatch, fun n c m hc hreg hwakes msg hmsg => ?_⟩
  · have hsub : c.frames.Sublist (s.depositFrames c.mailbox) := by
      cases t <;> cases hc
      · exact (hdel.opened n c _ ht).frames_sublist
      · exact hdel.closed n c ht
    refine ⟨hsub, (hsub.map frameId).nodup ?_⟩
    rw [map_frameId_depositFrames]
    exact (nodup_deposits hids c.mailbox).map Subtype.val_injective
  · have htracked := hdel.opened n c _ hc
    have hsent : msg.id.val ∈ c.frames.map frameId := by
      rcases htracked.woken m hreg trivial msg hmsg with hsent | hrest | hpos
      · exact (htracked.sent _).mp hsent
      · cases hrest
      · omega
    -- the frame with that id is the message's own, as ids are distinct
    obtain ⟨frame, hframe, hid⟩ := List.mem_map.mp hsent
    obtain ⟨msg', hmsg', rfl⟩ := List.mem_map.mp (htracked.frames_sublist.subset hframe)
    rw [frameId_deliveryFrame] at hid
    have heq : msg' = msg := List.inj_on_of_nodup_map (nodup_deposits hids c.mailbox) hmsg'
      ((hdel.kept c.mailbox m hreg.1).subset hmsg) (Subtype.ext hid)
    rw [← heq]
    exact hframe

/-- A subscriber parks on an empty mailbox, is woken by a deposit and writes it; a second deposit is
in the queue with its wake still in the channel. -/
def oneBehind : List Label :=
  served (.put localhost idA) 0 2 1 ++ served (.subscribe idA) 1 5 2 ++
    served (.deposit localhost idA (blobOf 7)) 2 2 3 1 ++ .act 1 (envAt 4 0 .wake) ::
    List.replicate 3 (.act 1 (envAt 4 0 .nothing)) ++ served (.deposit localhost idA (blobOf 8)) 3 2 5 2

/-- One frame is on the connection, and a wake stands for the other. -/
theorem one_behind_in_order :
    ∃ s c, run step smallRelay oneBehind = some s ∧ s.wakes 1 = 1 ∧
      (s.tasks[1]?).bind Task.connection = some c ∧
      c.frames = [deliveryFrame (msgIdOf 1) (blobOf 7)] ∧ (c.frames.map frameId).Nodup := by
  refine ⟨_, _, rfl, rfl, rfl, rfl, ?_⟩
  exact ((delivery_in_order smallConfig (fun _ => 0) oneBehind _ rfl (by decide)).1 1 _ _ rfl rfl).2

end Server

end Titlan.Relay
