import Titlan.Relay.Server

/-! # Blindness

The relay never looks behind the first five bytes of a deposited blob. Two runs whose deposits differ
only there are kept in step: at every point the two relays are in the same state, but for the blobs, and
the two blobs at one place are the two bodies of one deposit. What the relay answers, counts and limits
by is then the same in both runs, and two frames it pushes at one place differ in these bodies alone. -/

namespace Titlan.Relay

open Foundation

/-! ## Two relays -/

section Twin

variable (R : Bytes → Bytes → Prop)

/-- Two related blobs that differ at most behind the first five bytes. -/
structure BlobTwin (b b' : Bytes) : Prop where
  rel : R b b'
  length_eq : b.length = b'.length
  head_eq : b.take 5 = b'.take 5

/-- The frames of two such blobs under one message id. -/
def FrameTwin (f f' : Bytes) : Prop :=
  ∃ id b b', BlobTwin R b b' ∧ f = deliveryFrame id b ∧ f' = deliveryFrame id b'

def QueuedMsg.Twin (m m' : QueuedMsg) : Prop :=
  ∃ bytes, BlobTwin R m.bytes bytes ∧ m' = { m with bytes }

def Mailbox.Twin (m m' : Mailbox) : Prop :=
  ∃ queue, List.Forall₂ (QueuedMsg.Twin R) m.queue queue ∧ m' = { m with queue }

def AppState.Twin (s s' : AppState) : Prop :=
  ∃ boxes, Table.Rel (Mailbox.Twin R) s.boxes boxes ∧ s' = { s with boxes }

def Connection.Twin (c c' : Connection) : Prop :=
  ∃ frames batches, List.Forall₂ (FrameTwin R) c.frames frames ∧
    List.Forall₂ (List.Forall₂ (FrameTwin R)) c.batches batches ∧ c' = { c with frames, batches }

inductive Phase.Twin : Phase → Phase → Prop
  | collect : Twin .collect .collect
  | send {rest rest' : List Bytes} (h : List.Forall₂ (FrameTwin R) rest rest') :
    Twin (.send rest) (.send rest')
  | wait : Twin .wait .wait
  | drain : Twin .drain .drain

/-- The task holds no blob and no frame. -/
def Task.Plain : Task → Prop
  | .depositAdmit .. | .depositQueue .. | .deliver .. | .closed .. => False
  | _ => True

inductive Task.Twin : Task → Task → Prop
  | depositAdmit (ip : IpAddr) (id : String) {b b' : Bytes} (h : BlobTwin R b b') :
    Twin (.depositAdmit ip id b) (.depositAdmit ip id b')
  | depositQueue (id : String) {b b' : Bytes} (h : BlobTwin R b b') :
    Twin (.depositQueue id b) (.depositQueue id b')
  | deliver {c c' : Connection} {p p' : Phase} (hc : c.Twin R c') (hp : p.Twin R p') :
    Twin (.deliver c p) (.deliver c' p')
  | closed {c c' : Connection} (hc : c.Twin R c') : Twin (.closed c) (.closed c')
  | plain (t : Task) (h : t.Plain) : Twin t t

/-- The two relays are in the same state but for the blobs; what they took is history. -/
def Server.Twin (s s' : Server) : Prop :=
  ∃ app tasks accepted, s.app.Twin R app ∧ List.Forall₂ (Task.Twin R) s.tasks tasks ∧
    s' = { s with app, tasks, accepted }

/-- The two inputs are the same but for the body of a deposit. -/
inductive Label.Twin : Label → Label → Prop
  | deposit (ip : IpAddr) (id : String) {b b' : Bytes} (h : BlobTwin R b b') :
    Twin (.request (.deposit ip id b)) (.request (.deposit ip id b'))
  | request (r : Request) (h : r.task.Plain) : Twin (.request r) (.request r)
  | tick : Twin .tick .tick
  | act (n : ℕ) (e : Env) : Twin (.act n e) (.act n e)

end Twin

variable {R : Bytes → Bytes → Prop}

/-! ## What the parsers see -/

/-- Admission reads the length and the first five bytes. -/
theorem BlobTwin.depositAdmissible_eq {b b' : Bytes} (h : BlobTwin R b b') :
    depositAdmissible b = depositAdmissible b' := by
  have htake : b.take 4 = b'.take 4 := by
    have h4 := congrArg (List.take 4) h.head_eq
    rwa [List.take_take, List.take_take] at h4
  have hbyte : b[4]? = b'[4]? := by
    rw [← List.getElem?_take_of_lt (show 4 < 5 by omega), h.head_eq,
      List.getElem?_take_of_lt (show 4 < 5 by omega)]
  unfold depositAdmissible
  rw [h.length_eq, htake, hbyte]

theorem FrameTwin.frameId_eq {f f' : Bytes} (h : FrameTwin R f f') : frameId f = frameId f' := by
  obtain ⟨id, b, b', -, rfl, rfl⟩ := h
  rw [frameId_deliveryFrame, frameId_deliveryFrame]

/-! ## The critical sections -/

section Queue

variable {queue queue' : List QueuedMsg} (h : List.Forall₂ (QueuedMsg.Twin R) queue queue')
include h

theorem totalBytes_twin : totalBytes queue = totalBytes queue' := by
  refine congrArg List.sum (Table.forall₂_map_eq h fun m m' hm => ?_)
  obtain ⟨bytes, hb, rfl⟩ := hm
  exact hb.length_eq

/-- A message expires by its age. -/
theorem expired_twin (ttl now : ℕ) :
    List.Forall₂ (QueuedMsg.Twin R) (queue.takeWhile (QueuedMsg.expired ttl now))
        (queue'.takeWhile (QueuedMsg.expired ttl now)) ∧
      List.Forall₂ (QueuedMsg.Twin R) (queue.dropWhile (QueuedMsg.expired ttl now))
        (queue'.dropWhile (QueuedMsg.expired ttl now)) := by
  induction h with
  | nil => exact ⟨.nil, .nil⟩
  | @cons m m' queue queue' hm hrest ih =>
    have hexp : m'.expired ttl now = m.expired ttl now := by
      obtain ⟨bytes, -, rfl⟩ := hm
      rfl
    rw [List.takeWhile_cons, List.takeWhile_cons, List.dropWhile_cons, List.dropWhile_cons, hexp]
    split
    · exact ⟨.cons hm ih.1, ih.2⟩
    · exact ⟨.nil, .cons hm hrest⟩

theorem removeFirst_twin (acked : MsgId) :
    Option.Rel (fun out out' => out.1.Twin R out'.1 ∧ List.Forall₂ (QueuedMsg.Twin R) out.2 out'.2)
      (AppState.removeFirst acked queue) (AppState.removeFirst acked queue') := by
  induction h with
  | nil => exact .none
  | @cons m m' queue queue' hm hrest ih =>
    have hid : m'.id = m.id := by
      obtain ⟨bytes, -, rfl⟩ := hm
      rfl
    rw [AppState.removeFirst, AppState.removeFirst, hid]
    split
    · exact .some ⟨hm, hrest⟩
    · generalize AppState.removeFirst acked queue = o, AppState.removeFirst acked queue' = o' at ih
      cases ih with
      | none => exact .none
      | some ho => exact .some ⟨ho.1, .cons hm ho.2⟩

end Queue

namespace Mailbox.Twin

variable {m m' : Mailbox} (h : m.Twin R m')
include h

theorem dropped_eq (ttl now : ℕ) : m.dropped ttl now = m'.dropped ttl now := by
  obtain ⟨queue, hq, rfl⟩ := h
  exact totalBytes_twin (expired_twin hq ttl now).1

theorem sweep (ttl now : ℕ) : Option.Rel (Mailbox.Twin R) (m.sweep ttl now) (m'.sweep ttl now) := by
  have hdropped := h.dropped_eq ttl now
  obtain ⟨queue, hq, rfl⟩ := h
  have hidle : Mailbox.idle ttl now { m with queue } = m.idle ttl now := rfl
  unfold Mailbox.sweep
  rw [← hdropped, hidle]
  split
  · exact .none
  · exact .some ⟨_, (expired_twin hq ttl now).2, rfl⟩

theorem unsent (sent : List Bytes) :
    List.Forall₂ (FrameTwin R) (m.unsent sent) (m'.unsent sent) := by
  obtain ⟨queue, hq, rfl⟩ := h
  unfold Mailbox.unsent
  refine List.rel_map (fun msg msg' hmsg => ?_) (List.rel_filter (fun msg msg' hmsg => ?_) hq)
  · obtain ⟨bytes, hb, rfl⟩ := hmsg
    exact ⟨msg.id, msg.bytes, bytes, hb, rfl, rfl⟩
  · obtain ⟨bytes, -, rfl⟩ := hmsg
    rfl

end Mailbox.Twin

namespace AppState.Twin

variable {s s' : AppState} (h : s.Twin R s') (id : String)
include h

theorem lookup : Option.Rel (Mailbox.Twin R) (s.boxes.lookup id) (s'.boxes.lookup id) := by
  obtain ⟨boxes, hb, rfl⟩ := h
  exact hb.lookup id

/-- The rows change on both sides alike. -/
theorem insert {m m' : Mailbox} (hm : m.Twin R m') :
    AppState.Twin R { s with boxes := s.boxes.insert id m } { s' with boxes := s'.boxes.insert id m' } := by
  obtain ⟨boxes, hb, rfl⟩ := h
  exact ⟨_, hb.insert id hm, rfl⟩

theorem createMailbox (draws : List Bytes) (now : ℕ) :
    Option.Rel (fun out out' => out.1 = out'.1 ∧ out.2.Twin R out'.2) (s.createMailbox draws now)
      (s'.createMailbox draws now) := by
  obtain ⟨boxes, hb, rfl⟩ := h
  unfold AppState.createMailbox
  simp only [hb.size_eq, hb.mem_iff]
  split
  · exact .some ⟨rfl, _, hb, rfl⟩
  · generalize (draws.map encodeMailboxId).find? _ = found
    cases found with
    | none => exact .none
    | some id => exact .some ⟨rfl, _, hb.insert id ⟨_, .nil, rfl⟩, rfl⟩

theorem putMailbox (now : ℕ) :
    (s.putMailbox id now).1 = (s'.putMailbox id now).1 ∧
      (s.putMailbox id now).2.Twin R (s'.putMailbox id now).2 := by
  obtain ⟨boxes, hb, rfl⟩ := h
  unfold AppState.putMailbox
  simp only [hb.size_eq, hb.mem_iff]
  split
  · exact ⟨rfl, _, hb, rfl⟩
  · split
    · exact ⟨rfl, _, hb, rfl⟩
    · exact ⟨rfl, _, hb.insert id ⟨_, .nil, rfl⟩, rfl⟩

theorem queueDeposit {b b' : Bytes} (hbody : BlobTwin R b b') (msgId : MsgId) (minute retryAfter : ℕ)
    (now : Instants) :
    (s.queueDeposit id b msgId minute retryAfter now).1 =
        (s'.queueDeposit id b' msgId minute retryAfter now).1 ∧
      (s.queueDeposit id b msgId minute retryAfter now).2.1.Twin R
        (s'.queueDeposit id b' msgId minute retryAfter now).2.1 ∧
      (s.queueDeposit id b msgId minute retryAfter now).2.2 =
        (s'.queueDeposit id b' msgId minute retryAfter now).2.2 := by
  have hrow := h.lookup id
  obtain ⟨boxes, hb, rfl⟩ := h
  unfold AppState.queueDeposit
  generalize s.boxes.lookup id = o, boxes.lookup id = o' at hrow
  cases hrow with
  | none => exact ⟨rfl, ⟨_, hb, rfl⟩, rfl⟩
  | @some m m' hm =>
    obtain ⟨queue, hq, rfl⟩ := hm
    simp only [← hbody.length_eq, ← hq.length_eq]
    split
    · exact ⟨rfl, ⟨_, hb, rfl⟩, rfl⟩
    · split
      · exact ⟨rfl, ⟨_, hb, rfl⟩, rfl⟩
      · have hqueue := List.rel_append hq (.cons ⟨b', hbody, rfl⟩ .nil :
          List.Forall₂ (QueuedMsg.Twin R) [⟨msgId, b, now.t₁⟩] [⟨msgId, b', now.t₁⟩])
        exact ⟨rfl, ⟨_, hb.insert id ⟨_, hqueue, rfl⟩, rfl⟩, rfl⟩

theorem register (tx now : ℕ) :
    Option.Rel (AppState.Twin R) (s.register id tx now) (s'.register id tx now) := by
  have hrow := h.lookup id
  unfold AppState.register
  generalize s.boxes.lookup id = o, s'.boxes.lookup id = o' at hrow
  cases hrow with
  | none => exact .none
  | some hm =>
    obtain ⟨queue, hq, rfl⟩ := hm
    exact .some (h.insert id ⟨_, hq, rfl⟩)

theorem collect (tx : ℕ) (sent : List Bytes) :
    Option.Rel (List.Forall₂ (FrameTwin R)) (s.collect id tx sent) (s'.collect id tx sent) := by
  have hrow := h.lookup id
  unfold AppState.collect
  generalize s.boxes.lookup id = o, s'.boxes.lookup id = o' at hrow
  cases hrow with
  | none => exact .none
  | @some m m' hm =>
    have hunsent := hm.unsent sent
    have hnotify : m'.notify = m.notify := by
      obtain ⟨queue, -, rfl⟩ := hm
      rfl
    simp only [hnotify]
    split
    · exact .some hunsent
    · exact .none

theorem handleAck (data : Bytes) (now : ℕ) :
    (s.handleAck id data now).Twin R (s'.handleAck id data now) := by
  have hrow := h.lookup id
  unfold AppState.handleAck
  cases parseAckFrame data with
  | none => exact h
  | some acked =>
    generalize s.boxes.lookup id = o, s'.boxes.lookup id = o' at hrow
    cases hrow with
    | none => exact h
    | @some m m' hm =>
      obtain ⟨queue, hq, rfl⟩ := hm
      have hremoved := removeFirst_twin hq acked
      simp only
      generalize removeFirst acked m.queue = r, removeFirst acked queue = r' at hremoved
      cases hremoved with
      | none => exact h
      | @some out out' hout =>
        obtain ⟨removed, rest⟩ := out
        obtain ⟨removed', rest'⟩ := out'
        obtain ⟨⟨bytes, hbytes, rfl⟩, hrest⟩ := hout
        obtain ⟨boxes, hb, rfl⟩ := h
        simp only [← hbytes.length_eq]
        exact ⟨_, hb.insert id ⟨_, hrest, rfl⟩, rfl⟩

theorem removeMailbox :
    (s.removeMailbox id).1 = (s'.removeMailbox id).1 ∧
      (s.removeMailbox id).2.Twin R (s'.removeMailbox id).2 := by
  have hrow := h.lookup id
  obtain ⟨boxes, hb, rfl⟩ := h
  refine ⟨?_, _, hb.erase id, rfl⟩
  show (s.boxes.lookup id).map _ = (boxes.lookup id).map _
  generalize s.boxes.lookup id = o, boxes.lookup id = o' at hrow
  cases hrow with
  | none => rfl
  | some hm =>
    obtain ⟨queue, -, rfl⟩ := hm
    rfl

theorem sweepBoxes (now : ℕ) : (s.sweepBoxes now).Twin R (s'.sweepBoxes now) := by
  obtain ⟨boxes, hb, rfl⟩ := h
  have hdropped : ∀ m m' : Mailbox, m.Twin R m' → m.dropped s.cfg.ttl now = m'.dropped s.cfg.ttl now :=
    fun m m' hm => hm.dropped_eq s.cfg.ttl now
  have htotal := hb.total_eq hdropped
  have hany := congrArg (List.any · id) (Table.forall₂_map_eq hb
    (f := fun row => decide (row.2.queuedBytes < row.2.dropped s.cfg.ttl now))
    (g := fun row => decide (row.2.queuedBytes < row.2.dropped s.cfg.ttl now)) fun row row' hrow => by
      have hrowDropped := hdropped _ _ hrow.2
      obtain ⟨queue, -, hm'⟩ := hrow.2
      rw [hrowDropped, hm'])
  simp only [List.any_map, Function.id_comp] at hany
  refine ⟨_, hb.retain fun m m' hm => hm.sweep s.cfg.ttl now, ?_⟩
  simp only [AppState.sweepBoxes, htotal, hany]

end AppState.Twin

/-! ## Steps -/

namespace Server.Twin

variable {s s' : Server} (h : s.Twin R s') (n : ℕ) (e : Env)
include h

theorem app : s.app.Twin R s'.app := by
  obtain ⟨app, tasks, accepted, happ, -, rfl⟩ := h
  exact happ

theorem become {app app' : AppState} {t t' : Task} (happ : app.Twin R app') (ht : t.Twin R t') :
    (s.become n app t).Twin R (s'.become n app' t') := by
  obtain ⟨_, tasks, accepted, -, htasks, rfl⟩ := h
  exact ⟨_, _, _, happ, forall₂_set htasks n ht, rfl⟩

/-- The step only looked at the state. -/
theorem become_plain {t : Task} (ht : t.Plain) : (s.become n s.app t).Twin R (s'.become n s'.app t) :=
  h.become n h.app (.plain t ht)

theorem depositAdmit (ip : IpAddr) (id : String) {b b' : Bytes} (hbody : BlobTwin R b b') :
    (s.depositAdmit n e ip id b).Twin R (s'.depositAdmit n e ip id b') := by
  have hs := h
  obtain ⟨_, tasks, accepted, ⟨boxes, hb, rfl⟩, htasks, rfl⟩ := h
  unfold Server.depositAdmit
  simp only [← hbody.length_eq, ← hbody.depositAdmissible_eq]
  split
  · exact hs.become_plain n trivial
  · split
    · exact hs.become_plain n trivial
    · have hadmitted : AppState.Twin R
          { s.app with srcLimiter :=
            (s.app.srcLimiter.admitDeposit s.app.cfg ip e.minute e.now.t₀ e.now.t₁).2 }
          { s.app with boxes, srcLimiter :=
            (s.app.srcLimiter.admitDeposit s.app.cfg ip e.minute e.now.t₀ e.now.t₁).2 } :=
        ⟨_, hb, rfl⟩
      split
      · exact hs.become n hadmitted (.plain _ trivial)
      · split
        · exact hs.become n hadmitted (.plain _ trivial)
        · exact hs.become n hadmitted (.depositQueue id hbody)

theorem depositQueue (id : String) {b b' : Bytes} (hbody : BlobTwin R b b') :
    (s.depositQueue n e id b).Twin R (s'.depositQueue n e id b') := by
  obtain ⟨hanswer, happ, htx⟩ := h.app.queueDeposit id hbody e.msgId e.minute e.retryAfter e.now
  have hnext := h.become n happ
    (.plain (.answered (s.app.queueDeposit id b e.msgId e.minute e.retryAfter e.now).1) trivial)
  unfold Server.depositQueue
  simp only [← hanswer, ← htx]
  obtain ⟨_, tasks, accepted, happ', htasks, heq⟩ := hnext
  rw [heq]
  split
  · exact ⟨_, _, _, happ', htasks, rfl⟩
  · exact ⟨_, _, _, happ', htasks, rfl⟩

/-- A connection's step does not look into the frames it writes. -/
theorem deliver {c c' : Connection} {p p' : Phase} (hc : c.Twin R c') (hp : p.Twin R p') :
    Option.Rel (Server.Twin R) (s.deliver n e c p) (s'.deliver n e c' p') := by
  have hs := h
  obtain ⟨app, tasks, accepted, happ, htasks, rfl⟩ := h
  have hcc := hc
  obtain ⟨frames, batches, hframes, hbatches, rfl⟩ := hc
  have hack := fun data => happ.handleAck c.mailbox data e.now.t₀
  cases hp with
  | collect =>
    have hbatch := happ.collect c.mailbox n c.sent
    simp only [Server.deliver]
    generalize s.app.collect c.mailbox n c.sent = o, app.collect c.mailbox n c.sent = o' at hbatch
    cases hbatch with
    | none => exact .some (hs.become n happ (.closed hcc))
    | some hframes' =>
      have hbatches' := List.rel_append hbatches (.cons hframes' .nil)
      exact .some (hs.become n happ (.deliver ⟨_, _, hframes, hbatches', rfl⟩ (.send hframes')))
  | send hrest =>
    cases hrest with
    | nil => exact .some (hs.become n happ (.deliver hcc .wait))
    | @cons f f' rest rest' hf hrest =>
      simp only [Server.deliver, ← hf.frameId_eq]
      split
      · have hframes' := List.rel_append hframes (.cons hf .nil)
        exact .some (hs.become n happ (.deliver ⟨_, _, hframes', hbatches, rfl⟩ (.send hrest)))
      · exact .some (hs.become n happ (.closed hcc))
  | wait =>
    simp only [Server.deliver]
    cases e.event with
    | wake =>
      simp only
      split
      · exact .none
      · exact .some ⟨_, _, _, happ, forall₂_set htasks n (.deliver hcc .collect), rfl⟩
    | binary data => exact .some (hs.become n (hack data) (.deliver hcc .drain))
    | close => exact .some (hs.become n happ (.closed hcc))
    | failed => exact .some (hs.become n happ (.closed hcc))
    | other => exact .some (hs.become n happ (.deliver hcc .collect))
    | nothing => exact .none
  | drain =>
    simp only [Server.deliver]
    cases e.event with
    | wake => exact .none
    | binary data => exact .some (hs.become n (hack data) (.deliver hcc .drain))
    | close => exact .some (hs.become n happ (.closed hcc))
    | failed => exact .some (hs.become n happ (.deliver hcc .collect))
    | other => exact .some (hs.become n happ (.deliver hcc .drain))
    | nothing => exact .some (hs.become n happ (.deliver hcc .collect))

/-- A step of a task that holds no blob and no frame. -/
theorem perform_plain (t : Task) (ht : t.Plain) :
    Option.Rel (Server.Twin R) (s.perform n e t) (s'.perform n e t) := by
  have hs := h
  obtain ⟨app, tasks, accepted, happ, htasks, rfl⟩ := h
  cases t with
  | depositAdmit ip id body => exact ht.elim
  | depositQueue id body => exact ht.elim
  | deliver c phase => exact ht.elim
  | closed c => exact ht.elim
  | createInsert =>
    have hout := happ.createMailbox e.draws e.now.t₀
    simp only [Server.perform]
    generalize s.app.createMailbox e.draws e.now.t₀ = o, app.createMailbox e.draws e.now.t₀ = o' at hout
    cases hout with
    | none => exact .none
    | some hout => exact .some (hs.become n hout.2 (hout.1 ▸ .plain (.answered _) trivial))
  | putInsert id =>
    obtain ⟨hanswer, happ'⟩ := happ.putMailbox id e.now.t₀
    exact .some (hs.become n happ' (hanswer ▸ .plain (.answered _) trivial))
  | deleteRemove id =>
    obtain ⟨hbytes, happ'⟩ := happ.removeMailbox id
    simp only [Server.perform, ← hbytes]
    split
    · exact .some (hs.become_plain n trivial)
    · refine .some (hs.become n happ' ?_)
      cases (s.app.removeMailbox id).1 with
      | none => exact .plain _ trivial
      | some bytes => exact .plain _ trivial
  | deliverRegister id =>
    have hout := happ.register id n e.now.t₀
    have hempty : (⟨id, [], [], []⟩ : Connection).Twin R ⟨id, [], [], []⟩ := ⟨_, _, .nil, .nil, rfl⟩
    simp only [Server.perform]
    generalize s.app.register id n e.now.t₀ = o, app.register id n e.now.t₀ = o' at hout
    cases hout with
    | none => exact .some (hs.become n happ (.closed hempty))
    | some happ' => exact .some (hs.become n happ' (.deliver hempty .collect))
  | subscribeLook id =>
    have hmem : id ∉ app.boxes ↔ id ∉ s.app.boxes := by
      obtain ⟨boxes, hb, rfl⟩ := happ
      exact not_congr hb.mem_iff.symm
    simp only [Server.perform, hmem]
    split <;> exact .some (hs.become_plain n trivial)
  | sweepBoxes now => exact .some (hs.become n (happ.sweepBoxes now) (.plain _ trivial))
  | createAdmit ip =>
    obtain ⟨boxes, hb, rfl⟩ := happ
    refine .some (hs.become n ⟨_, hb, rfl⟩ (.plain _ ?_))
    split <;> trivial
  | putAdmit ip id =>
    obtain ⟨boxes, hb, rfl⟩ := happ
    simp only [Server.perform]
    split
    · exact .some (hs.become_plain n trivial)
    · refine .some (hs.become n ⟨_, hb, rfl⟩ (.plain _ ?_))
      split <;> trivial
  | subscribeAdmit id =>
    obtain ⟨boxes, hb, rfl⟩ := happ
    refine .some (hs.become n ⟨_, hb, rfl⟩ (.plain _ ?_))
    split <;> trivial
  | deleteSubtract id bytes =>
    obtain ⟨boxes, hb, rfl⟩ := happ
    exact .some (hs.become n ⟨_, hb, rfl⟩ (.plain _ trivial))
  | deleteForget id =>
    obtain ⟨boxes, hb, rfl⟩ := happ
    exact .some (hs.become n ⟨_, hb, rfl⟩ (.plain _ trivial))
  | sweepStart => exact .some (hs.become_plain n trivial)
  | pruneSources now =>
    obtain ⟨boxes, hb, rfl⟩ := happ
    exact .some (hs.become n ⟨_, hb, rfl⟩ (.plain _ trivial))
  | pruneBoxes now =>
    obtain ⟨boxes, hb, rfl⟩ := happ
    exact .some (hs.become n ⟨_, hb, rfl⟩ (.plain _ trivial))
  | answered r => exact .none
  | swept => exact .none

/-- **Step of a task.** -/
theorem perform {t t' : Task} (ht : t.Twin R t') :
    Option.Rel (Server.Twin R) (s.perform n e t) (s'.perform n e t') := by
  cases ht with
  | depositAdmit ip id hbody => exact .some (h.depositAdmit n e ip id hbody)
  | depositQueue id hbody => exact .some (h.depositQueue n e id hbody)
  | deliver hc hp => exact h.deliver n e hc hp
  | closed => exact .none
  | plain t ht => exact h.perform_plain n e t ht

/-- **Step of the system.** -/
theorem step {l l' : Label} (hl : l.Twin R l') :
    Option.Rel (Server.Twin R) (s.step l) (s'.step l') := by
  have hs := h
  obtain ⟨app, tasks, accepted, happ, htasks, rfl⟩ := h
  have hcome : ∀ {t t' : Task}, t.Twin R t' →
      Server.Twin R { s with tasks := s.tasks ++ [t] } { s with app, accepted, tasks := tasks ++ [t'] } :=
    fun ht => ⟨_, _, _, happ, List.rel_append htasks (.cons ht .nil), rfl⟩
  cases hl with
  | deposit ip id hbody => exact .some (hcome (.depositAdmit ip id hbody))
  | request r hr => exact .some (hcome (.plain _ hr))
  | tick => exact .some (hcome (.plain _ trivial))
  | act n e =>
    have htask := forall₂_getElem? htasks n
    unfold Server.step
    simp only
    split
    · generalize s.tasks[n]? = o, tasks[n]? = o' at htask
      cases htask with
      | none => exact .none
      | @some t t' ht =>
        have hnext := hs.perform n e ht
        simp only [Option.bind_some]
        generalize s.perform n e t = o, Server.perform _ n e t' = o' at hnext
        cases hnext with
        | none => exact .none
        | some hu =>
          obtain ⟨app', tasks', accepted', happ', htasks', rfl⟩ := hu
          exact .some ⟨_, _, _, happ', htasks', rfl⟩
    · exact .none

end Server.Twin

/-! ## Two runs -/

/-- The two inputs differ at most behind the first five bytes of a deposited blob. -/
inductive Label.Alike : Label → Label → Prop
  | deposit (ip : IpAddr) (id : String) (b b' : Bytes) (hlen : b.length = b'.length)
    (hhead : b.take 5 = b'.take 5) :
    Alike (.request (.deposit ip id b)) (.request (.deposit ip id b'))
  | refl (l : Label) : Alike l l

/-- The two bodies of one deposit: the two runs have it at the same place. -/
def SameDeposit (ls ls' : List Label) (b b' : Bytes) : Prop :=
  ∃ (k : ℕ) (ip : IpAddr) (id : String), ls[k]? = some (.request (.deposit ip id b)) ∧
    ls'[k]? = some (.request (.deposit ip id b'))

theorem Label.Alike.twin {l l' : Label} (h : l.Alike l')
    (hR : ∀ ip id b b', l = .request (.deposit ip id b) → l' = .request (.deposit ip id b') → R b b') :
    l.Twin R l' := by
  cases h with
  | deposit ip id b b' hlen hhead => exact .deposit ip id ⟨hR ip id b b' rfl rfl, hlen, hhead⟩
  | refl l =>
    cases l with
    | tick => exact .tick
    | act n e => exact .act n e
    | request r =>
      cases r with
      | deposit ip id b => exact .deposit ip id ⟨hR ip id b b rfl rfl, rfl, rfl⟩
      | create ip => exact .request _ trivial
      | put ip id => exact .request _ trivial
      | delete id => exact .request _ trivial
      | subscribe id => exact .request _ trivial

theorem alike_twin {ls ls' : List Label} (h : List.Forall₂ Label.Alike ls ls') :
    List.Forall₂ (Label.Twin (SameDeposit ls ls')) ls ls' := by
  refine List.forall₂_iff_get.mpr ⟨h.length_eq, fun k hk hk' => ?_⟩
  refine (h.get hk hk').twin fun ip id b b' hl hl' => ⟨k, ip, id, ?_, ?_⟩
  · rw [List.getElem?_eq_getElem hk]
    exact congrArg some hl
  · rw [List.getElem?_eq_getElem hk']
    exact congrArg some hl'

/-- What a task has been answered with. -/
def Task.response : Task → Option Response
  | .answered r => some r
  | _ => none

/-- The frames written on a task's connection. -/
def Task.frames : Task → List Bytes
  | .deliver c _ | .closed c => c.frames
  | _ => []

/-- What is compared of a mailbox: its id, the length of its queue, its byte count and its last
activity. -/
structure MailboxFigures where
  id : String
  queued : ℕ
  queuedBytes : ℕ
  lastActivity : Option ℕ

/-- What is compared of the relay. -/
structure Figures where
  responses : List (Option Response)
  boxes : List MailboxFigures
  globalBytes : ℕ
  srcLimiter : SourceLimiter
  boxLimiter : BoxLimiter

namespace Server

/-- The answers given, the mailboxes' figures, the byte count and the limiters. -/
def figures (s : Server) : Figures where
  responses := s.tasks.map Task.response
  boxes := s.app.boxes.entries.map fun row =>
    ⟨row.1, row.2.queue.length, row.2.queuedBytes, row.2.lastActivity⟩
  globalBytes := s.app.globalBytes
  srcLimiter := s.app.srcLimiter
  boxLimiter := s.app.boxLimiter

theorem Twin.figures_eq {s s' : Server} (h : s.Twin R s') : s.figures = s'.figures := by
  obtain ⟨_, tasks, accepted, ⟨boxes, hb, rfl⟩, htasks, rfl⟩ := h
  have hresponses : s.tasks.map Task.response = tasks.map Task.response := by
    refine Table.forall₂_map_eq htasks fun t t' ht => ?_
    cases ht <;> rfl
  have hboxes : s.figures.boxes = boxes.entries.map fun row =>
      ⟨row.1, row.2.queue.length, row.2.queuedBytes, row.2.lastActivity⟩ := by
    refine Table.forall₂_map_eq hb fun row row' hrow => ?_
    obtain ⟨queue, hq, hm'⟩ := hrow.2
    rw [hm', hrow.1, hq.length_eq]
  show (⟨_, s.figures.boxes, _, _, _⟩ : Figures) = _
  rw [hboxes]
  show (⟨s.tasks.map Task.response, _, _, _, _⟩ : Figures) = _
  rw [hresponses]
  rfl

theorem frames_twin {t t' : Task} (h : t.Twin R t') :
    List.Forall₂ (FrameTwin R) t.frames t'.frames := by
  cases h with
  | depositAdmit => exact .nil
  | depositQueue => exact .nil
  | deliver hc =>
    obtain ⟨frames, batches, hframes, -, rfl⟩ := hc
    exact hframes
  | closed hc =>
    obtain ⟨frames, batches, hframes, -, rfl⟩ := hc
    exact hframes
  | plain t ht => cases t <;> first | exact ht.elim | exact .nil

/-- **The relay is blind to envelope interiors.** Two runs whose inputs differ at most behind the first
five bytes of deposited blobs of equal lengths either both get stuck, or reach states with the same
answers, mailbox figures, byte count and limiters; and at each place of each connection stand frames that
carry, under one message id, the two bodies of one deposit. -/
theorem blind_to_interiors (cfg : Config) (hasher : Bytes → UInt64) (ls ls' : List Label)
    (hls : List.Forall₂ Label.Alike ls ls') :
    Option.Rel (fun s s' => s.figures = s'.figures ∧ List.Forall₂ (fun t t' =>
        List.Forall₂ (FrameTwin (SameDeposit ls ls')) t.frames t'.frames) s.tasks s'.tasks)
      (run step (start cfg hasher) ls) (run step (start cfg hasher) ls') := by
  have hstart : (start cfg hasher).Twin (SameDeposit ls ls') (start cfg hasher) :=
    ⟨_, _, _, ⟨∅, .nil, rfl⟩, .nil, rfl⟩
  have hrun := run_rel (fun s s' l l' hs hl => hs.step hl) hstart (alike_twin hls)
  generalize run step (start cfg hasher) ls = o, run step (start cfg hasher) ls' = o' at hrun
  cases hrun with
  | none => exact .none
  | some h =>
    refine .some ⟨h.figures_eq, ?_⟩
    obtain ⟨_, tasks, accepted, -, htasks, rfl⟩ := h
    exact htasks.imp fun t t' ht => frames_twin ht

/-- A put, two deposits and a subscription that receives both; the interiors are `x` and `y`. -/
def exchange (x y : UInt8) : List Label :=
  served (.put localhost idA) 0 2 1 ++ served (.deposit localhost idA (blobOf x)) 1 2 2 1 ++
    served (.deposit localhost idA (blobOf y)) 2 2 3 2 ++ served (.subscribe idA) 3 6 4

theorem alike_refl (ls : List Label) : List.Forall₂ Label.Alike ls ls :=
  List.forall₂_same.mpr fun l _ => .refl l

/-- Two exchanges with different interiors: the subscriber receives other frames, and nothing else
differs. -/
theorem exchange_blind :
    ∃ s s', run step smallRelay (exchange 7 8) = some s ∧ run step smallRelay (exchange 9 0) = some s' ∧
      s.tasks.map Task.frames ≠ s'.tasks.map Task.frames ∧ s.figures = s'.figures ∧
      List.Forall₂ (fun t t' => List.Forall₂ (FrameTwin (SameDeposit (exchange 7 8) (exchange 9 0)))
        t.frames t'.frames) s.tasks s'.tasks := by
  have hrel := blind_to_interiors smallConfig (fun _ => 0) (exchange 7 8) (exchange 9 0)
    (.cons (.refl _) (.cons (.refl _) (.cons (.refl _) (.cons (.deposit _ _ _ _ rfl rfl)
      (.cons (.refl _) (.cons (.refl _) (.cons (.deposit _ _ _ _ rfl rfl) (alike_refl _))))))))
  obtain ⟨s, hs, hframes⟩ : ∃ s, run step smallRelay (exchange 7 8) = some s ∧ s.tasks.map Task.frames =
      [[], [], [], [deliveryFrame (msgIdOf 1) (blobOf 7), deliveryFrame (msgIdOf 2) (blobOf 8)]] :=
    ⟨_, rfl, rfl⟩
  obtain ⟨s', hs', hframes'⟩ : ∃ s, run step smallRelay (exchange 9 0) = some s ∧
      s.tasks.map Task.frames =
        [[], [], [], [deliveryFrame (msgIdOf 1) (blobOf 9), deliveryFrame (msgIdOf 2) (blobOf 0)]] :=
    ⟨_, rfl, rfl⟩
  change Option.Rel _ (run step smallRelay _) (run step smallRelay _) at hrel
  rw [hs, hs'] at hrel
  cases hrel with
  | some h =>
    refine ⟨s, s', hs, hs', ?_, h.1, h.2⟩
    rw [hframes, hframes']
    decide

end Server

end Titlan.Relay
