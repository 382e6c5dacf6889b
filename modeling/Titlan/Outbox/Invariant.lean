import Titlan.Outbox.State

/-! # What the flush lock protects

Only the holder of the flush lock deposits chats and marks rows, always the pending row with the least
id, so accepted deposits come in the order of the rows. `Inv` is the invariant of the shared state. With
`strict`, it also says that no accepted row is pending while nobody holds the lock; that needs a relay
that accepts every chat deposit and calls that are not dropped between acceptance and mark. -/

namespace Titlan.Outbox

open Foundation

variable {C : Carrier}

/-- The envelope seals the frame, in some state of the session. -/
def Seals (E : Engine C) (frame : C.Frame) (wire : C.Wire) : Prop :=
  ∃ session session', E.messageEncrypt session frame = .ok (session', wire)

/-- The relay accepted the deposit, or will never accept it. -/
def Processed.Final (d : Processed C) : Prop := d.outcome.Final

/-- The row is outgoing and pending. -/
def Client.Pending (s : Client C) (id : ℕ) : Prop :=
  ∃ m ∈ s.device.messages, m.id = id ∧ m.direction = .outgoing ∧ m.status = .pending

/-- With `strict`: no accepted row is pending. -/
def Client.Settled (strict : Prop) (s : Client C) : Prop :=
  strict → ∀ a ∈ s.accepted, ¬ s.Pending a

/-- The invariant of the shared state; `old` are the rows sent before the run. -/
structure Inv (E : Engine C) (strict : Prop) (old : ℕ → Prop) (s : Client C) : Prop where
  ids : ∀ (k : ℕ) m, s.device.messages[k]? = some m → m.id = k
  order : s.accepted.Pairwise (· ≤ ·)
  once : strict → s.accepted.Nodup
  rows : ∀ a ∈ s.accepted, a < s.device.messages.length
  ahead : ∀ a ∈ s.accepted, ∀ id, s.Pending id → a ≤ id
  sent : ∀ m ∈ s.device.messages, m.direction = .outgoing → m.status = .sent →
    old m.id ∨ ∃ d ∈ s.log, d.row = m.id ∧ d.Final ∧ Seals E m.frame d.wire
  sealed : ∀ d ∈ s.log, ∃ m ∈ s.device.messages,
    m.id = d.row ∧ m.direction = .outgoing ∧ Seals E m.frame d.wire
  settled : s.holder = none → s.Settled strict

/-- No deposit is processed, and rows are at most added to the table. -/
structure Grows (s s' : Client C) : Prop where
  log : s'.log = s.log
  messages : ∃ added, s'.device.messages = s.device.messages ++ added

/-- The table, the lock and the history are as they were. -/
structure Same (s s' : Client C) : Prop where
  messages : s'.device.messages = s.device.messages
  holder : s'.holder = s.holder
  log : s'.log = s.log

section Grows

variable {E : Engine C} {strict : Prop} {old : ℕ → Prop} {s s' : Client C} {id : ℕ}

theorem Same.grows (h : Same s s') : Grows s s' :=
  ⟨h.log, [], by rw [h.messages, List.append_nil]⟩

theorem Grows.refl (s : Client C) : Grows s s := Same.grows ⟨rfl, rfl, rfl⟩

theorem Grows.accepted (h : Grows s s') : s'.accepted = s.accepted := by
  unfold Client.accepted
  rw [h.log]

theorem Grows.mem {m : StoredMessage C} (h : Grows s s') (hm : m ∈ s.device.messages) :
    m ∈ s'.device.messages := by
  obtain ⟨added, hadded⟩ := h.messages
  rw [hadded]
  exact List.mem_append_left _ hm

theorem Grows.length_le (h : Grows s s') : s.device.messages.length ≤ s'.device.messages.length := by
  obtain ⟨added, hadded⟩ := h.messages
  rw [hadded, List.length_append]
  omega

theorem Grows.pending (h : Grows s s') (hp : s.Pending id) : s'.Pending id := by
  obtain ⟨m, hm, hrest⟩ := hp
  exact ⟨m, h.mem hm, hrest⟩

/-- A row that is not among the old ones has a larger id than all of them. -/
theorem Grows.mem_or_le (h : Grows s s')
    (hids : ∀ (k : ℕ) m, s'.device.messages[k]? = some m → m.id = k) {m : StoredMessage C}
    (hm : m ∈ s'.device.messages) : m ∈ s.device.messages ∨ s.device.messages.length ≤ m.id := by
  obtain ⟨added, hadded⟩ := h.messages
  rw [hadded] at hm hids
  rcases List.mem_append.mp hm with hm | hm
  · exact .inl hm
  · obtain ⟨k, hk⟩ := List.mem_iff_getElem?.mp hm
    have hat : (s.device.messages ++ added)[s.device.messages.length + k]? = some m := by
      rw [List.getElem?_append_right (Nat.le_add_right _ _), Nat.add_sub_cancel_left]
      exact hk
    rw [hids _ m hat]
    exact .inr (Nat.le_add_right _ _)

theorem Grows.pending_or_le (h : Grows s s')
    (hids : ∀ (k : ℕ) m, s'.device.messages[k]? = some m → m.id = k) (hp : s'.Pending id) :
    s.Pending id ∨ s.device.messages.length ≤ id := by
  obtain ⟨m, hm, hid, hrest⟩ := hp
  rcases h.mem_or_le hids hm with hm | hle
  · exact .inl ⟨m, hm, hid, hrest⟩
  · exact .inr (hid ▸ hle)

/-- New rows are no accepted ones. -/
theorem Inv.settled_of_grows (h : Inv E strict old s) (hg : Grows s s')
    (hids : ∀ (k : ℕ) m, s'.device.messages[k]? = some m → m.id = k) (hs : s.Settled strict) :
    s'.Settled strict := by
  intro hstrict a ha hp
  rw [hg.accepted] at ha
  rcases hg.pending_or_le hids hp with hp | hle
  · exact hs hstrict a ha hp
  · have hlt := h.rows a ha
    omega

/-- The invariant survives new rows that are not sent. -/
theorem Inv.grow (h : Inv E strict old s) (hg : Grows s s')
    (hids : ∀ (k : ℕ) m, s'.device.messages[k]? = some m → m.id = k)
    (hnew : ∀ m ∈ s'.device.messages, m.direction = .outgoing → m.status = .sent →
      m ∈ s.device.messages) (hholder : s'.holder = s.holder) : Inv E strict old s' where
  ids := hids
  order := by
    rw [hg.accepted]
    exact h.order
  once := by
    rw [hg.accepted]
    exact h.once
  rows a ha := by
    rw [hg.accepted] at ha
    exact Nat.lt_of_lt_of_le (h.rows a ha) hg.length_le
  ahead a ha id hp := by
    rw [hg.accepted] at ha
    rcases hg.pending_or_le hids hp with hp | hle
    · exact h.ahead a ha id hp
    · have hlt := h.rows a ha
      omega
  sent m hm hdir hstatus := by
    rw [hg.log]
    exact h.sent m (hnew m hm hdir hstatus) hdir hstatus
  sealed d hd := by
    obtain ⟨m, hm, hrest⟩ := h.sealed d (hg.log ▸ hd)
    exact ⟨m, hg.mem hm, hrest⟩
  settled hnone := h.settled_of_grows hg hids (h.settled (hholder ▸ hnone))

theorem Inv.same (h : Inv E strict old s) (hsame : Same s s') : Inv E strict old s' := by
  refine h.grow hsame.grows ?_ ?_ hsame.holder
  · rw [hsame.messages]
    exact h.ids
  · intro m hm _ _
    rw [← hsame.messages]
    exact hm

/-- The invariant when the lock changes hands. -/
theorem Inv.setHolder (h : Inv E strict old s) (holder : Option Caller)
    (hsettled : holder = none → s.Settled strict) : Inv E strict old { s with holder } :=
  ⟨h.ids, h.order, h.once, h.rows, h.ahead, h.sent, h.sealed, hsettled⟩

/-- Adding a row that is not sent. -/
theorem Inv.insert (h : Inv E strict old s) {d : Device C} {row : StoredMessage C}
    (hmessages : d.messages = s.device.messages ++ [row]) (hid : row.id = s.device.messages.length)
    (hstatus : row.status ≠ .sent) :
    Inv E strict old { s with device := d } ∧ Grows s { s with device := d } := by
  have hgrows : Grows s { s with device := d } := ⟨rfl, [row], hmessages⟩
  refine ⟨h.grow hgrows ?_ ?_ rfl, hgrows⟩
  · show ∀ (k : ℕ) m, d.messages[k]? = some m → m.id = k
    intro k m hm
    rw [hmessages, List.getElem?_append] at hm
    split at hm
    · exact h.ids k m hm
    · rename_i hk
      obtain ⟨hlt, hm⟩ := List.getElem?_eq_some_iff.mp hm
      have hk' : k = s.device.messages.length := by
        rw [List.length_singleton] at hlt
        omega
      have hm : row = m := by
        subst hk'
        simpa using hm
      rw [← hm, hid, hk']
  · show ∀ m ∈ d.messages, _
    intro m hm _ hsent
    rw [hmessages] at hm
    rcases mem_concat hm with hm | rfl
    · exact hm
    · exact absurd hsent hstatus

end Grows

/-! ## The setting -/

/-- A deposit of a chat is between its acceptance and its mark. -/
def Op.Midway : Op C → Prop
  | .response (some _) _ | .plain (.store (.markMessageSent _)) => True
  | _ => False

/-- The relay accepts the chat deposit, and its response arrives. -/
def Choice.Accepts (c : Choice C) : Op C → Prop
  | .submit (some _) _ _ _ => c.processed = some .accepted
  | .response (some _) _ => c.lost = none
  | _ => True

section Setting

variable [C.Comparable]

/-- What a call is verified against: whoever else runs keeps the invariant, and while this call holds the
lock, others at most add rows. -/
def setting (E : Engine C) (strict : Prop) (old : ℕ → Prop) (i : Caller) :
    Setting (sig C) (Client C) where
  exec o s r s' := ∃ c, (strict → c.Accepts o) ∧ perform E i c s o = some (r, s')
  check o s := s.holder = some i → ¬ o.Midway → s.Settled strict
  rely s s' := Inv E strict old s → Inv E strict old s' ∧ (s'.holder = some i ↔ s.holder = some i) ∧
    (s.holder = some i → Grows s s')
  guar s s' := Inv E strict old s → Inv E strict old s' ∧
    ∀ j, j ≠ i → (s'.holder = some j ↔ s.holder = some j) ∧ (s.holder = some j → Grows s s')

theorem setting_compat (E : Engine C) (strict : Prop) (old : ℕ → Prop) {i j : Caller} (hj : j ≠ i)
    (s s' : Client C) (h : (setting E strict old i).guar s s') : (setting E strict old j).rely s s' :=
  fun hinv => ⟨(h hinv).1, ((h hinv).2 j hj).1, ((h hinv).2 j hj).2⟩

variable {E : Engine C} {strict : Prop} {old : ℕ → Prop} {i : Caller} {s s' : Client C}

/-- An operation that leaves table, lock and history keeps every guarantee. -/
theorem guar_of_same (h : Same s s') : (setting E strict old i).guar s s' :=
  fun hinv => ⟨hinv.same h, fun j _ => ⟨by rw [h.holder], fun _ => h.grows⟩⟩

/-- An operation of the holder only has to keep the invariant. -/
theorem guar_of_holder (hholder : s.holder = some i)
    (hholder' : s'.holder = some i ∨ s'.holder = none)
    (hinv : Inv E strict old s → Inv E strict old s') : (setting E strict old i).guar s s' := by
  refine fun h => ⟨hinv h, fun j hj => ?_⟩
  have hne : s.holder ≠ some j := by
    rw [hholder]
    exact fun heq => hj (Option.some.inj heq).symm
  refine ⟨iff_of_false ?_ hne, fun hs => absurd hs hne⟩
  rcases hholder' with hholder' | hholder'
  · rw [hholder']
    exact fun heq => hj (Option.some.inj heq).symm
  · rw [hholder']
    exact fun heq => by cases heq

/-! ## Assertions -/

variable (E strict old i)

/-- The call does not hold the lock. -/
def Idle (s : Client C) : Prop := Inv E strict old s ∧ s.holder ≠ some i

/-- The call holds the lock, between two rows. -/
def Holds (s : Client C) : Prop := Inv E strict old s ∧ s.holder = some i ∧ s.Settled strict

variable {E strict old i}

/-- An assertion of a call outside the window between acceptance and mark that is kept by others, and by
operations that leave table, lock and history alone. -/
structure Quiet (E : Engine C) (strict : Prop) (old : ℕ → Prop) (i : Caller)
    (pre : Client C → Prop) : Prop where
  stable : Stable (setting E strict old i) pre
  same : ∀ s s', Same s s' → pre s → pre s'
  check : ∀ s, pre s → s.holder = some i → s.Settled strict

theorem quiet_idle : Quiet E strict old i (Idle E strict old i) where
  stable s s' hr hpre := by
    obtain ⟨hinv, hholder, -⟩ := hr hpre.1
    exact ⟨hinv, fun h => hpre.2 (hholder.mp h)⟩
  same s s' hsame hpre := ⟨hpre.1.same hsame, hsame.holder ▸ hpre.2⟩
  check s hpre hholder := absurd hholder hpre.2

theorem quiet_holds : Quiet E strict old i (Holds E strict old i) where
  stable s s' hr hpre := by
    obtain ⟨hinv, hholder, hsettled⟩ := hpre
    obtain ⟨hinv', hiff, hgrows⟩ := hr hinv
    exact ⟨hinv', hiff.mpr hholder, hinv.settled_of_grows (hgrows hholder) hinv'.ids hsettled⟩
  same s s' hsame hpre := by
    obtain ⟨hinv, hholder, hsettled⟩ := hpre
    exact ⟨hinv.same hsame, hsame.holder.trans hholder,
      hinv.settled_of_grows hsame.grows (hinv.same hsame).ids hsettled⟩
  check s hpre _ := hpre.2.2

end Setting

end Titlan.Outbox
