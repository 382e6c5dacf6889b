import Titlan.World.System

/-! # Where an accepted chat is during a rotation

Two parties sit on their derived inboxes of one generation `g` and rotate to fresh inboxes while chats
go both ways; the relay loses nothing and no process restarts. This module holds what the argument is
about: the frames a queue may hold, where a chat can be, the invariant of the shared state
(`FlowInv`), what no operation ever takes back (`Progress`), and what a party's listener can count on
others not to touch (`Spares`). -/

namespace Titlan.World

open Foundation

variable [Sealing]

/-! ## Frames and inboxes -/

/-- A chat of whatever version. -/
def isChat : Frame → Bool
  | .chat _ _ => true
  | _ => false

/-- A rotation handoff. -/
def isHandoff : Frame → Bool
  | .mailboxUpdateV3 _ _ => true
  | _ => false

/-- A hello that reports generation `g`. -/
def isHello (g : ℕ) : Frame → Bool
  | .recoveryHello r _ => r = g
  | _ => false

/-- How many hellos of the generation a frame accounts for. -/
def weight (g : ℕ) (f : Frame) : ℕ := if isHello g f then 1 else 0

namespace St

/-- Where a party receives. -/
abbrev recv (s : St) (p : Role) : Option MailboxId := (s.party p).convo.mailboxRecv

/-- Where a party deposits. -/
abbrev send (s : St) (p : Role) : Option MailboxId := (s.party p).convo.mailboxSend

/-- The inboxes a party had the relay generate. -/
abbrev minted (s : St) (p : Role) : List MailboxId := (s.party p).minted

/-- A party's message rows. -/
abbrev rows (s : St) (p : Role) : List (StoredMessage carrier) := (s.party p).messages

end St

/-- The frame is an incoming row of the party. -/
def Stored (s : St) (p : Role) (f : Frame) : Prop :=
  ∃ m ∈ s.rows p, m.direction = .incoming ∧ m.frame = f

/-- The frame waits in the mailbox. -/
def Waiting (s : St) (b : MailboxId) (f : Frame) : Prop :=
  ∃ l, s.boxes b = some l ∧ ∃ m ∈ l, m.frame = f

/-- The frame is stored at the party, or waits in the inbox it is on or in one it generated. -/
def Reached (s : St) (p : Role) (f : Frame) : Prop :=
  Stored s p f ∨ ∃ b, (s.recv p = some b ∨ b ∈ s.minted p) ∧ Waiting s b f

/-- An inbox the party may be reached in: its derived one, or one it generated. -/
def Inbox (g : ℕ) (s : St) (p : Role) (b : MailboxId) : Prop :=
  b = .derived p g ∨ b ∈ s.minted p

/-- What a derived inbox of the generation may hold. A handoff names an inbox its sender generated; one
for the offerer answers an offer. -/
def Expected (g : ℕ) (s : St) (p : Role) : Frame → Prop
  | .recoveryHello r _ => r ≤ g
  | .mailboxUpdateV3 _ inbox => inbox ∈ s.minted p.peer ∧ (p = .offerer → s.minted p ≠ [])
  | .mailboxUpdateV1 _ _ => False
  | _ => True

/-! ## The invariant -/

/-- The invariant of the shared state. -/
structure FlowInv (g : ℕ) (s : St) : Prop where
  /-- A party is on an existing inbox of its own. -/
  recv_live : ∀ p, ∃ b, s.recv p = some b ∧ (s.boxes b).isSome ∧ Inbox g s p b
  /-- Generated inboxes exist, and their ids are spent. -/
  minted_live : ∀ p, ∀ b ∈ s.minted p, (s.boxes b).isSome ∧ ∃ n < s.nextBox, b = .generated n
  disjoint : ∀ p, ∀ b ∈ s.minted p, b ∉ s.minted p.peer
  /-- A party deposits into an inbox of the other's. -/
  send_inbox : ∀ p, ∃ b, s.send p = some b ∧ Inbox g s p.peer b
  /-- Message ids are distinct and spent. -/
  ids : ∀ b l, s.boxes b = some l → (l.map Queued.id).Nodup ∧ ∀ m ∈ l, m.id < s.nextMsg
  /-- No chat is queued behind a handoff. -/
  ordered : ∀ p l, s.boxes (.derived p g) = some l →
    l.Pairwise fun a b => isHandoff a.frame → ¬ isChat b.frame
  /-- A derived inbox its owner has left holds a handoff and no chat. -/
  retired : ∀ p l, s.boxes (.derived p g) = some l → s.recv p ≠ some (.derived p g) →
    (∃ m ∈ l, isHandoff m.frame) ∧ ∀ m ∈ l, ¬ isChat m.frame
  /-- A derived inbox holds expected frames. -/
  expected : ∀ p l, s.boxes (.derived p g) = some l → ∀ m ∈ l, Expected g s p m.frame
  /-- A generated inbox holds chats only. -/
  chats : ∀ p, ∀ b ∈ s.minted p, ∀ l, s.boxes b = some l → ∀ m ∈ l, isChat m.frame
  /-- Row ids are spent, and one id is one frame. -/
  row_ids : ∀ p, ∀ m ∈ s.rows p, m.id < s.nextRow ∧ ∀ m' ∈ s.rows p, m'.id = m.id → m'.frame = m.frame
  outgoing : ∀ p, ∀ m ∈ s.rows p, m.direction = .outgoing → isChat m.frame
  /-- A chat marked sent is where the other party will find it. -/
  accounted : ∀ p, ∀ m ∈ s.rows p, m.direction = .outgoing → m.status = .sent →
    Reached s p.peer m.frame

/-- What no operation takes back. -/
structure Progress (s s' : St) : Prop where
  /-- A chat that has reached a party stays within its reach. -/
  reached : ∀ p f, isChat f → Reached s p f → Reached s' p f
  stored : ∀ p f, Stored s p f → Stored s' p f
  minted : ∀ p, ∀ b ∈ s.minted p, b ∈ s'.minted p
  nextRow_le : s.nextRow ≤ s'.nextRow
  /-- A row is an earlier one or has a new id. -/
  rows : ∀ p, ∀ m' ∈ s'.rows p,
    (∃ m ∈ s.rows p, m.id = m'.id ∧ m.frame = m'.frame) ∨ s.nextRow ≤ m'.id

/-- The part of a party's state that only its own listener writes. -/
def Party.own (x : Party) :=
  (x.convo, x.recovery, x.rotation, x.conn, x.minted)

/-- What a step of anyone else leaves to a party's listener: its own state, and its inboxes, to which
chats and handoffs may have been added. -/
structure Spares (g : ℕ) (p : Role) (s s' : St) : Prop where
  /-- The listener's own state is untouched. -/
  own_eq : (s'.party p).own = (s.party p).own
  /-- Its inboxes only grow, and not by hellos; a handoff reaches the offerer once it has offered. -/
  grows : ∀ b, Inbox g s p b → ∀ l, s.boxes b = some l → ∃ l', s'.boxes b = some (l ++ l') ∧
    ∀ m ∈ l', isHello g m.frame = false ∧
      (isHandoff m.frame → p = .offerer → s.minted p ≠ [])
  /-- Its derived inbox stays deleted. -/
  gone : s.boxes (.derived p g) = none → s'.boxes (.derived p g) = none

/-- What an operation of the listener of `p` does to the flow. -/
structure Effect (g : ℕ) (p : Role) (s s' : St) : Prop where
  inv : FlowInv g s'
  progress : Progress s s'
  spares : Spares g p.peer s s'

/-- An effect that the listener of `p` itself does not notice. -/
structure Calm (g : ℕ) (p : Role) (s s' : St) : Prop extends Effect g p s s' where
  spares_self : Spares g p s s'

variable {g : ℕ} {p : Role} {s s' : St}

/-! ## Steps that touch neither queues nor routing rows -/

/-- The states agree on everything the invariant is about. -/
structure SameFlow (s s' : St) : Prop where
  boxes : s'.boxes = s.boxes
  nextBox : s'.nextBox = s.nextBox
  nextMsg : s'.nextMsg = s.nextMsg
  nextRow : s'.nextRow = s.nextRow
  convo : ∀ q, (s'.party q).convo = (s.party q).convo
  minted : ∀ q, (s'.party q).minted = (s.party q).minted
  rows : ∀ q, (s'.party q).messages = (s.party q).messages

theorem SameFlow.refl (s : St) : SameFlow s s := by
  constructor <;> intros <;> rfl

theorem SameFlow.stored_iff (h : SameFlow s s') (q : Role) (f : Frame) :
    Stored s' q f ↔ Stored s q f := by
  rw [Stored, Stored, St.rows, St.rows, h.rows]

theorem SameFlow.reached_iff (h : SameFlow s s') (q : Role) (f : Frame) :
    Reached s' q f ↔ Reached s q f := by
  simp only [Reached, h.stored_iff, Waiting, St.recv, St.minted, h.convo, h.minted, h.boxes]

theorem SameFlow.inbox_iff (h : SameFlow s s') (q : Role) (b : MailboxId) :
    Inbox g s' q b ↔ Inbox g s q b := by
  simp only [Inbox, St.minted, h.minted]

theorem SameFlow.expected_iff (h : SameFlow s s') (q : Role) (f : Frame) :
    Expected g s' q f ↔ Expected g s q f := by
  cases f <;> simp only [Expected, St.minted, h.minted]

theorem FlowInv.of_same (hi : FlowInv g s) (h : SameFlow s s') : FlowInv g s' where
  recv_live q := by
    simpa only [St.recv, h.convo, h.boxes, h.inbox_iff] using hi.recv_live q
  minted_live q := by
    simpa only [St.minted, h.minted, h.boxes, h.nextBox] using hi.minted_live q
  disjoint q := by
    simpa only [St.minted, h.minted] using hi.disjoint q
  send_inbox q := by
    simpa only [St.send, h.convo, h.inbox_iff] using hi.send_inbox q
  ids := by simpa only [h.boxes, h.nextMsg] using hi.ids
  ordered := by simpa only [h.boxes] using hi.ordered
  retired := by simpa only [h.boxes, St.recv, h.convo] using hi.retired
  expected := by simpa only [h.boxes, h.expected_iff] using hi.expected
  chats := by simpa only [h.boxes, St.minted, h.minted] using hi.chats
  row_ids := by simpa only [St.rows, h.rows, h.nextRow] using hi.row_ids
  outgoing := by simpa only [St.rows, h.rows] using hi.outgoing
  accounted := by simpa only [St.rows, h.rows, h.reached_iff] using hi.accounted

theorem SameFlow.progress (h : SameFlow s s') : Progress s s' where
  reached q f _ hf := (h.reached_iff q f).mpr hf
  stored q f hf := (h.stored_iff q f).mpr hf
  minted q b hb := by rwa [St.minted, h.minted]
  nextRow_le := Nat.le_of_eq h.nextRow.symm
  rows q m' hm' := .inl ⟨m', by rwa [St.rows, ← h.rows], rfl, rfl⟩

theorem SameFlow.spares (h : SameFlow s s') (hown : (s'.party p).own = (s.party p).own) :
    Spares g p s s' where
  own_eq := hown
  grows b _ l hl := ⟨[], by rw [h.boxes, hl, List.append_nil], by simp⟩
  gone hb := by rw [h.boxes, hb]

/-- An operation of `p` on state that no queue or routing row depends on. -/
theorem FlowInv.effect_of_same (hi : FlowInv g s) (h : SameFlow s s')
    (hpeer : s'.party p.peer = s.party p.peer) : Effect g p s s' :=
  ⟨hi.of_same h, h.progress, h.spares (by rw [hpeer])⟩

theorem FlowInv.calm_of_same (hi : FlowInv g s) (h : SameFlow s s')
    (hpeer : s'.party p.peer = s.party p.peer) (hown : (s'.party p).own = (s.party p).own) :
    Calm g p s s' :=
  ⟨hi.effect_of_same h hpeer, h.spares hown⟩

/-- Changing fields of one party the flow does not depend on. -/
theorem SameFlow.of_modify {f : Party → Party} (hc : (f (s.party p)).convo = (s.party p).convo)
    (hm : (f (s.party p)).minted = (s.party p).minted)
    (hr : (f (s.party p)).messages = (s.party p).messages) : SameFlow s (s.modify p f) where
  boxes := rfl
  nextBox := rfl
  nextMsg := rfl
  nextRow := rfl
  convo q := by
    rcases q.eq_or_eq_peer p with rfl | rfl
    · rw [St.modify_party_self, hc]
    · rw [St.modify_party_peer]
  minted q := by
    rcases q.eq_or_eq_peer p with rfl | rfl
    · rw [St.modify_party_self, hm]
    · rw [St.modify_party_peer]
  rows q := by
    rcases q.eq_or_eq_peer p with rfl | rfl
    · rw [St.modify_party_self, hr]
    · rw [St.modify_party_peer]

/-! ## Deposits -/

/-- The state after the relay accepted a deposit into a mailbox with queue `l`. -/
def St.deposit (s : St) (b : MailboxId) (l : List Queued) (wire : Sealing.Wire) : St :=
  { s.setBox b (some (l ++ [⟨s.nextMsg, wire⟩])) with
    nextMsg := s.nextMsg + 1
    log := s.log ++ [(b, content wire)] }

@[simp] theorem St.deposit_boxes_self (s : St) (b : MailboxId) (l : List Queued) (wire : Sealing.Wire) :
    (s.deposit b l wire).boxes b = some (l ++ [⟨s.nextMsg, wire⟩]) :=
  s.setBox_boxes_self b _

theorem St.deposit_boxes_of_ne (s : St) {b c : MailboxId} (l : List Queued) (wire : Sealing.Wire)
    (h : c ≠ b) : (s.deposit b l wire).boxes c = s.boxes c :=
  s.setBox_boxes_of_ne _ h

/-- A deposit request is accepted or finds no mailbox. -/
theorem perform_deposit {p : Role} {c : Choice} {s s' : St} {b : MailboxId} {wire : Sealing.Wire}
    {r : Result DepositOutcome}
    (h : perform p c s (.relay (.deposit () b wire)) = some (r, s')) :
    (s.boxes b = none ∧ r = .ok .notFound ∧ s' = s) ∨
      ∃ l, s.boxes b = some l ∧ r = .ok .accepted ∧ s' = s.deposit b l wire := by
  simp only [perform, performRelay] at h
  split at h
  · cases h
    exact .inl ⟨‹_›, rfl, rfl⟩
  · cases h
    exact .inr ⟨_, ‹_›, rfl, rfl⟩

section Deposit

variable {b c : MailboxId} {l l₁ : List Queued} {f : Frame} {wire : Sealing.Wire}

/-- A queue after a deposit is a queue before it, or that queue with the message added. -/
theorem boxes_deposit (hl : s.boxes b = some l) (h : (s.deposit b l wire).boxes c = some l₁) :
    s.boxes c = some l₁ ∨ c = b ∧ s.boxes c = some l ∧ l₁ = l ++ [⟨s.nextMsg, wire⟩] := by
  by_cases hcb : c = b
  · subst hcb
    rw [St.deposit_boxes_self, Option.some.injEq] at h
    exact .inr ⟨rfl, hl, h.symm⟩
  · rw [St.deposit_boxes_of_ne _ _ _ hcb] at h
    exact .inl h

theorem isSome_deposit (h : (s.boxes c).isSome) : ((s.deposit b l wire).boxes c).isSome := by
  by_cases hcb : c = b
  · rw [hcb, St.deposit_boxes_self, Option.isSome_some]
  · rwa [St.deposit_boxes_of_ne _ _ _ hcb]

theorem Waiting.deposit (hl : s.boxes b = some l) {f' : Frame} (h : Waiting s c f') :
    Waiting (s.deposit b l wire) c f' := by
  obtain ⟨l₁, hl₁, m, hm, hf⟩ := h
  by_cases hcb : c = b
  · subst hcb
    rw [hl, Option.some.injEq] at hl₁
    subst hl₁
    exact ⟨_, s.deposit_boxes_self c l wire, m, List.mem_append_left _ hm, hf⟩
  · exact ⟨l₁, by rwa [St.deposit_boxes_of_ne _ _ _ hcb], m, hm, hf⟩

theorem waiting_deposit : Waiting (s.deposit b l wire) b (content wire) :=
  ⟨_, s.deposit_boxes_self b l wire, _, List.mem_append_right _ (List.mem_singleton.mpr rfl), rfl⟩

theorem Reached.deposit (hl : s.boxes b = some l) {q : Role} {f' : Frame} (h : Reached s q f') :
    Reached (s.deposit b l wire) q f' := by
  rcases h with h | ⟨c, hc, hw⟩
  · exact .inl h
  · exact .inr ⟨c, hc, hw.deposit hl⟩

/-- What the engine deposits into an inbox of the other party: a chat, where no handoff waits, or a
handoff of an inbox of its own into the other's derived inbox. -/
def Fitting (g : ℕ) (p : Role) (s : St) (b : MailboxId) (l : List Queued) (f : Frame) : Prop :=
  (isChat f ∧ ∀ m ∈ l, ¬ isHandoff m.frame) ∨
    ∃ inbox, f = handoff inbox ∧ b = .derived p.peer g ∧ inbox ∈ s.minted p ∧
      s.minted .offerer ≠ []

theorem Fitting.notHello (h : Fitting g p s b l f) : isHello g f = false := by
  rcases h with ⟨hc, -⟩ | ⟨inbox, rfl, -⟩
  · cases f <;> simp_all [isChat, isHello]
  · rfl

theorem Fitting.offered (h : Fitting g p s b l f) (hf : isHandoff f) : s.minted .offerer ≠ [] := by
  rcases h with ⟨hc, -⟩ | ⟨inbox, rfl, -, -, hne⟩
  · cases f <;> simp_all [isChat, isHandoff]
  · exact hne

theorem Fitting.expected (h : Fitting g p s b l f) : Expected g s p.peer f := by
  rcases h with ⟨hc, -⟩ | ⟨inbox, rfl, -, hm, hne⟩
  · cases f <;> simp_all [isChat, Expected]
  · refine ⟨by rwa [Role.peer_peer], fun hp => ?_⟩
    rwa [hp]

theorem FlowInv.deposit (hi : FlowInv g s) (hl : s.boxes b = some l) (hb : Inbox g s p.peer b)
    (hf : Fitting g p s b l (content wire)) : FlowInv g (s.deposit b l wire) where
  __ := hi
  recv_live q := by
    obtain ⟨c, hc, hs, hin⟩ := hi.recv_live q
    exact ⟨c, hc, isSome_deposit hs, hin⟩
  minted_live q c hc := by
    obtain ⟨hs, hn⟩ := hi.minted_live q c hc
    exact ⟨isSome_deposit hs, hn⟩
  ids c l₁ hl₁ := by
    rcases boxes_deposit hl hl₁ with h | ⟨rfl, h, rfl⟩
    · obtain ⟨hnd, hlt⟩ := hi.ids c l₁ h
      exact ⟨hnd, fun m hm => Nat.lt_succ_of_lt (hlt m hm)⟩
    · obtain ⟨hnd, hlt⟩ := hi.ids c l h
      refine ⟨?_, fun m hm => ?_⟩
      · rw [List.map_append, List.nodup_append]
        refine ⟨hnd, by simp, fun a ha a' ha' => ?_⟩
        obtain ⟨m, hm, rfl⟩ := List.mem_map.mp ha
        rw [List.map_singleton, List.mem_singleton] at ha'
        exact ha' ▸ Nat.ne_of_lt (hlt m hm)
      · rcases mem_concat hm with hm | rfl
        · exact Nat.lt_succ_of_lt (hlt m hm)
        · exact Nat.lt_succ_self _
  ordered q l₁ hl₁ := by
    rcases boxes_deposit hl hl₁ with h | ⟨-, h, rfl⟩
    · exact hi.ordered q l₁ h
    · refine List.pairwise_append.mpr ⟨hi.ordered q l h, List.pairwise_singleton _ _, ?_⟩
      intro a ha a' ha' hhand
      rw [List.mem_singleton.mp ha']
      rcases hf with ⟨-, hno⟩ | ⟨inbox, hf, -⟩
      · exact absurd hhand (hno a ha)
      · simp [hf, isChat]
  retired q l₁ hl₁ hrecv := by
    rcases boxes_deposit hl hl₁ with h | ⟨-, h, rfl⟩
    · exact hi.retired q l₁ h hrecv
    · obtain ⟨⟨m, hm, hhand⟩, hno⟩ := hi.retired q l h hrecv
      refine ⟨⟨m, List.mem_append_left _ hm, hhand⟩, fun a ha => ?_⟩
      rcases mem_concat ha with ha | rfl
      · exact hno a ha
      · rcases hf with ⟨-, hnone⟩ | ⟨inbox, hf, -⟩
        · exact absurd hhand (hnone m hm)
        · simp [hf, isChat]
  expected q l₁ hl₁ m hm := by
    rcases boxes_deposit hl hl₁ with h | ⟨hqb, h, rfl⟩
    · exact hi.expected q l₁ h m hm
    · rcases mem_concat hm with hm | rfl
      · exact hi.expected q l h m hm
      · -- the mailbox is the other party's, so `q` is the other party
        have hq : q = p.peer := by
          rcases hb with rfl | hb
          · exact (MailboxId.derived.inj hqb).1
          · obtain ⟨-, n, -, rfl⟩ := hi.minted_live _ _ hb
            cases hqb
        exact hq ▸ hf.expected
  chats q c hc l₁ hl₁ m hm := by
    rcases boxes_deposit hl hl₁ with h | ⟨hcb, h, rfl⟩
    · exact hi.chats q c hc l₁ h m hm
    · rcases mem_concat hm with hm | rfl
      · exact hi.chats q c hc l h m hm
      · rcases hf with ⟨hchat, -⟩ | ⟨inbox, -, hbd, -⟩
        · exact hchat
        · obtain ⟨-, n, -, hn⟩ := hi.minted_live q c hc
          rw [hcb, hbd] at hn
          cases hn
  accounted q m hm hd hst := (hi.accounted q m hm hd hst).deposit hl

theorem FlowInv.calm_deposit (hi : FlowInv g s) (hl : s.boxes b = some l)
    (hb : Inbox g s p.peer b) (hf : Fitting g p s b l (content wire)) :
    Calm g p s (s.deposit b l wire) := by
  have hspares : ∀ q, Spares g q s (s.deposit b l wire) := by
    intro q
    refine ⟨rfl, fun c _ l₁ hl₁ => ?_, fun hnone => ?_⟩
    · by_cases hcb : c = b
      · subst hcb
        rw [hl, Option.some.injEq] at hl₁
        subst hl₁
        refine ⟨_, s.deposit_boxes_self c l wire, fun m hm => ?_⟩
        rw [List.mem_singleton.mp hm]
        exact ⟨hf.notHello, fun hh hq => hq ▸ hf.offered hh⟩
      · exact ⟨[], by rw [St.deposit_boxes_of_ne _ _ _ hcb, hl₁, List.append_nil], by simp⟩
    · have hne : MailboxId.derived q g ≠ b := by
        rintro rfl
        rw [hl] at hnone
        cases hnone
      rw [St.deposit_boxes_of_ne _ _ _ hne, hnone]
  refine ⟨⟨hi.deposit hl hb hf, ?_, hspares _⟩, hspares _⟩
  exact ⟨fun q f' _ h => h.deposit hl, fun _ _ h => h, fun _ _ h => h, Nat.le_refl _,
    fun q m hm => .inl ⟨m, hm, rfl, rfl⟩⟩

end Deposit

/-! ## Generating an inbox -/

/-- The state after the relay generated an inbox for `p`. -/
def St.mint (s : St) (p : Role) : St :=
  { (s.setBox (.generated s.nextBox) (some [])).modify p fun x =>
      { x with minted := x.minted ++ [.generated s.nextBox] }
    with nextBox := s.nextBox + 1 }

theorem St.mint_party_self (s : St) (p : Role) :
    (s.mint p).party p =
      { s.party p with minted := (s.party p).minted ++ [.generated s.nextBox] } :=
  (s.setBox (.generated s.nextBox) (some [])).modify_party_self p fun x =>
    { x with minted := x.minted ++ [.generated s.nextBox] }

theorem St.mint_party_peer (s : St) (p : Role) : (s.mint p).party p.peer = s.party p.peer :=
  (s.setBox (.generated s.nextBox) (some [])).modify_party_peer p fun x =>
    { x with minted := x.minted ++ [.generated s.nextBox] }

theorem St.mint_minted_self (s : St) (p : Role) :
    (s.mint p).minted p = s.minted p ++ [.generated s.nextBox] := by
  rw [minted, s.mint_party_self]

theorem St.mint_minted_peer (s : St) (p : Role) : (s.mint p).minted p.peer = s.minted p.peer := by
  rw [minted, s.mint_party_peer]

theorem St.mint_convo (s : St) (p q : Role) :
    ((s.mint p).party q).convo = (s.party q).convo := by
  rcases q.eq_or_eq_peer p with rfl | rfl
  · rw [s.mint_party_self]
  · rw [s.mint_party_peer]

theorem St.mint_rows (s : St) (p q : Role) : (s.mint p).rows q = s.rows q := by
  rcases q.eq_or_eq_peer p with rfl | rfl
  · rw [rows, s.mint_party_self]
  · rw [rows, s.mint_party_peer]

theorem St.mint_boxes_self (s : St) (p : Role) :
    (s.mint p).boxes (.generated s.nextBox) = some [] :=
  s.setBox_boxes_self _ _

variable {c : MailboxId}

theorem St.mint_boxes_of_ne (s : St) (p : Role) (h : c ≠ .generated s.nextBox) :
    (s.mint p).boxes c = s.boxes c :=
  s.setBox_boxes_of_ne _ h

variable {q : Role}

theorem mem_minted_mint (h : c ∈ s.minted q) : c ∈ (s.mint p).minted q := by
  rcases q.eq_or_eq_peer p with rfl | rfl
  · rw [St.mint_minted_self]
    exact List.mem_append_left _ h
  · rwa [St.mint_minted_peer]

theorem minted_of_mint (h : c ∈ (s.mint p).minted q) :
    c ∈ s.minted q ∨ c = .generated s.nextBox := by
  rcases q.eq_or_eq_peer p with rfl | rfl
  · rw [St.mint_minted_self] at h
    exact mem_concat h
  · rw [St.mint_minted_peer] at h
    exact .inl h

/-- An inbox of a party is not the one to be generated next. -/
theorem FlowInv.inbox_ne_nextBox (hi : FlowInv g s) (h : Inbox g s q c) :
    c ≠ .generated s.nextBox := by
  rintro rfl
  rcases h with h | h
  · cases h
  · obtain ⟨-, n, hn, he⟩ := hi.minted_live q _ h
    rw [MailboxId.generated.inj he] at hn
    exact Nat.lt_irrefl _ hn

theorem FlowInv.isSome_mint (h : (s.boxes c).isSome) : ((s.mint p).boxes c).isSome := by
  by_cases hc : c = .generated s.nextBox
  · rw [hc, St.mint_boxes_self, Option.isSome_some]
  · rwa [St.mint_boxes_of_ne _ _ hc]

theorem FlowInv.reached_mint (hi : FlowInv g s) {f : Frame} (h : Reached s q f) :
    Reached (s.mint p) q f := by
  rcases h with h | ⟨c, hc, l, hl, hm⟩
  · left
    rwa [Stored, St.mint_rows]
  · right
    have hin : Inbox g s q c := by
      rcases hc with hc | hc
      · obtain ⟨c', hc', -, hin⟩ := hi.recv_live q
        rw [hc', Option.some.injEq] at hc
        exact hc ▸ hin
      · exact .inr hc
    refine ⟨c, ?_, l, ?_, hm⟩
    · refine hc.imp (fun h => ?_) mem_minted_mint
      rwa [St.recv, St.mint_convo]
    · rwa [St.mint_boxes_of_ne _ _ (hi.inbox_ne_nextBox hin)]

theorem Expected.mint {f : Frame} (h : Expected g s q f) : Expected g (s.mint p) q f := by
  cases f with
  | mailboxUpdateV3 r inbox =>
    refine ⟨mem_minted_mint h.1, fun hq => ?_⟩
    obtain ⟨c, hc⟩ := List.exists_mem_of_ne_nil _ (h.2 hq)
    exact List.ne_nil_of_mem (mem_minted_mint hc)
  | _ => exact h

theorem FlowInv.mint (hi : FlowInv g s) (p : Role) : FlowInv g (s.mint p) where
  recv_live q := by
    obtain ⟨c, hc, hs, hin⟩ := hi.recv_live q
    exact ⟨c, by rwa [St.recv, St.mint_convo], isSome_mint hs, hin.imp_right mem_minted_mint⟩
  minted_live q c hc := by
    rcases minted_of_mint hc with hc | rfl
    · obtain ⟨hs, n, hn, he⟩ := hi.minted_live q c hc
      exact ⟨isSome_mint hs, n, Nat.lt_succ_of_lt hn, he⟩
    · exact ⟨by rw [St.mint_boxes_self, Option.isSome_some], _, Nat.lt_succ_self _, rfl⟩
  disjoint q c hc hc' := by
    have hfresh : ∀ q', .generated s.nextBox ∉ s.minted q' := fun q' h =>
      hi.inbox_ne_nextBox (.inr h) rfl
    -- only the list of `p` has grown
    rcases q.eq_or_eq_peer p with rfl | rfl
    · rw [St.mint_minted_peer] at hc'
      rcases minted_of_mint hc with hc | rfl
      · exact hi.disjoint q c hc hc'
      · exact hfresh _ hc'
    · rw [St.mint_minted_peer] at hc
      rcases minted_of_mint hc' with hc' | rfl
      · exact hi.disjoint _ c hc hc'
      · exact hfresh _ hc
  send_inbox q := by
    obtain ⟨c, hc, hin⟩ := hi.send_inbox q
    exact ⟨c, by rwa [St.send, St.mint_convo], hin.imp_right mem_minted_mint⟩
  ids c l hl := by
    by_cases hc : c = .generated s.nextBox
    · rw [hc, St.mint_boxes_self, Option.some.injEq] at hl
      simp [← hl]
    · rw [St.mint_boxes_of_ne _ _ hc] at hl
      exact hi.ids c l hl
  ordered q l hl := hi.ordered q l hl
  retired q l hl hrecv := by
    rw [St.recv, St.mint_convo] at hrecv
    exact hi.retired q l hl hrecv
  expected q l hl m hm := (hi.expected q l hl m hm).mint
  chats q c hc l hl m hm := by
    rcases minted_of_mint hc with hc | rfl
    · rw [St.mint_boxes_of_ne _ _ (hi.inbox_ne_nextBox (.inr hc))] at hl
      exact hi.chats q c hc l hl m hm
    · rw [St.mint_boxes_self, Option.some.injEq] at hl
      simp [← hl] at hm
  row_ids q := by
    rw [St.mint_rows]
    exact hi.row_ids q
  outgoing q := by
    rw [St.mint_rows]
    exact hi.outgoing q
  accounted q m hm hd hst := by
    rw [St.mint_rows] at hm
    exact hi.reached_mint (hi.accounted q m hm hd hst)

theorem FlowInv.effect_mint (hi : FlowInv g s) (p : Role) : Effect g p s (s.mint p) where
  inv := hi.mint p
  progress :=
    { reached := fun q f _ h => hi.reached_mint h
      stored := fun q f h => by rwa [Stored, St.mint_rows]
      minted := fun q c hc => mem_minted_mint hc
      nextRow_le := Nat.le_refl _
      rows := fun q m hm => .inl ⟨m, by rwa [St.mint_rows] at hm, rfl, rfl⟩ }
  spares :=
    { own_eq := by rw [St.mint_party_peer]
      grows := fun c hc l hl => ⟨[], by
        rw [St.mint_boxes_of_ne _ _ (hi.inbox_ne_nextBox hc), hl, List.append_nil], by simp⟩
      gone := fun h => h }

/-! ## Routing rows -/

/-- The party's routing row is rewritten. -/
def St.reroute (s : St) (p : Role) (c : Conversation carrier) : St :=
  s.modify p fun x => { x with convo := c }

section Reroute

variable {c : Conversation carrier} {b b' : MailboxId}

theorem St.reroute_party_self (s : St) (p : Role) (c : Conversation carrier) :
    (s.reroute p c).party p = { s.party p with convo := c } :=
  s.modify_party_self p fun x => { x with convo := c }

theorem St.reroute_party_peer (s : St) (p : Role) (c : Conversation carrier) :
    (s.reroute p c).party p.peer = s.party p.peer :=
  s.modify_party_peer p fun x => { x with convo := c }

theorem St.reroute_minted (s : St) (p : Role) (c : Conversation carrier) (q : Role) :
    (s.reroute p c).minted q = s.minted q := by
  rcases q.eq_or_eq_peer p with rfl | rfl
  · rw [minted, s.reroute_party_self]
  · rw [minted, s.reroute_party_peer]

theorem St.reroute_rows (s : St) (p : Role) (c : Conversation carrier) (q : Role) :
    (s.reroute p c).rows q = s.rows q := by
  rcases q.eq_or_eq_peer p with rfl | rfl
  · rw [rows, s.reroute_party_self]
  · rw [rows, s.reroute_party_peer]

/-- A derived inbox its owner may leave. -/
def Leavable (g : ℕ) (s : St) (p : Role) : Prop :=
  ∀ l, s.boxes (.derived p g) = some l →
    (∃ m ∈ l, isHandoff m.frame) ∧ ∀ m ∈ l, ¬ isChat m.frame

theorem FlowInv.reached_reroute (hi : FlowInv g s)
    (hleave : c.mailboxRecv ≠ some (.derived p g) → Leavable g s p) {q : Role} {f : Frame}
    (hf : isChat f) (h : Reached s q f) : Reached (s.reroute p c) q f := by
  rcases h with h | ⟨b, hb, hw⟩
  · left
    rwa [Stored, St.reroute_rows]
  · right
    rcases hb with hb | hb
    · rcases q.eq_or_eq_peer p with rfl | rfl
      · obtain ⟨b₀, hb₀, -, hin⟩ := hi.recv_live q
        rw [hb, Option.some.injEq] at hb₀
        subst hb₀
        rcases hin with rfl | hin
        · by_cases hc : c.mailboxRecv = some (.derived q g)
          · exact ⟨_, .inl (by rwa [St.recv, St.reroute_party_self]), hw⟩
          · -- a chat cannot wait in a derived inbox that is left
            obtain ⟨l, hl, m, hm, rfl⟩ := hw
            exact absurd hf ((hleave hc l hl).2 m hm)
        · exact ⟨b, .inr (by rwa [St.reroute_minted]), hw⟩
      · exact ⟨b, .inl (by rwa [St.recv, St.reroute_party_peer]), hw⟩
    · exact ⟨b, .inr (by rwa [St.reroute_minted]), hw⟩

theorem FlowInv.reroute (hi : FlowInv g s) (hsend : c.mailboxSend = some b)
    (hb : Inbox g s p.peer b) (hrecv : c.mailboxRecv = some b') (hb' : Inbox g s p b')
    (hlive : (s.boxes b').isSome) (hleave : c.mailboxRecv ≠ some (.derived p g) → Leavable g s p) :
    FlowInv g (s.reroute p c) where
  __ := hi
  recv_live q := by
    simp only [Inbox, St.reroute_minted]
    rcases q.eq_or_eq_peer p with rfl | rfl
    · exact ⟨b', by rwa [St.recv, St.reroute_party_self], hlive, hb'⟩
    · rw [St.recv, St.reroute_party_peer]
      exact hi.recv_live p.peer
  minted_live q := by
    rw [St.reroute_minted]
    exact hi.minted_live q
  disjoint q := by
    rw [St.reroute_minted, St.reroute_minted]
    exact hi.disjoint q
  send_inbox q := by
    simp only [Inbox, St.reroute_minted]
    rcases q.eq_or_eq_peer p with rfl | rfl
    · exact ⟨b, by rwa [St.send, St.reroute_party_self], hb⟩
    · rw [St.send, St.reroute_party_peer]
      exact hi.send_inbox p.peer
  retired q l hl hne := by
    rcases q.eq_or_eq_peer p with rfl | rfl
    · rw [St.recv, St.reroute_party_self] at hne
      exact hleave hne l hl
    · rw [St.recv, St.reroute_party_peer] at hne
      exact hi.retired p.peer l hl hne
  expected q l hl m hm := by
    have h := hi.expected q l hl m hm
    cases hf : m.frame with
    | mailboxUpdateV3 r inbox =>
      rw [hf] at h
      simpa only [Expected, St.reroute_minted] using h
    | _ => rw [hf] at h; exact h
  chats q := by
    rw [St.reroute_minted]
    exact hi.chats q
  row_ids q := by
    rw [St.reroute_rows]
    exact hi.row_ids q
  outgoing q := by
    rw [St.reroute_rows]
    exact hi.outgoing q
  accounted q m hm hd hst := by
    rw [St.reroute_rows] at hm
    exact hi.reached_reroute hleave (hi.outgoing q m hm hd) (hi.accounted q m hm hd hst)

theorem FlowInv.effect_reroute (hi : FlowInv g s) (hsend : c.mailboxSend = some b)
    (hb : Inbox g s p.peer b) (hrecv : c.mailboxRecv = some b') (hb' : Inbox g s p b')
    (hlive : (s.boxes b').isSome) (hleave : c.mailboxRecv ≠ some (.derived p g) → Leavable g s p) :
    Effect g p s (s.reroute p c) where
  inv := hi.reroute hsend hb hrecv hb' hlive hleave
  progress :=
    { reached := fun q f hf h => hi.reached_reroute hleave hf h
      stored := fun q f h => by rwa [Stored, St.reroute_rows]
      minted := fun q b hb => by rwa [St.reroute_minted]
      nextRow_le := Nat.le_refl _
      rows := fun q m hm => .inl ⟨m, by rwa [St.reroute_rows] at hm, rfl, rfl⟩ }
  spares :=
    { own_eq := by rw [St.reroute_party_peer]
      grows := fun b hb l hl => ⟨[], by rwa [List.append_nil], by simp⟩
      gone := fun h => h }

end Reroute

/-! ## Emptying queues -/

/-- An inbox of one party is none of the other's. -/
theorem FlowInv.inbox_unique (hi : FlowInv g s) {b : MailboxId} (h : Inbox g s p b)
    (h' : Inbox g s p.peer b) : False := by
  rcases h with rfl | h <;> rcases h' with h' | h'
  · exact p.ne_peer (MailboxId.derived.inj h').1
  · obtain ⟨-, n, -, he⟩ := hi.minted_live _ _ h'
    cases he
  · obtain ⟨-, n, -, he⟩ := hi.minted_live _ _ h
    rw [h'] at he
    cases he
  · exact hi.disjoint p b h h'

section Shrink

variable {b : MailboxId} {x : Option (List Queued)}

/-- How a party empties its own inboxes: it acks the head of the one it is on, which is stored if it is
a chat, or it deletes its derived inbox after leaving it. -/
def Emptied (g : ℕ) (p : Role) (s : St) (b : MailboxId) : Option (List Queued) → Prop
  | some rest => s.recv p = some b ∧ Inbox g s p b ∧
      ∃ m, s.boxes b = some (m :: rest) ∧ (isChat m.frame → Stored s p m.frame)
  | none => b = .derived p g ∧ s.recv p ≠ some b

theorem Emptied.inbox (h : Emptied g p s b x) : Inbox g s p b := by
  cases x with
  | none => exact .inl h.1
  | some rest => exact h.2.1

/-- A queue after the step is the tail of the inbox emptied, or an unchanged one. -/
theorem Emptied.boxes {c : MailboxId} {l : List Queued} (h : Emptied g p s b x)
    (hl : (s.setBox b x).boxes c = some l) :
    s.boxes c = some l ∨ c = b ∧ s.recv p = some b ∧ ∃ m, s.boxes c = some (m :: l) := by
  by_cases hc : c = b
  · subst hc
    rw [St.setBox_boxes_self] at hl
    subst hl
    obtain ⟨hr, -, m, hm, -⟩ := h
    exact .inr ⟨rfl, hr, m, hm⟩
  · rw [St.setBox_boxes_of_ne _ _ hc] at hl
    exact .inl hl

/-- Every frame of a queue after the step was in that queue before. -/
theorem Emptied.mem {c : MailboxId} {l : List Queued} (h : Emptied g p s b x)
    (hl : (s.setBox b x).boxes c = some l) : ∃ l₀, s.boxes c = some l₀ ∧ l.Sublist l₀ := by
  rcases h.boxes hl with hl | ⟨-, -, m, hm⟩
  · exact ⟨l, hl, List.Sublist.refl l⟩
  · exact ⟨m :: l, hm, List.sublist_cons_self m l⟩

/-- An inbox some party is on, or has generated, is not deleted. -/
theorem Emptied.isSome {c : MailboxId} (h : Emptied g p s b x) (hs : (s.boxes c).isSome)
    (hc : s.recv p = some c ∨ c ≠ .derived p g) : ((s.setBox b x).boxes c).isSome := by
  by_cases hcb : c = b
  · subst hcb
    rw [St.setBox_boxes_self]
    cases x with
    | some rest => rfl
    | none => exact absurd h.1 (hc.resolve_left h.2)
  · rwa [St.setBox_boxes_of_ne _ _ hcb]

theorem FlowInv.reached_setBox (hi : FlowInv g s) (h : Emptied g p s b x) {q : Role} {f : Frame}
    (hf : isChat f) (hr : Reached s q f) : Reached (s.setBox b x) q f := by
  rcases hr with hr | ⟨c, hc, l, hl, m, hm, rfl⟩
  · exact .inl hr
  · by_cases hcb : c = b
    · subst hcb
      -- the chat waits in the inbox that is emptied, so it is its owner's
      have hq : q = p := by
        rcases q.eq_or_eq_peer p with rfl | rfl
        · rfl
        · refine (hi.inbox_unique h.inbox ?_).elim
          rcases hc with hc | hc
          · obtain ⟨c', hc', -, hin⟩ := hi.recv_live p.peer
            rw [hc', Option.some.injEq] at hc
            exact hc ▸ hin
          · exact .inr hc
      subst hq
      cases x with
      | none =>
        obtain ⟨rfl, hne⟩ := h
        exact absurd hf ((hi.retired q l hl hne).2 m hm)
      | some rest =>
        obtain ⟨hrecv, -, m₀, hm₀, hst⟩ := h
        rw [hm₀, Option.some.injEq] at hl
        subst hl
        rcases List.mem_cons.mp hm with rfl | hm
        · exact .inl (hst hf)
        · exact .inr ⟨c, .inl hrecv, rest, s.setBox_boxes_self c _, m, hm, rfl⟩
    · exact .inr ⟨c, hc, l, by rwa [St.setBox_boxes_of_ne _ _ hcb], m, hm, rfl⟩

theorem FlowInv.setBox (hi : FlowInv g s) (h : Emptied g p s b x) : FlowInv g (s.setBox b x) where
  __ := hi
  recv_live q := by
    obtain ⟨c, hc, hs, hin⟩ := hi.recv_live q
    refine ⟨c, hc, h.isSome hs ?_, hin⟩
    rcases q.eq_or_eq_peer p with rfl | rfl
    · exact .inl hc
    · right
      rintro rfl
      exact hi.inbox_unique (.inl rfl) hin
  minted_live q c hc := by
    obtain ⟨hs, n, hn, rfl⟩ := hi.minted_live q c hc
    exact ⟨h.isSome hs (.inr nofun), n, hn, rfl⟩
  ids c l hl := by
    obtain ⟨l₀, hl₀, hsub⟩ := h.mem hl
    obtain ⟨hnd, hlt⟩ := hi.ids c l₀ hl₀
    exact ⟨hnd.sublist (hsub.map _), fun m hm => hlt m (hsub.subset hm)⟩
  ordered q l hl := by
    obtain ⟨l₀, hl₀, hsub⟩ := h.mem hl
    exact (hi.ordered q l₀ hl₀).sublist hsub
  retired q l hl hne := by
    rcases h.boxes hl with hl | ⟨hqb, hr, m, -⟩
    · exact hi.retired q l hl hne
    · -- the party acks in the inbox it is on
      have hq : q = p := by
        rcases q.eq_or_eq_peer p with rfl | rfl
        · rfl
        · exact (hi.inbox_unique h.inbox (.inl hqb.symm)).elim
      subst hq
      exact absurd (hqb ▸ hr) hne
  expected q l hl m hm := by
    obtain ⟨l₀, hl₀, hsub⟩ := h.mem hl
    exact hi.expected q l₀ hl₀ m (hsub.subset hm)
  chats q c hc l hl m hm := by
    obtain ⟨l₀, hl₀, hsub⟩ := h.mem hl
    exact hi.chats q c hc l₀ hl₀ m (hsub.subset hm)
  accounted q m hm hd hst :=
    hi.reached_setBox h (hi.outgoing q m hm hd) (hi.accounted q m hm hd hst)

theorem FlowInv.effect_setBox (hi : FlowInv g s) (h : Emptied g p s b x) :
    Effect g p s (s.setBox b x) where
  inv := hi.setBox h
  progress :=
    { reached := fun q f hf hr => hi.reached_setBox h hf hr
      stored := fun q f hf => hf
      minted := fun q c hc => hc
      nextRow_le := Nat.le_refl _
      rows := fun q m hm => .inl ⟨m, hm, rfl, rfl⟩ }
  spares := by
    have hne : ∀ c, Inbox g s p.peer c → c ≠ b := by
      rintro c hc rfl
      exact hi.inbox_unique h.inbox hc
    refine ⟨rfl, fun c hc l hl => ⟨[], ?_, by simp⟩, fun hnone => ?_⟩
    · rw [St.setBox_boxes_of_ne _ _ (hne c hc), hl, List.append_nil]
    · rw [St.setBox_boxes_of_ne _ _ (hne _ (.inl rfl)), hnone]

end Shrink

/-! ## Message rows -/

/-- The party's message table is replaced, with `n` as the next row id. -/
def St.setRows (s : St) (p : Role) (rows : List (StoredMessage carrier)) (n : ℕ) : St :=
  { s.modify p fun x => { x with messages := rows } with nextRow := n }

section Rows

variable {rows : List (StoredMessage carrier)} {n : ℕ}

theorem St.setRows_party_self (s : St) (p : Role) (rows : List (StoredMessage carrier)) (n : ℕ) :
    (s.setRows p rows n).party p = { s.party p with messages := rows } :=
  s.modify_party_self p fun x => { x with messages := rows }

theorem St.setRows_party_peer (s : St) (p : Role) (rows : List (StoredMessage carrier)) (n : ℕ) :
    (s.setRows p rows n).party p.peer = s.party p.peer :=
  s.modify_party_peer p fun x => { x with messages := rows }

theorem St.setRows_rows_self (s : St) (p : Role) (rows : List (StoredMessage carrier)) (n : ℕ) :
    (s.setRows p rows n).rows p = rows := by
  rw [St.rows, s.setRows_party_self]

theorem St.setRows_rows_peer (s : St) (p : Role) (rows : List (StoredMessage carrier)) (n : ℕ) :
    (s.setRows p rows n).rows p.peer = s.rows p.peer := by
  rw [St.rows, s.setRows_party_peer]

theorem St.setRows_own (s : St) (p : Role) (rows : List (StoredMessage carrier)) (n : ℕ) (q : Role) :
    ((s.setRows p rows n).party q).own = (s.party q).own := by
  rcases q.eq_or_eq_peer p with rfl | rfl
  · rw [s.setRows_party_self]
    rfl
  · rw [s.setRows_party_peer]

theorem St.setRows_convo (s : St) (p : Role) (rows : List (StoredMessage carrier)) (n : ℕ) (q : Role) :
    ((s.setRows p rows n).party q).convo = (s.party q).convo :=
  congrArg Prod.fst (s.setRows_own p rows n q)

theorem St.setRows_minted (s : St) (p : Role) (rows : List (StoredMessage carrier)) (n : ℕ)
    (q : Role) : (s.setRows p rows n).minted q = s.minted q :=
  congrArg (fun x => x.2.2.2.2) (s.setRows_own p rows n q)

/-- A table that keeps every incoming frame, and whose rows are earlier ones or new. -/
structure Extends (s : St) (p : Role) (rows : List (StoredMessage carrier)) : Prop where
  kept : ∀ m ∈ s.rows p, m.direction = .incoming →
    ∃ m' ∈ rows, m'.direction = .incoming ∧ m'.frame = m.frame
  old : ∀ m' ∈ rows, (∃ m ∈ s.rows p, m.id = m'.id ∧ m.frame = m'.frame) ∨ s.nextRow ≤ m'.id

variable {f : Frame}

theorem Extends.stored (h : Extends s p rows) {q : Role} (hf : Stored s q f) :
    Stored (s.setRows p rows n) q f := by
  obtain ⟨m, hm, hd, rfl⟩ := hf
  rcases q.eq_or_eq_peer p with rfl | rfl
  · obtain ⟨m', hm', hd', hf'⟩ := h.kept m hm hd
    exact ⟨m', by rwa [St.setRows_rows_self], hd', hf'⟩
  · exact ⟨m, by rwa [St.setRows_rows_peer], hd, rfl⟩

theorem Extends.reached (h : Extends s p rows) {q : Role} (hf : Reached s q f) :
    Reached (s.setRows p rows n) q f := by
  rcases hf with hf | ⟨b, hb, hw⟩
  · exact .inl (h.stored hf)
  · refine .inr ⟨b, ?_, hw⟩
    rwa [St.recv, St.setRows_convo, St.setRows_minted]

/-- Replacing the message table, with rows that meet what the invariant asks of rows. -/
theorem FlowInv.calm_setRows (hi : FlowInv g s) (h : Extends s p rows) (hn : s.nextRow ≤ n)
    (hid : ∀ m ∈ rows, m.id < n ∧ ∀ m' ∈ rows, m'.id = m.id → m'.frame = m.frame)
    (hout : ∀ m ∈ rows, m.direction = .outgoing →
      isChat m.frame ∧ (m.status = .sent → Reached s p.peer m.frame)) :
    Calm g p s (s.setRows p rows n) := by
  have hspares : ∀ q, Spares g q s (s.setRows p rows n) := fun q =>
    ⟨s.setRows_own p rows n q, fun b _ l hl => ⟨[], by rwa [List.append_nil], by simp⟩, fun hb => hb⟩
  refine ⟨⟨?_, ?_, hspares _⟩, hspares _⟩
  · exact
      { recv_live := fun q => by
          simp only [St.recv, Inbox, St.setRows_convo, St.setRows_minted]
          exact hi.recv_live q
        minted_live := fun q => by
          rw [St.setRows_minted]
          exact hi.minted_live q
        disjoint := fun q => by
          rw [St.setRows_minted, St.setRows_minted]
          exact hi.disjoint q
        send_inbox := fun q => by
          simpa only [St.send, Inbox, St.setRows_convo, St.setRows_minted] using hi.send_inbox q
        ids := hi.ids
        ordered := hi.ordered
        retired := fun q l hl hne => by
          rw [St.recv, St.setRows_convo] at hne
          exact hi.retired q l hl hne
        expected := fun q l hl m hm => by
          have he := hi.expected q l hl m hm
          revert he
          cases m.frame <;> simp only [Expected, St.setRows_minted, imp_self]
        chats := fun q => by
          rw [St.setRows_minted]
          exact hi.chats q
        row_ids := fun q => by
          rcases q.eq_or_eq_peer p with rfl | rfl
          · rw [St.setRows_rows_self]
            exact hid
          · rw [St.setRows_rows_peer]
            intro m hm
            obtain ⟨hlt, huniq⟩ := hi.row_ids _ m hm
            exact ⟨Nat.lt_of_lt_of_le hlt hn, huniq⟩
        outgoing := fun q => by
          rcases q.eq_or_eq_peer p with rfl | rfl
          · rw [St.setRows_rows_self]
            exact fun m hm hd => (hout m hm hd).1
          · rw [St.setRows_rows_peer]
            exact hi.outgoing _
        accounted := fun q m hm hd hst => by
          rcases q.eq_or_eq_peer p with rfl | rfl
          · rw [St.setRows_rows_self] at hm
            exact h.reached ((hout m hm hd).2 hst)
          · rw [St.setRows_rows_peer] at hm
            exact h.reached (hi.accounted _ m hm hd hst) }
  · refine ⟨fun q f _ hf => h.reached hf, fun q f hf => h.stored hf, fun q b hb => ?_, hn,
      fun q m hm => ?_⟩
    · rwa [St.setRows_minted]
    · rcases q.eq_or_eq_peer p with rfl | rfl
      · rw [St.setRows_rows_self] at hm
        exact h.old m hm
      · rw [St.setRows_rows_peer] at hm
        exact .inl ⟨m, hm, rfl, rfl⟩

/-- `insert_message` of an incoming row, or of a chat still to be sent. -/
theorem FlowInv.calm_insertMessage (hi : FlowInv g s) (p : Role) {d : Direction}
    {st : Status} (hf : d = .outgoing → isChat f ∧ st ≠ .sent) :
    Calm g p s (s.setRows p (s.rows p ++ [⟨s.nextRow, d, f, st⟩]) (s.nextRow + 1)) := by
  refine hi.calm_setRows ⟨fun m hm hd => ⟨m, List.mem_append_left _ hm, hd, rfl⟩, ?_⟩
    (Nat.le_succ _) ?_ ?_
  · intro m hm
    rcases mem_concat hm with hm | rfl
    · exact .inl ⟨m, hm, rfl, rfl⟩
    · exact .inr (Nat.le_refl _)
  · intro m hm
    rcases mem_concat hm with hm | rfl
    · obtain ⟨hlt, huniq⟩ := hi.row_ids p m hm
      refine ⟨Nat.lt_succ_of_lt hlt, fun m' hm' he => ?_⟩
      rcases mem_concat hm' with hm' | rfl
      · exact huniq m' hm' he
      · exact absurd he.symm (Nat.ne_of_lt hlt)
    · refine ⟨Nat.lt_succ_self _, fun m' hm' he => ?_⟩
      rcases mem_concat hm' with hm' | rfl
      · exact absurd he (Nat.ne_of_lt (hi.row_ids p m' hm').1)
      · rfl
  · intro m hm hd
    rcases mem_concat hm with hm | rfl
    · exact ⟨hi.outgoing p m hm hd, hi.accounted p m hm hd⟩
    · obtain ⟨hc, hst⟩ := hf hd
      exact ⟨hc, fun h => absurd h hst⟩

/-- The row id belongs to one outgoing frame. -/
def RowIs (s : St) (p : Role) (id : ℕ) (f : Frame) : Prop :=
  id < s.nextRow ∧ ∀ m ∈ s.rows p, m.id = id → m.frame = f

theorem RowIs.progress {id : ℕ} (h : RowIs s p id f) (hp : Progress s s') : RowIs s' p id f := by
  refine ⟨Nat.lt_of_lt_of_le h.1 hp.nextRow_le, fun m' hm' he => ?_⟩
  rcases hp.rows p m' hm' with ⟨m, hm, hid, hf⟩ | hnew
  · exact hf ▸ h.2 m hm (hid.trans he)
  · exact absurd (he ▸ hnew) (Nat.not_le_of_lt h.1)

/-- The table after `mark_message_sent`. -/
def markSent (rows : List (StoredMessage carrier)) (id : ℕ) : List (StoredMessage carrier) :=
  rows.map fun m => if m.id = id then { m with status := .sent } else m

/-- A row of the table after `mark_message_sent` is a row before it, up to the status. -/
theorem mem_markSent {id : ℕ} {m' : StoredMessage carrier} (h : m' ∈ markSent rows id) :
    ∃ m ∈ rows, m.id = m'.id ∧ m.direction = m'.direction ∧ m.frame = m'.frame ∧
      (m'.id = id ∨ m.status = m'.status) := by
  obtain ⟨m, hm, rfl⟩ := List.mem_map.mp h
  refine ⟨m, hm, ?_⟩
  split
  · exact ⟨rfl, rfl, rfl, .inl ‹_›⟩
  · exact ⟨rfl, rfl, rfl, .inr rfl⟩

/-- `mark_message_sent` of a row whose chat has reached the other party. -/
theorem FlowInv.calm_markSent (hi : FlowInv g s) {id : ℕ} (hrow : RowIs s p id f)
    (hf : Reached s p.peer f) :
    Calm g p s (s.setRows p (markSent (s.rows p) id) s.nextRow) := by
  refine hi.calm_setRows ⟨?_, ?_⟩ (Nat.le_refl _) ?_ ?_
  · intro m hm hd
    refine ⟨_, List.mem_map_of_mem hm, ?_⟩
    split
    · exact ⟨hd, rfl⟩
    · exact ⟨hd, rfl⟩
  · intro m' hm'
    obtain ⟨m, hm, hid, -, hfr, -⟩ := mem_markSent hm'
    exact .inl ⟨m, hm, hid, hfr⟩
  · intro m₁ hm₁
    obtain ⟨m, hm, hid, -, hfr, -⟩ := mem_markSent hm₁
    obtain ⟨hlt, huniq⟩ := hi.row_ids p m hm
    refine ⟨hid ▸ hlt, fun m₂ hm₂ he => ?_⟩
    obtain ⟨m', hm', hid', -, hfr', -⟩ := mem_markSent hm₂
    rw [← hfr, ← hfr']
    exact huniq m' hm' (by rw [hid', he, hid])
  · intro m' hm' hd
    obtain ⟨m, hm, hid, hdir, hfr, hst⟩ := mem_markSent hm'
    rw [← hfr]
    refine ⟨hi.outgoing p m hm (hdir.trans hd), fun hsent => ?_⟩
    rcases hst with he | hst
    · rw [hrow.2 m hm (hid.trans he)]
      exact hf
    · exact hi.accounted p m hm (hdir.trans hd) (hst.trans hsent)

end Rows

end Titlan.World
