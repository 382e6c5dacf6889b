import Titlan.World.Flow

/-! # Every thread keeps the flow

Each engine thread is verified in `flowSetting`, against whatever the other threads may do: the two
conversation listeners through every handler of a rotation, and any number of `send_chat` calls. An
operation that deposits a chat is taken only where no handoff waits (`Clear`). -/

namespace Titlan.World

open Foundation

variable [Sealing]

/-! ## The setting -/

/-- A chat is deposited only where no handoff waits. -/
def Clear (s : St) : Op carrier → Prop
  | .relay (.deposit _ b wire) => isChat (content wire) → ∀ m ∈ (s.boxes b).getD [], ¬ isHandoff m.frame
  | _ => True

instance (s : St) : (o : Op carrier) → Decidable (Clear s o)
  | .relay (.deposit _ b wire) =>
    inferInstanceAs (Decidable (isChat (content wire) → ∀ m ∈ (s.boxes b).getD [], ¬ isHandoff m.frame))
  | .relay .createMailbox | .relay (.putMailbox _ _) | .relay (.deleteMailbox _) => .isTrue trivial
  | .store _ | .ram _ | .socket _ | .notify _ => .isTrue trivial

/-- How many hellos of the generation wait for the offerer. -/
def hellos (g : ℕ) (s : St) : ℕ :=
  ((s.boxes (.derived .offerer g)).getD []).countP fun m => isHello g m.frame

/-- No rotation has started for this party. -/
def Fresh (g : ℕ) (p : Role) (s : St) : Prop :=
  s.recv p = some (.derived p g) ∧ (s.party p).rotation = none ∧ s.minted p = [] ∧
    (p = .offerer → hellos g s ≤ 1)

/-- The offerer has offered and waits for the answer; at most `n` hellos are left. -/
def Awaiting (g n : ℕ) (p : Role) (s : St) : Prop :=
  p = .offerer ∧ s.recv p = some (.derived p g) ∧ hellos g s ≤ n ∧
    ∃ fA, (s.party p).rotation = some ⟨fA, .derived p g⟩ ∧ s.minted p = [fA]

/-- The party is on the inbox it generated. -/
def Moved (p : Role) (s : St) : Prop :=
  ∃ b, s.recv p = some b ∧ s.minted p = [b]

/-- The party has its role, the root, and the generation. -/
structure Rooted (g : ℕ) (p : Role) (s : St) : Prop where
  role : (s.party p).recovery.role = some p.code
  root : (s.party p).recovery.root = some ()
  ownGen : (s.party p).recovery.ownGen = g

/-- What a listener knows between two deliveries (with `n = 0`), or once the handler is done with a
delivery that accounts for `n` of the hellos. -/
structure Stage (g n : ℕ) (p : Role) (s : St) : Prop extends Rooted g p s where
  place : Fresh g p s ∨ Awaiting g n p s ∨ Moved p s

/-- What a thread is verified against. -/
def flowSetting (g : ℕ) (i : ThreadId) : Setting (engineSig carrier) St where
  exec o s r s' := Clear s o ∧ ∃ c, perform i.party c s o = some (r, s')
  check o s := ∀ p, i = .listener p → o = .socket .next → Stage g 0 p s
  rely s s' := FlowInv g s →
    FlowInv g s' ∧ Progress s s' ∧ ∀ p, i = .listener p → Spares g p s s'
  guar s s' := FlowInv g s →
    Effect g i.party s s' ∧ ∀ p n, i = .sender p n → Spares g p s s'

/-- What one thread guarantees, every other relies on. -/
theorem flowSetting_compat {g : ℕ} {i j : ThreadId} (hij : j ≠ i) {s s' : St}
    (h : (flowSetting g i).guar s s') : (flowSetting g j).rely s s' := by
  intro hi
  obtain ⟨he, hself⟩ := h hi
  refine ⟨he.inv, he.progress, ?_⟩
  rintro p rfl
  rcases p.eq_or_eq_peer i.party with hp | hp
  · cases i with
    | listener q => exact absurd (by rw [hp]; rfl) hij
    | sender q n => exact hp ▸ hself q n rfl
  · exact hp ▸ he.spares

section

variable {g : ℕ} {i : ThreadId} {α : Type} {a a' : St → Prop} {post : α → St → Prop}

/-- The assertion survives what the other threads do. -/
def Kept (g : ℕ) (i : ThreadId) (a : St → Prop) : Prop :=
  ∀ s s', FlowInv g s → FlowInv g s' → Progress s s' → (∀ p, i = .listener p → Spares g p s s') →
    a s → a s'

theorem Kept.stable (ha : Kept g i a) : Stable (flowSetting g i) fun s => FlowInv g s ∧ a s := by
  rintro s s' hr ⟨hi, hs⟩
  obtain ⟨hi', hp, hsp⟩ := hr hi
  exact ⟨hi', ha s s' hi hi' hp hsp hs⟩

theorem Kept.and (ha : Kept g i a) (ha' : Kept g i a') : Kept g i fun s => a s ∧ a' s :=
  fun s s' hi hi' hp hsp hs => ⟨ha s s' hi hi' hp hsp hs.1, ha' s s' hi hi' hp hsp hs.2⟩

/-- A fact about a thread's own data does not change. -/
theorem kept_const {P : Prop} : Kept g i fun _ => P := fun _ _ _ _ _ _ h => h

/-- An assertion that only progress can affect. -/
theorem kept_of_progress (h : ∀ s s', Progress s s' → a s → a s') : Kept g i a :=
  fun s s' _ _ hp _ ha => h s s' hp ha

/-- A calm step keeps the guarantee, and what survives the other threads. -/
theorem Kept.calm {s s' : St} (ha : Kept g i a) (hi : FlowInv g s) (hc : Calm g i.party s s')
    (hs : a s) : (flowSetting g i).guar s s' ∧ FlowInv g s' ∧ a s' := by
  refine ⟨fun _ => ⟨hc.toEffect, ?_⟩, hc.inv, ha s s' hi hc.inv hc.progress ?_ hs⟩
  · rintro p n rfl
    exact hc.spares_self
  · rintro p rfl
    exact hc.spares_self

/-- A program of the thread, started in the flow. -/
abbrev FlowTriple (g : ℕ) (i : ThreadId) (a : St → Prop) (p : EngineM carrier α)
    (post : α → St → Prop) : Prop :=
  Triple (flowSetting g i) (fun s => FlowInv g s ∧ a s) p post

/-- **Rule for an operation the listener does not notice.** -/
theorem triple_calm {o : Op carrier} {k : o.Answer → EngineM carrier α}
    {e : o.Answer → St → Prop} (ha : Kept g i a) (hn : o ≠ .socket .next)
    (hstep : ∀ s c r s', FlowInv g s → a s → Clear s o → perform i.party c s o = some (r, s') →
      Calm g i.party s s' ∧ e r s')
    (hk : ∀ r, FlowTriple g i (fun s => a s ∧ e r s) (k r) post) :
    FlowTriple g i a (.op o k) post := by
  refine triple_op (S := engineSig carrier) ha.stable (fun s _ p _ h => absurd h hn) ?_ hk
  rintro s r s' ⟨hi, hs⟩ ⟨hclear, c, hp⟩
  obtain ⟨hc, he⟩ := hstep s c r s' hi hs hclear hp
  obtain ⟨hguar, hi', hs'⟩ := ha.calm hi hc hs
  exact ⟨hguar, hi', hs', he⟩

/-- **Rule for an operation of a listener.** -/
theorem triple_effect {p : Role} {o : Op carrier} {k : o.Answer → EngineM carrier α}
    {e : o.Answer → St → Prop} (ha : Kept g (.listener p) a)
    (hcheck : ∀ s, a s → o = .socket .next → Stage g 0 p s)
    (hstep : ∀ s c r s', FlowInv g s → a s → perform p c s o = some (r, s') →
      Effect g p s s' ∧ e r s')
    (hk : ∀ r, FlowTriple g (.listener p) (e r) (k r) post) :
    FlowTriple g (.listener p) a (.op o k) post := by
  refine triple_op (S := engineSig carrier) ha.stable ?_ ?_ hk
  · rintro s ⟨-, hs⟩ q hq hn
    cases hq
    exact hcheck s hs hn
  · rintro s r s' ⟨hi, hs⟩ ⟨-, c, hp⟩
    obtain ⟨he, hr⟩ := hstep s c r s' hi hs hp
    exact ⟨fun _ => ⟨he, nofun⟩, he.inv, hr⟩

end

/-! ## Sealing and flushing -/

section Flush

variable {g : ℕ} {i : ThreadId} {a : St → Prop}

/-- An operation that moves nothing is calm. -/
theorem calm_of_idle {p : Role} {c : Choice} {s s' : St} {o : Op carrier} {r : o.Answer}
    (hi : FlowInv g s) (ho : Idle o) (h : perform p c s o = some (r, s')) : Calm g p s s' := by
  have hu := unmoved_of_idle ho h
  have hall : ∀ q, (s'.party q).convo = (s.party q).convo ∧ (s'.party q).minted = (s.party q).minted ∧
      (s'.party q).messages = (s.party q).messages := by
    intro q
    rcases q.eq_or_eq_peer p with rfl | rfl
    · exact ⟨hu.convo, hu.minted, hu.messages⟩
    · rw [hu.peer]
      exact ⟨rfl, rfl, rfl⟩
  have hsame : SameFlow s s' := ⟨hu.boxes, hu.nextBox, hu.nextMsg, hu.nextRow,
    fun q => (hall q).1, fun q => (hall q).2.1, fun q => (hall q).2.2⟩
  refine hi.calm_of_same hsame hu.peer ?_
  rw [Party.own, Party.own, hu.convo, hu.recovery, hu.rotation, hu.conn, hu.minted]

variable {α : Type} {post : α → St → Prop}

/-- **Rule for an operation that moves nothing.** -/
theorem triple_idle {o : Op carrier} {k : o.Answer → EngineM carrier α} {e : o.Answer → St → Prop}
    (ho : Idle o) (ha : Kept g i a)
    (he : ∀ s c r s', FlowInv g s → a s → perform i.party c s o = some (r, s') → e r s')
    (hk : ∀ r, FlowTriple g i (fun s => a s ∧ e r s) (k r) post) : FlowTriple g i a (.op o k) post :=
  triple_calm ha (by rintro rfl; exact ho)
    (fun s c r s' hi hs _ h => ⟨calm_of_idle hi ho h, he s c r s' hi hs h⟩) hk

/-- **The same, where there is one answer.** -/
theorem triple_idle_eq {o : Op carrier} {k : o.Answer → EngineM carrier α} {v : o.Answer}
    (ho : Idle o) (ha : Kept g i a) (hv : ∀ r : o.Answer, r = v) (hk : FlowTriple g i a (k v) post) :
    FlowTriple g i a (.op o k) post := by
  refine triple_idle (e := fun r _ => r = v) ho ha (fun _ _ r _ _ _ _ => hv r) fun r => ?_
  rintro s ⟨hi, hs, rfl⟩
  exact hk s ⟨hi, hs⟩

theorem triple_return {x : α} (ha : Kept g i a) (h : ∀ s, FlowInv g s → a s → post x s) :
    FlowTriple g i a (.ret x) post :=
  triple_ret ha.stable fun s hs => h s hs.1 hs.2

/-- Sealing and opening move nothing. -/
theorem triple_sessions {p : EngineM carrier α} {post : α → Prop} (ha : Kept g i a) (h : sessions.Kept post p) :
    FlowTriple g i a p fun r s => (FlowInv g s ∧ a s) ∧ post r := by
  refine h.triple ha.stable ?_ ?_
  · rintro _ s ho - p - rfl
    exact ho.elim
  · rintro o s r s' ho ⟨hi, hs⟩ ⟨-, c, hp⟩
    obtain ⟨hguar, hs'⟩ := ha.calm hi (calm_of_idle hi (idle_of_sessions ho) hp) hs
    exact ⟨hguar, hs', answers_sessions ho hp⟩

/-- What `p` may still have to deposit: rows of its own that are chats. -/
def Deposits (p : Role) (pending : List (ℕ × Frame)) (s : St) : Prop :=
  ∀ x ∈ pending, isChat x.2 ∧ RowIs s p x.1 x.2

theorem kept_deposits {p : Role} (pending : List (ℕ × Frame)) : Kept g i (Deposits p pending) :=
  kept_of_progress fun _ _ hp h x hx => ⟨(h x hx).1, (h x hx).2.progress hp⟩

theorem kept_inbox (p : Role) (b : MailboxId) : Kept g i fun s => Inbox g s p b :=
  kept_of_progress fun _ _ hp h => h.imp_right (hp.minted p b)

theorem kept_reached (p : Role) {f : Frame} (hf : isChat f) : Kept g i fun s => Reached s p f :=
  kept_of_progress fun _ _ hp h => hp.reached p f hf h

/-- A chat deposited into an inbox of the other party reaches it. -/
theorem calm_deposit_chat {p : Role} {c : Choice} {s s' : St} {b : MailboxId} {wire : Sealing.Wire}
    {r : Result DepositOutcome} (hi : FlowInv g s) (hb : Inbox g s p.peer b) (hf : isChat (content wire))
    (hclear : Clear s (.relay (.deposit () b wire)))
    (h : perform p c s (.relay (.deposit () b wire)) = some (r, s')) :
    Calm g p s s' ∧ (r = .ok .notFound ∨ r = .ok .accepted ∧ Reached s' p.peer (content wire)) := by
  rcases perform_deposit h with ⟨-, rfl, rfl⟩ | ⟨l, hl, rfl, rfl⟩
  · exact ⟨hi.calm_of_same (.refl _) rfl rfl, .inl rfl⟩
  · have hno : ∀ m ∈ l, ¬ isHandoff m.frame := by
      have := hclear hf
      rwa [hl] at this
    refine ⟨hi.calm_deposit hl hb (.inl ⟨hf, hno⟩), .inr ⟨rfl, .inr ⟨b, ?_, waiting_deposit⟩⟩⟩
    rcases hb with rfl | hb
    · left
      -- had the other party left its derived inbox, a handoff would wait there
      by_contra hne
      obtain ⟨⟨m, hm, hhand⟩, -⟩ := hi.retired p.peer l hl hne
      exact hno m hm hhand
    · exact .inr hb

/-- The loop of `flush_pending` keeps the flow, and whatever its caller knows. -/
theorem triple_depositPending (ha : Kept g i a) (convo : Conversation carrier) (b : MailboxId)
    (pending : List (ℕ × Frame)) :
    FlowTriple g i (fun s => a s ∧ Inbox g s i.party.peer b ∧ Deposits i.party pending s)
      (engine.depositPending convo b pending) fun _ s => FlowInv g s ∧ a s := by
  induction pending with
  | nil =>
    exact triple_return (ha.and ((kept_inbox _ b).and (kept_deposits [])))
      fun s hi hs => ⟨hi, hs.1⟩
  | cons x rest ih =>
    obtain ⟨id, f⟩ := x
    have hkept := ha.and ((kept_inbox i.party.peer b).and (kept_deposits (p := i.party) ((id, f) :: rest)))
    refine triple_bind (triple_sessions hkept (kept_encryptMessage convo.peerAddress f)) fun r => ?_
    rintro s ⟨⟨hi, hs⟩, wire, rfl, rfl⟩
    refine triple_calm (i := i) (o := .relay (.deposit convo.relayUrl b wire))
      (e := fun r s => r = .ok .notFound ∨ r = .ok .accepted ∧ Reached s i.party.peer (content wire))
      hkept nofun ?_ ?_ s ⟨hi, hs⟩
    · rintro s c r s' hi ⟨-, hb, hdep⟩ hclear h
      exact calm_deposit_chat hi hb (hdep _ List.mem_cons_self).1 hclear h
    · rintro r s ⟨hi, hs, rfl | ⟨rfl, hreach⟩⟩
      · exact triple_return hkept (fun s hi hs => ⟨hi, hs.1⟩) s ⟨hi, hs⟩
      · -- accepted: the row is marked, and the rest goes on
        have hchat : isChat (content wire) := (hs.2.2 _ List.mem_cons_self).1
        refine triple_calm (i := i) (o := .store (.markMessageSent id))
          (e := fun r s => r = .ok ()) (hkept.and (kept_reached i.party.peer hchat)) nofun ?_ ?_ s
          ⟨hi, hs, hreach⟩
        · rintro s c r s' hi ⟨⟨-, -, hdep⟩, hreach⟩ - h
          cases h
          exact ⟨hi.calm_markSent (hdep _ List.mem_cons_self).2 hreach, rfl⟩
        · rintro r s ⟨hi, ⟨⟨hs, hb, hdep⟩, -⟩, rfl⟩
          exact ih s ⟨hi, hs, hb, fun x hx => hdep x (List.mem_cons_of_mem _ hx)⟩

/-- `flush_pending` keeps the flow, and whatever its caller knows. -/
theorem triple_flushPending (ha : Kept g i a) :
    FlowTriple g i a engine.flushPending fun _ s => FlowInv g s ∧ a s := by
  have hlocked : FlowTriple g i a engine.flushLocked fun _ s => FlowInv g s ∧ a s := by
    rw [Engine.flushLocked, Program.perform_bind]
    refine triple_idle (o := .store .getConversation)
      (e := fun r s => ∃ convo b, r = .ok (some convo) ∧ convo.mailboxSend = some b ∧
        Inbox g s i.party.peer b) trivial ha ?_ fun r => ?_
    · rintro s c r s' hi - h
      cases h
      obtain ⟨b, hb, hin⟩ := hi.send_inbox i.party
      exact ⟨_, b, rfl, hb, hin⟩
    · rintro s ⟨hi, hs, convo, b, rfl, hb, hin⟩
      simp only [hb]
      refine triple_idle (i := i) (o := .store .pendingChat)
        (e := fun r s => ∃ pending, r = .ok pending ∧ Deposits i.party pending s)
        trivial (ha.and (kept_inbox i.party.peer b)) ?_ (fun r => ?_) s ⟨hi, hs, hin⟩
      · rintro s c r s' hi - h
        cases h
        refine ⟨_, rfl, fun x hx => ?_⟩
        obtain ⟨m, hm, rfl⟩ := List.mem_map.mp hx
        obtain ⟨hm, hpend⟩ := List.mem_filter.mp hm
        have hout : m.direction = .outgoing := (of_decide_eq_true hpend).1
        exact ⟨hi.outgoing _ m hm hout, hi.row_ids _ m hm⟩
      · rintro s ⟨hi, ⟨hs, hin⟩, pending, rfl, hdep⟩
        exact triple_depositPending ha convo b pending s ⟨hi, hs, hin, hdep⟩
  rw [Engine.flushPending, Program.perform_bind]
  refine triple_idle_eq (o := .ram .lockFlush) (v := ()) trivial ha (fun _ => rfl) ?_
  refine triple_bind hlocked fun r => ?_
  refine triple_idle_eq (o := .ram .unlockFlush) (v := ()) trivial ha (fun _ => rfl) ?_
  exact triple_return ha fun s hi hs => ⟨hi, hs⟩

end Flush

/-- `send_chat` keeps the flow. -/
theorem triple_sendChatThread (g : ℕ) (p : Role) (n text : ℕ) :
    FlowTriple g (.sender p n) (fun _ => True) (sendChatThread text) fun _ _ => True := by
  rw [sendChatThread, Engine.sendChat, Program.perform_bind, Program.op_bind]
  refine triple_calm (i := .sender p n) (e := fun r _ => ∃ row, r = .ok row) kept_const nofun ?_
    fun r => ?_
  · rintro s c r s' hi - - h
    cases h
    exact ⟨hi.calm_insertMessage p fun _ => ⟨rfl, nofun⟩, _, rfl⟩
  · rintro s ⟨hi, -, row, rfl⟩
    have hflush : FlowTriple g (.sender p n) (fun _ => True)
        (engine.flushPending >>= fun _ => pure (.ok ()) : EngineM carrier (Result Unit))
        fun _ s => FlowInv g s ∧ True :=
      triple_bind (triple_flushPending kept_const) fun _ => triple_return kept_const fun _ hi _ => ⟨hi, trivial⟩
    exact triple_bind hflush (fun _ => triple_return kept_const fun _ _ _ => trivial) s ⟨hi, trivial⟩

/-! ## What a listener knows -/

section Knows

variable {g n : ℕ} {p : Role} {s s' : St}

theorem Spares.convo (h : Spares g p s s') : (s'.party p).convo = (s.party p).convo :=
  congrArg (fun x => x.1) h.own_eq

theorem Spares.recovery (h : Spares g p s s') : (s'.party p).recovery = (s.party p).recovery :=
  congrArg (fun x => x.2.1) h.own_eq

theorem Spares.rotation (h : Spares g p s s') : (s'.party p).rotation = (s.party p).rotation :=
  congrArg (fun x => x.2.2.1) h.own_eq

theorem Spares.conn (h : Spares g p s s') : (s'.party p).conn = (s.party p).conn :=
  congrArg (fun x => x.2.2.2.1) h.own_eq

theorem Spares.minted (h : Spares g p s s') : (s'.party p).minted = (s.party p).minted :=
  congrArg (fun x => x.2.2.2.2) h.own_eq

/-- Nobody else sends the offerer hellos. -/
theorem Spares.hellos_eq (h : Spares g .offerer s s') : hellos g s' = hellos g s := by
  rw [hellos, hellos]
  cases hl : s.boxes (.derived .offerer g) with
  | none => rw [h.gone hl]
  | some l =>
    obtain ⟨l', hl', hno⟩ := h.grows _ (.inl rfl) l hl
    have hzero : l'.countP (fun m => isHello g m.frame) = 0 :=
      List.countP_eq_zero.mpr fun m hm => by rw [(hno m hm).1]; exact Bool.false_ne_true
    rw [hl', Option.getD_some, Option.getD_some, List.countP_append, hzero, Nat.add_zero]

/-- The states agree on how far the party's rotation is. -/
structure SamePlace (g : ℕ) (p : Role) (s s' : St) : Prop where
  convo : (s'.party p).convo = (s.party p).convo
  rotation : (s'.party p).rotation = (s.party p).rotation
  minted : (s'.party p).minted = (s.party p).minted
  hellos : p = .offerer → hellos g s' = hellos g s

/-- The states agree on what the listener of `p` knows of its own. -/
structure SameOwn (g : ℕ) (p : Role) (s s' : St) : Prop extends SamePlace g p s s' where
  recovery : (s'.party p).recovery = (s.party p).recovery
  conn : (s'.party p).conn = (s.party p).conn

theorem Spares.sameOwn (h : Spares g p s s') : SameOwn g p s s' :=
  ⟨⟨h.convo, h.rotation, h.minted, by rintro rfl; exact h.hellos_eq⟩, h.recovery, h.conn⟩

theorem kept_of_sameOwn {a : St → Prop} (h : ∀ s s', SameOwn g p s s' → a s → a s') :
    Kept g (.listener p) a :=
  fun s s' _ _ _ hsp ha => h s s' (hsp p rfl).sameOwn ha

theorem Rooted.same (h : SameOwn g p s s') (hs : Rooted g p s) : Rooted g p s' :=
  ⟨by rw [h.recovery, hs.role], by rw [h.recovery, hs.root], by rw [h.recovery, hs.ownGen]⟩

theorem Fresh.same (h : SamePlace g p s s') (hs : Fresh g p s) : Fresh g p s' := by
  obtain ⟨hr, hrot, hm, hh⟩ := hs
  refine ⟨?_, by rw [h.rotation, hrot], by rwa [St.minted, h.minted], fun hp => ?_⟩
  · rwa [St.recv, h.convo]
  · rw [h.hellos hp]
    exact hh hp

theorem Awaiting.same (h : SamePlace g p s s') (hs : Awaiting g n p s) : Awaiting g n p s' := by
  obtain ⟨hp, hr, hh, fA, hrot, hm⟩ := hs
  refine ⟨hp, ?_, ?_, fA, ?_, ?_⟩
  · rwa [St.recv, h.convo]
  · rwa [h.hellos hp]
  · rw [h.rotation, hrot]
  · rwa [St.minted, h.minted]

theorem Moved.same (h : SamePlace g p s s') (hs : Moved p s) : Moved p s' := by
  obtain ⟨b, hr, hm⟩ := hs
  exact ⟨b, by rwa [St.recv, h.convo], by rwa [St.minted, h.minted]⟩

theorem Stage.rebase (h : SamePlace g p s s') (hr : Rooted g p s') (hs : Stage g n p s) :
    Stage g n p s' :=
  ⟨hr, hs.place.imp (Fresh.same h) (Or.imp (Awaiting.same h) (Moved.same h))⟩

theorem Stage.same (h : SameOwn g p s s') (hs : Stage g n p s) : Stage g n p s' :=
  hs.rebase h.toSamePlace (hs.toRooted.same h)

theorem kept_stage : Kept g (.listener p) (Stage g n p) := kept_of_sameOwn fun _ _ => Stage.same

/-- A stage allows for more hellos. -/
theorem Stage.of_zero (hs : Stage g 0 p s) : Stage g n p s := by
  refine ⟨hs.toRooted, hs.place.imp_right (Or.imp_left ?_)⟩
  rintro ⟨hp, hr, hh, hrest⟩
  exact ⟨hp, hr, Nat.le_trans hh (Nat.zero_le n), hrest⟩

/-- The listener reads the inbox it is on. -/
def Reading (p : Role) (b : MailboxId) (s : St) : Prop :=
  s.recv p = some b ∧ ∃ current, (s.party p).conn = some (.live b current)

/-- The message is at the head of the inbox the listener reads. -/
def Handling (p : Role) (b : MailboxId) (m : Queued) (s : St) : Prop :=
  Reading p b s ∧ ∃ rest, s.boxes b = some (m :: rest)

variable {b : MailboxId}

theorem Reading.same (h : SameOwn g p s s') (hs : Reading p b s) : Reading p b s' := by
  obtain ⟨hr, current, hc⟩ := hs
  exact ⟨by rwa [St.recv, h.convo], current, by rw [h.conn, hc]⟩

theorem kept_reading : Kept g (.listener p) (Reading p b) :=
  kept_of_sameOwn fun _ _ => Reading.same

/-- The inbox a party is on is one of its own. -/
theorem FlowInv.inbox_of_recv (hi : FlowInv g s) (h : s.recv p = some b) : Inbox g s p b := by
  obtain ⟨c, hc, -, hin⟩ := hi.recv_live p
  rw [h, Option.some.injEq] at hc
  exact hc ▸ hin

/-- Others add behind the message being handled. -/
theorem kept_handling {m : Queued} : Kept g (.listener p) (Handling p b m) := by
  rintro s s' hi hi' hp hsp ⟨hr, rest, hrest⟩
  have h := hsp p rfl
  obtain ⟨l', hl', -⟩ := h.grows b (hi.inbox_of_recv hr.1) _ hrest
  exact ⟨hr.same h.sameOwn, rest ++ l', hl'⟩

/-- A frame other than a chat is read on the derived inbox, where it is expected. -/
theorem Handling.expected {m : Queued} (h : Handling p b m s) (hi : FlowInv g s)
    (hm : ¬ isChat m.frame) : b = .derived p g ∧ Expected g s p m.frame := by
  obtain ⟨⟨hr, -⟩, rest, hrest⟩ := h
  rcases hi.inbox_of_recv hr with rfl | hb
  · exact ⟨rfl, hi.expected p _ hrest m List.mem_cons_self⟩
  · exact absurd (hi.chats p b hb _ hrest m List.mem_cons_self) hm

/-- While a handoff is handled, the derived inbox may be left. -/
theorem Handling.leavable {m : Queued} (h : Handling p (.derived p g) m s)
    (hi : FlowInv g s) (hm : isHandoff m.frame) : Leavable g s p := by
  obtain ⟨-, rest, hrest⟩ := h
  intro l hl
  rw [hrest, Option.some.injEq] at hl
  subst hl
  obtain ⟨hno, -⟩ := List.pairwise_cons.mp (hi.ordered p _ hrest)
  refine ⟨⟨m, List.mem_cons_self, hm⟩, fun a ha => ?_⟩
  rcases List.mem_cons.mp ha with rfl | ha
  · cases hf : a.frame <;> simp_all [isHandoff, isChat]
  · exact hno a ha hm

end Knows

/-! ## The handlers -/

section Handlers

variable {g : ℕ} {p : Role} {b : MailboxId} {m : Queued}

/-- What a handler has achieved. Either it stays on the inbox, and a chat is stored; or it has moved
the party off its derived inbox, which is deleted. -/
def Handled (g : ℕ) (p : Role) (b : MailboxId) (m : Queued) : Bool → St → Prop
  | false, s => Handling p b m s ∧ Stage g (weight g m.frame) p s ∧
      (isChat m.frame → Stored s p m.frame)
  | true, s => Stage g 0 p s ∧ s.recv p ≠ some (.derived p g) ∧
      (∃ current, (s.party p).conn = some (.live (.derived p g) current)) ∧
      s.boxes (.derived p g) = none

theorem kept_handled : ∀ r, Kept g (.listener p) (Handled g p b m r)
  | false => kept_handling.and (kept_stage.and (kept_of_progress fun _ _ hp h hc => hp.stored _ _ (h hc)))
  | true => by
    refine kept_stage.and ?_
    rintro s s' hi hi' hp hsp ⟨hr, ⟨current, hc⟩, hgone⟩
    have h := hsp p rfl
    exact ⟨by rwa [St.recv, h.convo], ⟨current, by rw [h.conn, hc]⟩, h.gone hgone⟩

/-- The offerer has generated an inbox, the sender of a handoff another. -/
def Offered (p : Role) (inbox : MailboxId) (s : St) : Prop :=
  inbox ∈ s.minted p ∧ s.minted .offerer ≠ []

theorem kept_offered {i : ThreadId} (inbox : MailboxId) : Kept g i (Offered p inbox) := by
  refine kept_of_progress fun s s' hp h => ⟨hp.minted p inbox h.1, ?_⟩
  obtain ⟨c, hc⟩ := List.exists_mem_of_ne_nil _ h.2
  exact List.ne_nil_of_mem (hp.minted _ c hc)

/-- Announcing a generated inbox in the other's derived one keeps what the listener knows. -/
theorem triple_announce {a : St → Prop} (ha : Kept g (.listener p) a) (convo : Conversation carrier)
    (inbox : MailboxId) :
    FlowTriple g (.listener p) (fun s => a s ∧ Offered p inbox s)
      (engine.announce convo (.derived p.peer g) (handoff inbox))
      fun _ s => FlowInv g s ∧ a s ∧ Offered p inbox s := by
  have hkept := ha.and (kept_offered (g := g) (p := p) inbox)
  refine triple_bind (triple_sessions hkept (kept_encryptMessage convo.peerAddress _)) fun r => ?_
  rintro s ⟨⟨hi, hs⟩, wire, rfl, hwire⟩
  refine triple_calm (o := .relay (.deposit convo.relayUrl (.derived p.peer g) wire))
    (i := .listener p) (e := fun _ _ => True) hkept nofun ?_
    (fun r => triple_return (hkept.and kept_const) fun s hi hs => ⟨hi, hs.1⟩) s ⟨hi, hs⟩
  rintro s c r s' hi ⟨-, hoff⟩ - h
  rcases perform_deposit h with ⟨-, -, rfl⟩ | ⟨l, hl, -, rfl⟩
  · exact ⟨hi.calm_of_same (.refl _) rfl rfl, trivial⟩
  · exact ⟨hi.calm_deposit hl (.inl rfl) (.inr ⟨inbox, hwire, rfl, hoff.1, hoff.2⟩), trivial⟩

/-- What an offerer knows before it starts the rotation. -/
def Starting (g : ℕ) (b : MailboxId) (m : Queued) (s : St) : Prop :=
  Handling .offerer b m s ∧ Rooted g .offerer s ∧ Fresh g .offerer s

/-- The offerer has generated `F_A`. -/
def Offering (g : ℕ) (b : MailboxId) (m : Queued) (fA : MailboxId) (s : St) : Prop :=
  Handling .offerer b m s ∧ Rooted g .offerer s ∧ s.recv .offerer = some (.derived .offerer g) ∧
    hellos g s ≤ 1 ∧ s.minted .offerer = [fA]

theorem kept_starting : Kept g (.listener .offerer) (Starting g b m) :=
  kept_handling.and ((kept_of_sameOwn fun _ _ => Rooted.same).and
    (kept_of_sameOwn fun _ _ h => Fresh.same h.toSamePlace))

theorem kept_offering {fA : MailboxId} : Kept g (.listener .offerer) (Offering g b m fA) := by
  refine kept_handling.and ((kept_of_sameOwn fun _ _ => Rooted.same).and (kept_of_sameOwn ?_))
  rintro s s' h ⟨hr, hh, hm⟩
  exact ⟨by rwa [St.recv, h.convo], by rwa [h.hellos rfl], by rwa [St.minted, h.minted]⟩

variable {s : St}

/-- Generating an inbox leaves the inboxes in use alone. -/
theorem Handling.mint (h : Handling p b m s) (hi : FlowInv g s) : Handling p b m (s.mint p) := by
  obtain ⟨⟨hr, current, hc⟩, rest, hrest⟩ := h
  refine ⟨⟨by rwa [St.recv, St.mint_convo], current, ?_⟩, rest, ?_⟩
  · rwa [St.mint_party_self]
  · rwa [St.mint_boxes_of_ne _ _ (hi.inbox_ne_nextBox (hi.inbox_of_recv hr))]

theorem Rooted.mint (h : Rooted g p s) : Rooted g p (s.mint p) := by
  obtain ⟨h₁, h₂, h₃⟩ := h
  constructor <;> rwa [St.mint_party_self]

/-- Neither does changing fields that are neither routing nor socket. -/
theorem Handling.modify {f : Party → Party} (h : Handling p b m s)
    (hconvo : (f (s.party p)).convo = (s.party p).convo)
    (hconn : (f (s.party p)).conn = (s.party p).conn) : Handling p b m (s.modify p f) := by
  obtain ⟨⟨hr, current, hc⟩, hrest⟩ := h
  refine ⟨⟨?_, current, ?_⟩, hrest⟩
  · rwa [St.recv, St.modify_party_self, hconvo]
  · rwa [St.modify_party_self, hconn]

theorem Rooted.modify {f : Party → Party} (h : Rooted g p s)
    (hrec : (f (s.party p)).recovery = (s.party p).recovery) : Rooted g p (s.modify p f) := by
  obtain ⟨h₁, h₂, h₃⟩ := h
  constructor <;> rwa [St.modify_party_self, hrec]

/-- `initiate_rotation`, on a hello of the generation. -/
theorem triple_initiateRotation (hm : isHello g m.frame) (convo : Conversation carrier) :
    FlowTriple g (.listener .offerer) (Starting g b m)
      (engine.initiateRotation convo Role.offerer.code () g)
      fun r s => FlowInv g s ∧ Handled g .offerer b m r s := by
  rw [Engine.initiateRotation, Program.perform_bind]
  refine triple_effect (o := .relay .createMailbox)
    (e := fun r s => ∃ fA, r = .ok fA ∧ Offering g b m fA s) kept_starting nofun ?_ fun r => ?_
  · rintro s c r s' hi ⟨hh, hroot, hrecv, -, hmint, hhello⟩ h
    cases h
    refine ⟨hi.effect_mint .offerer, _, rfl, hh.mint hi, hroot.mint, ?_, hhello rfl, ?_⟩
    · exact (congrArg Conversation.mailboxRecv (s.mint_convo .offerer .offerer)).trans hrecv
    · refine (s.mint_minted_self .offerer).trans ?_
      rw [hmint, List.nil_append]
  · rintro s ⟨hi, fA, rfl, hs⟩
    have hoff : Offered .offerer fA s := by
      rw [Offered, hs.2.2.2.2]
      exact ⟨List.mem_singleton_self fA, List.cons_ne_nil _ _⟩
    refine triple_bind (triple_announce kept_offering convo fA) (fun _ => ?_) s ⟨hi, hs, hoff⟩
    refine triple_effect (o := .ram (.insertRotation ⟨fA, .derived .offerer g⟩))
      (e := fun _ s => Handled g .offerer b m false s) (kept_offering.and (kept_offered fA)) nofun ?_
      fun r => triple_return (kept_handled false) fun s hi hs => ⟨hi, hs⟩
    rintro s c r s' hi ⟨⟨hh, hroot, hrecv, hhello, hmint⟩, -⟩ h
    cases h
    refine ⟨hi.effect_of_same (.of_modify rfl rfl rfl) (s.modify_party_peer .offerer _),
      hh.modify rfl rfl, ⟨hroot.modify rfl, .inr (.inl ⟨rfl, ?_, ?_, fA, ?_, ?_⟩)⟩, ?_⟩
    · rwa [St.recv, St.modify_party_self]
    · rw [weight, if_pos hm]
      exact hhello
    · rw [St.modify_party_self]
    · rwa [St.minted, St.modify_party_self]
    · intro hc
      cases hf : m.frame <;> simp_all [isChat, isHello]

/-- A frame that changes nothing is handled. -/
theorem handled_false (hh : Handling p b m s) (hs : Stage g 0 p s) (hm : ¬ isChat m.frame) :
    Handled g p b m false s :=
  ⟨hh, hs.of_zero, fun hc => absurd hc hm⟩

/-- A party on its derived inbox has not moved. -/
theorem FlowInv.not_moved (hi : FlowInv g s) (hr : s.recv p = some (.derived p g)) :
    ¬ Moved p s := by
  rintro ⟨c, hc, hmint⟩
  rw [hr, Option.some.injEq] at hc
  obtain ⟨-, n, -, hn⟩ := hi.minted_live p c (hmint ▸ List.mem_singleton_self c)
  rw [← hc] at hn
  cases hn

/-- The offerer that handles a hello of the generation has not offered yet. -/
theorem Handling.starting (hh : Handling .offerer b m s) (hs : Stage g 0 .offerer s)
    (hi : FlowInv g s) (hm : isHello g m.frame) : Starting g b m s := by
  have hchat : ¬ isChat m.frame := by
    cases hf : m.frame <;> simp_all [isChat, isHello]
  obtain ⟨rfl, -⟩ := hh.expected hi hchat
  refine ⟨hh, hs.toRooted, ?_⟩
  rcases hs.place with h | h | h
  · exact h
  · obtain ⟨-, -, hzero, -⟩ := h
    obtain ⟨-, rest, hrest⟩ := hh
    rw [hellos, hrest, Option.getD_some, List.countP_cons, if_pos hm] at hzero
    exact absurd hzero (Nat.not_succ_le_zero _)
  · exact absurd h (hi.not_moved hh.1.1)

omit [Sealing] in
/-- A hello that is not ahead raises no generation. -/
theorem converge_of_le {g r : ℕ} (peer : ℕ) (h : r ≤ g) :
    GenerationState.converge ⟨g, peer⟩ r = (false, ⟨g, max peer r⟩) := by
  refine Prod.ext ?_ ?_
  · rw [GenerationState.converge_fst]
    exact decide_eq_false (Nat.not_lt_of_le h)
  · rw [GenerationState.converge_snd, Nat.max_eq_left h]

/-- `handle_recovery_hello`: the offerer starts the rotation on a hello of the generation; any other
hello is answered by a flush. -/
theorem triple_handleRecoveryHello {r nonce : ℕ} (hm : m.frame = hello r nonce) (hr : r ≤ g) :
    FlowTriple g (.listener p) (fun s => Handling p b m s ∧ Stage g 0 p s)
      (engine.handleRecoveryHello r nonce) fun changed s => FlowInv g s ∧ Handled g p b m changed s := by
  have hchat : ¬ isChat m.frame := by rw [hm]; exact Bool.false_ne_true
  have hkept : Kept g (.listener p) fun s => Handling p b m s ∧ Stage g 0 p s :=
    kept_handling.and kept_stage
  rw [Engine.handleRecoveryHello, Program.perform_bind]
  refine triple_idle (o := .ram (.markHelloSeen r nonce)) (e := fun _ _ => True) trivial hkept
    (fun _ _ _ _ _ _ _ => trivial) fun fresh => ?_
  rintro s ⟨hi, hs, -⟩
  cases fresh with
  | false =>
    exact triple_return hkept (fun s hi hs => ⟨hi, handled_false hs.1 hs.2 hchat⟩) s ⟨hi, hs⟩
  | true =>
    refine triple_idle (o := .store .recoveryState) (i := .listener p)
      (e := fun r _ => ∃ peer, r = .ok (some ⟨some p.code, some (), g, peer⟩)) trivial hkept ?_
      (fun x => ?_) s ⟨hi, hs⟩
    · rintro s c x s' hi ⟨-, hst⟩ h
      cases h
      refine ⟨(s.party p).recovery.peerGen, ?_⟩
      rw [← hst.role, ← hst.root, ← hst.ownGen]
      rfl
    · rintro s ⟨hi, hs, peer, rfl⟩
      refine (triple_idle_eq (o := .ram .resetExhaustion) (i := .listener p) (v := ()) trivial hkept
        (fun _ => rfl) ?_) s ⟨hi, hs⟩
      rw [converge_of_le peer hr]
      refine triple_effect (o := .store (.setRecoveryGenerations g (max peer r)))
        (e := fun _ s => Handling p b m s ∧ Stage g 0 p s) hkept nofun ?_ fun _ => ?_
      · rintro s c x s' hi ⟨hh, hst⟩ h
        cases h
        have hplace : SamePlace g p s (s.modify p fun x =>
            { x with recovery := { x.recovery with ownGen := g, peerGen := max peer r } }) := by
          refine ⟨?_, ?_, ?_, fun _ => rfl⟩ <;> rw [St.modify_party_self]
        refine ⟨hi.effect_of_same (.of_modify rfl rfl rfl) (s.modify_party_peer p _),
          hh.modify rfl rfl, hst.rebase hplace ⟨?_, ?_, ?_⟩⟩ <;> rw [St.modify_party_self]
        · exact hst.role
        · exact hst.root
      · refine triple_idle (o := .store .getConversation) (i := .listener p)
          (e := fun r _ => ∃ convo, r = .ok (some convo)) trivial hkept
          (fun s c x s' _ _ h => by cases h; exact ⟨_, rfl⟩) fun x => ?_
        rintro s ⟨hi, hs, convo, rfl⟩
        by_cases hstart : r = g ∧ p.code = roleOfferer
        · simp only [Bool.false_eq_true, if_false, if_pos hstart]
          obtain ⟨rfl, hp⟩ := hstart
          obtain rfl := p.code_eq_roleOfferer.mp hp
          have hm' : isHello r m.frame := by rw [hm]; exact decide_eq_true rfl
          exact triple_initiateRotation hm' convo s ⟨hi, hs.1.starting hs.2 hi hm'⟩
        · simp only [Bool.false_eq_true, if_false, if_neg hstart]
          refine triple_bind (triple_flushPending hkept) (fun _ => ?_) s ⟨hi, hs⟩
          exact triple_return hkept fun s hi hs => ⟨hi, handled_false hs.1 hs.2 hchat⟩

/-- The party has left its derived inbox for the one it generated, and still reads the old one. -/
def Left (g : ℕ) (p : Role) (s : St) : Prop :=
  Rooted g p s ∧ Moved p s ∧ s.recv p ≠ some (.derived p g) ∧
    ∃ current, (s.party p).conn = some (.live (.derived p g) current)

theorem kept_left : Kept g (.listener p) (Left g p) := by
  refine kept_of_sameOwn ?_
  rintro s s' h ⟨hroot, hmoved, hr, current, hc⟩
  exact ⟨hroot.same h, hmoved.same h.toSamePlace, by rwa [St.recv, h.convo], current, by rw [h.conn, hc]⟩

/-- Deleting the inbox that was left, and the closing flush, end a rotation. -/
theorem triple_retire :
    FlowTriple g (.listener p) (Left g p)
      (.op (.relay (.deleteMailbox (.derived p g))) fun _ => engine.flushPending >>= fun _ => .ret true)
      fun r s => FlowInv g s ∧ Handled g p b m r s := by
  refine triple_effect (e := fun _ s => Handled g p b m true s) kept_left nofun ?_ fun _ => ?_
  · rintro s c r s' hi ⟨hroot, hmoved, hr, hc⟩ h
    cases h
    refine ⟨hi.effect_setBox ⟨rfl, hr⟩, ⟨⟨hroot.role, hroot.root, hroot.ownGen⟩, ?_⟩, hr, hc,
      s.setBox_boxes_self _ _⟩
    exact .inr (.inr hmoved)
  · refine triple_bind (triple_flushPending (kept_handled true)) fun _ => ?_
    exact triple_return (kept_handled true) fun s hi hs => ⟨hi, hs⟩

/-- A handoff is being handled by a party that can answer or finish: it knows the inbox it will move to,
if it has one yet, and the other party's new inbox. -/
def Rotating (g : ℕ) (p : Role) (m : Queued) (inbox : MailboxId) (minted : List MailboxId) (s : St) :
    Prop :=
  Handling p (.derived p g) m s ∧ Rooted g p s ∧ s.minted p = minted ∧ Offered p.peer inbox s

variable {inbox : MailboxId}

theorem kept_rotating {minted : List MailboxId} :
    Kept g (.listener p) (Rotating g p m inbox minted) := by
  refine kept_handling.and (Kept.and ?_ (Kept.and ?_ (kept_offered inbox)))
  · exact kept_of_sameOwn fun _ _ => Rooted.same
  · exact kept_of_sameOwn fun s s' h hs => by rwa [St.minted, h.minted]

/-- Adopting the other party's new inbox. -/
theorem Rotating.setSend {minted : List MailboxId}
    (hs : Rotating g p m inbox minted s) (hi : FlowInv g s) :
    Effect g p s (s.reroute p { (s.party p).convo with mailboxSend := some inbox }) ∧
      Rotating g p m inbox minted (s.reroute p { (s.party p).convo with mailboxSend := some inbox }) := by
  obtain ⟨hh, hroot, hmint, hoff⟩ := hs
  obtain ⟨c, hc, hlive, hin⟩ := hi.recv_live p
  refine ⟨hi.effect_reroute rfl (.inr hoff.1) hc hin hlive fun hne => absurd hh.1.1 hne, ?_⟩
  obtain ⟨⟨hr, current, hconn⟩, hrest⟩ := hh
  refine ⟨⟨⟨?_, current, ?_⟩, hrest⟩, ⟨?_, ?_, ?_⟩, ?_, ?_⟩
  · rwa [St.recv, St.reroute_party_self]
  · rwa [St.reroute_party_self]
  · rw [St.reroute_party_self, hroot.role]
  · rw [St.reroute_party_self, hroot.root]
  · rw [St.reroute_party_self, hroot.ownGen]
  · rwa [St.reroute_minted]
  · rwa [Offered, St.reroute_minted, St.reroute_minted]

/-- Moving to the generated inbox. -/
theorem Rotating.setRecv {inbox f : MailboxId} (hs : Rotating g p m inbox [f] s)
    (hi : FlowInv g s) (hm : isHandoff m.frame) :
    Effect g p s (s.reroute p { (s.party p).convo with mailboxRecv := some f }) ∧
      Left g p (s.reroute p { (s.party p).convo with mailboxRecv := some f }) := by
  obtain ⟨hh, hroot, hmint, -⟩ := hs
  have hf : f ∈ s.minted p := hmint ▸ List.mem_singleton_self f
  obtain ⟨hlive, n, -, rfl⟩ := hi.minted_live p f hf
  obtain ⟨c, hc, hin⟩ := hi.send_inbox p
  refine ⟨hi.effect_reroute hc hin rfl (.inr hf) hlive fun _ => hh.leavable hi hm, ?_⟩
  obtain ⟨⟨hr, current, hconn⟩, -⟩ := hh
  refine ⟨⟨?_, ?_, ?_⟩, ⟨.generated n, ?_, ?_⟩, ?_, current, ?_⟩
  · rw [St.reroute_party_self, hroot.role]
  · rw [St.reroute_party_self, hroot.root]
  · rw [St.reroute_party_self, hroot.ownGen]
  · rw [St.recv, St.reroute_party_self]
  · rwa [St.reroute_minted]
  · rw [St.recv, St.reroute_party_self]
    exact MailboxId.noConfusion ∘ Option.some.inj
  · rwa [St.reroute_party_self]

/-- The offerer's half of `handle_rotation`. -/
theorem triple_finishRotation {inbox fA : MailboxId} (hm : isHandoff m.frame) :
    FlowTriple g (.listener p) (Rotating g p m inbox [fA])
      (engine.finishRotation ⟨fA, .derived p g⟩ () inbox)
      fun r s => FlowInv g s ∧ Handled g p b m r s := by
  refine triple_effect (o := .store (.setConversationSend () inbox))
    (e := fun _ s => Rotating g p m inbox [fA] s) kept_rotating nofun ?_ fun _ => ?_
  · rintro s c r s' hi hs h
    cases h
    exact hs.setSend hi
  · refine triple_effect (o := .store (.setConversationRecv fA)) (e := fun _ s => Left g p s)
      kept_rotating nofun ?_ fun _ => triple_retire
    rintro s c r s' hi hs h
    cases h
    exact hs.setRecv hi hm

/-- Generating the inbox to move to. -/
theorem Rotating.mint (hs : Rotating g p m inbox [] s) (hi : FlowInv g s) :
    Rotating g p m inbox [.generated s.nextBox] (s.mint p) := by
  obtain ⟨hh, hroot, hmint, hoff⟩ := hs
  refine ⟨hh.mint hi, hroot.mint, ?_, ?_⟩
  · rw [St.mint_minted_self, hmint, List.nil_append]
  · have hp := (hi.effect_mint p).progress
    obtain ⟨c, hc⟩ := List.exists_mem_of_ne_nil _ hoff.2
    exact ⟨hp.minted _ _ hoff.1, List.ne_nil_of_mem (hp.minted _ c hc)⟩

/-- The responder's half of `handle_rotation`. -/
theorem triple_answerRotation (hm : isHandoff m.frame) :
    FlowTriple g (.listener p) (Rotating g p m inbox [])
      (engine.answerRotation () inbox) fun r s => FlowInv g s ∧ Handled g p b m r s := by
  refine triple_idle (o := .store .recoveryState) (i := .listener p)
    (e := fun r _ => ∃ peer, r = .ok (some ⟨some p.code, some (), g, peer⟩)) trivial kept_rotating ?_
    fun r => ?_
  · rintro s c r s' hi ⟨-, hroot, -⟩ h
    cases h
    refine ⟨(s.party p).recovery.peerGen, ?_⟩
    rw [← hroot.role, ← hroot.root, ← hroot.ownGen]
    rfl
  rintro s ⟨hi, hs, peer, rfl⟩
  refine triple_idle (o := .store .getConversation) (i := .listener p)
    (e := fun r _ => ∃ convo, r = .ok (some convo) ∧ convo.mailboxRecv = some (.derived p g)) trivial
    kept_rotating ?_ (fun r => ?_) s ⟨hi, hs⟩
  · rintro s c r s' hi ⟨hh, -⟩ h
    cases h
    exact ⟨_, rfl, hh.1.1⟩
  rintro s ⟨hi, hs, convo, rfl, hconvo⟩
  have hderived : engine.deriveMailboxId () (roleFromU8 (peerRoleU8 p.code)) g = .derived p.peer g := by
    rw [roleFromU8_peerRoleU8, roleFromU8_code]
    rfl
  rw [hderived]
  refine triple_effect (o := .store (.setConversationSend () inbox))
    (e := fun _ s => Rotating g p m inbox [] s) kept_rotating nofun ?_ (fun _ => ?_) s ⟨hi, hs⟩
  · rintro s c r s' hi hs h
    cases h
    exact hs.setSend hi
  refine triple_effect (o := .relay .createMailbox)
    (e := fun r s => ∃ fB, r = .ok fB ∧ Rotating g p m inbox [fB] s) kept_rotating nofun ?_
    fun r => ?_
  · rintro s c r s' hi hs h
    cases h
    exact ⟨hi.effect_mint p, _, rfl, hs.mint hi⟩
  rintro s ⟨hi, fB, rfl, hs⟩
  refine triple_effect (o := .store (.setConversationRecv fB))
    (e := fun r s => r = .ok () ∧ Left g p s ∧ Offered p fB s) kept_rotating nofun ?_ (fun r => ?_) s
    ⟨hi, hs⟩
  · rintro s c r s' hi hs h
    cases h
    obtain ⟨heff, hleft⟩ := hs.setRecv hi hm
    obtain ⟨-, -, hmint, hoff⟩ := hs
    refine ⟨heff, rfl, hleft, heff.progress.minted _ _ (hmint ▸ List.mem_singleton_self fB), ?_⟩
    obtain ⟨c, hc⟩ := List.exists_mem_of_ne_nil _ hoff.2
    exact List.ne_nil_of_mem (heff.progress.minted _ c hc)
  rintro s ⟨hi, rfl, hleft, hoff⟩
  refine triple_bind (triple_announce kept_left convo fB) (fun _ => ?_) s ⟨hi, hleft, hoff⟩
  rw [hconvo]
  exact triple_retire.of_pre fun s hs => ⟨hs.1, hs.2.1⟩

/-- `handle_rotation`: the offerer that awaits `F_B` finishes, the responder answers. -/
theorem triple_handleRotation (hm : m.frame = handoff inbox) :
    FlowTriple g (.listener p) (fun s => Handling p b m s ∧ Stage g 0 p s)
      (engine.handleRotation () inbox) fun r s => FlowInv g s ∧ Handled g p b m r s := by
  have hhand : isHandoff m.frame := by rw [hm]; rfl
  have hchat : ¬ isChat m.frame := by rw [hm]; exact Bool.false_ne_true
  refine triple_effect (o := .ram .takeRotation)
    (e := fun r s => (∃ fA, r = some ⟨fA, .derived p g⟩ ∧ Rotating g p m inbox [fA] s) ∨
      (r = none ∧ Rotating g p m inbox [] s)) (kept_handling.and kept_stage) nofun ?_ fun r => ?_
  · rintro s c r s' hi ⟨hh, hs⟩ h
    cases h
    obtain ⟨rfl, hexp⟩ := hh.expected hi hchat
    rw [hm] at hexp
    have hne : s.minted .offerer ≠ [] := by
      cases p with
      | offerer => exact hexp.2 rfl
      | responder => exact List.ne_nil_of_mem hexp.1
    refine ⟨hi.effect_of_same (.of_modify rfl rfl rfl) (s.modify_party_peer p _), ?_⟩
    have hrot : ∀ minted, s.minted p = minted → Rotating g p m inbox minted
        (s.modify p fun x => { x with rotation := none }) := by
      rintro minted rfl
      refine ⟨hh.modify rfl rfl, hs.toRooted.modify rfl, ?_, ?_, ?_⟩
      · rw [St.minted, St.modify_party_self]
      · rw [St.minted, St.modify_party_peer]
        exact hexp.1
      · cases p with
        | offerer => rwa [St.minted, St.modify_party_self]
        | responder =>
          have := s.modify_party_peer .responder fun x => { x with rotation := none }
          rwa [St.minted, show Role.offerer = Role.responder.peer from rfl, this]
    rcases hs.place with ⟨-, hnone, hmint, -⟩ | ⟨-, -, -, fA, hsome, hmint⟩ | hmoved
    · exact .inr ⟨hnone, hrot [] hmint⟩
    · exact .inl ⟨fA, hsome, hrot [fA] hmint⟩
    · exact absurd hmoved (hi.not_moved hh.1.1)
  · rintro s ⟨hi, ⟨fA, rfl, hs⟩ | ⟨rfl, hs⟩⟩
    · exact triple_finishRotation hhand s ⟨hi, hs⟩
    · exact triple_answerRotation hhand s ⟨hi, hs⟩

/-- `handle_incoming`, on whatever the inbox holds. -/
theorem triple_handleIncoming (peerAddr : String) :
    FlowTriple g (.listener p) (fun s => Handling p b m s ∧ Stage g 0 p s)
      (engine.handleIncoming peerAddr m.wire) fun r s => FlowInv g s ∧ Handled g p b m r s := by
  have hkept : Kept g (.listener p) fun s => Handling p b m s ∧ Stage g 0 p s :=
    kept_handling.and kept_stage
  refine triple_bind (triple_sessions hkept (kept_decryptMessage peerAddr m.wire)) fun r => ?_
  rintro s ⟨⟨hi, hs⟩, rfl⟩
  change Safe _ _ (engine.dispatch m.frame) s
  cases hm : m.frame with
  | chat v text =>
    refine triple_calm (o := .store (.insertMessage .incoming (.chat v text) .received))
      (i := .listener p) (e := fun r s => (∃ row, r = .ok row) ∧ Stored s p m.frame) hkept nofun ?_
      (fun r => ?_) s ⟨hi, hs⟩
    · rintro s c r s' hi - - h
      cases h
      refine ⟨hi.calm_insertMessage p nofun, ⟨_, rfl⟩, ⟨s.nextRow, .incoming, .chat v text, .received⟩,
        ?_, rfl, hm.symm⟩
      have hrows := s.setRows_rows_self p
        (s.rows p ++ [⟨s.nextRow, .incoming, .chat v text, .received⟩]) (s.nextRow + 1)
      exact hrows ▸ List.mem_append_right _ (List.mem_singleton_self _)
    · rintro s ⟨hi, hs, ⟨row, rfl⟩, hst⟩
      have hkept' := hkept.and (kept_of_progress (g := g) (i := .listener p) fun _ _ hp h =>
        hp.stored p m.frame h)
      refine (triple_idle_eq (o := .notify (.message row)) (i := .listener p) (v := ()) trivial hkept'
        (fun _ => rfl) ?_) s ⟨hi, hs, hst⟩
      exact triple_return hkept' fun s hi hs => ⟨hi, hs.1.1, hs.1.2.of_zero, fun _ => hs.2⟩
  | mailboxUpdateV1 r inbox =>
    obtain ⟨-, hexp⟩ := hs.1.expected hi (by rw [hm]; exact Bool.false_ne_true)
    rw [hm] at hexp
    exact hexp.elim
  | mailboxUpdateV3 r inbox => exact triple_handleRotation hm s ⟨hi, hs⟩
  | recoveryHello r nonce =>
    obtain ⟨-, hexp⟩ := hs.1.expected hi (by rw [hm]; exact Bool.false_ne_true)
    rw [hm] at hexp
    exact triple_handleRecoveryHello hm hexp s ⟨hi, hs⟩
  | _ =>
    refine triple_return hkept (fun s hi hs => ⟨hi, handled_false hs.1 hs.2 ?_⟩) s ⟨hi, hs⟩
    rw [hm]
    exact Bool.false_ne_true

end Handlers

/-! ## The listener -/

section Listener

variable {g : ℕ} {p : Role} {b : MailboxId} {m : Queued} {s s' t : St}

theorem Progress.trans (h : Progress s t) (h' : Progress t s') : Progress s s' where
  reached q f hf hr := h'.reached q f hf (h.reached q f hf hr)
  stored q f hf := h'.stored q f (h.stored q f hf)
  minted q c hc := h'.minted q c (h.minted q c hc)
  nextRow_le := Nat.le_trans h.nextRow_le h'.nextRow_le
  rows q m hm := by
    rcases h'.rows q m hm with ⟨m', hm', hid, hfr⟩ | hnew
    · rcases h.rows q m' hm' with ⟨m₀, hm₀, hid₀, hfr₀⟩ | hnew
      · exact .inl ⟨m₀, hm₀, hid₀.trans hid, hfr₀.trans hfr⟩
      · exact .inr (hid ▸ hnew)
    · exact .inr (Nat.le_trans h.nextRow_le hnew)

/-- An effect followed by a change nothing in the flow depends on. -/
theorem Effect.then_same (h : Effect g p s t) (hsame : SameFlow t s')
    (hpeer : s'.party p.peer = t.party p.peer) : Effect g p s s' where
  inv := h.inv.of_same hsame
  progress := h.progress.trans hsame.progress
  spares :=
    { own_eq := by
        rw [hpeer]
        exact h.spares.own_eq
      grows := by simpa only [hsame.boxes] using h.spares.grows
      gone := by simpa only [hsame.boxes] using h.spares.gone }

/-- What the socket yields to a listener on a live inbox. -/
def Yielded (g : ℕ) (p : Role) (b : MailboxId) : Event carrier → St → Prop
  | .delivery id wire, s => Handling p b ⟨id, wire⟩ s ∧ Stage g 0 p s
  | .idle, s => Reading p b s ∧ Stage g 0 p s
  | .closed, _ => False

/-- A listener's place does not depend on its socket. -/
theorem Stage.setConn {n : ℕ} (hs : Stage g n p s) (conn : Option Conn) :
    Stage g n p (s.modify p fun x => { x with conn }) := by
  have hplace : SamePlace g p s (s.modify p fun x => { x with conn }) := by
    refine ⟨?_, ?_, ?_, fun _ => rfl⟩ <;> rw [St.modify_party_self]
  exact hs.rebase hplace (hs.toRooted.modify rfl)

theorem FlowInv.yielded (hi : FlowInv g s) (hr : Reading p b s) (hs : Stage g 0 p s) {c : Choice}
    {r : Event carrier} (h : perform p c s (.socket .next) = some (r, s')) :
    Effect g p s s' ∧ Yielded g p b r s' := by
  obtain ⟨hrecv, current, hconn⟩ := hr
  obtain ⟨b', hb', hlive, -⟩ := hi.recv_live p
  rw [hrecv, Option.some.injEq] at hb'
  subst hb'
  obtain ⟨l, hl⟩ := Option.isSome_iff_exists.mp hlive
  cases c with
  | deliver =>
    simp only [perform, performSocket, hconn, hl] at h
    cases l with
    | nil => cases h
    | cons m rest =>
      cases h
      refine ⟨hi.effect_of_same (.of_modify rfl rfl rfl) (s.modify_party_peer p _),
        ⟨⟨?_, some m.id, ?_⟩, rest, hl⟩, hs.setConn _⟩
      · rwa [St.recv, St.modify_party_self]
      · rw [St.modify_party_self]
  | idle =>
    simp only [perform, performSocket, hconn] at h
    cases h
    exact ⟨hi.effect_of_same (.refl s) rfl, ⟨hrecv, current, hconn⟩, hs⟩
  | closed =>
    simp only [perform, performSocket, hconn, hl] at h
    cases h

variable {rest : List Queued}

/-- Acking the head of a queue removes just that message. -/
theorem FlowInv.filter_head (hi : FlowInv g s) (h : s.boxes b = some (m :: rest)) :
    (m :: rest).filter (fun x => x.id ≠ m.id) = rest := by
  obtain ⟨hnd, -⟩ := hi.ids b _ h
  obtain ⟨hno, -⟩ := List.nodup_cons.mp (List.map_cons ▸ hnd)
  rw [List.filter_cons_of_neg (by simp), List.filter_eq_self]
  intro x hx
  refine decide_eq_true fun he => hno ?_
  exact he ▸ List.mem_map_of_mem hx

/-- Removing the head from the derived inbox removes the hellos it accounts for. -/
theorem hellos_setBox (h : s.boxes (.derived .offerer g) = some (m :: rest)) :
    hellos g s = hellos g (s.setBox (.derived .offerer g) (some rest)) + weight g m.frame := by
  rw [hellos, hellos, h, St.setBox_boxes_self, Option.getD_some, Option.getD_some, List.countP_cons,
    weight]

/-- A stage that allows for the handled message is a stage without it. -/
theorem Stage.setBox (hs : Stage g (weight g m.frame) p s)
    (hr : s.recv p = some b) (hrest : s.boxes b = some (m :: rest)) :
    Stage g 0 p (s.setBox b (some rest)) := by
  refine ⟨⟨hs.role, hs.root, hs.ownGen⟩, ?_⟩
  rcases hs.place with ⟨hrecv, hrot, hmint, hh⟩ | ⟨rfl, hrecv, hh, hrest'⟩ | h
  · refine .inl ⟨hrecv, hrot, hmint, ?_⟩
    rintro rfl
    rw [hrecv, Option.some.injEq] at hr
    subst hr
    have hle := hh rfl
    rw [hellos_setBox hrest] at hle
    exact Nat.le_trans (Nat.le_add_right _ _) hle
  · refine .inr (.inl ⟨rfl, hrecv, ?_, hrest'⟩)
    rw [hrecv, Option.some.injEq] at hr
    subst hr
    rw [hellos_setBox hrest] at hh
    omega
  · exact .inr (.inr h)

/-- The ack of a message that left the party where it is. -/
theorem FlowInv.acked (hi : FlowInv g s) (hs : Handled g p b m false s) {c : Choice} {r : Unit}
    (h : perform p c s (.socket (.ack m.id)) = some (r, s')) :
    Effect g p s s' ∧ Reading p b s' ∧ Stage g 0 p s' := by
  obtain ⟨⟨⟨hrecv, current, hconn⟩, rest, hrest⟩, hst, hstored⟩ := hs
  simp only [perform, performSocket, hconn, hrest, Option.map_some, hi.filter_head hrest] at h
  cases h
  have hemptied : Emptied g p s b (some rest) :=
    ⟨hrecv, hi.inbox_of_recv hrecv, m, hrest, hstored⟩
  refine ⟨(hi.effect_setBox hemptied).then_same (.of_modify rfl rfl rfl)
    ((s.setBox b (some rest)).modify_party_peer p _), ⟨?_, none, ?_⟩,
    (hst.setBox hrecv hrest).setConn _⟩
  · rwa [St.recv, St.modify_party_self]
  · rw [St.modify_party_self]

/-- The ack of the message that moved the party finds the old inbox gone. -/
theorem FlowInv.acked_moved (hi : FlowInv g s) (hs : Handled g p b m true s) {c : Choice} {r : Unit}
    {id : ℕ} (h : perform p c s (.socket (.ack id)) = some (r, s')) :
    Effect g p s s' ∧ Stage g 0 p s' := by
  obtain ⟨hst, hrecv, ⟨current, hconn⟩, hnone⟩ := hs
  simp only [perform, performSocket, hconn, hnone, Option.map_none] at h
  cases h
  have hemptied : Emptied g p s (.derived p g) none := ⟨rfl, hrecv⟩
  have hst' : Stage g 0 p (s.setBox (.derived p g) none) := by
    refine ⟨⟨hst.role, hst.root, hst.ownGen⟩, ?_⟩
    rcases hst.place with h | h | h
    · exact absurd h.1 hrecv
    · exact absurd h.2.1 hrecv
    · exact .inr (.inr h)
  exact ⟨(hi.effect_setBox hemptied).then_same (.of_modify rfl rfl rfl)
    ((s.setBox _ none).modify_party_peer p _), hst'.setConn _⟩

/-- The delivery loop, for any number of turns. -/
theorem triple_deliveryLoop (peerAddr : String) (fuel : ℕ) :
    FlowTriple g (.listener p) (fun s => Reading p b s ∧ Stage g 0 p s)
      (engine.deliveryLoop peerAddr fuel) fun _ s => FlowInv g s ∧ Stage g 0 p s := by
  have hkept : Kept g (.listener p) fun s => Reading p b s ∧ Stage g 0 p s :=
    kept_reading.and kept_stage
  induction fuel with
  | zero => exact triple_return hkept fun s hi hs => ⟨hi, hs.2⟩
  | succ fuel ih =>
    rw [Engine.deliveryLoop, Program.perform_bind]
    refine triple_effect (o := .socket .next) (e := Yielded g p b) hkept (fun s hs _ => hs.2)
      (fun s c r s' hi hs h => hi.yielded hs.1 hs.2 h) fun r => ?_
    cases r with
    | closed => exact fun s hs => hs.2.elim
    | idle => exact triple_bind (triple_flushPending hkept) fun _ => ih
    | delivery id wire =>
      refine triple_bind (triple_handleIncoming (m := ⟨id, wire⟩) peerAddr) fun changed => ?_
      cases changed with
      | true =>
        refine triple_effect (o := .socket (.ack id)) (e := fun _ s => Stage g 0 p s)
          (kept_handled true) nofun (fun s c r s' hi hs h => hi.acked_moved hs h) fun _ => ?_
        exact triple_return kept_stage fun s hi hs => ⟨hi, hs⟩
      | false =>
        exact triple_effect (o := .socket (.ack id))
          (e := fun _ s => Reading p b s ∧ Stage g 0 p s)
          (kept_handled false) nofun (fun s c r s' hi hs h => hi.acked hs h) fun _ => ih

/-- `conversation_listener`, for any number of turns. -/
theorem triple_conversationListener (fuel : ℕ) :
    FlowTriple g (.listener p) (Stage g 0 p) (engine.conversationListener fuel) fun _ _ => True := by
  induction fuel with
  | zero => exact triple_return kept_stage fun _ _ _ => trivial
  | succ fuel ih =>
    rw [Engine.conversationListener, Program.perform_bind]
    refine triple_idle (o := .store .getConversation) (i := .listener p)
      (e := fun r s => ∃ convo b, r = .ok (some convo) ∧ convo.mailboxRecv = some b ∧
        s.recv p = some b) trivial kept_stage ?_ fun r => ?_
    · rintro s c r s' hi - h
      cases h
      obtain ⟨b, hb, -⟩ := hi.recv_live p
      exact ⟨_, b, rfl, hb, hb⟩
    rintro s ⟨hi, hs, convo, b, rfl, hb, hrecv⟩
    simp only [hb]
    have hkept : Kept g (.listener p) fun s => Stage g 0 p s ∧ s.recv p = some b :=
      kept_stage.and (kept_of_sameOwn fun s s' h hs => by rwa [St.recv, h.convo])
    refine (triple_idle_eq (o := .notify (.state .connecting)) (i := .listener p) (v := ()) trivial hkept
      (fun _ => rfl) ?_) s ⟨hi, hs, hrecv⟩
    refine triple_effect (o := .socket (.subscribe b))
      (e := fun r s => r = .ok ∧ Reading p b s ∧ Stage g 0 p s) hkept (fun _ _ h => by cases h) ?_
      fun r => ?_
    · rintro s c r s' hi ⟨hs, hrecv⟩ h
      -- the inbox exists, so the subscription succeeds
      obtain ⟨b', hb', hlive, -⟩ := hi.recv_live p
      rw [hrecv, Option.some.injEq] at hb'
      subst hb'
      obtain ⟨l, hl⟩ := Option.isSome_iff_exists.mp hlive
      simp only [perform, performSocket, hl] at h
      cases h
      refine ⟨hi.effect_of_same (.of_modify rfl rfl rfl) (s.modify_party_peer p _), rfl,
        ⟨?_, none, ?_⟩, hs.setConn _⟩
      · rwa [St.recv, St.modify_party_self]
      · rw [St.modify_party_self]
    rintro s ⟨hi, rfl, hs⟩
    have hreading : Kept g (.listener p) fun s => Reading p b s ∧ Stage g 0 p s :=
      kept_reading.and kept_stage
    refine (triple_idle_eq (o := .notify (.state .online)) (i := .listener p) (v := ()) trivial hreading
      (fun _ => rfl) ?_) s ⟨hi, hs⟩
    rw [Program.andThen]
    refine triple_bind (triple_flushPending hreading) fun _ => ?_
    refine triple_bind (triple_deliveryLoop convo.peerAddress fuel) fun exit => ?_
    cases exit with
    | outOfFuel => exact triple_return kept_stage fun _ _ _ => trivial
    | changed => exact ih
    | closed =>
      refine triple_idle_eq (o := .notify (.state .offline)) (i := .listener p) (v := ()) trivial kept_stage
        (fun _ => rfl) ?_
      exact triple_idle_eq (o := .notify (.state .backoff)) (i := .listener p) (v := ()) trivial kept_stage
        (fun _ => rfl) ih

end Listener

end Titlan.World
