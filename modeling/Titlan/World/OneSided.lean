import Titlan.World.ChatKept

/-! # The loss of one party's inbox

Two paired parties are on inboxes the relay generated, and the relay's sweep removes one of them while the
other stays. The party that lost its inbox enters the next generation: it moves to its derived inbox, leaves
its hellos in derived inboxes of the peer, and routes there. The peer still reads its generated inbox, hears
nothing, and neither side ever reports: the two stay apart.

They stay together when the party that loses its inbox has its recovery exhausted. It then reports that the
conversation needs repair, and no row changes. -/

namespace Titlan.World

open Foundation

/-! ## Statement -/

section

variable [Sealing]

/-- A frame that may change routing or recovery state. -/
def isControl : Frame → Bool
  | .mailboxUpdateV1 _ _ | .mailboxUpdateV3 _ _ | .recoveryHello _ _ => true
  | _ => false

/-- Each party sends to where the other receives. -/
def Agree (s : St) : Prop := ∀ p : Role, s.send p = s.recv p.peer

/-- Some party has reported that the conversation needs repair. -/
def Reported (s : St) : Prop := ∃ p, (s.party p).needsRepair = true

/-- What both parties satisfy can be decided. -/
instance Role.decidableForall {P : Role → Prop} [DecidablePred P] : Decidable (∀ p, P p) :=
  decidable_of_iff (P .offerer ∧ P .responder)
    ⟨fun h p => by cases p; exacts [h.1, h.2], fun h => ⟨h _, h _⟩⟩

instance (s : St) : Decidable (Agree s) := inferInstanceAs (Decidable (∀ _, _))

instance (s : St) : Decidable (Reported s) :=
  decidable_of_iff (¬ ∀ p, (s.party p).needsRepair = false) (by simp [Reported])

/-- The mailbox a party is subscribed to. -/
def St.subscribed (s : St) (p : Role) : Option MailboxId :=
  match (s.party p).conn with
  | some (.live b _) => some b
  | _ => none

/-- No handler runs, and no control frame waits in a subscribed mailbox. -/
def Quiescent (w : Sys) : Prop :=
  ∀ p, (betweenDeliveries w p ∨ (w.todo (.listener p)).next? = none) ∧
    ∀ b ∈ w.shared.subscribed p, ∀ m ∈ (w.shared.boxes b).getD [], ¬ isControl m.frame

instance (w : Sys) : Decidable (Quiescent w) := inferInstanceAs (Decidable (∀ _, _ ∧ _))

/-- Both parties are paired, on the inboxes the relay generated as `inbox`; no control frame waits there;
the listeners are about to subscribe. -/
structure OnGenerated (inbox : Role → ℕ) (w : Sys) : Prop where
  routed : ∀ p, w.shared.recv p = some (.generated (inbox p)) ∧
    w.shared.send p = some (.generated (inbox p.peer))
  rooted : ∀ p, (w.shared.party p).recovery.role = some p.code ∧
    (w.shared.party p).recovery.root = some ()
  generated : ∀ p, inbox p < w.shared.nextBox ∧ inbox p ≠ inbox p.peer
  live : ∀ p, (w.shared.boxes (.generated (inbox p))).isSome
  frames : ∀ p, ∀ m ∈ (w.shared.boxes (.generated (inbox p))).getD [], ¬ isControl m.frame
  rows : ∀ p, ∀ m ∈ w.shared.rows p, isChat m.frame
  offline : ∀ p, (w.shared.party p).conn = none
  listeners : ∀ p, ∃ fuel, w.todo (.listener p) = engine.conversationListener fuel
  senders : ∀ p n, w.todo (.sender p n) = .ret ()

/-- Nothing but the sweep of one mailbox disturbs the run. -/
def Label.sweepsOnly (b : MailboxId) : Label → Prop
  | .act _ _ | .sendChat _ _ => True
  | .sweep c _ => c = b
  | _ => False

/-- What `recover_v2` asks before it enters a generation: the probe cycles are used up, or the two
generations are too far apart. -/
def Party.recoveryExhausted (x : Party) : Bool :=
  (x.exhaustion.getD .new).isExhausted ||
    GenerationState.isExhausted ⟨x.recovery.ownGen, x.recovery.peerGen⟩

/-- When the sweep removes the party's inbox, its recovery is exhausted. -/
def SweptExhausted (p : Role) (w : Sys) : Label → Prop
  | .sweep _ _ => (w.shared.party p).recoveryExhausted
  | _ => True

instance (p : Role) (w : Sys) : (l : Label) → Decidable (SweptExhausted p w l)
  | .sweep _ _ => inferInstanceAs (Decidable (_ = true))
  | .act _ _ | .sendChat _ _ | .relayRestart _ | .clientRestart _ _ => .isTrue trivial

/-! ## What stays as it is -/

/-- What no step of such a run changes. -/
structure Fixed where
  inbox : Role → ℕ
  gens : Role → GenerationState
  cycles : Role → ExhaustionTracker

/-- Recovery is exhausted. -/
def Fixed.Spent (F : Fixed) (p : Role) : Prop := (F.cycles p).isExhausted || (F.gens p).isExhausted

/-- A party of such a run. -/
structure Settled (F : Fixed) (p : Role) (x : Party) : Prop where
  recv : x.convo.mailboxRecv = some (.generated (F.inbox p))
  send : x.convo.mailboxSend = some (.generated (F.inbox p.peer))
  recovery : x.recovery = ⟨some p.code, some (), (F.gens p).own, (F.gens p).peer⟩
  cycles : x.exhaustion.getD .new = F.cycles p
  rows : ∀ m ∈ x.messages, isChat m.frame
  live : ∀ b current, x.conn = some (.live b current) → b = .generated (F.inbox p)
  dead : ∀ buffered, x.conn = some (.dead buffered) → ∀ m ∈ buffered, ¬ isControl m.frame

/-- The invariant: both parties are settled, their inboxes hold no control frame, and only `p` may have
lost its own, with its recovery exhausted. -/
structure Standing (F : Fixed) (p : Role) (s : St) : Prop where
  parties : ∀ q, Settled F q (s.party q)
  frames : ∀ q queue, s.boxes (.generated (F.inbox q)) = some queue → ∀ m ∈ queue, ¬ isControl m.frame
  kept : (s.boxes (.generated (F.inbox p.peer))).isSome
  swept : s.boxes (.generated (F.inbox p)) = none → F.Spent p

section Steps

variable {F : Fixed} {p q : Role} {s s' : St} {c : Choice}

theorem Standing.agree (h : Standing F p s) : Agree s := by
  intro q
  show (s.party q).convo.mailboxSend = (s.party q.peer).convo.mailboxRecv
  rw [(h.parties q).send, (h.parties q.peer).recv]

/-- A party's own change. -/
theorem Standing.modify (h : Standing F p s) {f : Party → Party} (hf : Settled F q (f (s.party q))) :
    Standing F p (s.modify q f) := by
  refine ⟨fun r => ?_, h.frames, h.kept, h.swept⟩
  by_cases hr : r = q
  · subst hr
    rw [St.modify_party_self]
    exact hf
  · rw [St.modify_party_of_ne s f hr]
    exact h.parties r

/-- Counters are no part of the invariant. -/
theorem Standing.of_eq (h : Standing F p s) (hboxes : s'.boxes = s.boxes) (hparty : s'.party = s.party) :
    Standing F p s' := by
  refine ⟨fun q => ?_, fun q queue hqueue => ?_, ?_, fun hnone => ?_⟩
  · rw [hparty]
    exact h.parties q
  · rw [hboxes] at hqueue
    exact h.frames q queue hqueue
  · rw [hboxes]
    exact h.kept
  · rw [hboxes] at hnone
    exact h.swept hnone

/-- A mailbox's queue changes, without control frames coming in. -/
theorem Standing.setBox (h : Standing F p s) {b : MailboxId} {queue queue' : List Queued}
    (hqueue : s.boxes b = some queue)
    (hnew : ∀ m ∈ queue', m ∈ queue ∨ ¬ isControl m.frame) : Standing F p (s.setBox b (some queue')) := by
  refine ⟨h.parties, fun q l hl m hm => ?_, ?_, fun hnone => ?_⟩
  · by_cases hb : MailboxId.generated (F.inbox q) = b
    · subst hb
      rw [St.setBox_boxes_self] at hl
      cases hl
      rcases hnew m hm with hold | hcontrol
      · exact h.frames q queue hqueue m hold
      · exact hcontrol
    · rw [St.setBox_boxes_of_ne s _ hb] at hl
      exact h.frames q l hl m hm
  · by_cases hb : MailboxId.generated (F.inbox p.peer) = b
    · subst hb
      rw [St.setBox_boxes_self]
      rfl
    · rw [St.setBox_boxes_of_ne s _ hb]
      exact h.kept
  · by_cases hb : MailboxId.generated (F.inbox p) = b
    · subst hb
      rw [St.setBox_boxes_self] at hnone
      cases hnone
    · rw [St.setBox_boxes_of_ne s _ hb] at hnone
      exact h.swept hnone

end Steps

/-! ## Programs -/

section Programs

variable {F : Fixed} {p q : Role} {α : Type}

/-- Every thread of a party keeps the invariant. -/
abbrev standingSetting (F : Fixed) (p q : Role) : Setting (engineSig carrier) St :=
  .keeping (fun o s r s' => ∃ c, perform q c s o = some (r, s')) (Standing F p)

/-- A program of a thread of `q`, started where the invariant holds. -/
abbrev StandingTriple (F : Fixed) (p q : Role) (pr : EngineM carrier α) (post : α → St → Prop) : Prop :=
  Triple (standingSetting F p q) (Standing F p) pr post

/-- An operation that changes nothing the invariant is about. -/
theorem triple_passive {o : Op carrier} {k : o.Answer → EngineM carrier α} {post : α → St → Prop}
    (hstep : ∀ c s r s', Standing F p s → perform q c s o = some (r, s') → Standing F p s')
    (hk : ∀ r, StandingTriple F p q (k r) post) : StandingTriple F p q (o.program >>= k) post :=
  triple_keeping (φ := fun _ => True) (fun s r s' hs ⟨c, hc⟩ => ⟨hstep c s r s' hs hc, trivial⟩)
    fun r _ => hk r

variable {s s' : St} {c : Choice}

theorem Standing.notify (hs : Standing F p s) {n : Notice carrier} {r : Unit}
    (hc : perform q c s (.notify n) = some (r, s')) : Standing F p s' := by
  cases n with
  | needsRepair =>
    cases hc
    have hq := hs.parties q
    exact hs.modify { hq with }
  | _ =>
    cases hc
    exact hs

theorem triple_standing_notify {n : Notice carrier} {k : Unit → EngineM carrier α}
    {post : α → St → Prop} (hk : StandingTriple F p q (k ()) post) :
    StandingTriple F p q (notify n >>= k) post :=
  triple_passive (fun _ _ _ _ hs hc => hs.notify hc) fun _ => hk

theorem triple_standing_done {x : α} :
    StandingTriple F p q (.ret x) fun _ s => Standing F p s ∧ True :=
  triple_keeping_ret trivial

variable {o : Op carrier} {r : o.Answer}

theorem Standing.sessions (hs : Standing F p s) (hc : perform q c s o = some (r, s'))
    (ho : sessions.performs o) : Standing F p s' := by
  cases o with
  | store o =>
    cases o with
    | loadSession _ _ =>
      cases hc
      exact hs
    | storeSession _ _ _ =>
      cases hc
      have hq := hs.parties q
      exact hs.modify { hq with }
    | _ => exact ho.elim
  | _ => exact ho.elim

omit [Sealing] in
theorem not_isControl_of_isChat {f : Frame} (h : isChat f) : ¬ isControl f := by
  cases f <;> simp_all [isChat, isControl]

/-- Depositing a chat. -/
theorem Standing.deposit (hs : Standing F p s) {b : MailboxId} {wire : Sealing.Wire}
    {r : Result DepositOutcome} (hf : isChat (content wire))
    (hc : perform q c s (.relay (.deposit () b wire)) = some (r, s')) : Standing F p s' := by
  simp only [perform, performRelay] at hc
  split at hc
  · cases hc
    exact hs
  · rename_i queue hqueue
    cases hc
    refine Standing.of_eq (s := s.setBox b (some (queue ++ [⟨s.nextMsg, wire⟩])))
      (hs.setBox hqueue fun m hm => ?_) rfl rfl
    rcases List.mem_append.mp hm with hm | hm
    · exact .inl hm
    · rw [List.mem_singleton] at hm
      subst hm
      right
      exact not_isControl_of_isChat hf

theorem Standing.markMessageSent (hs : Standing F p s) {id : ℕ}
    {r : Result Unit} (hc : perform q c s (.store (.markMessageSent id)) = some (r, s')) :
    Standing F p s' := by
  cases hc
  have hq := hs.parties q
  refine hs.modify ⟨hq.recv, hq.send, hq.recovery, hq.cycles, fun m hm => ?_, hq.live, hq.dead⟩
  obtain ⟨m', hm', rfl⟩ := List.mem_map.mp hm
  have hchat := hq.rows m' hm'
  split <;> exact hchat

theorem Standing.insertMessage (hs : Standing F p s) {direction : Direction}
    {f : Frame} {status : Status} {r : Result (StoredMessage carrier)} (hf : isChat f)
    (hc : perform q c s (.store (.insertMessage direction f status)) = some (r, s')) :
    Standing F p s' := by
  cases hc
  have hq := hs.parties q
  refine Standing.of_eq (hs.modify (q := q) (f := fun x => { x with
    messages := x.messages ++ [⟨s.nextRow, direction, f, status⟩] })
    ⟨hq.recv, hq.send, hq.recovery, hq.cycles, fun m hm => ?_, hq.live, hq.dead⟩) rfl rfl
  rcases List.mem_append.mp hm with hm | hm
  · exact hq.rows m hm
  · rw [List.mem_singleton] at hm
    subst hm
    exact hf

/-- Pending rows are chats. -/
theorem Standing.pendingChat (hs : Standing F p s) {r : Result (List (ℕ × Frame))}
    (h : ∃ c, perform q c s (.store .pendingChat) = some (r, s')) :
    Standing F p s' ∧ ∀ pending, r = .ok pending → ∀ row ∈ pending, isChat row.2 := by
  obtain ⟨c, hc⟩ := h
  cases hc
  refine ⟨hs, fun pending hp row hrow => ?_⟩
  cases hp
  obtain ⟨m, hm, rfl⟩ := List.mem_map.mp hrow
  exact (hs.parties q).rows m (List.mem_filter.mp hm).1

theorem Standing.lock (hs : Standing F p s) (locked : Bool) :
    Standing F p (s.modify q fun x => { x with flushLocked := locked }) := by
  have hq := hs.parties q
  exact hs.modify { hq with }

/-- What a flush of chats performs. -/
theorem Standing.flushing (hs : Standing F p s) (ho : (engine.flushing fun f => isChat f).performs o)
    (hc : perform q c s o = some (r, s')) :
    Standing F p s' ∧ (engine.flushing fun f => isChat f).answers o r := by
  cases o with
  | store o =>
    cases o with
    | loadSession _ _ | storeSession _ _ _ => exact ⟨hs.sessions hc trivial, trivial⟩
    | getConversation =>
      cases hc
      exact ⟨hs, trivial⟩
    | pendingChat => exact hs.pendingChat ⟨c, hc⟩
    | markMessageSent id => exact ⟨hs.markMessageSent hc, trivial⟩
    | _ => exact ho.elim
  | ram o =>
    cases o with
    | lockFlush =>
      simp only [perform, performRam] at hc
      split at hc
      · cases hc
      · cases hc
        exact ⟨hs.lock true, trivial⟩
    | unlockFlush =>
      cases hc
      exact ⟨hs.lock false, trivial⟩
    | _ => exact ho.elim
  | relay o =>
    cases o with
    | deposit _ b wire =>
      obtain ⟨f, _, _, hseal, hf⟩ := ho
      obtain rfl := Sealing.sealed hseal
      exact ⟨hs.deposit hf hc, trivial⟩
    | _ => exact ho.elim
  | notify n => exact ⟨hs.notify hc, trivial⟩
  | socket o => exact ho.elim

/-- Sealing and opening keep the invariant. -/
theorem triple_standing_sessions {pr : EngineM carrier α} {post : α → Prop} (h : sessions.Kept post pr) :
    StandingTriple F p q pr fun r s => Standing F p s ∧ post r := by
  refine h.triple stable_keeping (fun _ _ _ _ => trivial) ?_
  rintro o s r s' ho hs ⟨c, hc⟩
  exact ⟨fun _ => hs.sessions hc ho, hs.sessions hc ho, answers_sessions ho hc⟩

/-- So does a flush. -/
theorem triple_standing_flush :
    StandingTriple F p q engine.flushPending fun _ s => Standing F p s ∧ True := by
  refine (Engine.kept_flushPending fun f => isChat f).triple stable_keeping (fun _ _ _ _ => trivial) ?_
  rintro o s r s' ho hs ⟨c, hc⟩
  exact ⟨fun _ => (hs.flushing ho hc).1, hs.flushing ho hc⟩

variable (peer : String)

/-! ## Receiving and recovering -/

/-- What the socket yields is no control frame. -/
theorem Standing.next (hs : Standing F p s) {event : Event carrier}
    (h : ∃ c, perform q c s (.socket .next) = some (event, s')) :
    Standing F p s' ∧ ∀ msgId wire, event = .delivery msgId wire → ¬ isControl (content wire) := by
  obtain ⟨c, hc⟩ := h
  have hq := hs.parties q
  simp only [perform, performSocket] at hc
  split at hc
  · rename_i box current hconn
    split at hc
    · rename_i m rest hbox
      cases hc
      have hinbox := hq.live box _ hconn
      subst hinbox
      refine ⟨hs.modify ⟨hq.recv, hq.send, hq.recovery, hq.cycles, hq.rows, fun b _ h => ?_,
        fun _ h => by cases h⟩, fun msgId f h => ?_⟩
      · cases h
        rfl
      · cases h
        exact hs.frames q _ hbox m List.mem_cons_self
    · cases hc
  · cases hc
    exact ⟨hs, fun _ _ h => by cases h⟩
  · split at hc
    · cases hc
      exact ⟨hs.modify ⟨hq.recv, hq.send, hq.recovery, hq.cycles, hq.rows, (fun _ _ h => by cases h),
        fun _ h => by cases h⟩, fun _ _ h => by cases h⟩
    · cases hc
  · rename_i m buffered hconn
    cases hc
    refine ⟨hs.modify ⟨hq.recv, hq.send, hq.recovery, hq.cycles, hq.rows, (fun _ _ h => by cases h),
      fun l h m' hm' => ?_⟩, fun msgId f h => ?_⟩
    · cases h
      exact hq.dead _ hconn m' (List.mem_cons_of_mem _ hm')
    · cases h
      exact hq.dead _ hconn m List.mem_cons_self
  · cases hc
    exact ⟨hs.modify ⟨hq.recv, hq.send, hq.recovery, hq.cycles, hq.rows, (fun _ _ h => by cases h),
      fun _ h => by cases h⟩, fun _ _ h => by cases h⟩
  · cases hc

theorem Standing.ack (hs : Standing F p s) {msgId : ℕ} {r : Unit}
    (hc : perform q c s (.socket (.ack msgId)) = some (r, s')) : Standing F p s' := by
  have hq := hs.parties q
  simp only [perform, performSocket] at hc
  split at hc
  · rename_i box current hconn
    cases hc
    have hsettled : Settled F q { s.party q with conn := some (.live box none) } := by
      refine ⟨hq.recv, hq.send, hq.recovery, hq.cycles, hq.rows, fun b _ h => ?_, fun _ h => by cases h⟩
      cases h
      exact hq.live box _ hconn
    cases hbox : s.boxes box with
    | none =>
      have hsame : s.setBox box none = s := by
        unfold St.setBox
        rw [← hbox, Function.update_eq_self]
      rw [Option.map_none, hsame]
      exact hs.modify hsettled
    | some queue =>
      rw [Option.map_some]
      exact (hs.setBox hbox fun m hm => .inl (List.mem_filter.mp hm).1).modify hsettled
  · cases hc
    exact hs

theorem triple_standing_handleIncoming {wire : Sealing.Wire} (hf : ¬ isControl (content wire)) :
    StandingTriple F p q (engine.handleIncoming peer wire) fun _ s => Standing F p s ∧ True := by
  refine triple_keeping_bind (triple_standing_sessions (kept_decryptMessage peer wire)) fun r hr => ?_
  subst hr
  generalize content wire = f at hf
  cases f with
  | chat typeVersion text =>
    refine triple_passive (fun c s r s' hs hc => hs.insertMessage rfl hc) fun row => ?_
    rcases row with e | row
    · exact triple_standing_done
    · exact triple_standing_notify triple_standing_done
  | mailboxUpdateV2 _ _ _ => exact triple_standing_done
  | discarded => exact triple_standing_done
  | mailboxUpdateV1 _ _ => exact absurd rfl hf
  | mailboxUpdateV3 _ _ => exact absurd rfl hf
  | recoveryHello _ _ => exact absurd rfl hf

theorem triple_standing_deliveryLoop (fuel : ℕ) :
    StandingTriple F p q (engine.deliveryLoop peer fuel) fun _ s => Standing F p s ∧ True := by
  induction fuel with
  | zero => exact triple_standing_done
  | succ fuel ih =>
    refine triple_keeping (fun s r s' hs hexec => hs.next hexec) fun event hevent => ?_
    cases event with
    | closed => exact triple_standing_done
    | idle => exact triple_keeping_bind triple_standing_flush fun _ _ => ih
    | delivery msgId wire =>
      refine triple_keeping_bind (triple_standing_handleIncoming peer (hevent msgId wire rfl))
        fun changed _ => triple_passive (fun c s r s' hs hc => hs.ack hc) fun _ => ?_
      cases changed with
      | true => exact triple_standing_done
      | false => exact ih

/-- **Recovery of a party whose recovery is exhausted** ends in the report. -/
theorem triple_standing_recover (hspent : F.Spent q) :
    StandingTriple F p q engine.recover fun r s => Standing F p s ∧ r = .needsRepair := by
  have hconvo : ∀ s (r : Result (Option (Conversation carrier))) s', Standing F p s →
      (∃ c, perform q c s (.store .getConversation) = some (r, s')) →
      Standing F p s' ∧ ∃ convo, r = .ok (some convo) := by
    rintro s r s' hs ⟨c, hc⟩
    cases hc
    exact ⟨hs, _, rfl⟩
  have hrecovery : ∀ s (r : Result (Option (RecoveryRecord carrier))) s', Standing F p s →
      (∃ c, perform q c s (.store .recoveryState) = some (r, s')) →
      Standing F p s' ∧ r = .ok (some ⟨some q.code, some (), (F.gens q).own, (F.gens q).peer⟩) := by
    rintro s r s' hs ⟨c, hc⟩
    cases hc
    exact ⟨hs, by rw [(hs.parties q).recovery]⟩
  have hcycles : ∀ s (r : Bool) s', Standing F p s →
      (∃ c, perform q c s (.ram .cyclesExhausted) = some (r, s')) →
      Standing F p s' ∧ r = (F.cycles q).isExhausted := by
    rintro s r s' hs ⟨c, hc⟩
    cases hc
    have hq := hs.parties q
    exact ⟨hs.modify { hq with },
      by rw [hq.cycles]⟩
  refine triple_keeping hconvo fun r hr => ?_
  obtain ⟨convo, rfl⟩ := hr
  refine triple_keeping hrecovery fun r hr => ?_
  subst hr
  refine triple_keeping hcycles fun r hr => ?_
  subst hr
  have hexhausted : ((F.cycles q).isExhausted ||
      GenerationState.isExhausted ⟨(F.gens q).own, (F.gens q).peer⟩) = true := hspent
  dsimp only
  rw [if_pos hexhausted]
  exact triple_keeping_ret rfl

/-- The mailbox a party subscribes to is gone only if its recovery is exhausted. -/
theorem Standing.subscribe (hs : Standing F p s) {r : Connected}
    (h : ∃ c, perform q c s (.socket (.subscribe (.generated (F.inbox q)))) = some (r, s')) :
    Standing F p s' ∧ (r = .notFound → F.Spent q) := by
  obtain ⟨c, hc⟩ := h
  have hq := hs.parties q
  simp only [perform, performSocket] at hc
  split at hc
  · rename_i hbox
    cases hc
    refine ⟨hs.modify ⟨hq.recv, hq.send, hq.recovery, hq.cycles, hq.rows, (fun _ _ h => by cases h),
      fun _ h => by cases h⟩, fun _ => ?_⟩
    rcases Role.eq_or_eq_peer q p with rfl | rfl
    · exact hs.swept hbox
    · have hkept := hs.kept
      rw [hbox] at hkept
      cases hkept
  · cases hc
    refine ⟨hs.modify ⟨hq.recv, hq.send, hq.recovery, hq.cycles, hq.rows, fun b _ h => ?_,
      fun _ h => by cases h⟩, fun h => by cases h⟩
    cases h
    rfl

/-- **A listener** keeps the invariant. -/
theorem triple_standing_listener (fuel : ℕ) :
    StandingTriple F p q (engine.conversationListener fuel) fun _ s => Standing F p s ∧ True := by
  have hconvo : ∀ s (r : Result (Option (Conversation carrier))) s', Standing F p s →
      (∃ c, perform q c s (.store .getConversation) = some (r, s')) →
      Standing F p s' ∧ ∃ convo, r = .ok (some convo) ∧
        convo.mailboxRecv = some (.generated (F.inbox q)) := by
    rintro s r s' hs ⟨c, hc⟩
    cases hc
    exact ⟨hs, _, rfl, (hs.parties q).recv⟩
  induction fuel with
  | zero => exact triple_standing_done
  | succ fuel ih =>
    have hpause : StandingTriple F p q (do
        notify (.state .offline)
        notify (.state .backoff)
        engine.conversationListener fuel) fun _ s => Standing F p s ∧ True :=
      triple_standing_notify (triple_standing_notify ih)
    refine triple_keeping hconvo fun r hr => ?_
    obtain ⟨⟨peer, relayUrl, send, recv⟩, rfl, hrecv⟩ := hr
    subst hrecv
    refine triple_standing_notify ?_
    refine triple_keeping (fun s r s' hs hexec => hs.subscribe hexec) fun connected hconnected => ?_
    cases connected with
    | ok =>
      refine triple_standing_notify (triple_keeping_bind triple_standing_flush fun _ _ =>
        triple_keeping_bind (triple_standing_deliveryLoop _ _) fun exit _ => ?_)
      cases exit with
      | changed => exact ih
      | closed => exact hpause
      | outOfFuel => exact triple_standing_done
    | notFound =>
      refine triple_keeping_bind (triple_standing_recover (hconnected rfl)) fun outcome houtcome => ?_
      subst houtcome
      exact triple_standing_notify (triple_standing_notify (k := .ret) triple_standing_done)
    | unreachable => exact hpause

theorem triple_standing_sendChatThread (text : ℕ) :
    StandingTriple F p q (sendChatThread text) fun _ s => Standing F p s ∧ True := by
  refine triple_keeping_bind (φ := fun _ => True) ?_ fun _ _ => triple_standing_done
  refine triple_passive (fun c s r s' hs hc => hs.insertMessage rfl hc) fun row => ?_
  rcases row with e | row
  · exact triple_standing_done
  · exact triple_keeping_bind triple_standing_flush fun _ _ => triple_standing_done

end Programs

/-! ## Every run -/

section Runs

variable {F : Fixed} {inbox : Role → ℕ} {p : Role} {w w' : Sys}

/-- What stays as it is from a state on. -/
def fixedOf (inbox : Role → ℕ) (s : St) : Fixed where
  inbox := inbox
  gens q := ⟨(s.party q).recovery.ownGen, (s.party q).recovery.peerGen⟩
  cycles q := (s.party q).exhaustion.getD .new

/-- The invariant of a run. -/
def StandingSys (F : Fixed) (p : Role) (w : Sys) : Prop :=
  Standing F p w.shared ∧
    Threads.AllSafe (fun i => standingSetting F p i.party) (fun _ s => Standing F p s ∧ True) w

theorem OnGenerated.standing (h : OnGenerated inbox w) :
    Standing (fixedOf inbox w.shared) p w.shared where
  parties q := by
    obtain ⟨hrecv, hsend⟩ := h.routed q
    obtain ⟨hrole, hroot⟩ := h.rooted q
    refine ⟨hrecv, hsend, ?_, rfl, h.rows q, fun b current hconn => ?_, fun l hconn => ?_⟩
    · cases hrecovery : (w.shared.party q).recovery with
      | mk role root ownGen peerGen =>
        rw [hrecovery] at hrole hroot
        cases hrole
        cases hroot
        simp only [fixedOf, hrecovery]
    · rw [h.offline q] at hconn
      cases hconn
    · rw [h.offline q] at hconn
      cases hconn
  frames q queue hqueue m hm := by
    refine h.frames q m ?_
    show m ∈ (w.shared.boxes (.generated (inbox q))).getD []
    have hqueue' : w.shared.boxes (.generated (inbox q)) = some queue := hqueue
    rw [hqueue']
    exact hm
  kept := h.live p.peer
  swept hnone := by
    have hlive := h.live p
    have hnone' : w.shared.boxes (.generated (inbox p)) = none := hnone
    rw [hnone'] at hlive
    cases hlive

theorem OnGenerated.standingSys (h : OnGenerated inbox w) :
    StandingSys (fixedOf inbox w.shared) p w := by
  refine ⟨h.standing, fun i => ?_⟩
  cases i with
  | listener q =>
    obtain ⟨fuel, hfuel⟩ := h.listeners q
    rw [hfuel]
    exact triple_standing_listener fuel _ h.standing
  | sender q n =>
    rw [h.senders q n]
    exact triple_standing_done _ h.standing

/-- The sweep of the party's inbox, when its recovery is exhausted. -/
theorem Standing.sweep {s : St} (h : Standing F p s) (hdistinct : F.inbox p ≠ F.inbox p.peer)
    (hspent : F.Spent p) (pushed : Role → ℕ) :
    Standing F p (s.lose (fun c => c = .generated (F.inbox p)) pushed) := by
  refine ⟨fun q => ?_, fun q queue hqueue => ?_, ?_, fun _ => hspent⟩
  · have hq := h.parties q
    refine ⟨hq.recv, hq.send, hq.recovery, hq.cycles, hq.rows, fun b current hconn => ?_,
      fun l hconn => ?_⟩
    · -- a socket that is still live was live before
      obtain ⟨conn, hold, hcut⟩ := Option.map_eq_some_iff.mp hconn
      cases conn with
      | dead l => cases hcut
      | live b' current' =>
        simp only [St.cut] at hcut
        split at hcut
        · cases hcut
        · cases hcut
          exact hq.live b current hold
    · obtain ⟨conn, hold, hcut⟩ := Option.map_eq_some_iff.mp hconn
      cases conn with
      | dead l' =>
        cases hcut
        exact hq.dead l hold
      | live b current =>
        simp only [St.cut] at hcut
        split at hcut
        · cases hcut
          intro m hm
          have hinbox := hq.live b current hold
          subst hinbox
          have hmem := (List.mem_filter.mp (List.mem_of_mem_take hm)).1
          cases hbox : s.boxes (.generated (F.inbox q)) with
          | none =>
            rw [hbox] at hmem
            exact absurd hmem List.not_mem_nil
          | some queue =>
            rw [hbox] at hmem
            exact h.frames q queue hbox m hmem
        · cases hcut
  · simp only [St.lose] at hqueue
    split at hqueue
    · cases hqueue
    · exact h.frames q queue hqueue
  · simp only [St.lose]
    rw [if_neg]
    · exact h.kept
    · simp only [decide_eq_true_eq, MailboxId.generated.injEq]
      exact Ne.symm hdistinct

/-- One step keeps the invariant. -/
theorem StandingSys.step {l : Label} (h : StandingSys F p w) (hdistinct : F.inbox p ≠ F.inbox p.peer)
    (hl : l.sweepsOnly (.generated (F.inbox p))) (hswept : SweptExhausted p w l)
    (hstep : step w l = some w') : StandingSys F p w' := by
  obtain ⟨hs, hsafe⟩ := h
  have hmove : ∀ s', Standing F p s' → Threads.AllSafe (fun i => standingSetting F p i.party)
      (fun _ s => Standing F p s ∧ True) (w.move s') :=
    fun s' hs' => hsafe.move fun _ _ => hs'
  cases l with
  | act i c =>
    obtain ⟨o, k, r, s', htodo, hperform, rfl⟩ := step_act hstep
    have hexec : (standingSetting F p i.party).exec o w.shared r s' := ⟨c, hperform⟩
    have hsafe_i := hsafe i
    rw [htodo] at hsafe_i
    refine ⟨(hsafe_i.step hexec).1 hs, ?_⟩
    exact hsafe.step (fun j _ _ _ hg => hg) htodo hexec
  | sendChat q n =>
    obtain rfl := step_sendChat hstep
    have hs' : Standing F p { w.shared with nextText := w.shared.nextText + 1 } := hs.of_eq rfl rfl
    exact ⟨hs', (hmove _ hs').start (triple_standing_sendChatThread _ _ hs')⟩
  | sweep b pushed =>
    cases hl
    cases hstep
    have hparty := hs.parties p
    have hspent : F.Spent p := by
      have hexhausted : (w.shared.party p).recoveryExhausted = true := hswept
      rw [Party.recoveryExhausted, hparty.recovery, hparty.cycles] at hexhausted
      exact hexhausted
    have hs' := hs.sweep hdistinct hspent pushed
    exact ⟨hs', hmove _ hs'⟩
  | relayRestart _ => cases hl
  | clientRestart _ _ => cases hl

end Runs

/-- **One-sided loss of an exhausted party.** In every run in which the relay's sweep removes `p`'s inbox
and nothing else is disturbed, and in which `p`'s recovery is exhausted when it does, routing agrees or a
party has reported. -/
theorem one_sided_loss {inbox : Role → ℕ} {p : Role} {w w' : Sys} {ls : List Label}
    (hstart : OnGenerated inbox w) (hls : ∀ l ∈ ls, l.sweepsOnly (.generated (inbox p)))
    (hswept : Along step (SweptExhausted p) w ls) (hrun : run step w ls = some w') :
    Quiescent w' → Agree w'.shared ∨ Reported w'.shared := by
  have hstanding : StandingSys (fixedOf inbox w.shared) p w' :=
    run_invariant (fun _ _ _ h hok hstep => h.step (hstart.generated p).2 hok.1 hok.2 hstep)
      hstart.standingSys (hswept.and_of_forall hls) hrun
  exact fun _ => .inl hstanding.1.agree

end

/-! ### A party that recovers, and one that reports -/

/-- A paired party on a generated inbox, with its probe cycles so far. -/
def generatedParty (inbox : Role → ℕ) (cycles : ℕ) (p : Role) : Party where
  convo := ⟨"peer", (), some (.generated (inbox p.peer)), some (.generated (inbox p))⟩
  recovery := ⟨some p.code, some (), 0, 0⟩
  messages := []
  session := ()
  rotation := none
  helloSeen := []
  exhaustion := some ⟨cycles⟩
  flushLocked := false
  conn := none
  needsRepair := false
  minted := []

/-- The inboxes of the pair below. -/
def pairInbox : Role → ℕ
  | .offerer => 0
  | .responder => 1

/-- Two paired parties. -/
def generatedPair (cycles : ℕ) : Sys where
  shared :=
    { boxes := fun b => if b = .generated 0 ∨ b = .generated 1 then some [] else none
      nextBox := 2
      nextMsg := 0
      log := []
      nextNonce := 0
      nextRow := 0
      nextText := 0
      party := generatedParty pairInbox cycles }
  todo
    | .listener _ => engine.conversationListener 6
    | .sender _ _ => .ret ()

theorem generatedPair_onGenerated (cycles : ℕ) : OnGenerated pairInbox (generatedPair cycles) where
  routed p := ⟨rfl, rfl⟩
  rooted p := ⟨rfl, rfl⟩
  generated p := by
    cases p
    · exact ⟨Nat.zero_lt_two, Nat.zero_ne_one⟩
    · exact ⟨Nat.one_lt_two, Nat.one_ne_zero⟩
  live p := by cases p <;> rfl
  frames p := by cases p <;> exact fun m hm => absurd hm List.not_mem_nil
  rows p m hm := absurd hm List.not_mem_nil
  offline p := rfl
  listeners p := ⟨6, rfl⟩
  senders p n := rfl

/-- Both parties subscribe, the sweep removes the offerer's inbox, and the offerer's listener goes on for
`n` operations. -/
def offererSwept (n : ℕ) : List Label :=
  acts (.listener .offerer) 8 ++ acts (.listener .responder) 8 ++
    [.sweep (.generated 0) fun _ => 0, .act (.listener .offerer) .closed] ++ acts (.listener .offerer) n

theorem offererSwept_sweepsOnly (n : ℕ) : ∀ l ∈ offererSwept n, l.sweepsOnly (.generated 0) := by
  intro l hl
  simp only [offererSwept, acts, List.mem_append, List.mem_replicate, List.mem_cons,
    List.not_mem_nil, or_false] at hl
  rcases hl with ((⟨-, rfl⟩ | ⟨-, rfl⟩) | (rfl | rfl)) | ⟨-, rfl⟩ <;> trivial

/-- The offerer enters generation 1 and is not heard: the parties stay apart, and nobody reports. -/
theorem swept_party_stays_apart :
    OnGenerated pairInbox (generatedPair 0) ∧
      (∀ l ∈ offererSwept 39, l.sweepsOnly (.generated (pairInbox .offerer))) ∧
      ∃ w, run step (generatedPair 0) (offererSwept 39) = some w ∧ Quiescent w ∧
        ¬ (Agree w.shared ∨ Reported w.shared) := by
  exact ⟨generatedPair_onGenerated 0, offererSwept_sweepsOnly 39, by decide +kernel⟩

/-- With three probe cycles behind it, the offerer reports. -/
theorem exhausted_party_reports :
    ∃ w, run step (generatedPair 3) (offererSwept 10) = some w ∧ Quiescent w ∧
      (Agree w.shared ∨ Reported w.shared) ∧ Reported w.shared := by
  obtain ⟨w, hrun, hquiescent, hrep⟩ : ∃ w, run step (generatedPair 3) (offererSwept 10) = some w ∧
      Quiescent w ∧ Reported w.shared := by
    decide +kernel
  exact ⟨w, hrun, hquiescent, one_sided_loss (p := .offerer) (generatedPair_onGenerated 3)
    (offererSwept_sweepsOnly 10) (by decide +kernel) hrun hquiescent, hrep⟩

end Titlan.World
