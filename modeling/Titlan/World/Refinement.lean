import Titlan.World.Meeting

/-! # The engine's operations as protocol steps

`Course.view` is what the protocol of `View` sees of a state: the control frames in the mailboxes and in
the relay's history, the routing rows and the generations. Each operation of a thread leaves this view as
it is or is a step of its party (`Moves`), and keeps the bookkeeping the view does not show (`Tidy`). The
threads are verified in `setting`, where the others are seen only through `Others`. -/

namespace Titlan.World.Refinement

open Foundation

variable [Sealing]

/-! ## The view of a state -/

/-- A frame of recovery or rotation. -/
def isRecovery : Frame → Bool
  | .recoveryHello _ _ | .mailboxUpdateV3 _ _ => true
  | _ => false

/-- The runs considered: the control frames accepted before they start, and what may happen in them. -/
structure Course where
  /-- The control frames accepted before, with the mailbox. -/
  past : List (MailboxId × Frame)
  regime : Regime

/-- What the protocol sees of a state. -/
def Course.view (ρ : Course) (s : St) : View where
  boxes b := (s.boxes b).map fun l => l.filter fun m => isRecovery m.frame
  nextBox := s.nextBox
  log := ρ.past ++ s.log.filter fun e => isRecovery e.2
  recv p := s.recv p
  send p := s.send p
  own p := (s.party p).recovery.ownGen
  known p := (s.party p).recovery.peerGen

section View

variable {ρ : Course} {s s' : St} {p : Role} {b : MailboxId} {l : List Queued} {wire : Sealing.Wire}

theorem view_boxes (h : s.boxes b = some l) :
    (ρ.view s).boxes b = some (l.filter fun m => isRecovery m.frame) := by
  simp only [Course.view, h, Option.map_some]

theorem live_view : (ρ.view s).Live b ↔ (s.boxes b).isSome := by
  simp [View.Live, Course.view]

/-- Mailboxes, history, rows and generations are all the view shows. -/
theorem view_congr (hboxes : s'.boxes = s.boxes) (hnext : s'.nextBox = s.nextBox)
    (hlog : s'.log = s.log) (hconvo : ∀ q, (s'.party q).convo = (s.party q).convo)
    (hrecovery : ∀ q, (s'.party q).recovery = (s.party q).recovery) : ρ.view s' = ρ.view s := by
  simp only [Course.view, St.recv, St.send, hboxes, hnext, hlog, hconvo, hrecovery]

theorem view_of_unmoved (h : Unmoved p s s') : ρ.view s' = ρ.view s := by
  have hparty : ∀ q, (s'.party q).convo = (s.party q).convo ∧
      (s'.party q).recovery = (s.party q).recovery := by
    intro q
    rcases q.eq_or_eq_peer p with rfl | rfl
    · exact ⟨h.convo, h.recovery⟩
    · rw [h.peer]
      exact ⟨rfl, rfl⟩
  exact view_congr h.boxes h.nextBox h.log (fun q => (hparty q).1) fun q => (hparty q).2

/-- What a change of one party shows. -/
theorem view_modify (s : St) (p : Role) (g : Party → Party) : ρ.view (s.modify p g) =
    { ρ.view s with
      recv := Function.update (ρ.view s).recv p (g (s.party p)).convo.mailboxRecv
      send := Function.update (ρ.view s).send p (g (s.party p)).convo.mailboxSend
      own := Function.update (ρ.view s).own p (g (s.party p)).recovery.ownGen
      known := Function.update (ρ.view s).known p (g (s.party p)).recovery.peerGen } := by
  have hfield : ∀ {α : Type} (field : Party → α), (fun q => field ((s.modify p g).party q)) =
      Function.update (fun q => field (s.party q)) p (field (g (s.party p))) := by
    intro α field
    funext q
    by_cases hq : q = p
    · subst hq
      rw [St.modify_party_self, Function.update_self]
    · rw [St.modify_party_of_ne _ _ hq, Function.update_of_ne hq]
  ext1
  case recv => exact hfield fun x => x.convo.mailboxRecv
  case send => exact hfield fun x => x.convo.mailboxSend
  case own => exact hfield fun x => x.recovery.ownGen
  case known => exact hfield fun x => x.recovery.peerGen
  all_goals rfl

/-- Changing anything but rows and generations of a party does not show. -/
theorem view_modify_same {g : Party → Party} (hconvo : (g (s.party p)).convo = (s.party p).convo)
    (hrecovery : (g (s.party p)).recovery = (s.party p).recovery) :
    ρ.view (s.modify p g) = ρ.view s := by
  rw [view_modify, hconvo, hrecovery]
  ext1
  all_goals first | rfl | exact Function.update_eq_self p _

theorem view_setSend (s : St) (p : Role) (relayUrl : Unit) (inbox : MailboxId) :
    ρ.view (s.modify p fun x => { x with convo := { x.convo with relayUrl, mailboxSend := some inbox } })
      = (ρ.view s).setSend p inbox := by
  rw [view_modify]
  ext1
  all_goals first | rfl | exact Function.update_eq_self p _

theorem view_setRecv (s : St) (p : Role) (inbox : MailboxId) :
    ρ.view (s.modify p fun x => { x with convo := { x.convo with mailboxRecv := some inbox } })
      = (ρ.view s).setRecv p inbox := by
  rw [view_modify]
  ext1
  all_goals first | rfl | exact Function.update_eq_self p _

theorem view_setGens (s : St) (p : Role) (ownGen peerGen : ℕ) :
    ρ.view (s.modify p fun x => { x with recovery := { x.recovery with ownGen, peerGen } })
      = (ρ.view s).setGens p ownGen peerGen := by
  rw [view_modify]
  ext1
  all_goals first | rfl | exact Function.update_eq_self p _

/-- What a change of one mailbox shows. -/
theorem view_setBox (s : St) (b : MailboxId) (x : Option (List Queued)) :
    ρ.view (s.setBox b x) =
      (ρ.view s).setBox b (x.map fun l => l.filter fun m => isRecovery m.frame) := by
  ext1
  case boxes =>
    funext c
    by_cases hc : c = b
    · subst hc
      simp [Course.view, View.setBox]
    · simp [Course.view, View.setBox, Function.update_of_ne hc, s.setBox_boxes_of_ne x hc]
  all_goals rfl

theorem view_mint (s : St) (p : Role) : ρ.view (s.mint p) = (ρ.view s).mint := by
  have hbox : ρ.view ((s.setBox (.generated s.nextBox) (some [])).modify p fun x =>
      { x with minted := x.minted ++ [.generated s.nextBox] }) =
        (ρ.view s).setBox (.generated s.nextBox) (some []) :=
    (view_modify_same rfl rfl).trans (view_setBox s _ _)
  rw [View.ext_iff] at hbox
  obtain ⟨hboxes, -, hlog, hrecv, hsend, hown, hknown⟩ := hbox
  exact View.ext hboxes rfl hlog hrecv hsend hown hknown

/-- An accepted control frame shows. -/
theorem view_deposit_control (hf : isRecovery (content wire)) :
    ρ.view (s.deposit b l wire) =
      (ρ.view s).deposit b (l.filter fun m => isRecovery m.frame) ⟨s.nextMsg, wire⟩ := by
  have hbox := view_setBox (ρ := ρ) s b (some (l ++ [⟨s.nextMsg, wire⟩]))
  rw [Option.map_some, List.filter_append, List.filter_singleton, hf, cond_true] at hbox
  ext1
  case log => simp [Course.view, View.deposit, View.setBox, St.deposit, hf]
  case boxes =>
    have hboxes := congrArg View.boxes hbox
    exact hboxes
  all_goals rfl

/-- Any other accepted frame does not. -/
theorem view_deposit_other (hl : s.boxes b = some l) (hf : ¬ isRecovery (content wire)) :
    ρ.view (s.deposit b l wire) = ρ.view s := by
  have hbox := view_setBox (ρ := ρ) s b (some (l ++ [⟨s.nextMsg, wire⟩]))
  rw [Option.map_some, List.filter_append, List.filter_singleton, eq_false_of_ne_true hf, cond_false,
    List.append_nil, ← view_boxes hl] at hbox
  ext1
  case log => simp [Course.view, St.deposit, eq_false_of_ne_true hf]
  case boxes => exact (congrArg View.boxes hbox).trans (Function.update_eq_self b _)
  all_goals rfl

theorem view_lose (s : St) (pushed : Role → ℕ) :
    ρ.view (s.lose (fun _ => true) pushed) = (ρ.view s).lose := by
  ext1
  all_goals rfl

end View

/-! ## Bookkeeping -/

/-- A frame an inbox may hold: nobody falls back to the v1 update. -/
def Admitted : Frame → Prop
  | .mailboxUpdateV1 _ _ => False
  | _ => True

/-- What the view does not show. -/
structure Tidy (s : St) : Prop where
  rooted : ∀ p, (s.party p).recovery.role = some p.code ∧ (s.party p).recovery.root = some ()
  outgoing : ∀ p, ∀ m ∈ s.rows p, m.direction = .outgoing → isChat m.frame
  ids : ∀ b l, s.boxes b = some l → (l.map Queued.id).Nodup ∧ ∀ m ∈ l, m.id < s.nextMsg
  frames : ∀ b l, s.boxes b = some l → ∀ m ∈ l, Admitted m.frame

/-- Message ids are spent once. -/
structure Later (s s' : St) : Prop where
  nextMsg_le : s.nextMsg ≤ s'.nextMsg
  boxes : ∀ b l', s'.boxes b = some l' → ∀ m ∈ l',
    (∃ l, s.boxes b = some l ∧ m ∈ l) ∨ s.nextMsg ≤ m.id

/-- The data an operation carries fits. -/
def Proper : Op carrier → Prop
  | .store (.insertMessage d f _) => d = .outgoing → isChat f
  | .relay (.deposit _ _ wire) => Admitted (content wire)
  | _ => True

section Bookkeeping

variable {s s' : St} {p : Role} {b : MailboxId} {l : List Queued} {wire : Sealing.Wire} {g : Party → Party}

theorem Later.of_boxes (hboxes : s'.boxes = s.boxes) (hnext : s'.nextMsg = s.nextMsg) : Later s s' where
  nextMsg_le := Nat.le_of_eq hnext.symm
  boxes _ l' hl' _ hm := .inl ⟨l', hboxes ▸ hl', hm⟩

theorem Later.refl (s : St) : Later s s := .of_boxes rfl rfl

/-- A change of one party's rows and memory. -/
theorem Tidy.of_parties (h : Tidy s) (hboxes : s'.boxes = s.boxes) (hnext : s'.nextMsg = s.nextMsg)
    (hrooted : ∀ q, (s'.party q).recovery.role = (s.party q).recovery.role ∧
      (s'.party q).recovery.root = some ())
    (hrows : ∀ q, ∀ m ∈ s'.rows q, m.direction = .outgoing → isChat m.frame) : Tidy s' where
  rooted q := ⟨(hrooted q).1.trans (h.rooted q).1, (hrooted q).2⟩
  outgoing := hrows
  ids := by rw [hboxes, hnext]; exact h.ids
  frames := by rw [hboxes]; exact h.frames

theorem Tidy.modify (h : Tidy s) (hrole : (g (s.party p)).recovery.role = (s.party p).recovery.role)
    (hroot : (g (s.party p)).recovery.root = some ())
    (hrows : ∀ m ∈ (g (s.party p)).messages, m.direction = .outgoing → isChat m.frame) :
    Tidy (s.modify p g) := by
  refine h.of_parties rfl rfl ?_ ?_
  · intro q
    rcases q.eq_or_eq_peer p with rfl | rfl
    · rw [St.modify_party_self]
      exact ⟨hrole, hroot⟩
    · rw [St.modify_party_peer]
      exact ⟨rfl, (h.rooted _).2⟩
  · intro q
    rcases q.eq_or_eq_peer p with rfl | rfl
    · rw [St.rows, St.modify_party_self]
      exact hrows
    · rw [St.rows, St.modify_party_peer]
      exact h.outgoing _

/-- A mailbox is removed, emptied or created empty. -/
theorem Tidy.setBox (h : Tidy s) {x : Option (List Queued)}
    (hx : ∀ l, x = some l → ∃ l₀, l.Sublist l₀ ∧ (l₀ = [] ∨ s.boxes b = some l₀)) :
    Tidy (s.setBox b x) ∧ Later s (s.setBox b x) := by
  have hold : ∀ c l, (s.setBox b x).boxes c = some l →
      ∃ l₀, l.Sublist l₀ ∧ (l₀ = [] ∨ s.boxes c = some l₀) := by
    intro c l hl
    by_cases hc : c = b
    · subst hc
      rw [St.setBox_boxes_self] at hl
      exact hx l hl
    · rw [St.setBox_boxes_of_ne _ _ hc] at hl
      exact ⟨l, List.Sublist.refl l, .inr hl⟩
  refine ⟨⟨h.rooted, h.outgoing, ?_, ?_⟩, Nat.le_refl _, ?_⟩
  · intro c l hl
    obtain ⟨l₀, hsub, rfl | hl₀⟩ := hold c l hl
    · rw [List.sublist_nil.mp hsub]
      exact ⟨List.nodup_nil, (by simp)⟩
    · obtain ⟨hnd, hlt⟩ := h.ids c l₀ hl₀
      exact ⟨(hsub.map Queued.id).nodup hnd, fun m hm => hlt m (hsub.subset hm)⟩
  · intro c l hl m hm
    obtain ⟨l₀, hsub, rfl | hl₀⟩ := hold c l hl
    · rw [List.sublist_nil.mp hsub] at hm
      cases hm
    · exact h.frames c l₀ hl₀ m (hsub.subset hm)
  · intro c l hl m hm
    obtain ⟨l₀, hsub, rfl | hl₀⟩ := hold c l hl
    · rw [List.sublist_nil.mp hsub] at hm
      cases hm
    · exact .inl ⟨l₀, hl₀, hsub.subset hm⟩

theorem Tidy.deposit (h : Tidy s) (hl : s.boxes b = some l) (hf : Admitted (content wire)) :
    Tidy (s.deposit b l wire) ∧ Later s (s.deposit b l wire) := by
  have hold : ∀ c l', (s.deposit b l wire).boxes c = some l' →
      s.boxes c = some l' ∨ c = b ∧ l' = l ++ [⟨s.nextMsg, wire⟩] := by
    intro c l' hl'
    by_cases hc : c = b
    · subst hc
      rw [St.deposit_boxes_self, Option.some.injEq] at hl'
      exact .inr ⟨rfl, hl'.symm⟩
    · rw [St.deposit_boxes_of_ne _ _ _ hc] at hl'
      exact .inl hl'
  refine ⟨⟨h.rooted, h.outgoing, ?_, ?_⟩, Nat.le_succ _, ?_⟩
  · intro c l' hl'
    rcases hold c l' hl' with hl' | ⟨rfl, rfl⟩
    · obtain ⟨hnd, hlt⟩ := h.ids c l' hl'
      exact ⟨hnd, fun m hm => Nat.lt_succ_of_lt (hlt m hm)⟩
    · obtain ⟨hnd, hlt⟩ := h.ids c l hl
      refine ⟨?_, fun m hm => ?_⟩
      · rw [List.map_append, List.map_singleton, List.nodup_append]
        refine ⟨hnd, List.pairwise_singleton _ _, ?_⟩
        intro i hi j hj
        obtain ⟨m, hm, rfl⟩ := List.mem_map.mp hi
        rw [List.mem_singleton.mp hj]
        exact Nat.ne_of_lt (hlt m hm)
      · rcases mem_concat hm with hm | rfl
        · exact Nat.lt_succ_of_lt (hlt m hm)
        · exact Nat.lt_succ_self _
  · intro c l' hl' m hm
    rcases hold c l' hl' with hl' | ⟨rfl, rfl⟩
    · exact h.frames c l' hl' m hm
    · rcases mem_concat hm with hm | rfl
      · exact h.frames c l hl m hm
      · exact hf
  · intro c l' hl' m hm
    rcases hold c l' hl' with hl' | ⟨rfl, rfl⟩
    · exact .inl ⟨l', hl', hm⟩
    · rcases mem_concat hm with hm | rfl
      · exact .inl ⟨l, hl, hm⟩
      · exact .inr (Nat.le_refl _)

/-- A change of a party's memory. -/
theorem Tidy.remember (h : Tidy s) (hrecovery : (g (s.party p)).recovery = (s.party p).recovery)
    (hrows : (g (s.party p)).messages = (s.party p).messages) :
    Tidy (s.modify p g) ∧ Later s (s.modify p g) ∧ (s.modify p g).party p.peer = s.party p.peer := by
  refine ⟨h.modify (by rw [hrecovery]) ?_ ?_, .of_boxes rfl rfl, s.modify_party_peer p g⟩
  · rw [hrecovery]
    exact (h.rooted p).2
  · rw [hrows]
    exact h.outgoing p

/-- Every operation keeps the books, and the other party as it is. -/
theorem Tidy.perform {c : Choice} {o : Op carrier} {r : o.Answer} (h : Tidy s) (ho : Proper o)
    (hp : perform p c s o = some (r, s')) :
    Tidy s' ∧ Later s s' ∧ s'.party p.peer = s.party p.peer := by
  have hsame : Tidy s ∧ Later s s ∧ s.party p.peer = s.party p.peer := ⟨h, .refl s, rfl⟩
  cases o with
  | store o =>
    cases o with
    | setConversationSend _ _ | setConversationRecv _ | storeSession _ _ _ =>
      cases hp
      exact h.remember rfl rfl
    | setRecoveryRoot _ _ | setRecoveryGenerations _ _ =>
      cases hp
      exact ⟨h.modify rfl (by first | rfl | exact (h.rooted p).2) (h.outgoing p), .of_boxes rfl rfl,
        s.modify_party_peer p _⟩
    | insertMessage d f status =>
      cases hp
      refine ⟨?_, .of_boxes rfl rfl, s.setRows_party_peer p _ _⟩
      obtain ⟨hrooted, hrows, hids, hframes⟩ : Tidy (s.modify p fun x =>
          { x with messages := x.messages ++ [⟨s.nextRow, d, f, status⟩] }) := by
        refine h.modify rfl (h.rooted p).2 fun m hm hd => ?_
        rcases mem_concat hm with hm | rfl
        · exact h.outgoing p m hm hd
        · exact ho hd
      exact ⟨hrooted, hrows, hids, hframes⟩
    | markMessageSent id =>
      cases hp
      refine ⟨h.modify rfl (h.rooted p).2 fun m hm hd => ?_, .of_boxes rfl rfl, s.modify_party_peer p _⟩
      obtain ⟨m₀, hm₀, -, hdir, hframe, -⟩ := mem_markSent hm
      exact hframe ▸ h.outgoing p m₀ hm₀ (hdir.trans hd)
    | _ =>
      cases hp
      exact hsame
  | ram o =>
    cases o with
    | drawNonce =>
      cases hp
      exact ⟨{ h with }, .of_boxes rfl rfl, rfl⟩
    | lockFlush =>
      simp only [World.perform, performRam] at hp
      split at hp
      · cases hp
      · cases hp
        exact h.remember rfl rfl
    | _ =>
      cases hp
      exact h.remember rfl rfl
  | relay o =>
    cases o with
    | createMailbox =>
      cases hp
      obtain ⟨ht, hl⟩ := h.setBox (b := .generated s.nextBox) (x := some [])
        fun l hl => ⟨[], by rw [Option.some.inj hl], .inl rfl⟩
      obtain ⟨⟨hrooted, hrows, hids, hframes⟩, -, hpeer⟩ := ht.remember (p := p)
        (g := fun x => { x with minted := x.minted ++ [.generated s.nextBox] }) rfl rfl
      exact ⟨⟨hrooted, hrows, hids, hframes⟩, ⟨hl.nextMsg_le, hl.boxes⟩, hpeer⟩
    | putMailbox _ id =>
      simp only [World.perform, performRelay] at hp
      split at hp
      · cases hp
        exact hsame
      · cases hp
        obtain ⟨ht, hl⟩ := h.setBox (b := id) (x := some [])
          fun l hl => ⟨[], by rw [Option.some.inj hl], .inl rfl⟩
        exact ⟨ht, hl, rfl⟩
    | deposit _ b wire =>
      rcases perform_deposit hp with ⟨-, -, rfl⟩ | ⟨l, hl, -, rfl⟩
      · exact hsame
      · obtain ⟨ht, hlater⟩ := h.deposit hl ho
        exact ⟨ht, hlater, rfl⟩
    | deleteMailbox id =>
      cases hp
      obtain ⟨ht, hl⟩ := h.setBox (b := id) (x := none) (by simp)
      exact ⟨ht, hl, rfl⟩
  | socket o =>
    cases o with
    | subscribe id =>
      simp only [World.perform, performSocket] at hp
      split at hp <;> cases hp <;> exact h.remember rfl rfl
    | next =>
      simp only [World.perform, performSocket] at hp
      split at hp <;> try split at hp
      all_goals cases hp
      all_goals first | exact hsame | exact h.remember rfl rfl
    | ack id =>
      simp only [World.perform, performSocket] at hp
      split at hp
      · rename_i box current _
        cases hp
        obtain ⟨ht, hl⟩ := h.setBox (b := box)
          (x := (s.boxes box).map fun queue => queue.filter fun m => m.id ≠ id) fun l hl => by
            obtain ⟨l₀, hl₀, rfl⟩ := Option.map_eq_some_iff.mp hl
            exact ⟨l₀, List.filter_sublist, .inr hl₀⟩
        obtain ⟨ht', -, hpeer⟩ := ht.remember (p := p)
          (g := fun x => { x with conn := some (.live box none) }) rfl rfl
        exact ⟨ht', ⟨hl.nextMsg_le, hl.boxes⟩, hpeer⟩
      · cases hp
        exact hsame
    | nextBeforeDeadline => cases hp
    | deadlinePassed => cases hp
  | notify n =>
    cases n with
    | needsRepair =>
      cases hp
      exact h.remember rfl rfl
    | _ =>
      cases hp
      exact hsame

end Bookkeeping

/-! ## Moves -/

/-- What every thread keeps: the protocol's invariant, and the books. -/
structure Good (ρ : Course) (s : St) : Prop extends Tidy s where
  inv : (ρ.view s).Inv
  traced : (ρ.view s).Traced
  regime : ρ.regime.Invariant (ρ.view s)

/-- What an operation of a thread of `p` does: nothing the protocol sees, or a step. -/
structure Moves (ρ : Course) (p : Role) (s s' : St) : Prop where
  view : ρ.view s' = ρ.view s ∨ View.Step ρ.regime p (ρ.view s) (ρ.view s')
  peer : s'.party p.peer = s.party p.peer
  later : Later s s'

/-- What happens between two operations of the listener of `p`: the other party's threads and the
`send_chat` threads of `p` run, and the relay may lose every mailbox and cut the sockets. -/
structure Others (ρ : Course) (p : Role) (s s' : St) : Prop where
  view : ρ.view s' = ρ.view s ∨ View.Env ρ.regime p (ρ.view s) (ρ.view s')
  rotation : (s'.party p).rotation = (s.party p).rotation
  helloSeen : (s'.party p).helloSeen = (s.party p).helloSeen
  conn : (s'.party p).conn = (s.party p).conn ∨ ρ.regime.Lossy ∧ ρ.view s' = (ρ.view s).lose ∧
    ∃ n, (s'.party p).conn = (s.party p).conn.map (s.cut (fun _ => true) n)
  later : Later s s'

section Moves

variable {ρ : Course} {s s' : St} {p : Role}

/-- A step keeps the state good. -/
theorem Good.moves (h : Good ρ s) (ht : Tidy s')
    (hm : ρ.view s' = ρ.view s ∨ View.Step ρ.regime p (ρ.view s) (ρ.view s')) : Good ρ s' := by
  rcases hm with heq | hstep
  · refine ⟨ht, ?_, ?_, ?_⟩ <;> rw [heq]
    · exact h.inv
    · exact h.traced
    · exact h.regime
  · exact ⟨ht, h.inv.step hstep, h.traced.step hstep, h.regime.step h.inv hstep⟩

/-- To the other party, a move is part of its environment. -/
theorem Moves.others (h : Moves ρ p.peer s s') : Others ρ p s s' := by
  have hown : s'.party p = s.party p := by
    have hpeer := h.peer
    rwa [Role.peer_peer] at hpeer
  exact ⟨h.view.imp_right .step, by rw [hown], by rw [hown], .inl (by rw [hown]), h.later⟩

/-- The relay restarts. -/
theorem Good.lose (h : Good ρ s) (hκ : ρ.regime.Lossy) (pushed : Role → ℕ) :
    Good ρ (s.lose (fun _ => true) pushed) ∧ ∀ p, Others ρ p s (s.lose (fun _ => true) pushed) := by
  have hview := view_lose (ρ := ρ) s pushed
  refine ⟨⟨⟨h.rooted, h.outgoing, fun _ _ hb => (by cases hb), fun _ _ hb => (by cases hb)⟩,
    ?_, ?_, ?_⟩, fun p => ?_⟩
  · rw [hview]
    exact h.inv.lose
  · rw [hview]
    exact h.traced.lose
  · rw [hview]
    exact .lose hκ
  · refine ⟨.inr ?_, rfl, rfl, .inr ⟨hκ, hview, pushed p, rfl⟩, Nat.le_refl _, fun _ _ hb => (by cases hb)⟩
    rw [hview]
    exact .lose hκ

end Moves

end Titlan.World.Refinement
