import Titlan.Pairing.Network

/-! # Where every envelope comes from

The invariant of the network: a row's inbox was generated for the task that inserted it, so no two rows
share one; an acknowledgement in a mailbox comes from a row that awaits its handoff; a handoff in a mailbox
comes from a complete row that sends to exactly that mailbox and was made from the contribution of the row
that receives there. Rows only ever gain columns, so what an envelope says about its sender's row stays
true while it is under way. -/

namespace Titlan.Pairing.Network

open Foundation

/-! ## Rows -/

/-- A party's row. -/
def Net.row? (s : Net) (p : String) (conv : ConversationId) : Option NetRow := (s.conversations p)[conv]?

namespace NetRow

/-- This party's inbox. -/
abbrev recv (x : NetRow) : Option ℕ := x.row.convo.mailboxRecv

/-- The peer's inbox. -/
abbrev send (x : NetRow) : Option ℕ := x.row.convo.mailboxSend

/-- The peer's relay. -/
abbrev relay (x : NetRow) : ℕ := x.row.convo.relayUrl

/-- The stored role. -/
abbrev role (x : NetRow) : Option UInt8 := x.row.recovery.role

/-- The recovery root. -/
abbrev root (x : NetRow) : Option ℕ := x.row.recovery.root

/-- The own contribution. -/
abbrev own (x : NetRow) : Option ℕ := x.row.ownContribution

end NetRow

/-- The row has at most gained columns. -/
structure Later (x x' : NetRow) : Prop where
  creator : x'.creator = x.creator
  recv : x'.recv = x.recv
  send : ∀ inbox, x.send = some inbox → x'.send = some inbox ∧ x'.relay = x.relay
  role : ∀ r, x.role = some r → x'.role = some r
  own : ∀ c, x.own = some c → x'.own = some c
  root : ∀ r, x.root = some r → x'.root = some r

theorem Later.refl (x : NetRow) : Later x x :=
  ⟨rfl, rfl, fun _ h => ⟨h, rfl⟩, fun _ h => h, fun _ h => h, fun _ h => h⟩

/-- Rows have at most gained columns, and ids stay generated. -/
structure Ext (s s' : Net) : Prop where
  rows : ∀ p k x, s.row? p k = some x → ∃ x', s'.row? p k = some x' ∧ Later x x'
  minted : ∀ n i, s.mintedBy n = some i → s'.mintedBy n = some i

/-- A task's own rows, generated ids and subscription are as they were. -/
structure Mine (i : Task) (s s' : Net) : Prop where
  rows : ∀ p k x, s'.row? p k = some x → x.creator = i → s.row? p k = some x
  minted : ∀ n, s'.mintedBy n = some i → s.mintedBy n = some i
  conn : s'.conn i = s.conn i

/-- So they are, and the mailboxes generated for the task that existed still do. -/
structure Own (N : Config) (i : Task) (s s' : Net) : Prop extends Mine i s s' where
  kept : ∀ n, s.mintedBy n = some i → (s.boxes (N.relayOf i.party) n).isSome →
    (s'.boxes (N.relayOf i.party) n).isSome

/-- Rows and generated ids are as they were. -/
theorem Ext.of_eq {s s' : Net} (hrows : s'.conversations = s.conversations)
    (hminted : s'.mintedBy = s.mintedBy) : Ext s s' := by
  refine ⟨fun p k x hx => ⟨x, ?_, Later.refl x⟩, fun n i hn => ?_⟩
  · unfold Net.row?
    rw [hrows]
    exact hx
  · rw [hminted]
    exact hn

theorem Mine.of_eq {i : Task} {s s' : Net} (hrows : s'.conversations = s.conversations)
    (hminted : s'.mintedBy = s.mintedBy) (hconn : s'.conn i = s.conn i) : Mine i s s' := by
  refine ⟨fun p k x hx _ => ?_, fun n hn => ?_, hconn⟩
  · unfold Net.row? at hx ⊢
    rw [← hrows]
    exact hx
  · rw [← hminted]
    exact hn

/-! ## What an envelope says -/

/-- The party has a responder's row on the inbox, with the contribution as its own. -/
def Awaiting (s : Net) (p : String) (inbox contribution : ℕ) : Prop :=
  ∃ k x, s.row? p k = some x ∧ x.recv = some inbox ∧ x.role = some roleResponder ∧
    x.own = some contribution

/-- The party has an offerer's row that receives on `recv`, sends to `inbox` on `relay`, and whose root is
made from `a` and the contribution of the row that awaits on that inbox. -/
def HandedOff (N : Config) (s : Net) (p : String) (relay inbox recv a : ℕ) : Prop :=
  ∃ k x q b, s.row? p k = some x ∧ x.role = some roleOfferer ∧ x.recv = some recv ∧
    x.send = some inbox ∧ x.relay = relay ∧ x.root = some (N.deriveRoot a b) ∧
    Awaiting s q inbox b ∧ relay = N.relayOf q

/-- The envelope may be in the mailbox. -/
def Fits (N : Config) (s : Net) (relay id : ℕ) (envelope : Sealed) : Prop :=
  match envelope.content with
  | .pairAck ack =>
    Awaiting s envelope.sender ack.inboxId ack.rootContribution ∧
      ack.relayUrl = N.relayOf envelope.sender
  | .other (.mailboxUpdateV2 r inbox a) =>
    HandedOff N s envelope.sender relay id inbox a ∧ r = N.relayOf envelope.sender
  | .other (.chat _ _) => True
  | .other _ => False

/-- **Agreement** of the responder `p` on its conversation `k` with the offerer `q`: complementary roles,
one root, and each sends to the relay and inbox the other receives on, the offerer's being the one the
task that inserted its row had generated. -/
def Agreed (N : Config) (s : Net) (p q : String) (k : ConversationId) : Prop :=
  ∃ x l y root inbox recv, s.row? p k = some x ∧ s.row? q l = some y ∧
    x.role = some roleResponder ∧ y.role = some roleOfferer ∧
    x.root = some root ∧ y.root = some root ∧
    x.recv = some inbox ∧ y.relay = N.relayOf p ∧ y.send = some inbox ∧
    y.recv = some recv ∧ x.relay = N.relayOf q ∧ x.send = some recv ∧
    s.mintedBy recv = some y.creator

/-- The offer was made by the party whose bundle is in it, with a pairing inbox of its own. -/
def Made (N : Config) (s : Net) (offer : Offer) : Prop :=
  offer.relayUrl = N.relayOf offer.bundle ∧
    ∃ n, s.mintedBy offer.pairingInboxId = some (.offer offer.bundle n)

section Mono

variable {N : Config} {s s' : Net}

theorem Awaiting.mono {p : String} {inbox contribution : ℕ} (he : Ext s s')
    (h : Awaiting s p inbox contribution) : Awaiting s' p inbox contribution := by
  obtain ⟨k, x, hx, hrecv, hrole, hown⟩ := h
  obtain ⟨x', hx', hlater⟩ := he.rows p k x hx
  exact ⟨k, x', hx', hlater.recv.trans hrecv, hlater.role _ hrole, hlater.own _ hown⟩

theorem HandedOff.mono {p : String} {relay inbox recv a : ℕ} (he : Ext s s')
    (h : HandedOff N s p relay inbox recv a) : HandedOff N s' p relay inbox recv a := by
  obtain ⟨k, x, q, b, hx, hrole, hrecv, hsend, hrelay, hroot, hawaiting, hq⟩ := h
  obtain ⟨x', hx', hlater⟩ := he.rows p k x hx
  obtain ⟨hsend', hrelay'⟩ := hlater.send inbox hsend
  exact ⟨k, x', q, b, hx', hlater.role _ hrole, hlater.recv.trans hrecv, hsend',
    hrelay'.trans hrelay, hlater.root _ hroot, hawaiting.mono he, hq⟩

theorem Fits.mono {relay id : ℕ} {envelope : Sealed} (he : Ext s s')
    (h : Fits N s relay id envelope) : Fits N s' relay id envelope := by
  unfold Fits at h ⊢
  split
  · rename_i ack hack
    rw [hack] at h
    exact ⟨h.1.mono he, h.2⟩
  · rename_i r inbox a hcontent
    rw [hcontent] at h
    exact ⟨h.1.mono he, h.2⟩
  · trivial
  · rename_i frame hv2 hchat hcontent
    rw [hcontent] at h
    split at h
    · rename_i hother
      cases hother
    · rename_i hother
      cases hother
      exact absurd rfl (hv2 _ _ _)
    · rename_i hother
      cases hother
      exact absurd rfl (hchat _ _)
    · exact h

theorem Agreed.mono {p q : String} {k : ConversationId} (he : Ext s s') (h : Agreed N s p q k) :
    Agreed N s' p q k := by
  obtain ⟨x, l, y, root, inbox, recv, hx, hy, hxrole, hyrole, hxroot, hyroot, hxrecv, hyrelay, hysend,
    hyrecv, hxrelay, hxsend, hminted⟩ := h
  obtain ⟨x', hx', hxlater⟩ := he.rows p k x hx
  obtain ⟨y', hy', hylater⟩ := he.rows q l y hy
  obtain ⟨hxsend', hxrelay'⟩ := hxlater.send recv hxsend
  obtain ⟨hysend', hyrelay'⟩ := hylater.send inbox hysend
  have hminted' := he.minted _ _ hminted
  rw [← hylater.creator] at hminted'
  exact ⟨x', l, y', root, inbox, recv, hx', hy', hxlater.role _ hxrole, hylater.role _ hyrole,
    hxlater.root _ hxroot, hylater.root _ hyroot, hxlater.recv.trans hxrecv, hyrelay'.trans hyrelay,
    hysend', hylater.recv.trans hyrecv, hxrelay'.trans hxrelay, hxsend', hminted'⟩

theorem Made.mono {offer : Offer} (he : Ext s s') (h : Made N s offer) : Made N s' offer := by
  obtain ⟨hrelay, n, hn⟩ := h
  exact ⟨hrelay, n, he.minted _ _ hn⟩

end Mono

/-! ## The invariant -/

/-- The invariant of the network. -/
structure Inv (N : Config) (s : Net) : Prop where
  fresh : ∀ n i, s.mintedBy n = some i → n < s.nextBox
  rows : ∀ p k x, s.row? p k = some x → x.creator.party = p ∧
    ∃ n, x.recv = some n ∧ s.mintedBy n = some x.creator ∧ (s.boxes (N.relayOf p) n).isSome
  distinct : ∀ p k x l y n, s.row? p k = some x → s.row? p l = some y → x.recv = some n →
    y.recv = some n → k = l
  wires : ∀ relay id queue m, s.boxes relay id = some queue → m ∈ queue →
    Fits N s relay id m.envelope
  chats : ∀ p k m, m ∈ s.messages p k → ∃ typeVersion text, m.frame = .chat typeVersion text
  offers : ∀ offer ∈ s.offers, Made N s offer
  spawned : ∀ p scanned n k, (Task.responder p scanned n, k) ∈ s.spawned →
    Made N s scanned ∧ Agreed N s p scanned.bundle k

/-- What a task's operation does to the rest. -/
structure Effect (N : Config) (i : Task) (s s' : Net) : Prop where
  inv : Inv N s'
  ext : Ext s s'
  others : ∀ j, j ≠ i → Own N j s s'

/-- An operation that leaves the task's own things alone as well. -/
structure Quiet (N : Config) (i : Task) (s s' : Net) : Prop extends Effect N i s s' where
  mine : Mine i s s'

section Inv

variable {N : Config} {s s' : Net}

/-- Whose row an inbox belongs to. -/
theorem Inv.recv_unique (h : Inv N s) {p q : String} {k l : ConversationId} {x y : NetRow} {n : ℕ}
    (hx : s.row? p k = some x) (hy : s.row? q l = some y) (hxn : x.recv = some n)
    (hyn : y.recv = some n) : p = q ∧ x = y := by
  obtain ⟨hxp, n₁, hxn₁, hxm, -⟩ := h.rows p k x hx
  obtain ⟨hyq, n₂, hyn₂, hym, -⟩ := h.rows q l y hy
  obtain rfl : n = n₁ := Option.some.inj (hxn.symm.trans hxn₁)
  obtain rfl : n = n₂ := Option.some.inj (hyn.symm.trans hyn₂)
  have hcreator : x.creator = y.creator := Option.some.inj (hxm.symm.trans hym)
  have hpq : p = q := by rw [← hxp, ← hyq, hcreator]
  subst hpq
  have hkl := h.distinct p k x l y n hx hy hxn hyn
  subst hkl
  exact ⟨rfl, Option.some.inj (hx.symm.trans hy)⟩

/-- What a step that leaves rows and generated ids alone has to keep. -/
structure Calm (N : Config) (s s' : Net) : Prop where
  conversations : s'.conversations = s.conversations
  mintedBy : s'.mintedBy = s.mintedBy
  nextBox : s'.nextBox = s.nextBox
  boxes : ∀ p k x n, s.row? p k = some x → x.recv = some n →
    (s.boxes (N.relayOf p) n).isSome → (s'.boxes (N.relayOf p) n).isSome
  wires : ∀ relay id queue m, s'.boxes relay id = some queue → m ∈ queue →
    (∃ queue', s.boxes relay id = some queue' ∧ m ∈ queue') ∨ Fits N s relay id m.envelope
  chats : ∀ p k m, m ∈ s'.messages p k →
    m ∈ s.messages p k ∨ ∃ typeVersion text, m.frame = .chat typeVersion text
  offers : ∀ offer ∈ s'.offers, offer ∈ s.offers ∨ Made N s offer
  spawned : ∀ p scanned n k, (Task.responder p scanned n, k) ∈ s'.spawned →
    (Task.responder p scanned n, k) ∈ s.spawned ∨ Made N s scanned ∧ Agreed N s p scanned.bundle k

theorem Calm.ext (hc : Calm N s s') : Ext s s' := Ext.of_eq hc.conversations hc.mintedBy

theorem Calm.row? (hc : Calm N s s') (p : String) (k : ConversationId) : s'.row? p k = s.row? p k := by
  unfold Net.row?
  rw [hc.conversations]

theorem Calm.inv (hc : Calm N s s') (h : Inv N s) : Inv N s' where
  fresh n i hn := by
    rw [hc.mintedBy] at hn
    rw [hc.nextBox]
    exact h.fresh n i hn
  rows p k x hx := by
    rw [hc.row?] at hx
    obtain ⟨hparty, n, hn, hminted, hbox⟩ := h.rows p k x hx
    refine ⟨hparty, n, hn, ?_, hc.boxes p k x n hx hn hbox⟩
    rw [hc.mintedBy]
    exact hminted
  distinct p k x l y n hx hy := by
    rw [hc.row?] at hx hy
    exact h.distinct p k x l y n hx hy
  wires relay id queue m hqueue hm := by
    rcases hc.wires relay id queue m hqueue hm with ⟨queue', hqueue', hm'⟩ | hfits
    · exact (h.wires relay id queue' m hqueue' hm').mono hc.ext
    · exact hfits.mono hc.ext
  chats p k m hm := by
    rcases hc.chats p k m hm with hm | hchat
    · exact h.chats p k m hm
    · exact hchat
  offers offer hoffer := by
    rcases hc.offers offer hoffer with hoffer | hmade
    · exact (h.offers offer hoffer).mono hc.ext
    · exact hmade.mono hc.ext
  spawned p scanned n k hk := by
    have hpaired : Made N s scanned ∧ Agreed N s p scanned.bundle k :=
      (hc.spawned p scanned n k hk).elim (h.spawned p scanned n k) id
    exact ⟨hpaired.1.mono hc.ext, hpaired.2.mono hc.ext⟩

/-- A calm step that keeps the other tasks' subscriptions and mailboxes. -/
theorem Calm.effect {i : Task} (hc : Calm N s s') (h : Inv N s)
    (hconn : ∀ j, j ≠ i → s'.conn j = s.conn j)
    (hkept : ∀ j, j ≠ i → ∀ n, s.mintedBy n = some j → (s.boxes (N.relayOf j.party) n).isSome →
      (s'.boxes (N.relayOf j.party) n).isSome) : Effect N i s s' :=
  ⟨hc.inv h, hc.ext, fun j hj =>
    ⟨Mine.of_eq hc.conversations hc.mintedBy (hconn j hj), hkept j hj⟩⟩

theorem Calm.quiet {i : Task} (hc : Calm N s s') (h : Inv N s) (hconn : s'.conn = s.conn)
    (hkept : ∀ j, j ≠ i → ∀ n, s.mintedBy n = some j → (s.boxes (N.relayOf j.party) n).isSome →
      (s'.boxes (N.relayOf j.party) n).isSome) : Quiet N i s s' :=
  ⟨hc.effect h (fun j _ => congrFun hconn j) hkept,
    Mine.of_eq hc.conversations hc.mintedBy (congrFun hconn i)⟩

/-- Changing fields the invariant does not read. -/
theorem Calm.of_eq (hconversations : s'.conversations = s.conversations)
    (hminted : s'.mintedBy = s.mintedBy) (hnext : s'.nextBox = s.nextBox) (hboxes : s'.boxes = s.boxes)
    (hmessages : s'.messages = s.messages) (hoffers : s'.offers = s.offers)
    (hspawned : s'.spawned = s.spawned) : Calm N s s' where
  conversations := hconversations
  mintedBy := hminted
  nextBox := hnext
  boxes _ _ _ _ _ _ hbox := by
    rw [hboxes]
    exact hbox
  wires relay id queue m hqueue hm := .inl ⟨queue, hboxes ▸ hqueue, hm⟩
  chats p k m hm := .inl (hmessages ▸ hm)
  offers offer hoffer := .inl (hoffers ▸ hoffer)
  spawned p scanned n k hk := .inl (hspawned ▸ hk)

theorem Calm.refl (s : Net) : Calm N s s := Calm.of_eq rfl rfl rfl rfl rfl rfl rfl

theorem Quiet.refl {i : Task} (h : Inv N s) : Quiet N i s s :=
  ⟨⟨h, Ext.of_eq rfl rfl, fun _ _ => ⟨Mine.of_eq rfl rfl rfl, fun _ _ hbox => hbox⟩⟩,
    Mine.of_eq rfl rfl rfl⟩

end Inv

/-! ## What the operations do -/

section Operations

variable {N : Config} {i : Task} {s s' : Net}

theorem calm_setConn (conn : Option (ℕ × ℕ)) : Calm N s (s.setConn i conn) :=
  Calm.of_eq rfl rfl rfl rfl rfl rfl rfl

/-- Subscribing, or losing a subscription. -/
theorem effect_setConn (h : Inv N s) (conn : Option (ℕ × ℕ)) : Effect N i s (s.setConn i conn) :=
  (calm_setConn conn).effect h (fun _ hj => Function.update_of_ne hj _ _) fun _ _ _ _ hbox => hbox

theorem setBox_boxes (relay id relay' id' : ℕ) (queue : Option (List Queued)) :
    (s.setBox relay id queue).boxes relay' id' =
      if relay' = relay ∧ id' = id then queue else s.boxes relay' id' := by
  unfold Net.setBox
  by_cases hrelay : relay' = relay
  · subst hrelay
    simp only [Function.update_self, Function.update_apply, true_and]
  · simp [hrelay]

variable {relay id : ℕ}

/-- Replacing a mailbox: it stays unless it is no row's, and only fitting envelopes come in. -/
theorem calm_setBox {queue : Option (List Queued)}
    (hlive : queue = none → ∀ p k x, s.row? p k = some x → x.recv = some id → N.relayOf p ≠ relay)
    (hwires : ∀ queue', queue = some queue' → ∀ m ∈ queue',
      (∃ old, s.boxes relay id = some old ∧ m ∈ old) ∨ Fits N s relay id m.envelope) :
    Calm N s (s.setBox relay id queue) where
  conversations := rfl
  mintedBy := rfl
  nextBox := rfl
  boxes p k x n hx hn hbox := by
    rw [setBox_boxes]
    split
    · rename_i heq
      obtain ⟨hrelay, rfl⟩ := heq
      cases queue with
      | none => exact absurd hrelay (hlive rfl p k x hx hn)
      | some queue => rfl
    · exact hbox
  wires relay' id' queue' m hqueue hm := by
    rw [setBox_boxes] at hqueue
    split at hqueue
    · rename_i heq
      obtain ⟨rfl, rfl⟩ := heq
      exact hwires queue' hqueue m hm
    · exact .inl ⟨queue', hqueue, hm⟩
  chats _ _ _ hm := .inl hm
  offers _ hoffer := .inl hoffer
  spawned _ _ _ _ hk := .inl hk

/-- A mailbox that stays, with fitting envelopes. -/
theorem calm_setBox_some {queue : List Queued}
    (hwires : ∀ m ∈ queue, (∃ old, s.boxes relay id = some old ∧ m ∈ old) ∨
      Fits N s relay id m.envelope) : Calm N s (s.setBox relay id (some queue)) := by
  refine calm_setBox (fun hnone => by cases hnone) fun queue' hqueue' => ?_
  cases hqueue'
  exact hwires

theorem isSome_setBox_some {relay id relay' id' : ℕ} {queue : List Queued}
    (hbox : (s.boxes relay' id').isSome) :
    ((s.setBox relay id (some queue)).boxes relay' id').isSome := by
  rw [setBox_boxes]
  split
  · rfl
  · exact hbox

/-- Depositing a fitting envelope. -/
theorem quiet_enqueue (h : Inv N s) {envelope : Sealed}
    (hfits : Fits N s relay id envelope) : Quiet N i s (s.enqueue relay id envelope) := by
  unfold Net.enqueue
  split
  · exact Quiet.refl h
  · rename_i queue hqueue
    have hc : Calm N s (s.setBox relay id (some (queue ++ [⟨s.nextMsg, envelope⟩]))) := by
      refine calm_setBox_some fun m hm => ?_
      rcases List.mem_append.mp hm with hm | hm
      · exact .inl ⟨queue, hqueue, hm⟩
      · rw [List.mem_singleton] at hm
        subst hm
        exact .inr hfits
    -- the counter of message ids is no part of the invariant
    exact Calm.quiet { hc with } h rfl fun _ _ _ _ hbox => isSome_setBox_some hbox

/-- Acking a message. -/
theorem quiet_ackMessage (h : Inv N s) (id : ℕ) : Quiet N i s (ackMessage i s id) := by
  unfold ackMessage
  split
  · exact Quiet.refl h
  · rename_i relay box _
    cases hbox : s.boxes relay box with
    | none =>
      -- acking into a mailbox that is gone changes nothing
      have hsame : s.setBox relay box none = s := by
        unfold Net.setBox
        rw [← hbox, Function.update_eq_self, Function.update_eq_self]
      rw [Option.map_none, hsame]
      exact Quiet.refl h
    | some queue =>
      rw [Option.map_some]
      refine (calm_setBox_some fun m hm => .inl ⟨queue, hbox, ?_⟩).quiet h rfl
        fun _ _ _ _ hbox => isSome_setBox_some hbox
      exact (List.mem_filter.mp hm).1

/-- The id was generated for the task and is no row's inbox. -/
def Reserved (i : Task) (n : ℕ) (s : Net) : Prop :=
  s.mintedBy n = some i ∧ ∀ p k x, s.row? p k = some x → x.recv ≠ some n

/-- Deleting a mailbox of the task's own that is no row's inbox. -/
theorem quiet_delete (h : Inv N s) {n : ℕ} (hn : Reserved i n s) :
    Quiet N i s (s.setBox (N.relayOf i.party) n none) := by
  have hc : Calm N s (s.setBox (N.relayOf i.party) n none) :=
    calm_setBox (fun _ p k x hx hxn => absurd hxn (hn.2 p k x hx)) fun _ hnone => by cases hnone
  refine hc.quiet h rfl fun j hj m hm hbox => ?_
  rw [setBox_boxes, if_neg]
  · exact hbox
  · rintro ⟨-, rfl⟩
    exact hj (Option.some.inj (hm.symm.trans hn.1))

theorem setMessages_messages (p q : String) (conv k : ConversationId)
    (messages : List (StoredMessage carrier.toCarrier)) :
    (s.setMessages p conv messages).messages q k =
      if q = p ∧ k = conv then messages else s.messages q k := by
  unfold Net.setMessages
  by_cases hq : q = p
  · subst hq
    simp only [Function.update_self, Function.update_apply, true_and]
  · simp [hq]

variable {conv : ConversationId} {p : String}

/-- Storing messages: whatever comes in is a chat. -/
theorem quiet_setMessages (h : Inv N s) {messages : List (StoredMessage carrier.toCarrier)}
    (hchats : ∀ m ∈ messages, (∃ m' ∈ s.messages p conv, m.frame = m'.frame) ∨
      ∃ typeVersion text, m.frame = .chat typeVersion text) :
    Quiet N i s (s.setMessages p conv messages) := by
  have hc : Calm N s (s.setMessages p conv messages) := by
    refine { Calm.refl s with
      conversations := rfl
      mintedBy := rfl
      nextBox := rfl
      chats := fun q k m hm => ?_ }
    rw [setMessages_messages] at hm
    split at hm
    · rename_i heq
      obtain ⟨rfl, rfl⟩ := heq
      rcases hchats m hm with ⟨m', hm', hframe⟩ | hchat
      · obtain ⟨typeVersion, text, hm'⟩ := h.chats q k m' hm'
        exact .inr ⟨typeVersion, text, hframe.trans hm'⟩
      · exact .inr hchat
    · exact .inl hm
  exact hc.quiet h rfl fun _ _ _ _ hbox => hbox

/-- Making an offer. -/
theorem quiet_offers (h : Inv N s) {offer : Offer} (hmade : Made N s offer) :
    Quiet N i s { s with offers := s.offers ++ [offer] } := by
  have hc : Calm N s { s with offers := s.offers ++ [offer] } := by
    refine { Calm.refl s with
      conversations := rfl
      mintedBy := rfl
      nextBox := rfl
      offers := fun offer' hoffer' => ?_ }
    rcases List.mem_append.mp hoffer' with hoffer' | hoffer'
    · exact .inl hoffer'
    · rw [List.mem_singleton] at hoffer'
      subst hoffer'
      exact .inr hmade
  exact hc.quiet h rfl fun _ _ _ _ hbox => hbox

/-- Spawning a listener for a conversation; a responder's is agreed upon. -/
theorem quiet_spawned (h : Inv N s) (hagreed : ∀ p scanned n, i = .responder p scanned n →
      Made N s scanned ∧ Agreed N s p scanned.bundle conv) :
    Quiet N i s { s with spawned := s.spawned ++ [(i, conv)] } := by
  have hc : Calm N s { s with spawned := s.spawned ++ [(i, conv)] } := by
    refine { Calm.refl s with
      conversations := rfl
      mintedBy := rfl
      nextBox := rfl
      spawned := fun p scanned n k hk => ?_ }
    rcases List.mem_append.mp hk with hk | hk
    · exact .inl hk
    · rw [List.mem_singleton] at hk
      obtain ⟨htask, rfl⟩ := Prod.mk.inj hk
      exact .inr (hagreed p scanned n htask.symm)
  exact hc.quiet h rfl fun _ _ _ _ hbox => hbox

/-- Steps that change rows or generate ids, and leave messages, offers and spawned listeners alone. -/
theorem Inv.extend (h : Inv N s) (he : Ext s s')
    (hfresh : ∀ n j, s'.mintedBy n = some j → n < s'.nextBox)
    (hrows : ∀ p k x, s'.row? p k = some x → x.creator.party = p ∧
      ∃ n, x.recv = some n ∧ s'.mintedBy n = some x.creator ∧ (s'.boxes (N.relayOf p) n).isSome)
    (hdistinct : ∀ p k x l y n, s'.row? p k = some x → s'.row? p l = some y → x.recv = some n →
      y.recv = some n → k = l)
    (hwires : ∀ relay id queue m, s'.boxes relay id = some queue → m ∈ queue →
      ∃ old, s.boxes relay id = some old ∧ m ∈ old)
    (hmessages : s'.messages = s.messages) (hoffers : s'.offers = s.offers)
    (hspawned : s'.spawned = s.spawned) : Inv N s' where
  fresh := hfresh
  rows := hrows
  distinct := hdistinct
  wires relay id queue m hqueue hm := by
    obtain ⟨old, hold, hm'⟩ := hwires relay id queue m hqueue hm
    exact (h.wires relay id old m hold hm').mono he
  chats p k m hm := h.chats p k m (hmessages ▸ hm)
  offers offer hoffer := (h.offers offer (hoffers ▸ hoffer)).mono he
  spawned p scanned n k hk := by
    obtain ⟨hmade, hagreed⟩ := h.spawned p scanned n k (hspawned ▸ hk)
    exact ⟨hmade.mono he, hagreed.mono he⟩

/-- The mailbox exists on the task's relay. -/
def Live (N : Config) (i : Task) (n : ℕ) (s : Net) : Prop := (s.boxes (N.relayOf i.party) n).isSome

theorem mint_boxes (relay id : ℕ) :
    (s.mint N i).boxes relay id =
      if relay = N.relayOf i.party ∧ id = s.nextBox then some [] else s.boxes relay id :=
  setBox_boxes _ _ _ _ _

theorem isSome_mint (hbox : (s.boxes relay id).isSome) : ((s.mint N i).boxes relay id).isSome := by
  rw [mint_boxes]
  split
  · rfl
  · exact hbox

theorem mint_mintedBy (n : ℕ) :
    (s.mint N i).mintedBy n = if n = s.nextBox then some i else s.mintedBy n :=
  Function.update_apply _ _ _ _

/-- An id not generated yet is nobody's. -/
theorem Inv.unminted (h : Inv N s) : s.mintedBy s.nextBox = none := by
  cases hm : s.mintedBy s.nextBox with
  | none => rfl
  | some j => exact absurd (h.fresh _ j hm) (Nat.lt_irrefl _)

theorem Inv.minted_mint (h : Inv N s) {n : ℕ} {j : Task} (hn : s.mintedBy n = some j) :
    (s.mint N i).mintedBy n = some j := by
  rw [mint_mintedBy, if_neg (Nat.ne_of_lt (h.fresh n j hn))]
  exact hn

/-- Generating a mailbox. -/
theorem effect_mint (h : Inv N s) : Effect N i s (s.mint N i) := by
  have hext : Ext s (s.mint N i) :=
    ⟨fun _ _ x hx => ⟨x, hx, Later.refl x⟩, fun n j hn => h.minted_mint hn⟩
  refine ⟨h.extend hext ?_ ?_ h.distinct ?_ rfl rfl rfl, hext, fun j hj =>
    ⟨⟨fun _ _ _ hx _ => hx, fun n hn => ?_, rfl⟩, fun _ _ hbox => isSome_mint hbox⟩⟩
  · intro n j hn
    show n < s.nextBox + 1
    rw [mint_mintedBy] at hn
    split at hn
    · omega
    · exact Nat.lt_succ_of_lt (h.fresh n j hn)
  · intro p k x hx
    obtain ⟨hparty, n, hn, hminted, hbox⟩ := h.rows p k x hx
    exact ⟨hparty, n, hn, h.minted_mint hminted, isSome_mint hbox⟩
  · intro relay id queue m hqueue hm
    rw [mint_boxes] at hqueue
    split at hqueue
    · cases hqueue
      exact absurd hm (List.not_mem_nil)
    · exact ⟨queue, hqueue, hm⟩
  · rw [mint_mintedBy] at hn
    split at hn
    · exact absurd (Option.some.inj hn).symm hj
    · exact hn

/-- The new id is the task's, is no row's yet, and its mailbox exists. -/
theorem reserved_mint (h : Inv N s) :
    Reserved i s.nextBox (s.mint N i) ∧ Live N i s.nextBox (s.mint N i) := by
  refine ⟨⟨?_, fun p k x hx hn => ?_⟩, ?_⟩
  · rw [mint_mintedBy, if_pos rfl]
  · obtain ⟨-, n, hxn, hminted, -⟩ := h.rows p k x hx
    cases hn.symm.trans hxn
    rw [h.unminted] at hminted
    cases hminted
  · unfold Live
    rw [mint_boxes, if_pos ⟨rfl, rfl⟩]
    rfl

theorem insertRow_row? (convo : Conversation carrier.toCarrier) (p : String) (k : ConversationId) :
    (s.insertRow i convo).row? p k =
      if p = i.party ∧ k = (s.conversations i.party).length then some ⟨.routed convo, i⟩
      else s.row? p k := by
  unfold Net.row? Net.insertRow
  by_cases hp : p = i.party
  · subst hp
    simp only [Function.update_self, true_and]
    split
    · rename_i hk
      subst hk
      rw [List.getElem?_append_right (Nat.le_refl _), Nat.sub_self, List.getElem?_cons_zero]
    · rename_i hk
      rcases Nat.lt_or_gt_of_ne hk with hk | hk
      · rw [List.getElem?_append_left hk]
      · rw [List.getElem?_eq_none, List.getElem?_eq_none (Nat.le_of_lt hk)]
        rw [List.length_append, List.length_singleton]
        exact hk
  · simp only [Function.update_of_ne hp, hp, false_and, if_false]

variable {x : NetRow}

/-- A row is below the end of its table. -/
theorem lt_of_row? {k : ConversationId} (hx : s.row? p k = some x) :
    k < (s.conversations p).length :=
  (List.getElem?_eq_some_iff.mp hx).1

theorem row?_insertRow_of_row? {convo : Conversation carrier.toCarrier}
    {k : ConversationId} (hx : s.row? p k = some x) : (s.insertRow i convo).row? p k = some x := by
  rw [insertRow_row?, if_neg]
  · exact hx
  · rintro ⟨rfl, rfl⟩
    exact Nat.lt_irrefl _ (lt_of_row? hx)

/-- Inserting a row on a reserved inbox. -/
theorem effect_insertRow (h : Inv N s) {convo : Conversation carrier.toCarrier} {n : ℕ}
    (hn : Reserved i n s) (hlive : Live N i n s) (hrecv : convo.mailboxRecv = some n) :
    Effect N i s (s.insertRow i convo) := by
  have hext : Ext s (s.insertRow i convo) :=
    ⟨fun _ _ x hx => ⟨x, row?_insertRow_of_row? hx, Later.refl x⟩, fun _ _ hm => hm⟩
  refine ⟨h.extend hext h.fresh ?_ ?_ (fun _ _ queue _ hqueue hm => ⟨queue, hqueue, hm⟩) rfl rfl rfl,
    hext, fun j hj => ⟨⟨fun p k x hx hxj => ?_, fun _ hm => hm, rfl⟩, fun _ _ hbox => hbox⟩⟩
  · intro p k x hx
    rw [insertRow_row?] at hx
    split at hx
    · rename_i heq
      obtain ⟨rfl, rfl⟩ := heq
      cases hx
      exact ⟨rfl, n, hrecv, hn.1, hlive⟩
    · exact h.rows p k x hx
  · -- the inbox of the new row is no other row's
    intro p k x l y m hx hy hxm hym
    rw [insertRow_row?] at hx hy
    split at hx
    · rename_i hk
      cases hx
      split at hy
      · rename_i hl
        exact hk.2.trans hl.2.symm
      · exact absurd (hym.trans (hxm.symm.trans hrecv)) (hn.2 p l y hy)
    · split at hy
      · cases hy
        exact absurd (hxm.trans (hym.symm.trans hrecv)) (hn.2 p k x hx)
      · exact h.distinct p k x l y m hx hy hxm hym
  · rw [insertRow_row?] at hx
    split at hx
    · cases hx
      exact absurd hxj.symm hj
    · exact hx

theorem setRow_row? (p q : String) (conv k : ConversationId) (row : ConversationRow carrier) :
    (s.setRow p conv row).row? q k =
      if q = p ∧ k = conv then (s.row? q k).map fun x => { x with row } else s.row? q k := by
  unfold Net.row? Net.setRow
  by_cases hq : q = p
  · subst hq
    simp only [Function.update_self, true_and, List.getElem?_modify]
    by_cases hk : k = conv
    · subst hk
      simp
    · simp [hk, Ne.symm hk]
  · simp only [Function.update_of_ne hq, hq, false_and, if_false]

/-- Writing a row back changes nothing. -/
theorem setRow_self (hx : s.row? p conv = some x) : s.setRow p conv x.row = s := by
  unfold Net.setRow
  have hsame : ((s.conversations p).modify conv fun y => { y with row := x.row }) = s.conversations p := by
    apply List.ext_getElem?
    intro k
    rw [List.getElem?_modify]
    by_cases hk : conv = k
    · subst hk
      unfold Net.row? at hx
      simp [hx]
    · simp [hk]
  rw [hsame, Function.update_eq_self]

/-- Adding columns to a row of the task's own. -/
theorem effect_setRow (h : Inv N s)
    {row : ConversationRow carrier} (hx : s.row? p conv = some x) (hi : x.creator = i)
    (hlater : Later x { x with row }) : Effect N i s (s.setRow p conv row) := by
  have hrow : ∀ q k y, (s.setRow p conv row).row? q k = some y →
      ∃ y', s.row? q k = some y' ∧ Later y' y ∧ (y = y' ∨ y.creator = i) := by
    intro q k y hy
    rw [setRow_row?] at hy
    split at hy
    · rename_i heq
      obtain ⟨rfl, rfl⟩ := heq
      rw [hx, Option.map_some] at hy
      cases hy
      exact ⟨x, hx, hlater, .inr hi⟩
    · exact ⟨y, hy, Later.refl y, .inl rfl⟩
  have hext : Ext s (s.setRow p conv row) := by
    refine ⟨fun q k y hy => ?_, fun _ _ hm => hm⟩
    rw [setRow_row?]
    split
    · rename_i heq
      obtain ⟨rfl, rfl⟩ := heq
      cases hx.symm.trans hy
      exact ⟨{ x with row }, by rw [hx, Option.map_some], hlater⟩
    · exact ⟨y, hy, Later.refl y⟩
  refine ⟨h.extend hext h.fresh ?_ ?_ (fun _ _ queue _ hqueue hm => ⟨queue, hqueue, hm⟩) rfl rfl rfl,
    hext, fun j hj => ⟨⟨fun q k y hy hyj => ?_, fun _ hm => hm, rfl⟩, fun _ _ hbox => hbox⟩⟩
  · intro q k y hy
    obtain ⟨y', hy', hle, -⟩ := hrow q k y hy
    obtain ⟨hparty, n, hn, hminted, hbox⟩ := h.rows q k y' hy'
    rw [hle.creator, hle.recv]
    exact ⟨hparty, n, hn, hminted, hbox⟩
  · intro q k y l z n hy hz hyn hzn
    obtain ⟨y', hy', hyle, -⟩ := hrow q k y hy
    obtain ⟨z', hz', hzle, -⟩ := hrow q l z hz
    exact h.distinct q k y' l z' n hy' hz' (hyle.recv ▸ hyn) (hzle.recv ▸ hzn)
  · obtain ⟨y', hy', -, hsame | hcreator⟩ := hrow q k y hy
    · rw [hsame]
      exact hy'
    · exact absurd (hyj.symm.trans hcreator) hj

end Operations

end Titlan.Pairing.Network
