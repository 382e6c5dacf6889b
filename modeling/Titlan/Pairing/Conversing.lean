import Titlan.Pairing.Provenance

/-! # Tasks that work on existing conversations

A task relies on the others for its own rows, generated ids, mailboxes and subscription, and promises the
same to them. An assertion is *lasting* when it speaks of such things only: it then survives whatever the
others do, and the task's own operations that leave its own things alone. Conversation listeners and
`send_chat` calls perform nothing else: what they deposit are chats, and as no mailbox of a row is ever
lost, no listener recovers. -/

namespace Titlan.Pairing.Network

open Foundation

/-! ## What a task relies on -/

/-- What a task is verified against, given what its operations do and what is checked before them. -/
def settingOf (N : Config) (i : Task) {S : Signature} (exec : (o : S.Op) → Net → S.Answer o → Net → Prop)
    (check : S.Op → Net → Prop) : Setting S Net where
  exec := exec
  check := check
  rely s s' := Inv N s → Inv N s' ∧ Ext s s' ∧ Own N i s s'
  guar s s' := Inv N s → Effect N i s s'

/-- A responder that is about to spawn a listener has agreed with the party that made the offer. -/
def Announces (N : Config) (i : Task) (o : PairingOp carrier) (s : Net) : Prop :=
  ∀ k, o = .spawnConversation k → ∀ p scanned n, i = .responder p scanned n →
    Made N s scanned ∧ Agreed N s p scanned.bundle k

/-- The setting of a task. -/
abbrev setting (N : Config) (i : Task) : Setting (pairingSig carrier) Net :=
  settingOf N i (fun o s r s' => ∃ c, perform N i c s o = some (r, s')) (Announces N i)

/-- The setting of an engine program it runs for a conversation. -/
abbrev aboutSetting (N : Config) (i : Task) (conv : ConversationId) :
    Setting (engineSig carrier.toCarrier) Net :=
  settingOf N i (fun o s r s' => ∃ r', r' = r ∧ ∃ c, perform N i c s (.about conv o) = some (r', s'))
    fun o => Announces N i (.about conv o)

theorem triple_about {N : Config} {i : Task} {conv : ConversationId} {α : Type} {pre : Net → Prop}
    {p : EngineM carrier.toCarrier α} {post : α → Net → Prop}
    (h : Triple (aboutSetting N i conv) pre p post) :
    Triple (setting N i) pre (aboutConversation conv p) post :=
  Triple.rename (S := engineSig carrier.toCarrier) (T := pairingSig carrier) (C := setting N i)
    (f := PairingOp.about conv) (g := fun _ r => r) h

/-! ## Lasting assertions -/

/-- The assertion survives steps that leave the task's own things alone. -/
def Lasting (N : Config) (i : Task) (a : Net → Prop) : Prop :=
  ∀ s s', Inv N s' → Ext s s' → Mine i s s' → a s → a s'

/-- The invariant and an assertion. -/
def At (N : Config) (a : Net → Prop) (s : Net) : Prop := Inv N s ∧ a s

section Lasting

variable {N : Config} {i : Task} {a b : Net → Prop}

theorem Lasting.and (ha : Lasting N i a) (hb : Lasting N i b) : Lasting N i fun s => a s ∧ b s :=
  fun s s' hinv he hm h => ⟨ha s s' hinv he hm h.1, hb s s' hinv he hm h.2⟩

theorem lasting_const (φ : Prop) : Lasting N i fun _ => φ := fun _ _ _ _ _ h => h

theorem lasting_of_ext (h : ∀ s s', Ext s s' → a s → a s') : Lasting N i a :=
  fun s s' _ he _ => h s s' he

/-- A row of the task's own stays as it is. -/
theorem lasting_row (p : String) (k : ConversationId) (x : NetRow) :
    Lasting N i fun s => s.row? p k = some x ∧ x.creator = i := by
  rintro s s' - he hm ⟨hx, hi⟩
  obtain ⟨x', hx', hlater⟩ := he.rows p k x hx
  have hsame := hm.rows p k x' hx' (hlater.creator.trans hi)
  cases hx.symm.trans hsame
  exact ⟨hx', hi⟩

/-- A reserved id stays reserved: whoever inserts a row on it has generated it. -/
theorem lasting_reserved (n : ℕ) : Lasting N i (Reserved i n) := by
  rintro s s' hinv he hm ⟨hn, hfree⟩
  have hn' := he.minted n i hn
  refine ⟨hn', fun p k x hx hxn => ?_⟩
  obtain ⟨-, m, hxm, hminted, -⟩ := hinv.rows p k x hx
  cases hxn.symm.trans hxm
  have hcreator : x.creator = i := Option.some.inj (hminted.symm.trans hn')
  exact hfree p k x (hm.rows p k x hx hcreator) hxn

theorem lasting_conn (box : Option (ℕ × ℕ)) : Lasting N i fun s => s.conn i = box :=
  fun _ _ _ _ hm h => hm.conn.trans h

/-- Some row's inbox. -/
theorem lasting_recv (p : String) (k : ConversationId) (n : ℕ) :
    Lasting N i fun s => ∃ x, s.row? p k = some x ∧ x.recv = some n := by
  refine lasting_of_ext fun s s' he h => ?_
  obtain ⟨x, hx, hn⟩ := h
  obtain ⟨x', hx', hlater⟩ := he.rows p k x hx
  exact ⟨x', hx', hlater.recv.trans hn⟩

theorem lasting_exists (p : String) (k : ConversationId) :
    Lasting N i fun s => ∃ x, s.row? p k = some x := by
  refine lasting_of_ext fun s s' he h => ?_
  obtain ⟨x, hx⟩ := h
  obtain ⟨x', hx', -⟩ := he.rows p k x hx
  exact ⟨x', hx'⟩

theorem lasting_fits (envelope : Sealed) :
    Lasting N i fun s => ∃ relay id, Fits N s relay id envelope :=
  lasting_of_ext fun _ _ he ⟨relay, id, hfits⟩ => ⟨relay, id, hfits.mono he⟩

end Lasting

/-! ## Rules -/

section Rules

variable {N : Config} {i : Task} {S : Signature} {α : Type}
  {exec : (o : S.Op) → Net → S.Answer o → Net → Prop} {check : S.Op → Net → Prop}
  {a : Net → Prop} {post : α → Net → Prop} {o : S.Op} {k : S.Answer o → Program S α}
  {b : S.Answer o → Net → Prop}

theorem stable_at (ha : Lasting N i a) : Stable (settingOf N i exec check) (At N a) := by
  rintro s s' hrely ⟨hinv, hs⟩
  obtain ⟨hinv', hext, hown⟩ := hrely hinv
  exact ⟨hinv', ha s s' hinv' hext hown.toMine hs⟩

/-- An operation from a stable assertion. -/
theorem triple_effect (ha : Stable (settingOf N i exec check) (At N a))
    (hc : ∀ s, Inv N s → a s → check o s)
    (hstep : ∀ s r s', Inv N s → a s → exec o s r s' → Effect N i s s' ∧ b r s')
    (hk : ∀ r, Triple (settingOf N i exec check) (At N (b r)) (k r) post) :
    Triple (settingOf N i exec check) (At N a) (Program.perform o >>= k) post := by
  refine triple_perform ha (fun s hs => hc s hs.1 hs.2) (fun s r s' hs hexec => ?_) hk
  obtain ⟨heffect, hb⟩ := hstep s r s' hs.1 hs.2 hexec
  exact ⟨fun _ => heffect, heffect.inv, hb⟩

/-- An operation that leaves the task's own things alone: the lasting assertion is kept. -/
theorem triple_quiet (ha : Lasting N i a) (hc : ∀ s, Inv N s → a s → check o s)
    (hstep : ∀ s r s', Inv N s → a s → exec o s r s' → Quiet N i s s' ∧ b r s')
    (hk : ∀ r, Triple (settingOf N i exec check) (At N fun s => a s ∧ b r s) (k r) post) :
    Triple (settingOf N i exec check) (At N a) (Program.perform o >>= k) post := by
  refine triple_effect (b := fun r s => a s ∧ b r s) (stable_at ha) hc (fun s r s' hinv hs hexec => ?_) hk
  obtain ⟨hquiet, hb⟩ := hstep s r s' hinv hs hexec
  exact ⟨hquiet.toEffect, ha s s' hquiet.inv hquiet.ext hquiet.mine hs, hb⟩

/-- The same when nothing is learned from the answer. -/
theorem triple_kept (ha : Lasting N i a) (hc : ∀ s, Inv N s → a s → check o s)
    (hstep : ∀ s r s', Inv N s → a s → exec o s r s' → Quiet N i s s')
    (hk : ∀ r, Triple (settingOf N i exec check) (At N a) (k r) post) :
    Triple (settingOf N i exec check) (At N a) (Program.perform o >>= k) post := by
  refine triple_quiet (b := fun _ _ => True) ha hc
    (fun s r s' hinv hs hexec => ⟨hstep s r s' hinv hs hexec, trivial⟩) fun r => ?_
  exact (hk r).of_pre fun _ h => ⟨h.1, h.2.1⟩

/-- Forgetting what was learned. -/
theorem triple_forget {b : Net → Prop} {p : Program S α}
    (h : Triple (settingOf N i exec check) (At N a) p post) :
    Triple (settingOf N i exec check) (At N fun s => a s ∧ b s) p post :=
  h.of_pre fun _ hs => ⟨hs.1, hs.2.1⟩

theorem triple_stop {x : α} (ha : Lasting N i a) :
    Triple (settingOf N i exec check) (At N a) (.ret x) fun _ => At N a :=
  triple_ret (stable_at ha) fun _ hs => hs

theorem triple_done {x : α} (ha : Lasting N i a) (h : ∀ s, Inv N s → a s → post x s) :
    Triple (settingOf N i exec check) (At N a) (.ret x) post :=
  triple_ret (stable_at ha) fun s hs => h s hs.1 hs.2

end Rules

/-! ## Operations for a conversation -/

section About

variable {N : Config} {i : Task} {conv : ConversationId} {α : Type} {a : Net → Prop} {s s' : Net}

theorem announces_about (o : Op carrier.toCarrier) (s : Net) : Announces N i (.about conv o) s :=
  fun _ h => by cases h

theorem about_store {o : StoreOp carrier.toCarrier} {r : o.Answer}
    (h : (aboutSetting N i conv).exec (.store o) s r s') :
    ∃ c, performStore i.party conv c s o = (r, s') := by
  obtain ⟨r', rfl, c, hc⟩ := h
  exact ⟨c, Option.some.inj hc⟩

theorem about_relay {o : RelayOp carrier.toCarrier} {r : o.Answer}
    (h : (aboutSetting N i conv).exec (.relay o) s r s') : ∃ c, performRelay N i c s o = (r, s') := by
  obtain ⟨r', rfl, c, hc⟩ := h
  exact ⟨c, Option.some.inj hc⟩

theorem about_socket {o : SocketOp carrier.toCarrier} {r : o.Answer}
    (h : (aboutSetting N i conv).exec (.socket o) s r s') :
    ∃ c, performSocket N i c s o = some (r, s') := by
  obtain ⟨r', rfl, c, hc⟩ := h
  exact ⟨c, hc⟩

section Rules

variable {o : Op carrier.toCarrier} {k : o.Answer → EngineM carrier.toCarrier α} {post : α → Net → Prop}

theorem triple_about_quiet {b : o.Answer → Net → Prop} (ha : Lasting N i a)
    (hstep : ∀ s r s', Inv N s → a s → (aboutSetting N i conv).exec o s r s' → Quiet N i s s' ∧ b r s')
    (hk : ∀ r, Triple (aboutSetting N i conv) (At N fun s => a s ∧ b r s) (k r) post) :
    Triple (aboutSetting N i conv) (At N a) (o.program >>= k) post :=
  triple_quiet (S := engineSig carrier.toCarrier) ha (fun s _ _ => announces_about o s) hstep hk

theorem triple_about_kept (ha : Lasting N i a)
    (hstep : ∀ s r s', Inv N s → a s → (aboutSetting N i conv).exec o s r s' → Quiet N i s s')
    (hk : ∀ r, Triple (aboutSetting N i conv) (At N a) (k r) post) :
    Triple (aboutSetting N i conv) (At N a) (o.program >>= k) post :=
  triple_kept (S := engineSig carrier.toCarrier) ha (fun s _ _ => announces_about o s) hstep hk

/-- Notifications are no part of the network. -/
theorem triple_notify {n : Notice carrier.toCarrier} {k : Unit → EngineM carrier.toCarrier α}
    (ha : Lasting N i a) (hk : Triple (aboutSetting N i conv) (At N a) (k ()) post) :
    Triple (aboutSetting N i conv) (At N a) (notify n >>= k) post := by
  refine triple_about_kept ha (fun s r s' hinv _ hexec => ?_) fun _ => hk
  obtain ⟨r', -, c, hc⟩ := hexec
  cases hc
  exact Quiet.refl hinv

end Rules

variable {c : Choice}

/-- An access to messages or sessions. -/
theorem performStore_of_access {p : String} {o : StoreOp carrier.toCarrier}
    (ho : ∀ row : ConversationRow carrier, row.access o = none) :
    performStore p conv c s o = performMessages p conv c s o := by
  unfold performStore
  have hnone : ((s.conversations p)[conv]?.bind fun x => x.row.access o) = none := by
    cases (s.conversations p)[conv]? with
    | none => rfl
    | some x => exact ho x.row
  rw [hnone]

/-- An access to the row of a conversation. -/
theorem performStore_row {p : String} {o : StoreOp carrier.toCarrier} {x : NetRow}
    {out : o.Answer × ConversationRow carrier} (hx : s.row? p conv = some x)
    (ho : x.row.access o = some out) :
    performStore p conv c s o = (out.1, s.setRow p conv out.2) := by
  unfold performStore
  unfold Net.row? at hx
  rw [hx, Option.bind_some, ho]

theorem quiet_deposit (hinv : Inv N s) {relay id : ℕ} {envelope : Sealed}
    {r : Result DepositOutcome} (hfits : Fits N s relay id envelope)
    (h : performRelay N i c s (.deposit relay id envelope) = (r, s')) : Quiet N i s s' := by
  simp only [performRelay] at h
  split at h
  · cases h
    exact quiet_enqueue hinv hfits
  · cases h
    exact Quiet.refl hinv
  · cases h
    exact Quiet.refl hinv
  · cases h
    exact quiet_enqueue hinv hfits
  · cases h
    exact Quiet.refl hinv

/-! ## Sealing and opening -/

/-- A session that is loaded is the one with the peer. -/
theorem loadSession_exec (hinv : Inv N s) {peer : String} {call : SessionCall carrier.toCarrier}
    {r : Result (Option (String × String))}
    (hexec : (aboutSetting N i conv).exec (.store (.loadSession peer call)) s r s') :
    Quiet N i s s' ∧ ∀ session, r = .ok (some session) → session = (i.party, peer) := by
  obtain ⟨c, hc⟩ := about_store hexec
  rw [performStore_of_access fun _ => rfl] at hc
  cases hc
  refine ⟨Quiet.refl hinv, fun session hsession => ?_⟩
  split at hsession
  · cases hsession
  · cases hsession
    rfl

theorem storeSession_exec (hinv : Inv N s) {peer : String} {call : SessionCall carrier.toCarrier}
    {session : String × String} {r : Result Unit}
    (hexec : (aboutSetting N i conv).exec (.store (.storeSession peer call session)) s r s') :
    Quiet N i s s' := by
  obtain ⟨c, hc⟩ := about_store hexec
  rw [performStore_of_access fun _ => rfl] at hc
  cases hc
  exact Quiet.refl hinv

/-- What opens under the session with a peer was sealed by that peer for this party. -/
theorem triple_decryptMessage (ha : Lasting N i a) (peer : String) (wire : Sealed) :
    Triple (aboutSetting N i conv) (At N a) ((engine N i.party).decryptMessage peer wire)
      fun r s => At N a s ∧ ∀ frame, r = .ok frame →
        wire.sender = peer ∧ wire.receiver = i.party ∧ frame = wire.content.frame := by
  refine triple_about_quiet ha
    (fun s r s' hinv _ hexec => loadSession_exec hinv hexec) fun r => ?_
  have hpre : Lasting N i fun s => a s ∧ ∀ session, r = .ok (some session) → session = (i.party, peer) :=
    ha.and (lasting_const _)
  rcases r with e | session
  · exact triple_done hpre fun s hinv hs => ⟨⟨hinv, hs.1⟩, fun _ h => by cases h⟩
  · cases session with
    | none => exact triple_done hpre fun s hinv hs => ⟨⟨hinv, hs.1⟩, fun _ h => by cases h⟩
    | some session =>
      dsimp only [engine]
      by_cases hopens : wire.sender = session.2 ∧ wire.receiver = session.1
      · rw [if_pos hopens]
        refine triple_about_kept hpre
          (fun s r s' hinv _ hexec => storeSession_exec hinv hexec) fun stored => ?_
        rcases stored with e | _
        · exact triple_done hpre fun s hinv hs => ⟨⟨hinv, hs.1⟩, fun _ h => by cases h⟩
        · refine triple_done hpre fun s hinv hs => ⟨⟨hinv, hs.1⟩, fun frame hframe => ?_⟩
          obtain rfl := hs.2 session rfl
          cases hframe
          exact ⟨hopens.1, hopens.2, rfl⟩
      · rw [if_neg hopens]
        exact triple_done hpre fun s hinv hs => ⟨⟨hinv, hs.1⟩, fun _ h => by cases h⟩

/-! ## Sending -/

/-- The row of a conversation that exists is what is read. -/
theorem getConversation_exec (hinv : Inv N s) {r : Result (Option (Conversation carrier.toCarrier))}
    (hrow : ∃ x, s.row? i.party conv = some x)
    (hexec : (aboutSetting N i conv).exec (.store .getConversation) s r s') :
    Quiet N i s s' ∧ ∃ x, s'.row? i.party conv = some x ∧ r = .ok (some x.row.convo) := by
  obtain ⟨x, hx⟩ := hrow
  obtain ⟨c, hc⟩ := about_store hexec
  rw [performStore_row hx rfl, setRow_self hx] at hc
  cases hc
  exact ⟨Quiet.refl hinv, x, hx, rfl⟩

/-- A chat of some version. -/
def IsChat (frame : Frame) : Prop := ∃ typeVersion text, frame = .chat typeVersion text

/-- Pending rows are chats. -/
theorem pendingChat_exec (hinv : Inv N s) {r : Result (List (ℕ × Frame))}
    (hexec : (aboutSetting N i conv).exec (.store .pendingChat) s r s') :
    Quiet N i s s' ∧ ∀ pending, r = .ok pending → ∀ row ∈ pending, IsChat row.2 := by
  obtain ⟨c, hc⟩ := about_store hexec
  rw [performStore_of_access fun _ => rfl] at hc
  cases hc
  refine ⟨Quiet.refl hinv, fun pending hpending row hrow => ?_⟩
  cases hpending
  obtain ⟨m, hm, rfl⟩ := List.mem_map.mp hrow
  exact hinv.chats i.party conv m (List.mem_filter.mp hm).1

theorem markMessageSent_exec (hinv : Inv N s) {id : ℕ} {r : Result Unit}
    (hexec : (aboutSetting N i conv).exec (.store (.markMessageSent id)) s r s') : Quiet N i s s' := by
  obtain ⟨c, hc⟩ := about_store hexec
  rw [performStore_of_access fun _ => rfl] at hc
  cases hc
  refine quiet_setMessages hinv fun m hm => .inl ?_
  obtain ⟨m', hm', rfl⟩ := List.mem_map.mp hm
  refine ⟨m', hm', ?_⟩
  split <;> rfl

theorem insertMessage_exec (hinv : Inv N s) {direction : Direction} {typeVersion : UInt8} {text : ℕ}
    {status : Status} {r : Result (StoredMessage carrier.toCarrier)}
    (hexec : (aboutSetting N i conv).exec
      (.store (.insertMessage direction (.chat typeVersion text) status)) s r s') : Quiet N i s s' := by
  obtain ⟨c, hc⟩ := about_store hexec
  rw [performStore_of_access fun _ => rfl] at hc
  cases hc
  refine quiet_setMessages hinv fun m hm => ?_
  rcases List.mem_append.mp hm with hm | hm
  · exact .inl ⟨m, hm, rfl⟩
  · rw [List.mem_singleton] at hm
    subst hm
    exact .inr ⟨typeVersion, text, rfl⟩

/-- What a flush performs leaves the task's own things alone: a chat may go into any mailbox. -/
theorem quiet_flushing (hinv : Inv N s) (hrow : ∃ x, s.row? i.party conv = some x) {o : Op carrier.toCarrier}
    {r : o.Answer} (ho : ((engine N i.party).flushing IsChat).performs o)
    (hexec : (aboutSetting N i conv).exec o s r s') :
    Quiet N i s s' ∧ ((engine N i.party).flushing IsChat).answers o r := by
  cases o with
  | store o =>
    cases o with
    | getConversation => exact ⟨(getConversation_exec hinv hrow hexec).1, trivial⟩
    | pendingChat => exact pendingChat_exec hinv hexec
    | markMessageSent id => exact ⟨markMessageSent_exec hinv hexec, trivial⟩
    | loadSession peer call => exact ⟨(loadSession_exec hinv hexec).1, trivial⟩
    | storeSession peer call session => exact ⟨storeSession_exec hinv hexec, trivial⟩
    | _ => exact ho.elim
  | relay o =>
    cases o with
    | deposit relay id wire =>
      obtain ⟨frame, session, session', hseal, typeVersion, text, rfl⟩ := ho
      obtain ⟨c, hc⟩ := about_relay hexec
      cases session with
      | none => cases hseal
      | some session =>
        cases hseal
        have hfits : Fits N s relay id ⟨session.1, session.2, .other (.chat typeVersion text)⟩ := trivial
        exact ⟨quiet_deposit hinv hfits hc, trivial⟩
    | _ => exact ho.elim
  | socket o => exact ho.elim
  | ram o | notify n =>
    obtain ⟨r', -, c, hc⟩ := hexec
    cases hc
    exact ⟨Quiet.refl hinv, trivial⟩

/-- **A flush** leaves the task's own things alone. -/
theorem triple_flushPending (ha : Lasting N i a) (hrow : ∀ s, a s → ∃ x, s.row? i.party conv = some x) :
    Triple (aboutSetting N i conv) (At N a) (engine N i.party).flushPending fun _ => At N a := by
  refine ((Engine.kept_flushPending IsChat).triple (stable_at ha) (fun o s _ _ => announces_about o s) ?_).mono
    (fun _ => id) fun _ _ h => h.1
  rintro o s r s' ho ⟨hinv, hs⟩ hexec
  obtain ⟨hquiet, hanswer⟩ := quiet_flushing hinv (hrow s hs) ho hexec
  exact ⟨fun _ => hquiet.toEffect, ⟨hquiet.inv, ha s s' hquiet.inv hquiet.ext hquiet.mine hs⟩, hanswer⟩

theorem triple_sendChat (text : ℕ) :
    Triple (aboutSetting N i conv) (At N fun s => ∃ x, s.row? i.party conv = some x)
      ((engine N i.party).sendChat text >>= fun _ => pure ()) fun _ _ => True := by
  have ha : Lasting N i fun s => ∃ x, s.row? i.party conv = some x := lasting_exists _ _
  refine triple_bind (m := fun _ => At N fun s => ∃ x, s.row? i.party conv = some x) ?_ fun _ =>
    triple_done ha fun _ _ _ => trivial
  refine triple_about_kept ha (fun s r s' hinv _ hexec => insertMessage_exec hinv hexec) fun row => ?_
  rcases row with e | row
  · exact triple_stop ha
  · exact triple_bind (triple_flushPending ha fun _ h => h) fun _ => triple_stop ha

/-! ## Receiving -/

/-- What a subscription delivers fits the mailbox it is on. -/
theorem nextEvent_exec (hinv : Inv N s) {event : Event carrier.toCarrier}
    (h : nextEvent i c s = some (event, s')) :
    Quiet N i s s' ∧ (event = .idle ∨ ∃ msgId envelope relay id, event = .delivery msgId envelope ∧
      s.conn i = some (relay, id) ∧ Fits N s relay id envelope) ∨
    event = .closed ∧ s' = s.setConn i none := by
  unfold nextEvent at h
  split at h
  · split at h
    · rename_i m hm
      cases h
      obtain ⟨⟨relay, id⟩, hconn, hhead⟩ := Option.bind_eq_some_iff.mp hm
      obtain ⟨queue, hqueue, hhead⟩ := Option.bind_eq_some_iff.mp hhead
      exact .inl ⟨Quiet.refl hinv, .inr ⟨m.id, m.envelope, relay, id, rfl, hconn,
        hinv.wires relay id queue m hqueue (List.mem_of_head? hhead)⟩⟩
    · cases h
  · cases h
    exact .inl ⟨Quiet.refl hinv, .inl rfl⟩
  · cases h
    exact .inr ⟨rfl, rfl⟩

theorem ack_exec (hinv : Inv N s) {msgId : ℕ} {r : Unit}
    (hexec : (aboutSetting N i conv).exec (.socket (.ack msgId)) s r s') : Quiet N i s s' := by
  obtain ⟨c, hc⟩ := about_socket hexec
  cases hc
  exact quiet_ackMessage hinv msgId

/-- What reaches a conversation inbox changes no routing: it is a chat, or a frame of the handshake. -/
theorem Fits.frame {relay id : ℕ} {envelope : Sealed} (h : Fits N s relay id envelope) :
    (∃ typeVersion text, envelope.content.frame = .chat typeVersion text) ∨
      (∃ r inbox contribution, envelope.content.frame = .mailboxUpdateV2 r inbox contribution) ∨
      envelope.content.frame = .discarded := by
  unfold Fits at h
  split at h
  · rename_i hcontent
    rw [hcontent]
    exact .inr (.inr rfl)
  · rename_i hcontent
    rw [hcontent]
    exact .inr (.inl ⟨_, _, _, rfl⟩)
  · rename_i hcontent
    rw [hcontent]
    exact .inl ⟨_, _, rfl⟩
  · exact h.elim

theorem triple_handleIncoming (ha : Lasting N i a) (peer : String) (envelope : Sealed) :
    Triple (aboutSetting N i conv) (At N fun s => a s ∧ ∃ relay id, Fits N s relay id envelope)
      ((engine N i.party).handleIncoming peer envelope) fun _ => At N a := by
  refine triple_bind (triple_decryptMessage (ha.and (lasting_fits envelope)) peer envelope) fun r => ?_
  rcases r with e | frame
  · exact (triple_stop ha).of_pre fun s hs => ⟨hs.1.1, hs.1.2.1⟩
  · intro s hs
    obtain ⟨⟨hinv, hs, relay, id, hfits⟩, hopened⟩ := hs
    obtain ⟨-, -, rfl⟩ := hopened frame rfl
    rcases hfits.frame with ⟨typeVersion, text, hframe⟩ | ⟨r, inbox, contribution, hframe⟩ | hframe
    · simp only [hframe]
      refine triple_about_kept ha (fun s r s' hinv _ hexec => insertMessage_exec hinv hexec)
        (fun row => ?_) s ⟨hinv, hs⟩
      rcases row with e | row
      · exact triple_stop ha
      · exact triple_notify ha (triple_stop ha)
    · simp only [hframe]
      exact triple_stop ha s ⟨hinv, hs⟩
    · simp only [hframe]
      exact triple_stop ha s ⟨hinv, hs⟩

/-- The delivery loop, with an assertion that does not depend on the subscription. -/
theorem triple_deliveryLoop (ha : Lasting N i a) (hrow : ∀ s, a s → ∃ x, s.row? i.party conv = some x)
    (hconn : ∀ s box, a s → a (s.setConn i box)) (peer : String) (fuel : ℕ) :
    Triple (aboutSetting N i conv) (At N a) ((engine N i.party).deliveryLoop peer fuel)
      fun _ => At N a := by
  induction fuel with
  | zero => exact triple_stop ha
  | succ fuel ih =>
    refine triple_effect (stable_at ha) (fun s _ _ => announces_about _ s)
      (b := fun event s => a s ∧ ∀ msgId envelope, event = .delivery msgId envelope →
        ∃ relay id, Fits N s relay id envelope) (fun s event s' hinv hs hexec => ?_) fun event => ?_
    · obtain ⟨c, hc⟩ := about_socket hexec
      rcases nextEvent_exec hinv hc with ⟨hquiet, hevent⟩ | ⟨rfl, rfl⟩
      · refine ⟨hquiet.toEffect, ha s s' hquiet.inv hquiet.ext hquiet.mine hs,
          fun msgId envelope hdelivery => ?_⟩
        rcases hevent with rfl | ⟨msgId', envelope', relay, id, rfl, -, hfits⟩
        · cases hdelivery
        · cases hdelivery
          exact ⟨relay, id, hfits.mono hquiet.ext⟩
      · exact ⟨effect_setConn hinv none, hconn s none hs, fun _ _ h => by cases h⟩
    · cases event with
      | closed => exact triple_forget (triple_stop ha)
      | idle => exact triple_forget (triple_bind (triple_flushPending ha hrow) fun _ => ih)
      | delivery msgId envelope =>
        have hpre : ∀ s, At N (fun s => a s ∧ ∀ id wire, Event.delivery msgId envelope =
            Event.delivery id wire → ∃ relay box, Fits N s relay box wire) s →
            At N (fun s => a s ∧ ∃ relay box, Fits N s relay box envelope) s :=
          fun s hs => ⟨hs.1, hs.2.1, hs.2.2 msgId envelope rfl⟩
        refine Triple.of_pre ?_ hpre
        refine triple_bind (triple_handleIncoming ha peer envelope) fun changed => ?_
        refine triple_about_kept ha (fun s r s' hinv _ hexec => ack_exec hinv hexec) fun _ => ?_
        cases changed with
        | true => exact triple_stop ha
        | false => exact ih

/-- **A conversation listener** leaves everybody's things alone: its inbox exists whenever it
subscribes. -/
theorem triple_conversationListener (fuel : ℕ) :
    Triple (aboutSetting N i conv) (At N fun s => ∃ x, s.row? i.party conv = some x)
      ((engine N i.party).conversationListener fuel) fun _ _ => True := by
  have ha : Lasting N i fun s => ∃ x, s.row? i.party conv = some x := lasting_exists _ _
  induction fuel with
  | zero => exact triple_done ha fun _ _ _ => trivial
  | succ fuel ih =>
    have hpause : Triple (aboutSetting N i conv) (At N fun s => ∃ x, s.row? i.party conv = some x) (do
        notify (.state .offline)
        notify (.state .backoff)
        (engine N i.party).conversationListener fuel) fun _ _ => True :=
      triple_notify ha (triple_notify ha ih)
    refine triple_about_quiet ha (fun s r s' hinv hs hexec => getConversation_exec hinv hs hexec)
      fun convo? => ?_
    rcases convo? with e | (_ | convo)
    · exact triple_forget (triple_done ha fun _ _ _ => trivial)
    · exact triple_forget (triple_done ha fun _ _ _ => trivial)
    · dsimp only
      split
      · exact triple_forget (triple_done ha fun _ _ _ => trivial)
      · rename_i recv hrecv
        have hb : Lasting N i fun s => ∃ x, s.row? i.party conv = some x ∧ x.recv = some recv :=
          lasting_recv _ _ _
        have hpre : ∀ s, At N (fun s => (∃ x, s.row? i.party conv = some x) ∧
            ∃ x, s.row? i.party conv = some x ∧
              (Except.ok (some convo) : Result (Option (Conversation carrier.toCarrier))) =
                .ok (some x.row.convo)) s →
            At N (fun s => ∃ x, s.row? i.party conv = some x ∧ x.recv = some recv) s := by
          rintro s ⟨hinv, -, x, hx, hconvo⟩
          cases hconvo
          exact ⟨hinv, x, hx, hrecv⟩
        refine Triple.of_pre (triple_notify hb ?_) hpre
        refine triple_effect (stable_at hb) (fun s _ _ => announces_about _ s)
          (b := fun connected s => (∃ x, s.row? i.party conv = some x) ∧ connected ≠ .notFound)
          (fun s connected s' hinv hs hexec => ?_) fun connected => ?_
        · obtain ⟨c, hc⟩ := about_socket hexec
          obtain ⟨x, hx, hxrecv⟩ := hs
          simp only [performSocket] at hc
          split at hc
          · cases hc
            exact ⟨effect_setConn hinv _, ⟨x, hx⟩, Connected.noConfusion⟩
          · -- the inbox of a row is never lost
            rename_i hbox
            obtain ⟨-, n, hn, -, hlive⟩ := hinv.rows _ _ x hx
            cases hxrecv.symm.trans hn
            rw [hbox] at hlive
            cases hlive
          · cases hc
            exact ⟨(Quiet.refl hinv).toEffect, ⟨x, hx⟩, Connected.noConfusion⟩
        · cases connected with
          | ok =>
            refine triple_forget (triple_notify ha (triple_bind (triple_flushPending ha fun _ h => h)
              fun _ => triple_bind (triple_deliveryLoop ha (fun _ h => h) (fun _ _ h => h) _ _)
              fun exit => ?_))
            cases exit with
            | changed => exact ih
            | closed => exact hpause
            | outOfFuel => exact triple_done ha fun _ _ _ => trivial
          | notFound => exact fun s hs => absurd rfl hs.2.2
          | unreachable => exact triple_forget hpause

end About

end Titlan.Pairing.Network
