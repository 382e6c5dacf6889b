import Titlan.Pairing.Conversing

/-! # Pairing agreement

Whenever `begin_pairing_from_offer` returns `Ok` for a conversation, the party that made the offer holds a
conversation with the complementary role and the same recovery root, and each of the two sends to the relay
and inbox the other receives on. This holds in every run of any number of pairings among any parties, next to
listeners and chats of the conversations that exist already.

The responder's inbox is the thread that ties the steps together: it is generated for one row only, the
offerer completes its own row for that inbox before it deposits the handoff there, and so whatever handoff
the responder reads there was made for the contribution in its own row. -/

namespace Titlan.Pairing.Network

open Foundation

section Tasks

variable {N : Config} {i : Task} {α : Type} {a : Net → Prop} {s s' : Net}

/-! ## Operations of the handshake -/

section Rules

variable {o : PairingOp carrier} {k : o.Answer → PairingM carrier α} {post : α → Net → Prop}

/-- Only spawning a listener is announced. -/
theorem announces_of_ne (h : ∀ conv, o ≠ .spawnConversation conv) : Announces N i o s :=
  fun conv ho => absurd ho (h conv)

theorem triple_pairing_quiet {b : o.Answer → Net → Prop} (ha : Lasting N i a)
    (ho : ∀ conv, o ≠ .spawnConversation conv)
    (hstep : ∀ c s r s', Inv N s → a s → perform N i c s o = some (r, s') → Quiet N i s s' ∧ b r s')
    (hk : ∀ r, Triple (setting N i) (At N fun s => a s ∧ b r s) (k r) post) :
    Triple (setting N i) (At N a) (pairing o >>= k) post :=
  triple_quiet (S := pairingSig carrier) ha (fun _ _ _ => announces_of_ne ho)
    (fun s r s' hinv hs ⟨c, hc⟩ => hstep c s r s' hinv hs hc) hk

theorem triple_pairing_kept (ha : Lasting N i a) (ho : ∀ conv, o ≠ .spawnConversation conv)
    (hstep : ∀ c s r s', Inv N s → a s → perform N i c s o = some (r, s') → Quiet N i s s')
    (hk : ∀ r, Triple (setting N i) (At N a) (k r) post) :
    Triple (setting N i) (At N a) (pairing o >>= k) post :=
  triple_kept (S := pairingSig carrier) ha (fun _ _ _ => announces_of_ne ho)
    (fun s r s' hinv hs ⟨c, hc⟩ => hstep c s r s' hinv hs hc) hk

theorem triple_pairing_effect {b : o.Answer → Net → Prop}
    (ha : Stable (setting N i) (At N a)) (ho : ∀ conv, o ≠ .spawnConversation conv)
    (hstep : ∀ c s r s', Inv N s → a s → perform N i c s o = some (r, s') → Effect N i s s' ∧ b r s')
    (hk : ∀ r, Triple (setting N i) (At N (b r)) (k r) post) :
    Triple (setting N i) (At N a) (pairing o >>= k) post :=
  triple_effect (S := pairingSig carrier) ha (fun _ _ _ => announces_of_ne ho)
    (fun s r s' hinv hs ⟨c, hc⟩ => hstep c s r s' hinv hs hc) hk

end Rules

/-- A reserved id whose mailbox exists, next to a lasting assertion. -/
theorem stable_reserved (ha : Lasting N i a) (n : ℕ) :
    Stable (setting N i) (At N fun s => a s ∧ Reserved i n s ∧ Live N i n s) := by
  rintro s s' hrely ⟨hinv, hs, hreserved, hlive⟩
  obtain ⟨hinv', hext, hown⟩ := hrely hinv
  exact ⟨hinv', ha s s' hinv' hext hown.toMine hs,
    lasting_reserved n s s' hinv' hext hown.toMine hreserved, hown.kept n hreserved.1 hlive⟩

variable {c : Choice}

/-- `create_mailbox`. -/
theorem createMailbox_exec {r : Result ℕ}
    (h : perform N i c s (.call (.relay .createMailbox)) = some (r, s')) :
    (∃ e, r = .error e ∧ s' = s) ∨ r = .ok s.nextBox ∧ s' = s.mint N i := by
  have h' : performRelay N i c s .createMailbox = (r, s') := Option.some.inj h
  simp only [performRelay] at h'
  split at h'
  · cases h'
    exact .inr ⟨rfl, rfl⟩
  · cases h'
    exact .inl ⟨_, rfl, rfl⟩

/-- A row of the task's own. -/
def Holds (i : Task) (k : ConversationId) (row : ConversationRow carrier) (s : Net) : Prop :=
  s.row? i.party k = some ⟨row, i⟩

theorem lasting_holds (k : ConversationId) (row : ConversationRow carrier) :
    Lasting N i (Holds i k row) :=
  fun s s' hinv he hm h => (lasting_row i.party k ⟨row, i⟩ s s' hinv he hm ⟨h, rfl⟩).1

theorem holds_insertRow (convo : Conversation carrier.toCarrier) :
    Holds i (s.conversations i.party).length (.routed convo) (s.insertRow i convo) := by
  unfold Holds
  rw [insertRow_row?, if_pos ⟨rfl, rfl⟩]

variable {k : ConversationId}

theorem holds_setRow {row row' : ConversationRow carrier} (h : Holds i k row s) :
    Holds i k row' (s.setRow i.party k row') := by
  unfold Holds at h ⊢
  rw [setRow_row?, if_pos ⟨rfl, rfl⟩, h]
  rfl

/-- A reserved id stays so when a row is inserted on another. -/
theorem Reserved.insertRow {n m : ℕ} (h : Reserved i n s) {convo : Conversation carrier.toCarrier}
    (hrecv : convo.mailboxRecv = some m) (hne : m ≠ n) : Reserved i n (s.insertRow i convo) := by
  refine ⟨h.1, fun p k x hx hxn => ?_⟩
  rw [insertRow_row?] at hx
  split at hx
  · cases hx
    exact hne (Option.some.inj (hrecv.symm.trans hxn))
  · exact h.2 p k x hx hxn

/-- It stays so when a row gains columns. -/
theorem Reserved.setRow {n : ℕ} (h : Reserved i n s)
    {row row' : ConversationRow carrier} (hrow : Holds i k row s)
    (hrecv : row'.convo.mailboxRecv = row.convo.mailboxRecv) :
    Reserved i n (s.setRow i.party k row') := by
  refine ⟨h.1, fun p l x hx hxn => ?_⟩
  rw [setRow_row?] at hx
  split at hx
  · rename_i heq
    obtain ⟨rfl, rfl⟩ := heq
    rw [hrow, Option.map_some] at hx
    cases hx
    exact h.2 _ _ _ hrow (hrecv.symm.trans hxn)
  · exact h.2 p l x hx hxn

theorem Reserved.mint {n : ℕ} (hinv : Inv N s) (h : Reserved i n s) : Reserved i n (s.mint N i) :=
  ⟨hinv.minted_mint h.1, h.2⟩

variable {r : Result Unit}

/-- `set_recovery_pairing` on a row just inserted. -/
theorem setRecoveryPairing_exec (hinv : Inv N s)
    {convo : Conversation carrier.toCarrier} {role : UInt8} {contribution : ℕ}
    (hrow : Holds i k (.routed convo) s)
    (h : perform N i c s (.setRecoveryPairing k role contribution) = some (r, s')) :
    Effect N i s s' ∧ s' = s.setRow i.party k ((ConversationRow.routed convo).setPairing role contribution)
    := by
  have hrow' : (s.conversations i.party)[k]? = some ⟨.routed convo, i⟩ := hrow
  simp only [perform, hrow'] at h
  cases h
  refine ⟨effect_setRow hinv hrow rfl ⟨rfl, rfl, fun _ h => ⟨h, rfl⟩, fun _ h => ?_, fun _ h => ?_,
    fun _ h => h⟩, rfl⟩
  · cases h
  · cases h

/-! ## A new row -/

/-- What a task knows while it pairs: something that survives whatever rows gain, and ids that are
reserved. -/
def Knows (i : Task) (e : Net → Prop) (P : ℕ → Prop) (s : Net) : Prop :=
  e s ∧ ∀ n, P n → Reserved i n s

section NewRow

variable {e : Net → Prop} {P : ℕ → Prop}

theorem lasting_knows (he : ∀ s s', Ext s s' → e s → e s') : Lasting N i (Knows i e P) :=
  fun s s' hinv hext hm h => ⟨he s s' hext h.1, fun n hn =>
    lasting_reserved n s s' hinv hext hm (h.2 n hn)⟩

/-- Both sides of the handshake generate an inbox, insert the row, and store their role and contribution:
then the row is the task's own. -/
theorem triple_newRow {convo : ℕ → Conversation carrier.toCarrier} {role : UInt8}
    {K : ℕ → ConversationId → ℕ → PairingM carrier (Result α)} {post : Result α → Net → Prop}
    (he : ∀ s s', Ext s s' → e s → e s') (hrecv : ∀ m, (convo m).mailboxRecv = some m)
    (hfail : ∀ err s, Inv N s → Knows i e P s → post (.error err) s)
    (hK : ∀ m conv b, Triple (setting N i)
      (At N fun s => Knows i e P s ∧ Holds i conv ((ConversationRow.routed (convo m)).setPairing role b) s)
      (K m conv b) post) :
    Triple (setting N i) (At N (Knows i e P))
      ((pairing (.call (.relay .createMailbox))).attempt fun m =>
        (pairing (.createRoutedConversation (convo m))).attempt fun conv => do
        let b ← pairing .drawContribution
        (pairing (.setRecoveryPairing conv role b)).attempt fun _ => K m conv b) post := by
  have hknows : Lasting N i (Knows i e P) := lasting_knows he
  have hstop : ∀ err, Triple (setting N i) (At N (Knows i e P)) (.ret (.error err)) post :=
    fun err => triple_done hknows fun s hinv hs => hfail err s hinv hs
  refine triple_pairing_effect (stable_at hknows) (fun _ h => by cases h)
    (b := fun r s => Knows i e P s ∧ ∀ m, r = .ok m → Reserved i m s ∧ Live N i m s ∧ ¬ P m)
    (fun c s r s' hinv hs hc => ?_) fun r => ?_
  · rcases createMailbox_exec hc with ⟨err, rfl, rfl⟩ | ⟨rfl, rfl⟩
    · exact ⟨(Quiet.refl hinv).toEffect, hs, fun _ h => by cases h⟩
    · have heffect := effect_mint (i := i) hinv
      refine ⟨heffect, ⟨he s _ heffect.ext hs.1, fun n hn => (hs.2 n hn).mint hinv⟩, fun m hm => ?_⟩
      cases hm
      obtain ⟨hreserved, hlive⟩ := reserved_mint (i := i) hinv
      -- what was reserved before is another id
      exact ⟨hreserved, hlive, fun hP => Nat.lt_irrefl _ (hinv.fresh _ _ (hs.2 _ hP).1)⟩
  rcases r with err | m
  · exact triple_forget (hstop err)
  refine Triple.of_pre ?_ (fun s hs => (⟨hs.1, ⟨hs.2.1, (hs.2.2 m rfl).2.2⟩, (hs.2.2 m rfl).1,
    (hs.2.2 m rfl).2.1⟩ : At N (fun s => (Knows i e P s ∧ ¬ P m) ∧ Reserved i m s ∧ Live N i m s) s))
  refine triple_pairing_effect (stable_reserved (hknows.and (lasting_const _)) m) (fun _ h => by cases h)
    (b := fun r s => Knows i e P s ∧ ∀ conv, r = .ok conv → Holds i conv (.routed (convo m)) s)
    (fun c s r s' hinv hs hc => ?_) fun r => ?_
  · cases hc
    obtain ⟨⟨hs, hm⟩, hreserved, hlive⟩ := hs
    have heffect := effect_insertRow hinv hreserved hlive (hrecv m)
    refine ⟨heffect, ⟨he s _ heffect.ext hs.1, fun n hn => (hs.2 n hn).insertRow (hrecv m) ?_⟩,
      fun conv hconv => ?_⟩
    · rintro rfl
      exact hm hn
    · cases hconv
      exact holds_insertRow (convo m)
  rcases r with err | conv
  · exact triple_forget (hstop err)
  have hrow : Lasting N i fun s => Knows i e P s ∧ Holds i conv (.routed (convo m)) s :=
    hknows.and (lasting_holds conv _)
  refine Triple.of_pre ?_ (fun s hs => (⟨hs.1, hs.2.1, hs.2.2 conv rfl⟩ :
    At N (fun s => Knows i e P s ∧ Holds i conv (.routed (convo m)) s) s))
  refine triple_pairing_kept hrow (fun _ h => by cases h) (fun c s r s' hinv _ hc => ?_) fun b => ?_
  · cases hc
    exact Quiet.refl hinv
  refine triple_pairing_effect (stable_at hrow) (fun _ h => by cases h)
    (b := fun _ s => Knows i e P s ∧
      Holds i conv ((ConversationRow.routed (convo m)).setPairing role b) s)
    (fun c s r s' hinv hs hc => ?_) fun r => ?_
  · obtain ⟨heffect, rfl⟩ := setRecoveryPairing_exec hinv hs.2 hc
    exact ⟨heffect, ⟨he s _ heffect.ext hs.1.1, fun n hn => (hs.1.2 n hn).setRow hs.2 rfl⟩,
      holds_setRow hs.2⟩
  · cases r with
    | error err => exact triple_forget (hstop err)
    | ok _ => exact hK m conv b

end NewRow

/-! ## The offerer -/

/-- `set_recovery_root` on a row without a root. -/
theorem setRecoveryRoot_exec (hinv : Inv N s)
    {row : ConversationRow carrier} {contribution root : ℕ} (hrow : Holds i k row s)
    (hroot : row.recovery.root = none)
    (h : perform N i c s (.about k (.store (.setRecoveryRoot contribution root))) = some (r, s')) :
    Effect N i s s' ∧ s' = s.setRow i.party k { row with
      recovery := { row.recovery with root := some root }
      peerContribution := some contribution } := by
  have h' : performStore i.party k c s (.setRecoveryRoot contribution root) = (r, s') :=
    Option.some.inj h
  rw [performStore_row hrow rfl] at h'
  cases h'
  refine ⟨effect_setRow hinv hrow rfl ⟨rfl, rfl, fun _ h => ⟨h, rfl⟩, fun _ h => h, fun _ h => h,
    fun _ h => ?_⟩, rfl⟩
  cases hroot.symm.trans h

/-- `delete_mailbox` of a reserved id. -/
theorem deleteMailbox_exec (hinv : Inv N s) {n : ℕ}
    (hn : Reserved i n s) (h : perform N i c s (.call (.relay (.deleteMailbox n))) = some (r, s')) :
    Quiet N i s s' := by
  have h' : performRelay N i c s (.deleteMailbox n) = (r, s') := Option.some.inj h
  simp only [performRelay] at h'
  split at h'
  · cases h'
    exact quiet_delete hinv hn
  · cases h'
    exact quiet_delete hinv hn
  · cases h'
    exact Quiet.refl hinv

variable {peer : String}

/-- `encrypt_message`. -/
theorem encryptMessage_exec (hinv : Inv N s) {frame : PairingFrame carrier}
    {r : Result Sealed} (h : perform N i c s (.encryptMessage peer frame) = some (r, s')) :
    Quiet N i s s' ∧ ∀ wire, r = .ok wire → wire = ⟨i.party, peer, .of frame⟩ := by
  cases h
  refine ⟨Quiet.refl hinv, fun wire hwire => ?_⟩
  split at hwire
  · cases hwire
  · cases hwire
    rfl

/-- A deposit outside the engine's programs. -/
theorem deposit_exec (hinv : Inv N s) {relay id : ℕ} {envelope : Sealed}
    {r : Result DepositOutcome} (hfits : Fits N s relay id envelope)
    (h : perform N i c s (.call (.relay (.deposit relay id envelope))) = some (r, s')) :
    Quiet N i s s' :=
  quiet_deposit hinv hfits (Option.some.inj h)

/-- The row the offerer completes. -/
def offererRow (N : Config) (peer : String) (ack : Ack) (inbox a : ℕ) : ConversationRow carrier where
  convo := ⟨peer, ack.relayUrl, some ack.inboxId, some inbox⟩
  recovery := ⟨some roleOfferer, some (N.deriveRoot a ack.rootContribution), 0, 0⟩
  ownContribution := some a
  peerContribution := some ack.rootContribution

/-- The handoff fits the mailbox it is deposited in: the row behind it is complete. -/
theorem fits_handoff {ack : Ack} {inbox a : ℕ}
    (hack : Awaiting s peer ack.inboxId ack.rootContribution ∧ ack.relayUrl = N.relayOf peer)
    (hrow : Holds i k (offererRow N peer ack inbox a) s) :
    Fits N s ack.relayUrl ack.inboxId
      ⟨i.party, peer, .other (.mailboxUpdateV2 (N.relayOf i.party) inbox a)⟩ :=
  ⟨⟨k, _, peer, ack.rootContribution, hrow, rfl, rfl, rfl, rfl, rfl, hack.1, hack.2⟩, rfl⟩

/-- **Completing a pairing.** The pairing inbox stays reserved. -/
theorem triple_completePairing (hi : ∀ p scanned n, i ≠ .responder p scanned n) (pairingInbox : ℕ)
    (peer : String) (ack : Ack) :
    Triple (setting N i)
      (At N (Knows i (fun s => Awaiting s peer ack.inboxId ack.rootContribution ∧
        ack.relayUrl = N.relayOf peer) (· = pairingInbox)))
      ((lib N i.party).completePairing pairingInbox peer ack)
      fun _ => At N (Reserved i pairingInbox) := by
  let e : Net → Prop := fun s => Awaiting s peer ack.inboxId ack.rootContribution ∧
    ack.relayUrl = N.relayOf peer
  have he : ∀ s s', Ext s s' → e s → e s' := fun s s' hext h => ⟨h.1.mono hext, h.2⟩
  refine triple_newRow he (fun _ => rfl) (fun _ s hinv hs => ⟨hinv, hs.2 _ rfl⟩) fun m conv b => ?_
  -- the root completes the row
  refine triple_pairing_effect (stable_at ((lasting_knows he).and (lasting_holds conv _)))
    (fun _ h => by cases h)
    (b := fun _ s => Knows i e (· = pairingInbox) s ∧ Holds i conv (offererRow N peer ack m b) s)
    (fun c s r s' hinv hs hc => ?_) fun r => ?_
  · obtain ⟨heffect, rfl⟩ := setRecoveryRoot_exec hinv hs.2 rfl hc
    exact ⟨heffect, ⟨he s _ heffect.ext hs.1.1, fun n hn => (hs.1.2 n hn).setRow hs.2 rfl⟩,
      holds_setRow hs.2⟩
  have ha : Lasting N i fun s =>
      Knows i e (· = pairingInbox) s ∧ Holds i conv (offererRow N peer ack m b) s :=
    (lasting_knows he).and (lasting_holds conv _)
  have hstop : ∀ {β : Type} (x : β), Triple (setting N i) (At N fun s =>
      Knows i e (· = pairingInbox) s ∧ Holds i conv (offererRow N peer ack m b) s) (.ret x)
      fun _ => At N (Reserved i pairingInbox) :=
    fun _ => triple_done ha fun s hinv hs => ⟨hinv, hs.1.2 _ rfl⟩
  rcases r with err | _
  · exact hstop _
  refine triple_pairing_kept ha (fun _ h => by cases h)
    (fun c s r s' hinv hs hc => deleteMailbox_exec hinv (hs.1.2 _ rfl) hc) fun _ => ?_
  refine triple_pairing_quiet ha (fun _ h => by cases h)
    (fun c s r s' hinv _ hc => encryptMessage_exec hinv hc) fun r => ?_
  rcases r with err | wire
  · exact triple_forget (hstop _)
  intro s hs
  obtain rfl := hs.2.2 wire rfl
  refine triple_pairing_kept ha (fun _ h => by cases h) (fun c s r s' hinv hs hc => ?_) (fun r => ?_)
    s ⟨hs.1, hs.2.1⟩
  · exact deposit_exec hinv (fits_handoff hs.1.1 hs.2) hc
  rcases r with err | _
  · exact hstop _
  refine triple_kept (S := pairingSig carrier) ha
    (fun _ _ _ _ _ p scanned n hresponder => absurd hresponder (hi p scanned n))
    (fun s r s' hinv _ hexec => ?_) fun _ => hstop _
  obtain ⟨c, hc⟩ := hexec
  cases hc
  exact quiet_spawned hinv fun p scanned n hresponder => absurd hresponder (hi p scanned n)

theorem lib_readFrame (p : String) : (lib N p).readFrame = Content.read := rfl

/-- **Handling an acknowledgement.** -/
theorem triple_handlePairAckV2 (hi : ∀ p scanned n, i ≠ .responder p scanned n) (pairingInbox secret : ℕ)
    (envelope : Sealed) :
    Triple (setting N i)
      (At N fun s => Reserved i pairingInbox s ∧ ∃ relay id, Fits N s relay id envelope)
      ((lib N i.party).handlePairAckV2 pairingInbox secret envelope)
      fun _ => At N (Reserved i pairingInbox) := by
  have ha : Lasting N i fun s => Reserved i pairingInbox s ∧ ∃ relay id, Fits N s relay id envelope :=
    (lasting_reserved _).and (lasting_fits envelope)
  refine triple_pairing_quiet ha (fun _ h => by cases h)
    (b := fun r _ => ∀ opened, r = .ok opened → opened = (envelope.sender, envelope.content))
    (fun c s r s' hinv _ hc => ?_) fun r => ?_
  · cases hc
    refine ⟨Quiet.refl hinv, fun opened hopened => ?_⟩
    split at hopened
    · cases hopened
    · cases hopened
      rfl
  have hstop : ∀ {β : Type} (x : β), Triple (setting N i)
      (At N fun s => Reserved i pairingInbox s ∧ ∃ relay id, Fits N s relay id envelope) (.ret x)
      fun _ => At N (Reserved i pairingInbox) :=
    fun _ => triple_done ha fun s hinv hs => ⟨hinv, hs.1⟩
  rcases r with err | opened
  · exact triple_forget (hstop _)
  rintro s ⟨hinv, hs, hopened⟩
  obtain rfl := hopened opened rfl
  simp only [lib_readFrame]
  cases hcontent : envelope.content with
  | other frame => exact hstop _ s ⟨hinv, hs⟩
  | pairAck ack =>
    simp only [Content.read]
    cases (lib N i.party).verifyProofOfScan secret ack with
    | error err => exact hstop _ s ⟨hinv, hs⟩
    | ok _ =>
      obtain ⟨hreserved, relay, id, hfits⟩ := hs
      rw [Fits, hcontent] at hfits
      refine triple_completePairing hi pairingInbox envelope.sender ack s ⟨hinv, hfits, ?_⟩
      rintro n rfl
      exact hreserved

theorem triple_pairingLoop (hi : ∀ p scanned n, i ≠ .responder p scanned n) (pairingInbox secret : ℕ)
    (fuel : ℕ) :
    Triple (setting N i) (At N (Reserved i pairingInbox))
      ((lib N i.party).pairingLoop pairingInbox secret fuel)
      fun _ => At N (Reserved i pairingInbox) := by
  have ha : Lasting N i (Reserved i pairingInbox) := lasting_reserved _
  have hack : ∀ {β : Type} {p : PairingM carrier β} {post : β → Net → Prop} (msgId : ℕ),
      Triple (setting N i) (At N (Reserved i pairingInbox)) p post →
      Triple (setting N i) (At N (Reserved i pairingInbox))
        (pairing (.call (.socket (.ack msgId))) >>= fun _ => p) post := by
    intro β p post msgId hp
    refine triple_pairing_kept ha (fun _ h => by cases h) (fun c s r s' hinv _ hc => ?_) fun _ => hp
    cases hc
    exact quiet_ackMessage hinv msgId
  induction fuel with
  | zero => exact triple_stop ha
  | succ fuel ih =>
    refine triple_pairing_effect (stable_at ha) (fun _ h => by cases h)
      (b := fun event s => Reserved i pairingInbox s ∧ ∀ msgId envelope,
        event = .delivery msgId envelope → ∃ relay id, Fits N s relay id envelope)
      (fun c s event s' hinv hs hc => ?_) fun event => ?_
    · rcases nextEvent_exec hinv hc with ⟨hquiet, hevent⟩ | ⟨rfl, rfl⟩
      · refine ⟨hquiet.toEffect, ha s s' hquiet.inv hquiet.ext hquiet.mine hs,
          fun msgId envelope hdelivery => ?_⟩
        rcases hevent with rfl | ⟨msgId', envelope', relay, id, rfl, -, hfits⟩
        · cases hdelivery
        · cases hdelivery
          exact ⟨relay, id, hfits.mono hquiet.ext⟩
      · exact ⟨effect_setConn hinv none, hs, fun _ _ h => by cases h⟩
    · cases event with
      | closed => exact triple_forget (triple_stop ha)
      | idle => exact triple_forget ih
      | delivery msgId envelope =>
        intro s hs
        refine triple_bind (triple_handlePairAckV2 hi pairingInbox secret envelope) (fun r => ?_) s
          ⟨hs.1, hs.2.1, hs.2.2 msgId envelope rfl⟩
        dsimp only
        split
        · exact hack msgId (triple_stop ha)
        · refine hack msgId (triple_pairing_kept ha (fun _ h => by cases h)
            (fun c s r s' hinv hs hc => deleteMailbox_exec hinv hs hc) fun _ => triple_stop ha)
        · exact hack msgId ih

theorem triple_pairingListenerV2 (hi : ∀ p scanned n, i ≠ .responder p scanned n)
    (pairingInbox secret : ℕ) (fuel : ℕ) :
    Triple (setting N i) (At N (Reserved i pairingInbox))
      ((lib N i.party).pairingListenerV2 pairingInbox secret fuel)
      fun _ => At N (Reserved i pairingInbox) := by
  have ha : Lasting N i (Reserved i pairingInbox) := lasting_reserved _
  induction fuel with
  | zero => exact triple_stop ha
  | succ fuel ih =>
    refine triple_pairing_effect (stable_at ha) (fun _ h => by cases h)
      (b := fun _ => Reserved i pairingInbox) (fun c s r s' hinv hs hc => ?_) fun connected => ?_
    · have hc' : performSocket N i c s (.subscribe pairingInbox) = some (r, s') := hc
      simp only [performSocket] at hc'
      split at hc'
      · cases hc'
        exact ⟨effect_setConn hinv _, hs⟩
      · cases hc'
        exact ⟨(Quiet.refl hinv).toEffect, hs⟩
      · cases hc'
        exact ⟨(Quiet.refl hinv).toEffect, hs⟩
    · cases connected with
      | ok =>
        refine triple_bind (triple_pairingLoop hi pairingInbox secret fuel) fun exit => ?_
        cases exit with
        | finished => exact triple_stop ha
        | outOfFuel => exact triple_stop ha
        | disconnected => exact ih
      | notFound => exact triple_stop ha
      | unreachable => exact ih

/-- **An offer.** It is made with an inbox of the party's own. -/
theorem triple_offerTask (p : String) (n fuel : ℕ) :
    Triple (setting N (.offer p n)) (Inv N) (offerTask N p fuel) fun _ _ => True := by
  have hi : ∀ q scanned m, Task.offer p n ≠ .responder q scanned m := fun _ _ _ h => by cases h
  have htrue : Lasting N (.offer p n) fun _ => True := lasting_const _
  refine triple_bind (m := fun _ => At N fun _ => True) ?_ fun _ => triple_done htrue fun _ _ _ => trivial
  refine Triple.of_pre ?_ (fun s hs => (⟨hs, trivial⟩ : At N (fun _ => True) s))
  refine triple_pairing_effect (stable_at htrue) (fun _ h => by cases h)
    (b := fun r s => ∀ m, r = .ok m → Reserved (.offer p n) m s) (fun c s r s' hinv _ hc => ?_)
    fun r => ?_
  · rcases createMailbox_exec hc with ⟨err, rfl, rfl⟩ | ⟨rfl, rfl⟩
    · exact ⟨(Quiet.refl hinv).toEffect, fun _ h => by cases h⟩
    · refine ⟨effect_mint hinv, fun m hm => ?_⟩
      cases hm
      exact (reserved_mint hinv).1
  rcases r with err | pairingInbox
  · exact (triple_stop htrue).of_pre fun s hs => ⟨hs.1, trivial⟩
  have ha : Lasting N (.offer p n) (Reserved (.offer p n) pairingInbox) := lasting_reserved _
  refine Triple.of_pre ?_ (fun s hs => (⟨hs.1, hs.2 pairingInbox rfl⟩ :
    At N (Reserved (.offer p n) pairingInbox) s))
  refine triple_pairing_kept ha (fun _ h => by cases h) (fun c s r s' hinv _ hc => ?_) fun secret => ?_
  · cases hc
    exact Quiet.refl hinv
  refine triple_pairing_kept ha (fun _ h => by cases h) (fun c s r s' hinv _ hc => ?_) fun issuedAt => ?_
  · cases hc
    exact Quiet.refl hinv
  refine triple_pairing_kept ha (fun _ h => by cases h) (fun c s r s' hinv hs hc => ?_) fun r => ?_
  · simp only [perform] at hc
    split at hc
    · cases hc
      exact Quiet.refl hinv
    · cases hc
      exact quiet_offers hinv ⟨rfl, n, hs.1⟩
  rcases r with err | _
  · exact (triple_stop htrue).of_pre fun s hs => ⟨hs.1, trivial⟩
  · refine triple_bind (triple_pairingListenerV2 hi pairingInbox secret fuel) fun _ => ?_
    exact (triple_stop htrue).of_pre fun s hs => ⟨hs.1, trivial⟩

/-! ## The responder -/

/-- The row of a responder that awaits the handoff. -/
def responderRow (peer : String) (relay inbox b : ℕ) : ConversationRow carrier :=
  (ConversationRow.routed ⟨peer, relay, none, some inbox⟩).setPairing roleResponder b

/-- The responder's row once the handoff is in. -/
def pairedRow (N : Config) (peer : String) (relay send inbox a b : ℕ) : ConversationRow carrier where
  convo := ⟨peer, relay, some send, some inbox⟩
  recovery := ⟨some roleResponder, some (N.deriveRoot a b), 0, 0⟩
  ownContribution := some b
  peerContribution := some a

/-- The acknowledgement fits: its sender's row awaits the handoff. -/
theorem fits_pairAck {relay inbox b relay' id : ℕ} {proof : Mac}
    (hrow : Holds i k (responderRow peer relay inbox b) s) :
    Fits N s relay' id ⟨i.party, peer, .pairAck ⟨i.party, N.relayOf i.party, inbox, b, proof⟩⟩ :=
  ⟨⟨k, _, hrow, rfl, rfl, rfl⟩, rfl⟩

/-- **The handoff answers this row.** The inbox it came in is this row's only, so the root the offerer
stored was made with this row's contribution. -/
theorem agreed_of_handedOff (hinv : Inv N s) {send inbox a b : ℕ}
    (hrow : Holds i k (pairedRow N peer (N.relayOf peer) send inbox a b) s)
    (hhanded : HandedOff N s peer (N.relayOf i.party) inbox send a) : Agreed N s i.party peer k := by
  obtain ⟨l, y, q, b', hy, hrole, hrecv, hsend, hrelay, hroot, ⟨k', z, hz, hzrecv, -, hzown⟩, -⟩ := hhanded
  obtain ⟨-, rfl⟩ := hinv.recv_unique hrow hz rfl hzrecv
  have hb : b = b' := Option.some.inj hzown
  subst hb
  obtain ⟨-, m, hm, hminted, -⟩ := hinv.rows peer l y hy
  cases hrecv.symm.trans hm
  exact ⟨_, l, y, N.deriveRoot a b, inbox, send, hrow, hy, rfl, hrole, rfl, hroot, rfl, hrelay, hsend,
    hrecv, rfl, rfl, hminted⟩

/-- `set_conversation_send` on a row without a send inbox. -/
theorem setConversationSend_exec (hinv : Inv N s)
    {row : ConversationRow carrier} {relay send : ℕ} (hrow : Holds i k row s)
    (hsend : row.convo.mailboxSend = none)
    (h : perform N i c s (.about k (.store (.setConversationSend relay send))) = some (r, s')) :
    Effect N i s s' ∧ s' = s.setRow i.party k { row with
      convo := { row.convo with relayUrl := relay, mailboxSend := some send } } := by
  have h' : performStore i.party k c s (.setConversationSend relay send) = (r, s') :=
    Option.some.inj h
  rw [performStore_row hrow rfl] at h'
  cases h'
  refine ⟨effect_setRow hinv hrow rfl ⟨rfl, rfl, fun _ h => ?_, fun _ h => h, fun _ h => h,
    fun _ h => h⟩, rfl⟩
  cases hsend.symm.trans h

section Handoff

variable {peer : String} {relay inbox b : ℕ} {k : ConversationId}

/-- The responder's row once it sends to the inbox in the handoff. -/
def sendingRow (N : Config) (peer : String) (send inbox b : ℕ) : ConversationRow carrier :=
  { responderRow peer (N.relayOf peer) inbox b with
    convo := ⟨peer, N.relayOf peer, some send, some inbox⟩ }

theorem lasting_handedOff (p : String) (send a : ℕ) :
    Lasting N i fun s => HandedOff N s p relay inbox send a :=
  lasting_of_ext fun _ _ he h => h.mono he

theorem lasting_agreed (p q : String) : Lasting N i fun s => Agreed N s p q k :=
  lasting_of_ext fun _ _ he h => h.mono he

/-- Storing the inbox of the handoff. -/
theorem triple_storeSend {send a : ℕ} {K : Result Unit → EngineM carrier.toCarrier α}
    {post : α → Net → Prop}
    (hK : ∀ r, Triple (aboutSetting N i k) (At N fun s => Holds i k (sendingRow N peer send inbox b) s ∧
      HandedOff N s peer (N.relayOf i.party) inbox send a) (K r) post) :
    Triple (aboutSetting N i k)
      (At N fun s => Holds i k (responderRow peer relay inbox b) s ∧
        HandedOff N s peer (N.relayOf i.party) inbox send a)
      (store (.setConversationSend (N.relayOf peer) send) >>= K) post := by
  refine triple_effect (stable_at ((lasting_holds k _).and (lasting_handedOff _ _ _)))
    (fun s _ _ => announces_about _ s) (fun s r s' hinv hs hexec => ?_) hK
  obtain ⟨r', rfl, c, hc⟩ := hexec
  obtain ⟨heffect, rfl⟩ := setConversationSend_exec hinv hs.1 rfl hc
  exact ⟨heffect, holds_setRow hs.1, hs.2.mono heffect.ext⟩

/-- Storing the root: from here on the two sides agree. -/
theorem triple_storeRoot {send a : ℕ} {K : Result Unit → EngineM carrier.toCarrier α}
    {post : α → Net → Prop}
    (hK : ∀ r, Triple (aboutSetting N i k) (At N fun s => Agreed N s i.party peer k) (K r) post) :
    Triple (aboutSetting N i k)
      (At N fun s => Holds i k (sendingRow N peer send inbox b) s ∧
        HandedOff N s peer (N.relayOf i.party) inbox send a)
      (store (.setRecoveryRoot a (N.deriveRoot a b)) >>= K) post := by
  refine triple_effect (stable_at ((lasting_holds k _).and (lasting_handedOff _ _ _)))
    (fun s _ _ => announces_about _ s) (fun s r s' hinv hs hexec => ?_) hK
  obtain ⟨r', rfl, c, hc⟩ := hexec
  obtain ⟨heffect, rfl⟩ := setRecoveryRoot_exec hinv hs.1 rfl hc
  exact ⟨heffect, agreed_of_handedOff heffect.inv (holds_setRow hs.1) (hs.2.mono heffect.ext)⟩

/-- What holds when the wait on a subscription ends. -/
def AfterHandoff (N : Config) (i : Task) (k : ConversationId) (peer : String) (relay inbox b : ℕ)
    (exit : Engine.HandoffExit) (s : Net) : Prop :=
  (exit = .disconnected → Holds i k (responderRow peer relay inbox b) s) ∧
    (exit = .returned (.ok ()) → Agreed N s i.party peer k)

theorem afterHandoff_failed (err : CoreError) :
    AfterHandoff N i k peer relay inbox b (.returned (.error err)) s :=
  ⟨(fun h => by cases h), fun h => by cases h⟩

theorem afterHandoff_ok (h : Agreed N s i.party peer k) :
    AfterHandoff N i k peer relay inbox b (.returned (.ok ())) s :=
  ⟨(fun h => by cases h), fun _ => h⟩

/-- A delivery that opens as a handoff was deposited by the offerer for this inbox. -/
theorem handedOff_of_fits {relay id : ℕ} {envelope : Sealed} {r send a : ℕ}
    (hfits : Fits N s relay id envelope) (hsender : envelope.sender = peer)
    (hframe : Frame.mailboxUpdateV2 r send a = envelope.content.frame) :
    HandedOff N s peer relay id send a ∧ r = N.relayOf peer := by
  obtain ⟨sender, receiver, content⟩ := envelope
  subst hsender
  cases content with
  | pairAck ack => cases hframe
  | other frame =>
    cases hframe
    exact hfits

/-- The next event before the deadline, on the subscription to the row's inbox. -/
theorem nextBeforeDeadline_exec {row : ConversationRow carrier} (hinv : Inv N s)
    {r : Option (Event carrier.toCarrier)} (hrow : Holds i k row s)
    (hconn : s.conn i = some (N.relayOf i.party, inbox))
    (hexec : (aboutSetting N i k).exec (.socket .nextBeforeDeadline) s r s') :
    Effect N i s s' ∧ Holds i k row s' ∧
      (r ≠ some .closed → s'.conn i = some (N.relayOf i.party, inbox)) ∧
      ∀ msgId envelope, r = some (.delivery msgId envelope) →
        Fits N s' (N.relayOf i.party) inbox envelope := by
  obtain ⟨c, hc⟩ := about_socket hexec
  simp only [performSocket] at hc
  split at hc
  · cases hc
    exact ⟨(Quiet.refl hinv).toEffect, hrow, fun _ => hconn, fun _ _ h => by cases h⟩
  · obtain ⟨⟨event, t⟩, hevent, hout⟩ := Option.map_eq_some_iff.mp hc
    cases hout
    rcases nextEvent_exec hinv hevent with ⟨hquiet, hcases⟩ | ⟨rfl, rfl⟩
    · refine ⟨hquiet.toEffect, lasting_holds k row s _ hquiet.inv hquiet.ext hquiet.mine hrow,
        fun _ => hquiet.mine.conn.trans hconn, fun msgId envelope hdelivery => ?_⟩
      cases Option.some.inj hdelivery
      rcases hcases with hidle | ⟨msgId', envelope', relay', id, hevent', hconn', hfits⟩
      · cases hidle
      · cases hevent'
        cases hconn.symm.trans hconn'
        exact hfits.mono hquiet.ext
    · exact ⟨effect_setConn hinv none, hrow, fun h => absurd rfl h, fun _ _ h => by cases h⟩

/-- **Waiting on one subscription.** -/
theorem triple_handoffLoop (fuel : ℕ) :
    Triple (aboutSetting N i k)
      (At N fun s => Holds i k (responderRow peer relay inbox b) s ∧
        s.conn i = some (N.relayOf i.party, inbox))
      ((engine N i.party).handoffLoop peer b fuel)
      fun exit => At N (AfterHandoff N i k peer relay inbox b exit) := by
  have hrow : Lasting N i (Holds i k (responderRow peer relay inbox b)) := lasting_holds k _
  have ha : Lasting N i fun s => Holds i k (responderRow peer relay inbox b) s ∧
      s.conn i = some (N.relayOf i.party, inbox) := hrow.and (lasting_conn _)
  induction fuel with
  | zero => exact triple_done ha fun s hinv _ => ⟨hinv, (fun h => by cases h), fun h => by cases h⟩
  | succ fuel ih =>
    refine triple_about_kept ha (fun s r s' hinv _ hexec => ?_) fun passed => ?_
    · obtain ⟨c, hc⟩ := about_socket hexec
      cases hc
      exact Quiet.refl hinv
    cases passed with
    | true => exact triple_done ha fun s hinv _ => ⟨hinv, afterHandoff_failed _⟩
    | false =>
      refine triple_effect (stable_at ha) (fun s _ _ => announces_about _ s)
        (fun s r s' hinv hs hexec => nextBeforeDeadline_exec hinv hs.1 hs.2 hexec) fun r => ?_
      cases r with
      | none => exact triple_forget (triple_done hrow fun s hinv _ => ⟨hinv, afterHandoff_failed _⟩)
      | some event =>
        cases event with
        | closed =>
          exact triple_forget
            (triple_done hrow fun s hinv hs => ⟨hinv, (fun _ => hs), fun h => by cases h⟩)
        | idle => exact ih.of_pre fun s hs => ⟨hs.1, hs.2.1, hs.2.2.1 fun h => by cases h⟩
        | delivery msgId envelope =>
          have hb : Lasting N i fun s => (Holds i k (responderRow peer relay inbox b) s ∧
              s.conn i = some (N.relayOf i.party, inbox)) ∧
              Fits N s (N.relayOf i.party) inbox envelope :=
            ha.and (lasting_of_ext fun _ _ he h => h.mono he)
          refine Triple.of_pre (triple_bind (triple_decryptMessage hb peer envelope) fun opened => ?_)
            fun s hs => ⟨hs.1, ⟨hs.2.1, hs.2.2.1 fun h => by cases h⟩, hs.2.2.2 msgId envelope rfl⟩
          dsimp only
          split
          · -- the handoff
            rintro s ⟨⟨hinv, hheld, hfits⟩, hopens⟩
            obtain ⟨hsender, -, hframe⟩ := hopens _ rfl
            obtain ⟨hhanded, rfl⟩ := handedOff_of_fits hfits hsender hframe
            refine triple_storeSend (fun set => ?_) s ⟨hinv, hheld.1, hhanded⟩
            rcases set with err | _
            · exact triple_done ((lasting_holds k _).and (lasting_handedOff _ _ _))
                fun s hinv _ => ⟨hinv, afterHandoff_failed _⟩
            refine triple_storeRoot fun set => ?_
            rcases set with err | _
            · exact triple_done (lasting_agreed _ _) fun s hinv _ => ⟨hinv, afterHandoff_failed _⟩
            · exact triple_about_kept (lasting_agreed _ _)
                (fun s r s' hinv _ hexec => ack_exec hinv hexec) fun _ =>
                triple_done (lasting_agreed _ _) fun s hinv hs => ⟨hinv, afterHandoff_ok hs⟩
          · -- anything else is acked and forgotten
            exact (triple_about_kept ha (fun s r s' hinv _ hexec => ack_exec hinv hexec)
              fun _ => ih).of_pre fun s hs => ⟨hs.1.1, hs.1.2.1⟩

/-- **The wait for the handoff.** -/
theorem triple_awaitInboxHandoffV2 (fuel : ℕ) :
    Triple (aboutSetting N i k) (At N (Holds i k (responderRow peer relay inbox b)))
      ((engine N i.party).awaitInboxHandoffV2 peer inbox b fuel)
      fun result => At N fun s => result = some (.ok ()) → Agreed N s i.party peer k := by
  have hrow : Lasting N i (Holds i k (responderRow peer relay inbox b)) := lasting_holds k _
  induction fuel with
  | zero => exact triple_done hrow fun s hinv _ => ⟨hinv, fun h => by cases h⟩
  | succ fuel ih =>
    refine triple_effect (stable_at hrow) (fun s _ _ => announces_about _ s)
      (b := fun connected s => Holds i k (responderRow peer relay inbox b) s ∧
        (connected = .ok → s.conn i = some (N.relayOf i.party, inbox)))
      (fun s r s' hinv hs hexec => ?_) fun connected => ?_
    · obtain ⟨c, hc⟩ := about_socket hexec
      simp only [performSocket] at hc
      split at hc
      · cases hc
        exact ⟨effect_setConn hinv _, hs, fun _ => Function.update_self _ _ _⟩
      · cases hc
        exact ⟨(Quiet.refl hinv).toEffect, hs, fun h => by cases h⟩
      · cases hc
        exact ⟨(Quiet.refl hinv).toEffect, hs, fun h => by cases h⟩
    cases connected with
    | ok =>
      refine Triple.of_pre (triple_bind (triple_handoffLoop fuel) fun exit => ?_)
        fun s hs => ⟨hs.1, hs.2.1, hs.2.2 rfl⟩
      cases exit with
      | returned result =>
        rcases result with err | _
        · exact (triple_done (lasting_const True) fun s hinv _ => ⟨hinv, fun h => by cases h⟩).of_pre
            fun s hs => ⟨hs.1, trivial⟩
        · exact (triple_done (lasting_agreed _ _) fun s hinv hs => ⟨hinv, fun _ => hs⟩).of_pre
            fun s hs => ⟨hs.1, hs.2.2 rfl⟩
      | disconnected => exact ih.of_pre fun s hs => ⟨hs.1, hs.2.1 rfl⟩
      | outOfFuel =>
        exact (triple_done (lasting_const True) fun s hinv _ => ⟨hinv, fun h => by cases h⟩).of_pre
          fun s hs => ⟨hs.1, trivial⟩
    | notFound => exact triple_forget (triple_done hrow fun s hinv _ => ⟨hinv, fun h => by cases h⟩)
    | unreachable =>
      refine triple_forget (triple_about_kept hrow (fun s r s' hinv _ hexec => ?_) fun passed => ?_)
      · obtain ⟨c, hc⟩ := about_socket hexec
        cases hc
        exact Quiet.refl hinv
      · cases passed with
        | true => exact triple_done hrow fun s hinv _ => ⟨hinv, fun h => by cases h⟩
        | false => exact ih

end Handoff

/-- **A responder.** When the pairing returns `Ok`, the two sides agree. -/
theorem triple_beginPairingFromOffer (scanned : Offer) (fuel : ℕ) :
    Triple (setting N i) (At N fun s => Made N s scanned)
      ((lib N i.party).beginPairingFromOffer scanned fuel)
      fun r => At N fun s => ∀ k, r = .ok (some k) →
        Made N s scanned ∧ Agreed N s i.party scanned.bundle k := by
  have hmade : Lasting N i fun s => Made N s scanned := lasting_of_ext fun _ _ he h => h.mono he
  have hfail : ∀ {a : Net → Prop} (err : CoreError), Lasting N i a →
      Triple (setting N i) (At N a) (.ret (.error err)) fun r => At N fun s =>
        ∀ k, r = (.ok (some k) : Result (Option ConversationId)) →
          Made N s scanned ∧ Agreed N s i.party scanned.bundle k :=
    fun err ha => triple_done ha fun s hinv _ => ⟨hinv, fun _ h => by cases h⟩
  refine triple_pairing_kept hmade (fun _ h => by cases h) (fun c s r s' hinv _ hc => ?_) fun now => ?_
  · cases hc
    exact Quiet.refl hinv
  dsimp only [lib]
  split
  · exact hfail _ hmade
  rename_i offer hparse
  have hoffer : scanned = offer := by
    split at hparse
    · cases hparse
      rfl
    · cases hparse
  subst hoffer
  refine triple_pairing_quiet hmade (fun _ h => by cases h)
    (b := fun r _ => ∀ peer, r = .ok peer → peer = scanned.bundle) (fun c s r s' hinv _ hc => ?_)
    fun r => ?_
  · cases hc
    refine ⟨Quiet.refl hinv, fun peer hpeer => ?_⟩
    split at hpeer
    · cases hpeer
    · cases hpeer
      rfl
  rcases r with err | peer
  · exact triple_forget (hfail _ hmade)
  rintro s₀ ⟨hinv₀, hs₀, hpeer⟩
  obtain rfl := hpeer peer rfl
  have hgrow : ∀ s s', Ext s s' → Made N s scanned → Made N s' scanned := fun _ _ he h => h.mono he
  refine triple_newRow (P := fun _ => False) hgrow (fun _ => rfl)
    (fun err s hinv hs => ⟨hinv, fun _ h => by cases h⟩) (fun inbox conv b => ?_) s₀
    ⟨hinv₀, hs₀, fun _ h => h.elim⟩
  have hrow : Lasting N i fun s => Made N s scanned ∧
      Holds i conv (responderRow scanned.bundle scanned.relayUrl inbox b) s :=
    hmade.and (lasting_holds conv _)
  refine Triple.of_pre ?_ (fun s hs => (⟨hs.1, hs.2.1.1, hs.2.2⟩ : At N (fun s => Made N s scanned ∧
    Holds i conv (responderRow scanned.bundle scanned.relayUrl inbox b) s) s))
  refine triple_pairing_quiet hrow (fun _ h => by cases h)
    (b := fun r _ => ∀ bundle, r = .ok bundle → bundle = i.party) (fun c s r s' hinv _ hc => ?_)
    fun r => ?_
  · cases hc
    refine ⟨Quiet.refl hinv, fun bundle hbundle => ?_⟩
    split at hbundle
    · cases hbundle
    · cases hbundle
      rfl
  rcases r with err | bundle
  · exact triple_forget (hfail _ hrow)
  rintro s₁ ⟨hinv₁, hs₁, hbundle⟩
  obtain rfl := hbundle bundle rfl
  refine triple_pairing_quiet hrow (fun _ h => by cases h)
    (fun c s r s' hinv _ hc => encryptMessage_exec hinv hc) (fun r => ?_) s₁ ⟨hinv₁, hs₁⟩
  rcases r with err | wire
  · exact triple_forget (hfail _ hrow)
  rintro s₂ ⟨hinv₂, hs₂, hwire⟩
  obtain rfl := hwire wire rfl
  refine triple_pairing_kept hrow (fun _ h => by cases h)
    (fun c s r s' hinv hs hc => deposit_exec hinv (fits_pairAck hs.2) hc) (fun r => ?_) s₂ ⟨hinv₂, hs₂⟩
  rcases r with err | (_ | _ | status)
  · exact hfail _ hrow
  · have hwait : Triple (setting N i)
        (At N (Holds i conv (responderRow scanned.bundle scanned.relayUrl inbox b)))
        (aboutConversation conv ((engine N i.party).awaitInboxHandoffV2 scanned.bundle inbox b fuel))
        fun result => At N fun s => result = some (.ok ()) → Agreed N s i.party scanned.bundle conv :=
      triple_about (triple_awaitInboxHandoffV2 fuel)
    have hawait := hwait.frame (stable_at hmade) fun s s' hg hs =>
      ⟨(hg hs.1).inv, hs.2.mono (hg hs.1).ext⟩
    refine Triple.of_pre (triple_bind hawait fun result => ?_)
      fun s hs => ⟨⟨hs.1, hs.2.2⟩, hs.1, hs.2.1⟩
    rcases result with _ | (err | _)
    · exact (triple_done hmade fun s hinv _ => ⟨hinv, fun _ h => by cases h⟩).of_pre fun s hs => hs.2
    · exact (hfail _ hmade).of_pre fun s hs => hs.2
    · refine (triple_done (hmade.and (lasting_agreed i.party scanned.bundle)) fun s hinv hs =>
        ⟨hinv, fun k hk => ?_⟩).of_pre fun s hs => ⟨hs.1.1, hs.2.2, hs.1.2 rfl⟩
      cases hk
      exact hs
  · exact hfail _ hrow
  · exact hfail _ hrow

theorem triple_responderTask (p : String) (scanned : Offer) (n fuel : ℕ) :
    Triple (setting N (.responder p scanned n)) (At N fun s => Made N s scanned)
      (responderTask N p scanned fuel) fun _ _ => True := by
  have htrue : Lasting N (.responder p scanned n) fun _ => True := lasting_const _
  refine triple_bind (triple_beginPairingFromOffer scanned fuel) fun r => ?_
  rcases r with err | (_ | conv)
  · exact (triple_done htrue fun _ _ _ => trivial).of_pre fun s hs => ⟨hs.1, trivial⟩
  · exact (triple_done htrue fun _ _ _ => trivial).of_pre fun s hs => ⟨hs.1, trivial⟩
  · have ha : Lasting N (.responder p scanned n) fun s =>
        Made N s scanned ∧ Agreed N s p scanned.bundle conv :=
      lasting_of_ext fun _ _ he h => ⟨h.1.mono he, h.2.mono he⟩
    have hpaired : ∀ s, Made N s scanned ∧ Agreed N s p scanned.bundle conv →
        ∀ q scanned' m, Task.responder p scanned n = .responder q scanned' m →
          Made N s scanned' ∧ Agreed N s q scanned'.bundle conv := by
      intro s hs q scanned' m htask
      cases htask
      exact hs
    refine Triple.of_pre ?_ (fun s hs => (⟨hs.1, hs.2 conv rfl⟩ :
      At N (fun s => Made N s scanned ∧ Agreed N s p scanned.bundle conv) s))
    dsimp only
    rw [← Program.bind_ret (pairing (.spawnConversation conv))]
    refine triple_kept (S := pairingSig carrier) ha (fun s _ hs k hk => ?_)
      (fun s r s' hinv hs hexec => ?_) fun _ => triple_done ha fun _ _ _ => trivial
    · cases hk
      exact hpaired s hs
    · obtain ⟨c, hc⟩ := hexec
      cases hc
      exact quiet_spawned hinv (hpaired s hs)

end Tasks

/-! ## Runs -/

/-- The invariant of a run: the network's own, and every task is safe. -/
def Sound (N : Config) (w : Sys) : Prop :=
  Inv N w.shared ∧ Threads.AllSafe (setting N) (fun _ _ => True) w

theorem sound_start (N : Config) : Sound N start := by
  refine ⟨⟨?_, ?_, ?_, ?_, ?_, ?_, ?_⟩, fun i _ _ => trivial⟩
  · intro n i h
    cases h
  · intro p k x h
    cases h
  · intro p k x l y n h
    cases h
  · intro relay id queue m h
    cases h
  · intro p k m h
    cases h
  · intro offer h
    cases h
  · intro p scanned n k h
    cases h

/-- What a task promises is what the others rely on. -/
theorem setting_compat {N : Config} {i j : Task} (hj : j ≠ i) {s s' : Net}
    (hg : (setting N i).guar s s') : (setting N j).rely s s' :=
  fun hinv => ⟨(hg hinv).inv, (hg hinv).ext, (hg hinv).others j hj⟩

section Runs

variable {N : Config} {w w' : Sys}

theorem Sound.startTask (h : Sound N w) {i : Task} {p : PairingM carrier Unit}
    (hp : Safe (setting N i) (fun _ _ => True) p w.shared) (hstep : startTask w i p = some w') :
    Sound N w' := by
  unfold Network.startTask at hstep
  split at hstep
  · cases hstep
    exact ⟨h.1, h.2.start hp⟩
  · cases hstep

theorem exists_row {p : String} {conv : ConversationId} {s : Net}
    (h : conv < (s.conversations p).length) : ∃ x, s.row? p conv = some x :=
  ⟨_, List.getElem?_eq_getElem h⟩

/-- One step keeps the system sound. -/
theorem Sound.step {l : Label} (h : Sound N w) (hstep : step N w l = some w') : Sound N w' := by
  cases l with
  | act i c =>
    simp only [Network.step] at hstep
    cases htodo : w.todo i with
    | ret _ =>
      rw [htodo] at hstep
      cases hstep
    | op o k =>
      rw [htodo] at hstep
      obtain ⟨⟨r, s'⟩, hperform, rfl⟩ := Option.map_eq_some_iff.mp hstep
      have hexec : (setting N i).exec o w.shared r s' := ⟨c, hperform⟩
      have hsafe := h.2 i
      rw [htodo] at hsafe
      refine ⟨((hsafe.step hexec).1 h.1).inv, ?_⟩
      exact h.2.step (fun j hj _ _ hg => setting_compat hj hg) htodo hexec
  | mint p n fuel => exact h.startTask (triple_offerTask p n fuel _ h.1) hstep
  | scan p scanned n fuel =>
    simp only [Network.step] at hstep
    split at hstep
    · rename_i hscanned
      exact h.startTask
        (triple_responderTask p scanned n fuel _ ⟨h.1, h.1.offers scanned hscanned⟩) hstep
    · cases hstep
  | listen p conv n fuel =>
    simp only [Network.step] at hstep
    split at hstep
    · rename_i hconv
      exact h.startTask (triple_about (triple_conversationListener fuel) _ ⟨h.1, exists_row hconv⟩) hstep
    · cases hstep
  | sendChat p conv n text =>
    simp only [Network.step] at hstep
    split at hstep
    · rename_i hconv
      exact h.startTask (triple_about (triple_sendChat text) _ ⟨h.1, exists_row hconv⟩) hstep
    · cases hstep
  | drop i =>
    cases hstep
    exact ⟨h.1, h.2.start fun _ _ => trivial⟩

theorem sound_of_run {ls : List Label} (hrun : run (Network.step N) start ls = some w) : Sound N w :=
  have hany : Along (Network.step N) (fun _ _ => True) start ls := Along.of_forall fun _ _ => trivial
  run_invariant (fun _ _ _ hs _ hstep => hs.step hstep) (sound_start N) hany hrun

end Runs

/-- The responder's `begin_pairing_from_offer` has returned `Ok` for the conversation: the task is about
to spawn its listener, or has. -/
def Returned (w : Sys) (i : Task) (k : ConversationId) : Prop :=
  (w.todo i).next? = some (.spawnConversation k) ∨ (i, k) ∈ w.shared.spawned

/-- **Pairing agreement.** In every run, whenever a responder's pairing has returned `Ok` for a
conversation, the party that made the offer holds a conversation with the complementary role and the same
root, and each sends to the relay and inbox the other receives on. -/
theorem pairing_agreement {N : Config} {ls : List Label} {w : Sys}
    (hrun : run (step N) start ls = some w) {p : String} {scanned : Offer} {n : ℕ} {k : ConversationId}
    (hk : Returned w (.responder p scanned n) k) :
    Made N w.shared scanned ∧ Agreed N w.shared p scanned.bundle k := by
  obtain ⟨hinv, hsafe⟩ := sound_of_run hrun
  rcases hk with hnext | hspawned
  · have hresponder := hsafe (.responder p scanned n)
    cases htodo : w.todo (.responder p scanned n) with
    | ret _ =>
      rw [htodo] at hnext
      cases hnext
    | op o k =>
      rw [htodo] at hnext hresponder
      exact hresponder.check _ (Option.some.inj hnext) p scanned n rfl
  · exact hinv.spawned p scanned n k hspawned

/-! ### A pairing that returns -/

/-- Alice is on relay 0, everybody else on relay 1. -/
def twoRelays : Config where
  relayOf p := if p = "alice" then 0 else 1
  deriveRoot a b := 100 * a + b
  deriveMailboxId root _ generation := root + generation

/-- Answers from outside: every random number is `n`, and no deadline passes. -/
def outside (n : ℕ) : (o : PairingOp carrier) → o.Answer
  | .unixNow => 0
  | .drawSecret => n
  | .drawContribution => n
  | .encodePairingOfferV3 offer => .ok offer
  | .establishSession bundle => .ok bundle
  | .exportPrekeyBundle => .ok ""
  | .encryptMessage _ _ => .error .pairingUnavailable
  | .decryptSetupFromUnknown _ => .error .pairingUnavailable
  | .createRoutedConversation _ => .ok 0
  | .setRecoveryPairing _ _ _ => .ok ()
  | .call o | .about _ o =>
    match o with
    | .store .getConversation => .ok none
    | .store .recoveryState => .ok none
    | .store (.setConversationSend _ _) => .ok ()
    | .store (.setConversationRecv _) => .ok ()
    | .store (.setRecoveryRoot _ _) => .ok ()
    | .store (.setRecoveryGenerations _ _) => .ok ()
    | .store .pendingChat => .ok []
    | .store (.insertMessage _ _ _) => .error .pairingUnavailable
    | .store (.markMessageSent _) => .ok ()
    | .store (.loadSession _ _) => .ok none
    | .store (.storeSession _ _ _) => .ok ()
    | .ram .takeRotation => none
    | .ram (.insertRotation _) => ()
    | .ram (.markHelloSeen _ _) => true
    | .ram .cyclesExhausted => false
    | .ram .noteProbeCycle => ()
    | .ram .resetExhaustion => ()
    | .ram .drawNonce => n
    | .ram .lockFlush => ()
    | .ram .unlockFlush => ()
    | .relay .createMailbox => .ok 0
    | .relay (.putMailbox _ _) => .ok .created
    | .relay (.deposit _ _ _) => .ok .accepted
    | .relay (.deleteMailbox _) => .ok ()
    | .socket (.subscribe _) => .ok
    | .socket .next => .idle
    | .socket .nextBeforeDeadline => none
    | .socket .deadlinePassed => false
    | .socket (.ack _) => ()
    | .notify _ => ()
  | .spawnConversation _ => ()

/-- Everything goes well. -/
def wellServed (n : ℕ) : Choice := ⟨.served, .deliver, false, outside n⟩

/-- The offer Alice makes. -/
def aliceOffer : Offer := ⟨"alice", 0, 0, 7, 0, offerDefaultTtlS⟩

/-- Alice makes an offer, Bob scans it and acknowledges it, Alice completes the pairing, Bob takes the
handoff. -/
def pairingRun : List Label :=
  .mint "alice" 0 3 :: List.replicate 5 (.act (.offer "alice" 0) (wellServed 7)) ++
  .scan "bob" aliceOffer 0 3 ::
    List.replicate 10 (.act (.responder "bob" aliceOffer 0) (wellServed 5)) ++
  List.replicate 12 (.act (.offer "alice" 0) (wellServed 7)) ++
  List.replicate 8 (.act (.responder "bob" aliceOffer 0) (wellServed 5))

theorem pairingRun_agreed : ∃ w, run (step twoRelays) start pairingRun = some w ∧
    Returned w (.responder "bob" aliceOffer 0) 0 ∧
    Made twoRelays w.shared aliceOffer ∧ Agreed twoRelays w.shared "bob" "alice" 0 := by
  have hrun : ((run (step twoRelays) start pairingRun).map fun w => w.shared.spawned) =
      some [(.offer "alice" 0, 0), (.responder "bob" aliceOffer 0, 0)] := by
    decide +kernel
  obtain ⟨w, hw, hspawned⟩ := Option.map_eq_some_iff.mp hrun
  have hreturned : Returned w (.responder "bob" aliceOffer 0) 0 := by
    right
    rw [hspawned]
    exact List.mem_cons_of_mem _ List.mem_cons_self
  exact ⟨w, hw, hreturned, pairing_agreement hw hreturned⟩

end Titlan.Pairing.Network
