import Titlan.Foundation.RelyGuarantee
import Titlan.World.Listening

/-! # The setting of the refinement

What a step may do in each regime, the setting in which the threads are verified, and the rules for an
operation that shows nothing, for one that is a protocol step, and for sealing and flushing. -/

namespace Titlan.World

open Foundation

variable [Sealing]

/-- The generation a party is at: that of the derived inbox it is on, else the stored one. -/
def St.generation (s : St) (p : Role) : ℕ :=
  match s.recv p with
  | some (.derived _ k) => k
  | _ => (s.party p).recovery.ownGen

/-- A party creates the inbox the other is on again, once it is lost, only at a generation that is not
later than its own; and the responder has its answer's inbox generated only while the derived inbox the
answer goes to exists. -/
def Timely (p : Role) (s : St) : Op carrier → Prop
  | .relay (.putMailbox _ (.derived q k)) =>
    q = p.peer → s.recv q = some (.derived q k) → s.boxes (.derived q k) = none → k ≤ s.generation p
  | .relay .createMailbox =>
    p = .responder → (s.boxes (.derived .offerer (s.party .responder).recovery.ownGen)).isSome
  | _ => True

/-- The offerer handles no hello of a later generation than its own, and creates no inbox again that the
responder is on at its own generation; the responder moves only to generations its hellos reach. -/
def Aligned (p : Role) (s : St) : Op carrier → Prop
  | .ram (.markHelloSeen r _) => p = .offerer → r ≤ (s.party p).recovery.ownGen
  | .relay (.putMailbox _ (.derived .responder k)) =>
    p = .offerer → s.recv .responder = some (.derived .responder k) →
      s.boxes (.derived .responder k) = none → k < s.generation p
  | .store (.setConversationRecv (.derived _ g)) =>
    p = .responder → g ∈ GenerationState.outboundWindow ⟨g, (s.party p).recovery.peerGen⟩
  | _ => True

namespace Refinement

/-- What the regime asks of a step. -/
def Course.Allows (ρ : Course) (p : Role) (s : St) (o : Op carrier) : Prop :=
  match ρ.regime with
  | .losing => Timely p s o
  | .meeting => Timely p s o ∧ Aligned p s o
  | .keeping _ => True

/-- What holds whenever a listener is about to perform an operation. -/
structure Checked (ρ : Course) (p : Role) (o : Op carrier) (s : St) : Prop where
  next : o = .socket .next → ∃ b, Reading ρ p b s
  restart : Guarded ρ p s
  leg : o = .ram .takeRotation → (s.party p).rotation = none → p = .responder

/-- What a thread is verified against. -/
def setting (ρ : Course) (i : ThreadId) : Setting (engineSig carrier) St where
  exec o s r s' := ρ.Allows i.party s o ∧ ∃ c, perform i.party c s o = some (r, s')
  check o s := ∀ p, i = .listener p → Checked ρ p o s
  rely s s' := Good ρ s → Good ρ s' ∧ ∀ p, i = .listener p → Others ρ p s s'
  guar s s' := Good ρ s →
    Good ρ s' ∧ Moves ρ i.party s s' ∧ ∀ p n, i = .sender p n → Others ρ p s s'

/-- What one thread guarantees, every other relies on. -/
theorem setting_compat {ρ : Course} {i j : ThreadId} (hij : j ≠ i) {s s' : St}
    (h : (setting ρ i).guar s s') : (setting ρ j).rely s s' := by
  intro hg
  obtain ⟨hg', hmoves, hself⟩ := h hg
  refine ⟨hg', ?_⟩
  rintro p rfl
  rcases i.party.eq_or_eq_peer p with hp | hp
  · cases i with
    | listener q => exact absurd (by rw [← hp]; rfl) hij
    | sender q n => exact hp ▸ hself q n rfl
  · exact (hp ▸ hmoves).others

section Rules

variable {ρ : Course} {i : ThreadId} {p : Role} {α : Type} {a a' : St → Prop} {post : α → St → Prop}
  {s s' : St}

/-- The assertion survives what the other threads do, and leaves a listener guarded. -/
structure Stays (ρ : Course) (i : ThreadId) (a : St → Prop) : Prop where
  lasts : ∀ s s', Good ρ s → Good ρ s' → (∀ p, i = .listener p → Others ρ p s s') → a s → a s'
  guarded : ∀ p, i = .listener p → ∀ s, a s → Guarded ρ p s

theorem Lasts.stays (h : Lasts ρ p a) (hg : ∀ s, a s → Guarded ρ p s) : Stays ρ (.listener p) a where
  lasts s s' hs hs' ho := h s s' hs hs' (ho p rfl)
  guarded := by
    rintro _ ⟨⟩
    exact hg

/-- A sender remembers nothing but its own data. -/
theorem stays_sender {n : ℕ} {P : Prop} : Stays ρ (.sender p n) fun _ => P where
  lasts _ _ _ _ _ h := h
  guarded := (by simp)

theorem Stays.stable (h : Stays ρ i a) : Stable (setting ρ i) fun s => Good ρ s ∧ a s := by
  rintro s s' hr ⟨hg, hs⟩
  obtain ⟨hg', ho⟩ := hr hg
  exact ⟨hg', h.lasts s s' hg hg' ho hs⟩

/-- The operation shows nothing, to the protocol or to the party's listener. -/
structure Still (ρ : Course) (p : Role) (s s' : St) : Prop where
  view : ρ.view s' = ρ.view s
  rotation : (s'.party p).rotation = (s.party p).rotation
  helloSeen : (s'.party p).helloSeen = (s.party p).helloSeen
  conn : (s'.party p).conn = (s.party p).conn

theorem Still.others (h : Still ρ p s s') (hl : Later s s') : Others ρ p s s' :=
  ⟨.inl h.view, h.rotation, h.helloSeen, .inl h.conn, hl⟩

theorem Still.modify {g : Party → Party} (hconvo : (g (s.party p)).convo = (s.party p).convo)
    (hrecovery : (g (s.party p)).recovery = (s.party p).recovery)
    (hrotation : (g (s.party p)).rotation = (s.party p).rotation)
    (hseen : (g (s.party p)).helloSeen = (s.party p).helloSeen)
    (hconn : (g (s.party p)).conn = (s.party p).conn) : Still ρ p s (s.modify p g) := by
  refine ⟨view_modify_same hconvo hrecovery, ?_, ?_, ?_⟩ <;> rwa [St.modify_party_self]

variable {o : Op carrier} {c : Choice} {r : o.Answer}

theorem Stays.check (ha : Stays ρ i a) (hn : o ≠ .socket .next) (ht : o ≠ .ram .takeRotation) (hs : a s) :
    (setting ρ i).check o s :=
  fun p hp => ⟨fun h => absurd h hn, ha.guarded p hp s hs, fun h => absurd h ht⟩

/-- An operation that shows nothing keeps the assertion. -/
theorem Stays.step (ha : Stays ρ i a) (ho : Proper o) (hg : Good ρ s) (hs : a s)
    (hp : perform i.party c s o = some (r, s')) (hstill : Still ρ i.party s s') :
    (setting ρ i).guar s s' ∧ Good ρ s' ∧ a s' := by
  obtain ⟨htidy, hlater, hpeer⟩ := hg.toTidy.perform ho hp
  have hg' : Good ρ s' := hg.moves (p := i.party) htidy (.inl hstill.view)
  have hothers := hstill.others hlater
  refine ⟨fun _ => ⟨hg', ⟨.inl hstill.view, hpeer, hlater⟩, ?_⟩, hg', ha.lasts s s' hg hg' ?_ hs⟩
  · rintro p n rfl
    exact hothers
  · rintro p rfl
    exact hothers

/-- A program of the thread, started in a good state. -/
abbrev GoodTriple (ρ : Course) (i : ThreadId) (a : St → Prop) (pr : EngineM carrier α)
    (post : α → St → Prop) : Prop :=
  Triple (setting ρ i) (fun s => Good ρ s ∧ a s) pr post

/-- **Rule for an operation that shows nothing.** -/
theorem triple_still {k : o.Answer → EngineM carrier α} {e : o.Answer → Prop}
    (ha : Stays ρ i a) (ho : Proper o) (hn : o ≠ .socket .next) (ht : o ≠ .ram .takeRotation)
    (hstep : ∀ s c r s', Good ρ s → a s → perform i.party c s o = some (r, s') →
      Still ρ i.party s s' ∧ e r)
    (hk : ∀ r, e r → GoodTriple ρ i a (k r) post) : GoodTriple ρ i a (.op o k) post := by
  refine triple_op (S := engineSig carrier) (m := fun r s => (Good ρ s ∧ a s) ∧ e r) ha.stable ?_ ?_
    fun r s hs => hk r hs.2 s hs.1
  · rintro s ⟨-, hs⟩
    exact ha.check hn ht hs
  · rintro s r s' ⟨hg, hs⟩ ⟨-, c, hp⟩
    obtain ⟨hstill, he⟩ := hstep s c r s' hg hs hp
    obtain ⟨hguar, hs'⟩ := ha.step ho hg hs hp hstill
    exact ⟨hguar, hs', he⟩

/-- **Rule for any operation of a listener.** -/
theorem triple_own {k : o.Answer → EngineM carrier α} {e : o.Answer → St → Prop}
    (ha : Lasts ρ p a) (ho : Proper o) (hcheck : ∀ s, Good ρ s → a s → Checked ρ p o s)
    (hstep : ∀ s c r s', Good ρ s → a s → ρ.Allows p s o → perform p c s o = some (r, s') →
      (ρ.view s' = ρ.view s ∨ View.Step ρ.regime p (ρ.view s) (ρ.view s')) ∧
        (Good ρ s' → Later s s' → e r s'))
    (hk : ∀ r, GoodTriple ρ (.listener p) (e r) (k r) post) :
    GoodTriple ρ (.listener p) a (.op o k) post := by
  have hstable : Stable (setting ρ (.listener p)) fun s => Good ρ s ∧ a s := by
    rintro s s' hr ⟨hg, hs⟩
    obtain ⟨hg', hothers⟩ := hr hg
    exact ⟨hg', ha s s' hg hg' (hothers p rfl) hs⟩
  refine triple_op (S := engineSig carrier) hstable ?_ ?_ hk
  · rintro s ⟨hg, hs⟩ _ ⟨⟩
    exact hcheck s hg hs
  · rintro s r s' ⟨hg, hs⟩ ⟨hallows, c, hp⟩
    obtain ⟨hview, he⟩ := hstep s c r s' hg hs hallows hp
    obtain ⟨htidy, hlater, hpeer⟩ := hg.toTidy.perform ho hp
    have hg' := hg.moves htidy hview
    exact ⟨fun _ => ⟨hg', ⟨hview, hpeer, hlater⟩, (by simp)⟩, hg', he hg' hlater⟩

/-! ## Handlers -/

/-- The memory a listener's proof speaks of. -/
def memory (x : Party) := (x.rotation, x.helloSeen, x.conn)

theorem memory_eq_iff {x y : Party} : memory x = memory y ↔
    x.rotation = y.rotation ∧ x.helloSeen = y.helloSeen ∧ x.conn = y.conn := by
  simp only [memory, Prod.mk.injEq]

/-- Store accesses, requests and callbacks leave the memory alone. -/
theorem perform_memory
    (h : perform p c s o = some (r, s')) (hram : ∀ q, o ≠ .ram q) (hsocket : ∀ q, o ≠ .socket q) :
    memory (s'.party p) = memory (s.party p) := by
  have hmodify : ∀ {g : Party → Party}, memory (g (s.party p)) = memory (s.party p) →
      memory ((s.modify p g).party p) = memory (s.party p) := by
    intro g hg
    rwa [St.modify_party_self]
  cases o with
  | socket q => exact absurd rfl (hsocket q)
  | ram q => exact absurd rfl (hram q)
  | store o =>
    cases o with
    | insertMessage d f status =>
      cases h
      have hself := congrArg memory
        (s.setRows_party_self p (s.rows p ++ [⟨s.nextRow, d, f, status⟩]) (s.nextRow + 1))
      exact hself
    | _ =>
      cases h
      first | rfl | exact hmodify rfl
  | notify n => cases n <;> cases h <;> first | rfl | exact hmodify rfl
  | relay o =>
    cases o with
    | createMailbox =>
      cases h
      have hself := congrArg memory (s.mint_party_self p)
      exact hself
    | putMailbox _ id =>
      simp only [perform, performRelay] at h
      split at h <;> cases h <;> rfl
    | deposit _ b wire =>
      rcases perform_deposit h with ⟨-, -, rfl⟩ | ⟨l, -, -, rfl⟩ <;> rfl
    | deleteMailbox id =>
      cases h
      rfl

/-- The socket is left alone by everything but socket operations. -/
theorem perform_conn (hsocket : ∀ q, o ≠ .socket q)
    (h : perform p c s o = some (r, s')) : (s'.party p).conn = (s.party p).conn := by
  have hmodify : ∀ {g : Party → Party}, (g (s.party p)).conn = (s.party p).conn →
      ((s.modify p g).party p).conn = (s.party p).conn := by
    intro g hg
    rwa [St.modify_party_self]
  cases o with
  | ram o =>
    cases o with
    | lockFlush =>
      simp only [perform, performRam] at h
      split at h
      · cases h
      · cases h
        exact hmodify rfl
    | _ =>
      cases h
      first | rfl | exact hmodify rfl
  | socket q => exact absurd rfl (hsocket q)
  | store o => exact (memory_eq_iff.mp (perform_memory h (by simp) (by simp))).2.2
  | relay o => exact (memory_eq_iff.mp (perform_memory h (by simp) (by simp))).2.2
  | notify n => exact (memory_eq_iff.mp (perform_memory h (by simp) (by simp))).2.2

/-- Nothing but deletions and the socket takes messages out of a derived inbox. -/
theorem perform_keeps {q : Role} {j : ℕ} {l : List Queued}
    (hdelete : ∀ id, o ≠ .relay (.deleteMailbox id)) (hsocket : ∀ q, o ≠ .socket q)
    (h : perform p c s o = some (r, s')) (hl : s.boxes (.derived q j) = some l) :
    ∃ l', s'.boxes (.derived q j) = some l' ∧ l ⊆ l' := by
  have hsame : s'.boxes (.derived q j) = s.boxes (.derived q j) →
      ∃ l', s'.boxes (.derived q j) = some l' ∧ l ⊆ l' := fun heq =>
    ⟨l, heq.trans hl, List.Subset.refl l⟩
  cases o with
  | socket q => exact absurd rfl (hsocket q)
  | store o =>
    cases o <;> cases h <;> exact hsame rfl
  | notify n => cases n <;> cases h <;> exact hsame rfl
  | ram o =>
    cases o with
    | lockFlush =>
      simp only [perform, performRam] at h
      split at h
      · cases h
      · cases h
        exact hsame rfl
    | _ =>
      cases h
      exact hsame rfl
  | relay o =>
    cases o with
    | deleteMailbox id => exact absurd rfl (hdelete id)
    | createMailbox =>
      cases h
      exact hsame (s.mint_boxes_of_ne p (by simp))
    | putMailbox _ id =>
      simp only [perform, performRelay] at h
      split at h <;> cases h
      · exact hsame rfl
      · rename_i hnone
        refine hsame (s.setBox_boxes_of_ne _ ?_)
        rintro rfl
        rw [hl] at hnone
        cases hnone
    | deposit _ id wire =>
      rcases perform_deposit h with ⟨-, -, rfl⟩ | ⟨l₀, hl₀, -, rfl⟩
      · exact hsame rfl
      · by_cases hb : MailboxId.derived q j = id
        · subst hb
          rw [hl, Option.some.injEq] at hl₀
          subst hl₀
          exact ⟨_, s.deposit_boxes_self _ l wire, List.subset_append_left _ _⟩
        · exact hsame (s.deposit_boxes_of_ne l₀ wire hb)

/-- What a handler carries along: the environment and the handler's own operations, none of which is on
the socket or deletes a mailbox, preserve it. -/
structure Framed (ρ : Course) (p : Role) (F : St → Prop) : Prop where
  lasts : Lasts ρ p F
  own : ∀ s s', (s'.party p).conn = (s.party p).conn → Later s s' → (ρ.view s).log ⊆ (ρ.view s').log →
    (∀ q j l, s.boxes (.derived q j) = some l → ∃ l', s'.boxes (.derived q j) = some l' ∧ l ⊆ l') →
    F s → F s'
  guarded : ∀ s, F s → Guarded ρ p s

/-- The message being handled stays open. -/
theorem Open.own {b : MailboxId} {m : Queued} (h : Open ρ p b m s)
    (hconn : (s'.party p).conn = (s.party p).conn) (hlater : Later s s')
    (hlog : (ρ.view s).log ⊆ (ρ.view s').log) : Open ρ p b m s' := by
  refine ⟨?_, fun hlive => ?_, fun hc => hlog (h.logged hc)⟩
  · rcases h.connected with hlive | ⟨hκ, buffered, hdead, hb⟩
    · exact .inl (hconn.trans hlive)
    · exact .inr ⟨hκ, buffered, hconn.trans hdead, fun m hm => ⟨(hb m hm).1, fun hc => hlog ((hb m hm).2 hc)⟩⟩
  · obtain ⟨hlt, hcur⟩ := h.current (hconn ▸ hlive)
    refine ⟨Nat.lt_of_lt_of_le hlt hlater.nextMsg_le, fun l' hl' m' hm' hid => ?_⟩
    rcases hlater.boxes b l' hl' m' hm' with ⟨l, hl, hm⟩ | hnew
    · exact hcur l hl m' hm hid
    · omega

/-- The message being handled stays where it is. -/
theorem framed_held {b : MailboxId} {m : Queued} : Framed ρ p (Held ρ p b m) where
  lasts := lasts_held
  guarded _ h := h.guarded
  own s s' hconn hlater hlog hkeep h := by
    refine ⟨h.1.own hconn hlater hlog, fun hκ => ?_⟩
    obtain ⟨k, l, rfl, hl, hm⟩ := h.2 hκ
    obtain ⟨l₀, hl₀, rfl⟩ := Option.map_eq_some_iff.mp hl
    obtain ⟨l', hl', hsub⟩ := hkeep _ _ l₀ hl₀
    obtain ⟨hm, hc⟩ := List.mem_filter.mp hm
    exact ⟨k, _, rfl, view_boxes hl', List.mem_filter.mpr ⟨hsub hm, hc⟩⟩

/-- Outside of a handler nothing is carried along. -/
theorem framed_lossy (hκ : ρ.regime.Lossy) : Framed ρ p fun _ => True :=
  ⟨lasts_const, fun _ _ _ _ _ _ => id, fun _ _ => .inl hκ⟩

theorem Framed.stays {F : St → Prop} (hF : Framed ρ p F) (ha : Lasts ρ p a) :
    Stays ρ (.listener p) fun s => a s ∧ F s :=
  (ha.and hF.lasts).stays fun s hs => hF.guarded s hs.2

/-- **Rule for an operation of a handler.** -/
theorem triple_step {F : St → Prop} {k : o.Answer → EngineM carrier α}
    {e : o.Answer → St → Prop} (hF : Framed ρ p F) (ha : Lasts ρ p a) (ho : Proper o)
    (hsocket : ∀ q, o ≠ .socket q) (hdelete : ∀ id, o ≠ .relay (.deleteMailbox id))
    (hleg : o = .ram .takeRotation → ∀ s, Good ρ s → a s ∧ F s → (s.party p).rotation = none →
      p = .responder)
    (hstep : ∀ s c r s', Good ρ s → a s ∧ F s → ρ.Allows p s o → perform p c s o = some (r, s') →
      (ρ.view s' = ρ.view s ∨ View.Step ρ.regime p (ρ.view s) (ρ.view s')) ∧
        (Good ρ s' → F s' → e r s'))
    (hk : ∀ r, GoodTriple ρ (.listener p) (fun s => e r s ∧ F s) (k r) post) :
    GoodTriple ρ (.listener p) (fun s => a s ∧ F s) (.op o k) post := by
  refine triple_own (e := fun r s => e r s ∧ F s) (ha.and hF.lasts) ho ?_ ?_ hk
  · intro s hg hs
    exact ⟨fun h => absurd h (hsocket _), hF.guarded s hs.2, fun h => hleg h s hg hs⟩
  · intro s c r s' hg hs hallows hp
    obtain ⟨hview, he⟩ := hstep s c r s' hg hs hallows hp
    have hlog : (ρ.view s).log ⊆ (ρ.view s').log := by
      rcases hview with heq | hst
      · rw [heq]
        exact List.Subset.refl _
      · exact hst.log_subset
    refine ⟨hview, fun hg' hlater => ?_⟩
    have hF' := hF.own s s' (perform_conn hsocket hp) hlater hlog
      (fun _ _ _ => perform_keeps hdelete hsocket hp) hs.2
    exact ⟨he hg' hF', hF'⟩

theorem triple_return {x : α} (ha : Stays ρ i a) (h : ∀ s, Good ρ s → a s → post x s) :
    GoodTriple ρ i a (.ret x) post :=
  triple_ret ha.stable fun s hs => h s hs.1 hs.2

/-! ## Sealing and flushing -/

/-- The hello ring is written by `mark_hello_seen` alone. -/
theorem still_of_idle (h : perform p c s o = some (r, s')) (ho : Idle o)
    (hseen : ∀ g n, o ≠ .ram (.markHelloSeen g n)) : Still ρ p s s' := by
  have hu := unmoved_of_idle ho h
  refine ⟨view_of_unmoved hu, hu.rotation, ?_, hu.conn⟩
  cases o with
  | store o =>
    cases o with
    | storeSession _ _ _ =>
      cases h
      rw [St.modify_party_self]
    | _ => first | exact ho.elim | (cases h; rfl)
  | relay o => cases o <;> exact ho.elim
  | socket o => cases o <;> exact ho.elim
  | notify n =>
    cases n with
    | needsRepair =>
      cases h
      rw [St.modify_party_self]
    | _ =>
      cases h
      rfl
  | ram o =>
    cases o with
    | takeRotation => exact ho.elim
    | insertRotation _ => exact ho.elim
    | markHelloSeen g n => exact absurd rfl (hseen g n)
    | drawNonce =>
      cases h
      rfl
    | lockFlush =>
      simp only [perform, performRam] at h
      split at h
      · cases h
      · cases h
        rw [St.modify_party_self]
    | _ =>
      cases h
      rw [St.modify_party_self]

theorem proper_of_idle (ho : Idle o) : Proper o := by
  cases o with
  | store o => cases o <;> trivial
  | relay o => cases o <;> exact ho.elim
  | _ => trivial

/-- **Rule for an operation that reads, or writes what nobody relies on.** -/
theorem triple_idle {k : o.Answer → EngineM carrier α} {e : o.Answer → Prop}
    (ha : Stays ρ i a) (ho : Idle o) (hseen : ∀ g n, o ≠ .ram (.markHelloSeen g n))
    (he : ∀ s c r s', Good ρ s → a s → perform i.party c s o = some (r, s') → e r)
    (hk : ∀ r, e r → GoodTriple ρ i a (k r) post) : GoodTriple ρ i a (.op o k) post := by
  refine triple_still ha (proper_of_idle ho) ?_ ?_
    (fun s c r s' hg hs h => ⟨still_of_idle h ho hseen, he s c r s' hg hs h⟩) hk
  · rintro rfl
    exact ho
  · rintro rfl
    exact ho

/-- **The same, where there is one answer.** -/
theorem triple_idle_eq {k : o.Answer → EngineM carrier α} {v : o.Answer} (ha : Stays ρ i a)
    (ho : Idle o) (hseen : ∀ g n, o ≠ .ram (.markHelloSeen g n)) (hv : ∀ r : o.Answer, r = v)
    (hk : GoodTriple ρ i a (k v) post) : GoodTriple ρ i a (.op o k) post :=
  triple_idle (e := fun r => r = v) ha ho hseen (fun _ _ r _ _ _ _ => hv r) fun _ hr => hr ▸ hk

/-- Sealing and opening do not show. -/
theorem triple_sessions {pr : EngineM carrier α} {q : α → Prop} (ha : Stays ρ i a) (h : sessions.Kept q pr) :
    GoodTriple ρ i a pr fun r s => (Good ρ s ∧ a s) ∧ q r := by
  refine h.triple ha.stable ?_ ?_
  · rintro o s ho ⟨-, hs⟩
    exact ha.check (by rintro rfl; exact ho) (by rintro rfl; exact ho) hs
  · rintro o s r s' ho ⟨hg, hs⟩ ⟨-, c, hp⟩
    have hidle := idle_of_sessions ho
    have hstill : Still ρ i.party s s' := still_of_idle hp hidle (by rintro g n rfl; exact ho)
    obtain ⟨hguar, hs'⟩ := ha.step (proper_of_idle hidle) hg hs hp hstill
    exact ⟨hguar, hs', answers_sessions ho hp⟩

omit [Sealing] in
theorem not_isRecovery_of_isChat {f : Frame} (h : isChat f) : ¬ isRecovery f := by
  cases f <;> simp_all [isChat, isRecovery]

omit [Sealing] in
theorem admitted_of_isChat {f : Frame} (h : isChat f) : Admitted f := by
  cases f <;> trivial

/-- Nothing a flush of chats performs shows. -/
theorem still_of_flushing (hg : Good ρ s) (ho : (engine.flushing fun f => isChat f).performs o)
    (h : perform p c s o = some (r, s')) :
    Proper o ∧ Still ρ p s s' ∧ (engine.flushing fun f => isChat f).answers o r := by
  cases o with
  | store o =>
    cases o with
    | loadSession _ _ | storeSession _ _ _ | getConversation =>
      exact ⟨trivial, still_of_idle h trivial (by simp), trivial⟩
    | pendingChat =>
      refine ⟨trivial, still_of_idle h trivial (by simp), ?_⟩
      cases h
      rintro _ ⟨⟩ x hx
      obtain ⟨m, hm, rfl⟩ := List.mem_map.mp hx
      obtain ⟨hm, hpend⟩ := List.mem_filter.mp hm
      exact hg.outgoing _ m hm (of_decide_eq_true hpend).1
    | markMessageSent id =>
      cases h
      exact ⟨trivial, .modify rfl rfl rfl rfl rfl, trivial⟩
    | _ => exact ho.elim
  | ram o =>
    cases o with
    | lockFlush | unlockFlush => exact ⟨trivial, still_of_idle h trivial (by simp), trivial⟩
    | _ => exact ho.elim
  | relay o =>
    cases o with
    | deposit _ b wire =>
      obtain ⟨f, _, _, hseal, hf⟩ := ho
      obtain rfl := Sealing.sealed hseal
      refine ⟨admitted_of_isChat hf, ?_, trivial⟩
      rcases perform_deposit h with ⟨-, -, rfl⟩ | ⟨l, hl, -, rfl⟩
      · exact ⟨rfl, rfl, rfl, rfl⟩
      · exact ⟨view_deposit_other hl (not_isRecovery_of_isChat hf), rfl, rfl, rfl⟩
    | _ => exact ho.elim
  | notify n => exact ⟨trivial, still_of_idle h trivial (by simp), trivial⟩
  | socket o => exact ho.elim

/-- `flush_pending` does not show. -/
theorem triple_flushPending (ha : Stays ρ i a) :
    GoodTriple ρ i a engine.flushPending fun _ s => Good ρ s ∧ a s := by
  refine ((Engine.kept_flushPending fun f => isChat f).triple ha.stable ?_ ?_).mono (fun _ => id)
    fun _ _ h => h.1
  · rintro o s ho ⟨-, hs⟩
    exact ha.check (by rintro rfl; exact ho) (by rintro rfl; exact ho) hs
  · rintro o s r s' ho ⟨hg, hs⟩ ⟨-, c, hp⟩
    obtain ⟨hproper, hstill, hanswer⟩ := still_of_flushing hg ho hp
    obtain ⟨hguar, hs'⟩ := ha.step hproper hg hs hp hstill
    exact ⟨hguar, hs', hanswer⟩

/-- A new message row does not show. -/
theorem still_insertMessage {d : Direction} {f : Frame} {status : Status}
    {r : Result (StoredMessage carrier)}
    (h : perform p c s (.store (.insertMessage d f status)) = some (r, s')) :
    Still ρ p s s' ∧ ∃ row, r = .ok row := by
  cases h
  obtain ⟨hview, hrotation, hseen, hconn⟩ : Still ρ p s (s.modify p fun x =>
      { x with messages := x.messages ++ [⟨s.nextRow, d, f, status⟩] }) := .modify rfl rfl rfl rfl rfl
  exact ⟨⟨hview, hrotation, hseen, hconn⟩, _, rfl⟩

/-- `send_chat` does not show. -/
theorem triple_sendChatThread (ρ : Course) (p : Role) (n text : ℕ) :
    GoodTriple ρ (.sender p n) (fun _ => True) (sendChatThread text) fun _ _ => True := by
  rw [sendChatThread, Engine.sendChat, Program.perform_bind, Program.op_bind]
  refine triple_still (i := .sender p n) (e := fun r => ∃ row, r = .ok row) stays_sender (fun _ => rfl)
    (by simp) (by simp) ?_ ?_
  · exact fun s c r s' _ _ h => still_insertMessage h
  · rintro r ⟨row, rfl⟩
    have hflush : GoodTriple ρ (.sender p n) (fun _ => True)
        (engine.flushPending >>= fun _ => pure (.ok ()) : EngineM carrier (Result Unit))
        fun _ s => Good ρ s ∧ True :=
      triple_bind (triple_flushPending stays_sender) fun _ =>
        triple_return stays_sender fun _ hg _ => ⟨hg, trivial⟩
    exact triple_bind hflush fun _ => triple_return stays_sender fun _ _ _ => trivial

end Rules

end Refinement

end Titlan.World
