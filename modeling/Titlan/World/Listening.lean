import Titlan.World.Refinement

/-! # What a listener knows

The assertions the proof of a conversation listener moves between. `Between`: the party is at rest and
about to subscribe. `Reading`: it is subscribed to the inbox it is on, or what the relay had pushed can
still be read. `Open`: a message has been delivered and not yet acked. Each of them survives whatever the
other threads and the relay do (`Lasts`).

An offerer also keeps count of the responder's hellos (`Affords`): each hello it is still to read may be
answered by one offer, so there is never more than one offer for a hello. -/

namespace Titlan.World.Refinement

open Foundation

variable [Sealing] {ρ : Course} {s s' : St} {p : Role} {b : MailboxId} {m : Queued}

/-! ## Assertions -/

/-- Where nothing is lost, an offerer that awaits an answer is subscribed to the inbox the answer comes
to. -/
def Tuned (ρ : Course) (p : Role) (s : St) : Prop :=
  ¬ ρ.regime.Lossy → p = .offerer → ∀ k, s.recv p = some (.derived p k) → (s.party p).rotation ≠ none →
    ∃ i, (s.party p).conn = some (.live (.derived p k) i)

/-- The party is at rest. -/
structure Settled (ρ : Course) (p : Role) (s : St) : Prop where
  rest : View.Rest p (s.party p).rotation (ρ.view s)
  seen : ∀ e ∈ (s.party p).helloSeen, e.1 ≤ (ρ.view s).eff p
  lone : p = .responder → (s.party p).rotation = none
  met : ρ.regime = .meeting → p = .responder → (ρ.view s).Met
  tuned : Tuned ρ p s

/-- How many hellos of a generation the offerer has seen. -/
def seenHellos (s : St) (k : ℕ) : ℕ := (s.party .offerer).helloSeen.countP fun e => e.1 = k

/-- With `u` hellos of its generation still to be answered, the offerer has offered at most for the
others; and with `u'` still to be seen, where hellos are not read ahead, it has seen at most the others. -/
def Affords (ρ : Course) (u u' : ℕ → ℕ) (s : St) : Prop :=
  ∀ k, s.recv .offerer = some (.derived .offerer k) →
    u k + (ρ.view s).offerLog k ≤ (ρ.view s).helloLog k ∧
    (ρ.regime = .meeting → u' k + seenHellos s k ≤ (ρ.view s).helloLog k)

/-- At rest, about to subscribe. -/
structure Between (ρ : Course) (p : Role) (s : St) : Prop extends Settled ρ p s where
  affords : p = .offerer → Affords ρ ((ρ.view s).unread none) ((ρ.view s).unread none) s

/-- The listener's socket was subscribed to `b`, where the message `current` is being handled. -/
def Connected (ρ : Course) (p : Role) (b : MailboxId) (current : Option ℕ) (s : St) : Prop :=
  (s.party p).conn = some (.live b current) ∨ ρ.regime.Lossy ∧
    ∃ buffered, (s.party p).conn = some (.dead buffered) ∧
      ∀ m ∈ buffered, Admitted m.frame ∧ (isRecovery m.frame → (b, m.frame) ∈ (ρ.view s).log)

/-- The hellos of a generation the offerer's socket may still yield, or yield when subscribed again. -/
def backlog (ρ : Course) (s : St) (k : ℕ) : ℕ :=
  match (s.party .offerer).conn with
  | some (.live _ current) => (ρ.view s).unread current k
  | some (.dead buffered) =>
    buffered.countP (fun m => isHello k m.frame) + (ρ.view s).unread none k
  | none => (ρ.view s).unread none k

/-- At rest and subscribed to the inbox it is on. -/
structure Reading (ρ : Course) (p : Role) (b : MailboxId) (s : St) : Prop extends Settled ρ p s where
  recv : s.recv p = some b
  connected : Connected ρ p b none s
  affords : p = .offerer → Affords ρ (backlog ρ s) (backlog ρ s) s

/-- The message has been delivered from `b` and is not acked yet; on a live socket, no other message
there has its id. -/
structure Open (ρ : Course) (p : Role) (b : MailboxId) (m : Queued) (s : St) : Prop where
  connected : Connected ρ p b (some m.id) s
  current : (s.party p).conn = some (.live b (some m.id)) →
    m.id < s.nextMsg ∧ ∀ l, s.boxes b = some l → ∀ m' ∈ l, m'.id = m.id → m' = m
  logged : isRecovery m.frame → (b, m.frame) ∈ (ρ.view s).log

/-- The message is in the derived inbox `b` of the party. -/
def Queues (ρ : Course) (p : Role) (b : MailboxId) (m : Queued) (s : St) : Prop :=
  ∃ k l, b = .derived p k ∧ (ρ.view s).boxes b = some l ∧ m ∈ l

/-- At rest, with the message to handle. -/
structure Handling (ρ : Course) (p : Role) (b : MailboxId) (m : Queued) (s : St) : Prop
    extends Settled ρ p s, Open ρ p b m s where
  recv : s.recv p = some b
  queued : ¬ ρ.regime.Lossy → isRecovery m.frame → Queues ρ p b m s
  affords : p = .offerer → Affords ρ (fun k => backlog ρ s k + weight k m.frame)
    (fun k => backlog ρ s k + weight k m.frame) s

/-- The message may be acked. -/
structure Done (ρ : Course) (p : Role) (b : MailboxId) (m : Queued) (s : St) : Prop where
  hello : ∀ r n, m.frame = hello r n → r ≤ (ρ.view s).eff p
  handoff : isHandoff m.frame → s.recv p ≠ some b
  met : ρ.regime = .meeting → p = .offerer → ∀ k, b = .derived .offerer k → isHello k m.frame →
    (ρ.view s).Meets k → ∃ x, (ρ.view s).Offered k x

/-- What a handler leaves: the party is where it was, or has moved. -/
def Handled (ρ : Course) (p : Role) (b : MailboxId) (m : Queued) : Bool → St → Prop
  | false, s => Settled ρ p s ∧ Open ρ p b m s ∧ Done ρ p b m s ∧ s.recv p = some b ∧
      (p = .offerer → Affords ρ (backlog ρ s) (backlog ρ s) s)
  | true, s => Between ρ p s ∧ Open ρ p b m s ∧ Done ρ p b m s

/-- A message that is being handled waits in the mailbox. -/
def Busy (ρ : Course) (p : Role) (s : St) : Prop :=
  ∃ b m l, (s.party p).conn = some (.live b (some m.id)) ∧ (ρ.view s).boxes b = some l ∧ m ∈ l

/-- Where nothing is lost, the party is at rest, unless a control frame is being handled, and about to
subscribe, unless any message is. -/
def Guarded (ρ : Course) (p : Role) (s : St) : Prop :=
  ρ.regime.Lossy ∨ Busy ρ p s ∨
    Settled ρ p s ∧ (∃ b i, (s.party p).conn = some (.live b (some i))) ∨ Between ρ p s

/-- Where nothing is lost, both parties stay at one generation on inboxes that exist. -/
theorem Good.kept (hg : Good ρ s) (hκ : ¬ ρ.regime.Lossy) : ∃ g, View.Kept g (ρ.view s) := by
  have hregime := hg.regime
  cases hr : ρ.regime with
  | losing => exact absurd (by rw [hr]; trivial) hκ
  | meeting => exact absurd (by rw [hr]; trivial) hκ
  | keeping g =>
    rw [hr] at hregime
    exact ⟨g, hregime⟩

/-! ## They last -/

/-- Whatever the other threads do, the assertion survives. -/
def Lasts (ρ : Course) (p : Role) (a : St → Prop) : Prop :=
  ∀ s s', Good ρ s → Good ρ s' → Others ρ p s s' → a s → a s'

theorem Lasts.and {a a' : St → Prop} (h : Lasts ρ p a) (h' : Lasts ρ p a') :
    Lasts ρ p fun s => a s ∧ a' s :=
  fun s s' hg hg' ho hs => ⟨h s s' hg hg' ho hs.1, h' s s' hg hg' ho hs.2⟩

theorem lasts_const {P : Prop} : Lasts ρ p fun _ => P := fun _ _ _ _ _ h => h

/-- An assertion on the view lasts when the environment of the protocol preserves it. -/
theorem lasts_view {a : View → Prop}
    (h : ∀ v v', View.Env ρ.regime p v v' → v.Inv → a v → a v') : Lasts ρ p fun s => a (ρ.view s) := by
  intro s s' hg _ ho hs
  rcases ho.view with heq | henv
  · rwa [heq]
  · exact h _ _ henv hg.inv hs

theorem Others.recv_eq (h : Others ρ p s s') : s'.recv p = s.recv p := by
  rcases h.view with heq | henv
  · exact congrFun (congrArg View.recv heq) p
  · exact henv.recv_eq

theorem Others.own_eq (h : Others ρ p s s') : (ρ.view s').own p = (ρ.view s).own p := by
  rcases h.view with heq | henv
  · rw [heq]
  · exact henv.own_eq

theorem Others.send_eq (h : Others ρ p s s') : (ρ.view s').send p = (ρ.view s).send p := by
  rcases h.view with heq | henv
  · rw [heq]
  · exact henv.send_eq

theorem Others.eff_eq (h : Others ρ p s s') : (ρ.view s').eff p = (ρ.view s).eff p := by
  rcases h.view with heq | henv
  · rw [heq]
  · exact henv.eff_eq

theorem Others.log_subset (h : Others ρ p s s') : (ρ.view s).log ⊆ (ρ.view s').log := by
  rcases h.view with heq | henv
  · rw [heq]
    exact List.Subset.refl _
  · exact henv.log_subset

theorem lasts_tuned : Lasts ρ p (Tuned ρ p) := by
  intro s s' _ _ ho hs hκ hp k hk hrot
  rw [ho.recv_eq] at hk
  rw [ho.rotation] at hrot
  rcases ho.conn with hconn | ⟨hlossy, -⟩
  · rw [hconn]
    exact hs hκ hp k hk hrot
  · exact absurd hlossy hκ

variable {current : Option ℕ}

/-- A party that reads the inbox it is on. -/
theorem Connected.tuned (h : Connected ρ p b current s) (hrecv : s.recv p = some b) :
    Tuned ρ p s := by
  intro hκ _ k hk _
  rw [hrecv, Option.some.injEq] at hk
  subst hk
  rcases h with hconn | ⟨hlossy, -⟩
  · exact ⟨current, hconn⟩
  · exact absurd hlossy hκ

theorem lasts_settled : Lasts ρ p (Settled ρ p) := by
  intro s s' hg hg' ho hs
  refine ⟨?_, ?_, ?_, ?_, lasts_tuned s s' hg hg' ho hs.tuned⟩
  · rw [ho.rotation]
    rcases ho.view with heq | henv
    · rw [heq]
      exact hs.rest
    · exact henv.rest hg.inv hs.rest
  · rw [ho.helloSeen, ho.eff_eq]
    exact hs.seen
  · rw [ho.rotation]
    exact hs.lone
  · intro hκ hp
    subst hp
    rcases ho.view with heq | henv
    · rw [heq]
      exact hs.met hκ rfl
    · rw [hκ] at henv
      exact henv.met (hs.met hκ rfl)

/-- Each hello that comes in may be answered. -/
theorem Affords.mono {u u' v v' : ℕ → ℕ} (ha : Affords ρ u u' s) (ho : Others ρ .offerer s s')
    (hu : ∀ k, s.recv .offerer = some (.derived .offerer k) →
      v k + (ρ.view s).helloLog k ≤ u k + (ρ.view s').helloLog k ∧
      v' k + (ρ.view s).helloLog k ≤ u' k + (ρ.view s').helloLog k) : Affords ρ v v' s' := by
  intro k hk
  have hk' : s.recv .offerer = some (.derived .offerer k) := ho.recv_eq ▸ hk
  obtain ⟨hoffer, hseen⟩ := ha k hk'
  obtain ⟨hle, hle'⟩ := hu k hk'
  have hlog : (ρ.view s').offerLog k = (ρ.view s).offerLog k := by
    rcases ho.view with heq | henv
    · rw [heq]
    · exact henv.offerLog_eq k
  refine ⟨by omega, fun hκ => ?_⟩
  have hsee := hseen hκ
  have hsame : seenHellos s' k = seenHellos s k := by rw [seenHellos, ho.helloSeen, seenHellos]
  omega

theorem Others.unread_le (ho : Others ρ .offerer s s') (i : Option ℕ) (k : ℕ) :
    (ρ.view s').unread i k + (ρ.view s).helloLog k ≤ (ρ.view s).unread i k + (ρ.view s').helloLog k := by
  rcases ho.view with heq | henv
  · rw [heq]
  · exact henv.unread_le i k

theorem lasts_between : Lasts ρ p (Between ρ p) := by
  intro s s' hg hg' ho hs
  refine ⟨lasts_settled s s' hg hg' ho hs.toSettled, ?_⟩
  rintro rfl
  exact (hs.affords rfl).mono ho fun k _ => ⟨ho.unread_le none k, ho.unread_le none k⟩

/-- A socket the relay has cut still holds admitted frames it had accepted. -/
theorem Connected.lasts (hg : Good ρ s) (ho : Others ρ p s s')
    (h : Connected ρ p b current s) : Connected ρ p b current s' := by
  have hlog := ho.log_subset
  rcases ho.conn with hconn | ⟨hκ, -, n, hconn⟩
  · rcases h with h | ⟨hκ, buffered, h, hb⟩
    · exact .inl (hconn.trans h)
    · exact .inr ⟨hκ, buffered, hconn.trans h, fun m hm => ⟨(hb m hm).1, fun hc => hlog ((hb m hm).2 hc)⟩⟩
  · rcases h with h | ⟨-, buffered, h, hb⟩
    · rw [h, Option.map_some, St.cut, if_pos rfl] at hconn
      refine .inr ⟨hκ, _, hconn, fun m hm => ?_⟩
      have hm := List.mem_of_mem_filter (List.mem_of_mem_take hm)
      cases hl : s.boxes b with
      | none =>
        rw [hl] at hm
        cases hm
      | some l =>
        rw [hl] at hm
        refine ⟨hg.frames b l hl m hm, fun hc => hlog ?_⟩
        exact hg.traced.queued b _ (view_boxes hl) m (List.mem_filter.mpr ⟨hm, hc⟩)
    · rw [h] at hconn
      exact .inr ⟨hκ, buffered, hconn, fun m hm => ⟨(hb m hm).1, fun hc => hlog ((hb m hm).2 hc)⟩⟩

omit [Sealing] in
theorem isRecovery_of_isHello {k : ℕ} {f : Frame} (h : isHello k f) : isRecovery f := by
  cases f <;> simp_all [isHello, isRecovery]

/-- The unread hellos, counted in the mailbox itself. -/
theorem unread_view (i : Option ℕ) (k : ℕ) : (ρ.view s).unread i k =
    ((s.boxes (.derived .offerer k)).getD []).countP fun m =>
      isHello k m.frame && decide (some m.id ≠ i) := by
  have hboxes : (ρ.view s).boxes (.derived .offerer k) =
      (s.boxes (.derived .offerer k)).map fun l => l.filter fun m => isRecovery m.frame := rfl
  rw [View.unread, hboxes]
  cases s.boxes (.derived .offerer k) with
  | none => rfl
  | some l =>
    rw [Option.map_some, Option.getD_some, Option.getD_some, List.countP_filter]
    refine List.countP_congr fun m _ => ?_
    simp only [Bool.and_eq_true]
    exact ⟨And.left, fun h => ⟨h, isRecovery_of_isHello h.1⟩⟩

/-- What the socket may yield grows only by what the relay accepts. -/
theorem backlog_le {k : ℕ} (h : Connected ρ .offerer (.derived .offerer k) current s)
    (ho : Others ρ .offerer s s') :
    backlog ρ s' k + (ρ.view s).helloLog k ≤ backlog ρ s k + (ρ.view s').helloLog k := by
  rcases ho.conn with hconn | ⟨-, hview, n, hconn⟩
  · rcases h with h | ⟨-, buffered, h, -⟩
    · rw [backlog, backlog, hconn, h]
      exact ho.unread_le current k
    · have hle := ho.unread_le none k
      rw [backlog, backlog, hconn, h]
      simp only
      omega
  · have hlog : (ρ.view s').helloLog k = (ρ.view s).helloLog k := by
      rw [hview]
      rfl
    have hzero : (ρ.view s').unread none k = 0 := by
      rw [hview]
      rfl
    rcases h with h | ⟨-, buffered, h, -⟩
    · -- the socket was live: what it still holds was unread in the mailbox
      rw [h, Option.map_some, St.cut, if_pos rfl] at hconn
      rw [backlog, backlog, hconn, h]
      simp only
      rw [hzero, hlog]
      rw [unread_view, ← List.countP_filter]
      have hcut := (List.take_sublist n (((s.boxes (.derived .offerer k)).getD []).filter fun m =>
        some m.id ≠ current)).countP_le (p := fun m => isHello k m.frame)
      omega
    · rw [h] at hconn
      rw [backlog, backlog, hconn, h]
      simp only [Option.map_some, St.cut]
      rw [hzero, hlog]
      omega

theorem lasts_reading : Lasts ρ p (Reading ρ p b) := by
  intro s s' hg hg' ho hs
  refine ⟨lasts_settled s s' hg hg' ho hs.toSettled, ho.recv_eq.trans hs.recv,
    hs.connected.lasts hg ho, ?_⟩
  rintro rfl
  refine (hs.affords rfl).mono ho fun k hk => ?_
  rw [hs.recv, Option.some.injEq] at hk
  have hle := backlog_le (hk ▸ hs.connected) ho
  exact ⟨hle, hle⟩

/-- New messages have new ids. -/
theorem lasts_open : Lasts ρ p (Open ρ p b m) := by
  intro s s' hg _ ho hs
  refine ⟨hs.connected.lasts hg ho, fun hconn' => ?_, fun hc => ho.log_subset (hs.logged hc)⟩
  have hconn : (s.party p).conn = some (.live b (some m.id)) := by
    rcases ho.conn with hconn | ⟨-, -, n, hconn⟩
    · rwa [← hconn]
    · -- a cut socket is not live
      rw [hconn'] at hconn
      obtain ⟨c, -, hc⟩ := Option.map_eq_some_iff.mp hconn.symm
      cases c with
      | live box current =>
        rw [St.cut, if_pos rfl] at hc
        cases hc
      | dead buffered => cases hc
  obtain ⟨hlt, hcur⟩ := hs.current hconn
  refine ⟨Nat.lt_of_lt_of_le hlt ho.later.nextMsg_le, fun l' hl' m' hm' hid => ?_⟩
  rcases ho.later.boxes b l' hl' m' hm' with ⟨l, hl, hm⟩ | hnew
  · exact hcur l hl m' hm hid
  · omega

theorem lasts_queues (hκ : ¬ ρ.regime.Lossy) : Lasts ρ p (Queues ρ p b m) := by
  rintro s s' _ _ ho ⟨k, l, rfl, hl, hm⟩
  rcases ho.view with heq | henv
  · exact ⟨k, l, rfl, by rw [heq, hl], hm⟩
  · obtain ⟨l', hl', hm'⟩ := henv.queued hκ hl hm
    exact ⟨k, l', rfl, hl', hm'⟩

theorem lasts_handling : Lasts ρ p (Handling ρ p b m) := by
  intro s s' hg hg' ho hs
  refine ⟨lasts_settled s s' hg hg' ho hs.toSettled, lasts_open s s' hg hg' ho hs.toOpen,
    ho.recv_eq.trans hs.recv, fun hκ hc => lasts_queues hκ s s' hg hg' ho (hs.queued hκ hc), ?_⟩
  rintro rfl
  refine (hs.affords rfl).mono ho fun k hk => ?_
  rw [hs.recv, Option.some.injEq] at hk
  have hle := backlog_le (hk ▸ hs.connected) ho
  constructor <;> omega

omit [Sealing] in
theorem eq_hello_of_isHello {k : ℕ} {f : Frame} (h : isHello k f) : ∃ n, f = hello k n := by
  cases f with
  | recoveryHello r n => exact ⟨n, by rw [of_decide_eq_true h]⟩
  | _ => cases h

/-- A message that may be acked may be acked later. -/
theorem lasts_done : Lasts ρ p fun s => Open ρ p b m s ∧ Done ρ p b m s := by
  intro s s' hg hg' ho ⟨hopen, hdone⟩
  refine ⟨lasts_open s s' hg hg' ho hopen, ?_, ?_, ?_⟩
  · rw [ho.eff_eq]
    exact hdone.hello
  · rw [ho.recv_eq]
    exact hdone.handoff
  · rintro hκ rfl k rfl hk hm'
    rcases ho.view with heq | henv
    · rw [heq] at hm' ⊢
      exact hdone.met hκ rfl k rfl hk hm'
    · rw [hκ] at henv
      obtain ⟨n, hn⟩ := eq_hello_of_isHello hk
      have hh : (ρ.view s).Helloed .offerer k k := ⟨n, hn ▸ hopen.logged (isRecovery_of_isHello hk)⟩
      obtain ⟨x, hx⟩ := hdone.met hκ rfl k rfl hk (henv.meets_back hg.inv hh hm')
      exact ⟨x, henv.log_subset hx⟩

theorem lasts_handled : ∀ r, Lasts ρ p (Handled ρ p b m r)
  | false => by
    intro s s' hg hg' ho ⟨hset, hopen, hdone, hrecv, haff⟩
    obtain ⟨hopen', hdone'⟩ := lasts_done s s' hg hg' ho ⟨hopen, hdone⟩
    refine ⟨lasts_settled s s' hg hg' ho hset, hopen', hdone', ho.recv_eq.trans hrecv, ?_⟩
    rintro rfl
    refine (haff rfl).mono ho fun k hk => ?_
    rw [hrecv, Option.some.injEq] at hk
    have hle := backlog_le (hk ▸ hopen.connected) ho
    exact ⟨hle, hle⟩
  | true => by
    intro s s' hg hg' ho ⟨hbet, hopen, hdone⟩
    exact ⟨lasts_between s s' hg hg' ho hbet, lasts_done s s' hg hg' ho ⟨hopen, hdone⟩⟩

/-! ## Restarts -/

theorem Settled.guarded (h : Settled ρ p s) (hopen : Open ρ p b m s) : Guarded ρ p s := by
  rcases hopen.connected with hconn | ⟨hκ, -⟩
  · exact .inr (.inr (.inl ⟨h, b, m.id, hconn⟩))
  · exact .inl hκ

theorem Between.guarded (h : Between ρ p s) : Guarded ρ p s := .inr (.inr (.inr h))

/-- The message being handled is still in its mailbox, where nothing is lost. -/
def Held (ρ : Course) (p : Role) (b : MailboxId) (m : Queued) (s : St) : Prop :=
  Open ρ p b m s ∧ (¬ ρ.regime.Lossy → Queues ρ p b m s)

theorem Handling.held (h : Handling ρ p b m s) (hm : isRecovery m.frame) : Held ρ p b m s :=
  ⟨h.toOpen, fun hκ => h.queued hκ hm⟩

theorem lasts_held : Lasts ρ p (Held ρ p b m) := fun s s' hg hg' ho h =>
  ⟨lasts_open s s' hg hg' ho h.1, fun hκ => lasts_queues hκ s s' hg hg' ho (h.2 hκ)⟩

theorem Held.guarded (h : Held ρ p b m s) : Guarded ρ p s := by
  by_cases hκ : ρ.regime.Lossy
  · exact .inl hκ
  · rcases h.1.connected with hconn | ⟨hlossy, -⟩
    · obtain ⟨k, l, -, hl, hm⟩ := h.2 hκ
      exact .inr (.inl ⟨b, m, l, hconn, hl, hm⟩)
    · exact absurd hlossy hκ

/-- What the socket may yield is more than what waits in the inbox. -/
theorem Reading.between (h : Reading ρ p b s) : Between ρ p s := by
  refine ⟨h.toSettled, ?_⟩
  rintro rfl k hk
  have hle : (ρ.view s).unread none k ≤ backlog ρ s k := by
    rcases h.connected with hconn | ⟨-, buffered, hconn, -⟩
    · rw [backlog, hconn]
    · rw [backlog, hconn]
      exact Nat.le_add_left _ _
  obtain ⟨hoffer, hseen⟩ := h.affords rfl k hk
  refine ⟨by omega, fun hκ => ?_⟩
  have hsee := hseen hκ
  omega

end Titlan.World.Refinement
