import Titlan.World.Agreement

/-! # Client restarts during a rotation

Two parties have converged on the derived inboxes of one generation, and the relay keeps everything it
accepts. Either client process may be killed between two handled frames and started again: the routing rows
and the queues are as before, while the `rotation` map, the ring of hellos and the exhaustion trackers are
empty.

The responder loses nothing it needs, since its half of the rotation is done within one handler. The offerer
does, while it waits for the responder's answer: the entry of the `rotation` map is all that tells it that
the next handoff is an answer. Restarted in that window it takes the answer for an offer, and moves to an
inbox nobody has heard of. In every other run the two halves meet. -/

namespace Titlan.World

open Foundation

section

variable [Sealing]

/-! ## Statement -/

/-- Both parties have converged on their derived inboxes of generation `g`, and no rotation is under way.
The only control frames that wait anywhere are hellos of `past`, and the one that starts a rotation was left
once. The listeners are about to subscribe. -/
structure ConvergedAfter (past : List (MailboxId × Frame)) (g : ℕ) (w : Sys) : Prop where
  routed : ∀ p, w.shared.recv p = some (.derived p g) ∧ w.shared.send p = some (.derived p.peer g)
  rooted : ∀ p, Rooted g p w.shared
  known : ∀ p, (w.shared.party p).recovery.peerGen ≤ g
  bounded : g ≤ u32Max
  idle : ∀ p, (w.shared.party p).rotation = none ∧ ∀ e ∈ (w.shared.party p).helloSeen, e.1 ≤ g
  live : ∀ p, (w.shared.boxes (.derived p g)).isSome
  waiting : ∀ b l, w.shared.boxes b = some l → ∀ m ∈ l, isControl m.frame → (b, m.frame) ∈ past
  hellos : ∀ e ∈ past, ∃ p k r n, e = (.derived p k, hello r n) ∧ k < u32Max ∧ r ≤ g
  once : ∀ k, (past.countP fun e => decide (e.1 = .derived .offerer k) && isHello k e.2) ≤ 1
  one_hello : ∀ k, World.hellos k w.shared ≤ 1
  ids : ∀ b l, w.shared.boxes b = some l → (l.map Queued.id).Nodup ∧ ∀ m ∈ l, m.id < w.shared.nextMsg
  outgoing : ∀ p, ∀ m ∈ w.shared.rows p, m.direction = .outgoing → isChat m.frame
  history : ∀ e ∈ w.shared.log, ¬ isControl e.2
  listeners : ∀ p, ∃ fuel, w.todo (.listener p) = engine.conversationListener fuel
  senders : ∀ p n, w.todo (.sender p n) = .ret ()

/-- Whether the party's listener is handling a frame. -/
def St.handling (s : St) (p : Role) : Bool :=
  match (s.party p).conn with
  | some (.live _ (some _)) => true
  | _ => false

/-- The relay loses nothing, and a client process is killed only between handled frames. -/
def RestartsBetween (w : Sys) : Label → Prop
  | .act _ _ | .sendChat _ _ => True
  | .clientRestart p _ => w.shared.handling p = false
  | .relayRestart _ | .sweep _ _ => False

/-- The offerer's process is not killed while it awaits an answer. -/
def RemembersOffer (w : Sys) : Label → Prop
  | .clientRestart .offerer _ => (w.shared.party .offerer).rotation.isNone
  | _ => True

/-- The party that takes the responder's leg of `handle_rotation` in this step: the one that finds no entry
in its `rotation` map. -/
def responderLeg (w : Sys) : Label → Option Role
  | .act (.listener p) _ =>
    match (w.todo (.listener p)).next? with
    | some (.ram .takeRotation) => if (w.shared.party p).rotation.isNone then some p else none
    | _ => none
  | _ => none

/-- Only the party stored as responder takes the responder's leg. -/
def OwnLeg (w : Sys) (l : Label) : Prop :=
  ∀ p ∈ responderLeg w l, (w.shared.party p).recovery.role = some Role.responder.code

/-- No unprocessed control frame is left in a subscribed mailbox. -/
def Drained (w : Sys) : Prop :=
  ∀ p, ∀ b ∈ w.shared.subscribed p, ∀ m ∈ (w.shared.boxes b).getD [], ¬ isControl m.frame

instance (w : Sys) : (l : Label) → Decidable (RestartsBetween w l)
  | .act _ _ | .sendChat _ _ => .isTrue trivial
  | .clientRestart p _ => inferInstanceAs (Decidable (w.shared.handling p = false))
  | .relayRestart _ | .sweep _ _ => .isFalse id

instance (w : Sys) : (l : Label) → Decidable (RemembersOffer w l)
  | .clientRestart .offerer _ => inferInstanceAs (Decidable ((w.shared.party .offerer).rotation.isNone = true))
  | .clientRestart .responder _ | .act _ _ | .sendChat _ _ | .relayRestart _ | .sweep _ _ => .isTrue trivial

instance (w : Sys) (l : Label) : Decidable (OwnLeg w l) :=
  inferInstanceAs (Decidable (∀ p ∈ responderLeg w l, _))

instance (w : Sys) : Decidable (Drained w) := inferInstanceAs (Decidable (∀ _, _))

/-! ## The start -/

namespace View

variable {g k : ℕ} {v : View} {p : Role} {x : MailboxId} {past : List (MailboxId × Frame)}

/-- Two parties on the derived inboxes of one generation, with nothing but the hellos of `past` before. -/
structure Joined (past : List (MailboxId × Frame)) (g : ℕ) (v : View) : Prop where
  log : v.log = past
  recv : ∀ p, v.recv p = some (.derived p g)
  send : ∀ p, v.send p = some (.derived p.peer g)
  own : ∀ p, v.own p = g
  known : ∀ p, v.known p ≤ g
  bounded : g ≤ u32Max
  live : ∀ p, v.Live (.derived p g)
  hellos : ∀ e ∈ past, ∃ p k r n, e = (.derived p k, hello r n) ∧ k < u32Max ∧ r ≤ g
  once : ∀ k, v.helloLog k ≤ 1
  queued : ∀ b l, v.boxes b = some l → ∀ m ∈ l, (b, m.frame) ∈ past
  one_hello : ∀ k l, v.boxes (.derived .offerer k) = some l → l.countP (fun m => isHello k m.frame) ≤ 1

theorem Joined.eff (h : Joined past g v) (p : Role) : v.eff p = g := eff_of_derived (h.recv p)

/-- There has been no handoff. -/
theorem Joined.not_handoff (h : Joined past g v) (b : MailboxId) : (b, handoff x) ∉ v.log := by
  intro hx
  rw [h.log] at hx
  obtain ⟨p, k, r, n, he, -⟩ := h.hellos _ hx
  cases he

theorem Joined.not_onGenerated (h : Joined past g v) {n : ℕ} : ¬ v.OnGenerated p n := by
  intro hn
  rw [OnGenerated, h.recv] at hn
  cases hn

theorem Joined.inv (h : Joined past g v) : v.Inv where
  shape p := .inl ⟨g, h.recv p⟩
  bounded p := by
    rw [h.eff]
    exact h.bounded
  known_le p := by
    rw [h.eff]
    exact h.known p
  hello_le p k r hh := by
    obtain ⟨n, hn⟩ := hh
    rw [h.log] at hn
    obtain ⟨_, _, _, _, he, hk, hr⟩ := h.hellos _ hn
    cases he
    rw [h.eff]
    exact ⟨hr, hk⟩
  hello_once := h.once
  offer_le k := by
    rw [offerLog_eq_zero fun x => h.not_handoff _]
    exact Nat.zero_le _
  offered k x hx := absurd hx (h.not_handoff _)
  answered k y hy := absurd hy (h.not_handoff _)
  matched k y hy := absurd hy (h.not_handoff _)
  reached p n hn := absurd hn h.not_onGenerated
  behind p n hn := absurd hn h.not_onGenerated
  beside p n hn := absurd hn h.not_onGenerated
  first n hn := absurd hn h.not_onGenerated
  standing k x hx := absurd hx (h.not_handoff _)

theorem Joined.traced (h : Joined past g v) : v.Traced where
  queued b l hl m hm := by
    rw [h.log]
    exact h.queued b l hl m hm
  sorts b f hf := by
    rw [h.log] at hf
    obtain ⟨p, k, r, n, he, -⟩ := h.hellos _ hf
    cases he
    exact ⟨p, k, rfl, .inl ⟨r, n, rfl⟩⟩
  counted k l hl := by
    by_cases hzero : l.countP (fun m => isHello k m.frame) = 0
    · rw [hzero]
      exact Nat.zero_le _
    · -- one of them waits, so it is in the past
      obtain ⟨m, hm, hf⟩ := List.countP_pos_iff.mp (Nat.pos_of_ne_zero hzero)
      refine Nat.le_trans (h.one_hello k l hl)
        (List.countP_pos_iff.mpr ⟨(.derived .offerer k, m.frame), ?_, ?_⟩)
      · rw [h.log]
        exact h.queued _ l hl m hm
      · simpa using hf
  rotated n hn := absurd hn h.not_onGenerated

theorem Joined.kept (h : Joined past g v) : Kept g v where
  eff := h.eff
  live p b hb := by
    rw [h.recv, Option.some.injEq] at hb
    rw [← hb]
    exact h.live p
  offered x hx := absurd hx (h.not_handoff _)

theorem Joined.derived (h : Joined past g v) (p : Role) (rotation : Awaiting) : Derived p rotation g v where
  recv := h.recv p
  own := h.own p
  send := h.send p
  reaching j _ _ hfloor hj := by
    rw [floor_of_derived (h.recv _)] at hfloor
    omega
  awaiting _ x hx := absurd hx (h.not_handoff _)

/-- **Agreement where nothing is lost.** Two parties at rest send to each other, unless an answer waits for
the offerer. -/
theorem Kept.agree {rot : Role → Awaiting} (hk : Kept g v) (hi : Inv v) (ht : Traced v)
    (hrest : ∀ p, Rest p (rot p) v)
    (hquiet : ∀ k, v.recv .offerer = some (.derived .offerer k) → rot .offerer ≠ none →
      ∀ f, ¬ v.Waits (.derived .offerer k) f) (p : Role) : v.send p = v.recv p.peer := by
  have hgen : ∀ {q j}, v.recv q = some (.derived q j) → j = g := fun hr =>
    (eff_of_derived hr).symm.trans (hk.eff _)
  cases hrest .offerer with
  | derived j hd =>
    obtain rfl := hgen hd.recv
    cases hrest .responder with
    | derived j' hd' =>
      obtain rfl := hgen hd'.recv
      cases p with
      | offerer => exact hd.send.trans hd'.recv.symm
      | responder => exact hd'.send.trans hd.recv.symm
    | generated n hn hrot =>
      -- the responder has moved, so that the offerer has its answer waiting
      have hown : v.own .responder = j := (eff_of_generated hn).symm.trans (hk.eff _)
      obtain ⟨x, hx⟩ := ht.rotated n hn
      rw [hown] at hx
      have hawaits : rot .offerer ≠ none := by
        rw [hd.awaiting rfl x hx]
        exact Option.some_ne_none _
      have hwaits := hrot (hk.live _ _ hn) (by rw [hown]; exact hd.recv)
      rw [hown] at hwaits
      exact absurd hwaits (hquiet j hd.recv hawaits _)
  | generated n hn hrot =>
    cases hrest .responder with
    | derived j hd' =>
      -- the responder moves first
      have hown : v.own .offerer = g := (eff_of_generated hn).symm.trans (hk.eff _)
      obtain ⟨n', hn'⟩ := hi.first n hn ((hk.eff _).trans hown.symm)
      rw [OnGenerated, hd'.recv] at hn'
      cases hn'
    | generated m hm hrot' =>
      obtain ⟨hto, hback⟩ := hrot.agree hi hn (hk.live _ _ hn)
      cases p with
      | offerer => exact hto
      | responder => exact hback

end View

/-! ## Every run -/

namespace Refinement

variable {past : List (MailboxId × Frame)} {g : ℕ} {w w' : Sys} {p : Role}

theorem ConvergedAfter.joined (h : ConvergedAfter past g w) :
    View.Joined past g (Course.view ⟨past, .keeping g⟩ w.shared) where
  __ := h
  log := log_view h.history
  recv p := (h.routed p).1
  send p := (h.routed p).2
  own p := (h.rooted p).ownGen
  live p := live_view.mpr (h.live p)
  once k := by
    rw [View.helloLog, log_view h.history]
    exact h.once k
  queued b l hl m hm := by
    obtain ⟨l₀, hl₀, rfl⟩ := Option.map_eq_some_iff.mp hl
    obtain ⟨hm, hc⟩ := List.mem_filter.mp hm
    exact h.waiting b l₀ hl₀ m hm (isControl_of_isRecovery hc)
  one_hello k l hl := by
    obtain ⟨l₀, hl₀, rfl⟩ := Option.map_eq_some_iff.mp hl
    refine Nat.le_trans List.filter_sublist.countP_le ?_
    have hone := h.one_hello k
    rwa [World.hellos, hl₀] at hone

/-- Two converged parties are at a start of the protocol without losses. -/
theorem ConvergedAfter.running (h : ConvergedAfter past g w) : Running ⟨past, .keeping g⟩ w := by
  have hj := ConvergedAfter.joined h
  have hg : Good ⟨past, .keeping g⟩ w.shared := by
    refine ⟨⟨fun p => ⟨(h.rooted p).role, (h.rooted p).root⟩, h.outgoing, h.ids, fun b l hl m hm => ?_⟩,
      hj.inv, hj.traced, hj.kept⟩
    -- a v1 update is a control frame, and all that waits are hellos
    cases hf : m.frame with
    | mailboxUpdateV1 relayUrl inbox =>
      have hpast := h.waiting b l hl m hm (by rw [hf]; rfl)
      obtain ⟨_, _, _, _, he, -⟩ := h.hellos _ hpast
      rw [hf] at he
      cases he
    | _ => trivial
  refine hg.running (fun p => ⟨⟨.derived g (hj.derived p _), ?_, fun _ => (h.idle p).1, (by simp), ?_⟩, ?_⟩)
    h.listeners h.senders
  · rw [hj.eff]
    exact (h.idle p).2
  · exact fun _ _ k _ hawaits => absurd (h.idle p).1 hawaits
  · rintro rfl k -
    rw [View.offerLog_eq_zero fun x => hj.not_handoff _]
    exact ⟨hj.traced.unread_le none k, (by simp)⟩

/-- One step of a run without losses in which the offerer's process is not killed while it awaits an
answer. -/
theorem Running.keeping {l : Label} (h : Running ⟨past, .keeping g⟩ w) (hbetween : RestartsBetween w l)
    (hoffer : RemembersOffer w l) (hstep : step w l = some w') : Running ⟨past, .keeping g⟩ w' := by
  cases l with
  | act i c => exact h.act (fun _ _ => trivial) hstep
  | sendChat p n => exact h.sendChat hstep
  | relayRestart pushed => exact hbetween.elim
  | sweep b pushed => exact hbetween.elim
  | clientRestart p fuel =>
    refine h.clientRestart id (fun b i hconn => ?_) ?_ hstep
    · have hidle : w.shared.handling p = false := hbetween
      simp only [St.handling, hconn] at hidle
      cases hidle
    · rintro rfl
      exact Option.isNone_iff_eq_none.mp hoffer

/-- Only the responder takes the responder's leg. -/
theorem Running.ownLeg {ρ : Course} (h : Running ρ w) (l : Label) : OwnLeg w l := by
  intro p hp
  cases l with
  | act i c =>
    cases i with
    | sender q n => cases hp
    | listener q =>
      simp only [responderLeg] at hp
      split at hp
      · rename_i hop
        split at hp
        · rename_i hnone
          cases hp
          obtain rfl := h.leg hop (Option.isNone_iff_eq_none.mp hnone)
          exact (h.1.rooted _).1
        · cases hp
      · cases hp
  | _ => cases hp

/-- Where no control frame is left, the routes agree. -/
theorem Running.agree (h : Running ⟨past, .keeping g⟩ w) (hdrained : Drained w) : Agree w.shared := by
  have hquiet : ∀ p b i, (w.shared.party p).conn = some (.live b i) →
      ∀ f, ¬ (Course.view ⟨past, .keeping g⟩ w.shared).Waits b f := by
    rintro p b i hconn f ⟨l, hl, m, hm, -⟩
    obtain ⟨l₀, hl₀, rfl⟩ := Option.map_eq_some_iff.mp hl
    obtain ⟨hm, hc⟩ := List.mem_filter.mp hm
    have hsub : w.shared.subscribed p = some b := by rw [St.subscribed, hconn]
    exact hdrained p b hsub m (by rwa [hl₀]) (isControl_of_isRecovery hc)
  have hset := fun p => h.settled (p := p) id (hquiet p)
  have hkept : View.Kept g (Course.view ⟨past, .keeping g⟩ w.shared) := h.1.regime
  refine hkept.agree h.1.inv h.1.traced (fun p => (hset p).rest) fun k hk hawaits => ?_
  obtain ⟨i, hconn⟩ := (hset .offerer).tuned id rfl k hk hawaits
  exact hquiet _ _ i hconn

end Refinement

end

/-! ### A forgotten offer -/

/-- The hello that waits for the offerer of `convergedPair`. -/
def responderHello : List (MailboxId × Frame) := [(.derived .offerer 1, hello 1 0)]

theorem convergedPair_convergedAfter : ConvergedAfter responderHello 1 convergedPair where
  routed := convergedPair_converged.routed
  rooted := convergedPair_converged.rooted
  known p := Nat.le_refl 1
  bounded := by decide
  idle p := ⟨rfl, fun _ he => absurd he List.not_mem_nil⟩
  live := convergedPair_converged.live
  waiting b l hl m hm _ := by
    simp only [convergedPair] at hl
    split at hl
    · rename_i hb
      cases hl
      rw [List.mem_singleton.mp hm, hb]
      exact List.mem_singleton.mpr rfl
    · split at hl
      · cases hl
        cases hm
      · cases hl
  hellos e he := by
    rw [List.mem_singleton.mp he]
    exact ⟨.offerer, 1, 1, 0, rfl, by decide, Nat.le_refl 1⟩
  once k := List.countP_le_length
  one_hello k := by
    simp only [World.hellos, convergedPair]
    split
    · exact List.countP_le_length
    · split <;> exact Nat.zero_le _
  ids := convergedPair_converged.ids
  outgoing p m hm := absurd hm List.not_mem_nil
  history e he := absurd he List.not_mem_nil
  listeners := convergedPair_converged.listeners
  senders := convergedPair_converged.senders

/-- Both parties subscribe; the offerer handles the hello and offers; its process is killed and started
again; the responder handles the offer and answers; the offerer subscribes and handles the answer. -/
def forgottenOffer : List Label :=
  acts (.listener .offerer) 8 ++ acts (.listener .responder) 8 ++ acts (.listener .offerer) 14 ++
    [.clientRestart .offerer 6] ++ acts (.listener .responder) 26 ++ acts (.listener .offerer) 34

/-- The offerer's process is killed before it handles the hello and after it has handled the answer, the
responder's before it handles the offer and after. -/
def restartsAroundRotation : List Label :=
  acts (.listener .offerer) 8 ++ [.clientRestart .offerer 6] ++ acts (.listener .offerer) 8 ++
    acts (.listener .responder) 8 ++ acts (.listener .offerer) 14 ++ [.clientRestart .responder 6] ++
    acts (.listener .responder) 34 ++ [.clientRestart .responder 6] ++ acts (.listener .offerer) 20 ++
    [.clientRestart .offerer 6]

end Titlan.World
