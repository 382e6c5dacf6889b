import Titlan.World.Environment

/-! # Where a party rests, and when two parties agree

Between two deliveries a party is on its derived inbox of its stored generation, with its hellos waiting
wherever the other may still read them, or on a generated inbox with the rotation behind it. `Rest` says
so, it outlives whatever the other party and the relay do, and two parties at rest on existing inboxes in
which nothing waits send to each other's inboxes.

The second half is what a party knows in the middle of an operation of several steps: while it leaves a
lost inbox, probes, offers or answers. -/

namespace Titlan.World.View

open Foundation

variable [Sealing] {κ : Regime} {v v' : View} {p q : Role} {b c x y : MailboxId} {f : Frame} {g j k r n m : ℕ}

/-! ## Traces -/

/-- What waits has been accepted, and what has been accepted is a hello or a handoff in a derived
inbox. -/
structure Traced (v : View) : Prop where
  queued : ∀ b l, v.boxes b = some l → ∀ m ∈ l, (b, m.frame) ∈ v.log
  sorts : ∀ b f, (b, f) ∈ v.log →
    ∃ p k, b = .derived p k ∧ ((∃ r n, f = hello r n) ∨ ∃ x, f = handoff x)
  counted : ∀ g l, v.boxes (.derived .offerer g) = some l →
    l.countP (fun m => isHello g m.frame) ≤ v.helloLog g
  rotated : ∀ n, v.OnGenerated .responder n → ∃ x, v.Offered (v.own .responder) x

theorem Traced.waits (ht : Traced v) (h : v.Waits b f) : (b, f) ∈ v.log := by
  obtain ⟨l, hl, m, hm, rfl⟩ := h
  exact ht.queued b l hl m hm

/-- Nothing waits in a generated inbox. -/
theorem Traced.not_waits (ht : Traced v) : ¬ v.Waits (.generated n) f := by
  intro h
  obtain ⟨p, k, hb, -⟩ := ht.sorts _ _ (ht.waits h)
  cases hb

/-- Mailboxes that appear are empty, and messages only go. -/
theorem Traced.of_boxes (ht : Traced v) {boxes : MailboxId → Option (List Queued)} {n' : ℕ}
    (hb : ∀ b l', boxes b = some l' → l' = [] ∨ ∃ l, v.boxes b = some l ∧ l'.Sublist l) :
    Traced { v with boxes := boxes, nextBox := n' } where
  __ := ht
  queued b l' hl' m hm := by
    rcases hb b l' hl' with rfl | ⟨l, hl, hsub⟩
    · cases hm
    · exact ht.queued b l hl m (hsub.subset hm)
  counted g l' hl' := by
    rcases hb _ l' hl' with rfl | ⟨l, hl, hsub⟩
    · exact Nat.zero_le _
    · exact Nat.le_trans hsub.countP_le (ht.counted g l hl)

theorem Traced.setBox (ht : Traced v) {l' : Option (List Queued)}
    (h : ∀ l, l' = some l → l = [] ∨ ∃ l₀, v.boxes b = some l₀ ∧ l.Sublist l₀) :
    Traced (v.setBox b l') := by
  refine ht.of_boxes fun c l hl => ?_
  by_cases hc : c = b
  · subst hc
    exact h l (by simpa using hl)
  · rw [Function.update_of_ne hc] at hl
    exact .inr ⟨l, hl, List.Sublist.refl l⟩

theorem Traced.mint (ht : Traced v) : Traced v.mint := by
  refine ht.of_boxes fun c l hl => ?_
  by_cases hc : c = .generated v.nextBox
  · subst hc
    exact .inl (by simpa [View.setBox] using hl.symm)
  · have hl' : v.boxes c = some l := by simpa [View.setBox, Function.update_of_ne hc] using hl
    exact .inr ⟨l, hl', List.Sublist.refl l⟩

variable {l : List Queued}

theorem Traced.deposit (ht : Traced v) {m : Queued} (hl : v.boxes (.derived q k) = some l)
    (hm : (∃ r n, m.frame = hello r n) ∨ ∃ x, m.frame = handoff x) :
    Traced (v.deposit (.derived q k) l m) where
  queued b l' hl' m' hm' := by
    rw [mem_log_deposit]
    by_cases hb : b = .derived q k
    · subst hb
      obtain rfl : l ++ [m] = l' := by simpa [View.deposit, View.setBox] using hl'
      rcases mem_concat hm' with hm' | rfl
      · exact .inl (ht.queued _ l hl m' hm')
      · exact .inr rfl
    · have hl'' : v.boxes b = some l' := by
        simpa [View.deposit, View.setBox, Function.update_of_ne hb] using hl'
      exact .inl (ht.queued b l' hl'' m' hm')
  sorts b f h := by
    rcases mem_log_deposit.mp h with h | h
    · exact ht.sorts b f h
    · cases h
      exact ⟨q, k, rfl, hm⟩
  counted g l' hl' := by
    rw [helloLog_deposit]
    by_cases hb : MailboxId.derived .offerer g = .derived q k
    · cases hb
      obtain rfl : l ++ [m] = l' := by simpa [View.deposit, View.setBox] using hl'
      have hc := ht.counted k l hl
      rw [List.countP_append, List.countP_singleton]
      by_cases hh : isHello k m.frame
      · simp only [hh, if_true, and_self]
        omega
      · simp only [hh, Bool.false_eq_true, if_false, and_false]
        omega
    · have hl'' : v.boxes (.derived .offerer g) = some l' := by
        simpa [View.deposit, View.setBox, Function.update_of_ne hb] using hl'
      have hc := ht.counted g l' hl''
      omega
  rotated n h := by
    obtain ⟨x, hx⟩ := ht.rotated n h
    exact ⟨x, offered_deposit.mpr (.inl hx)⟩

theorem Traced.lose (ht : Traced v) : Traced v.lose where
  __ := ht
  queued b l hl := by cases hl
  counted g l hl := by cases hl

/-- Rows are no part of a trace, except where the responder rests. -/
theorem Traced.of_rows (ht : Traced v) {recv send : Role → Option MailboxId} {own known : Role → ℕ}
    (h : ∀ n, recv .responder = some (.generated n) → ∃ x, v.Offered (own .responder) x) :
    Traced { v with recv := recv, send := send, own := own, known := known } where
  __ := ht
  rotated := h

theorem Traced.step (ht : Traced v) (h : Step κ p v v') : Traced v' := by
  cases h with
  | putOwn g _ _ => exact ht.setBox fun l hl => .inl (Option.some.inj hl).symm
  | putPeer _ k _ _ _ _ => exact ht.setBox fun l hl => .inl (Option.some.inj hl).symm
  | hello g k n l m _ _ _ hl hm => exact ht.deposit hl (.inl ⟨g, n, hm⟩)
  | mint => exact ht.mint
  | offer g x l m _ _ _ _ _ hl hm => exact ht.deposit hl (.inr ⟨_, hm⟩)
  | answer g x y l m _ _ _ _ _ _ _ hl hm => exact ht.deposit hl (.inr ⟨_, hm⟩)
  | derive g _ _ _ _ _ =>
    refine ht.of_rows fun n hn => ?_
    cases p with
    | offerer => exact ht.rotated n (by rwa [Function.update_of_ne (by decide)] at hn)
    | responder =>
      rw [Function.update_self] at hn
      cases hn
  | settle g x y _ _ hown hoffer _ _ =>
    refine ht.of_rows fun n _ => ⟨.generated x, ?_⟩
    rw [hown]
    exact hoffer
  | finish g x y _ _ _ _ _ =>
    refine ht.of_rows fun n hn => ht.rotated n ?_
    rwa [Function.update_of_ne (by decide)] at hn
  | setSend k b _ => exact ht.of_rows fun n hn => ht.rotated n hn
  | setGens k a i hrecv _ =>
    refine ht.of_rows fun n hn => ?_
    have hne : Role.responder ≠ p := by
      rintro rfl
      rw [hrecv] at hn
      cases hn
    rw [Function.update_of_ne hne]
    exact ht.rotated n hn
  | retire k _ => exact ht.setBox fun l hl => by cases hl
  | ack k i l hl _ =>
    exact ht.setBox fun l' hl' => .inr ⟨l, hl, Option.some.inj hl' ▸ List.filter_sublist⟩

/-! ## At rest -/

/-- The hello of generation `g` waits in the derived inbox `j` of the other party, if it may still come
there. -/
def Reaching (v : View) (p : Role) (g j : ℕ) : Prop :=
  v.Live (.derived p g) → v.floor p.peer ≤ j → j < g → ∃ n, v.Waits (.derived p.peer j) (hello g n)

theorem Env.reaching (h : Env κ p v v') (hr : v.recv p = some (.derived p g)) (hreach : v.Reaching p g j) :
    v'.Reaching p g j := by
  intro hl hfloor hj
  have hfl := h.floor_le
  have heff := v.eff_le_floor p.peer
  obtain ⟨n, hn⟩ := hreach (h.due hr hl hfloor hj) (by omega) hj
  exact ⟨n, h.waits_hello hl (by omega) (by omega) hn⟩

/-- What the offerer remembers of an offer. -/
abbrev Awaiting := Option (OffererAwaitingFb carrier)

/-- A party on its derived inbox. -/
structure Derived (p : Role) (rotation : Awaiting) (k : ℕ) (v : View) : Prop where
  recv : v.recv p = some (.derived p k)
  own : v.own p = k
  send : v.send p = some (.derived p.peer k)
  reaching : ∀ j, v.known p ≤ j → v.Reaching p k j
  awaiting : p = .offerer → ∀ x, v.Offered k x → rotation = some ⟨x, .derived .offerer k⟩

/-- A party on a generated inbox: the responder's answer waits for the offerer, the offerer has had it. -/
def Rotated (v : View) (n : ℕ) : Role → Prop
  | .responder => v.Live (.generated n) →
      v.recv .offerer = some (.derived .offerer (v.own .responder)) →
      v.Waits (.derived .offerer (v.own .responder)) (handoff (.generated n))
  | .offerer => v.Offered (v.own .offerer) (.generated n) ∧
      ∃ y, v.Answered (v.own .offerer) y ∧ v.send .offerer = some y

/-- A party between two deliveries. -/
inductive Rest (p : Role) (rotation : Awaiting) (v : View) : Prop
  | derived (k : ℕ) (h : Derived p rotation k v)
  | generated (n : ℕ) (hn : v.OnGenerated p n) (h : v.Rotated n p)

variable {rotation : Awaiting}

theorem Env.derived (h : Env κ p v v') (hd : Derived p rotation k v) : Derived p rotation k v' where
  recv := h.recv_eq.trans hd.recv
  own := h.own_eq.trans hd.own
  send := h.send_eq.trans hd.send
  reaching j hj := h.reaching hd.recv (hd.reaching j (h.known_eq ▸ hj))
  awaiting hp x hx := by
    subst hp
    exact hd.awaiting rfl x (h.log_peer hx)

theorem Env.rotated (h : Env κ p v v') (hi : Inv v) (hn : v.OnGenerated p n) (hr : v.Rotated n p) :
    v'.Rotated n p := by
  cases p with
  | responder =>
    intro hl hro
    rw [h.own_eq] at hro ⊢
    have hlive := h.live_generated (hi.lt_nextBox hn) hl
    -- the offerer had reached the generation, so it has been on this inbox
    rcases h.back hro with hro' | hlt
    · exact h.waits_handoff hl hro' (hr hlive hro')
    · exact absurd (hi.reached _ n hn) (Nat.not_le_of_lt hlt)
  | offerer =>
    obtain ⟨hoff, y, hy, hs⟩ := hr
    rw [Rotated, h.own_eq]
    exact ⟨h.log_subset hoff, y, h.log_subset hy, h.send_eq.trans hs⟩

theorem Env.rest (h : Env κ p v v') (hi : Inv v) (hr : Rest p rotation v) : Rest p rotation v' := by
  cases hr with
  | derived k hd => exact .derived k (h.derived hd)
  | generated n hn hrot => exact .generated n (h.recv_eq.trans hn) (h.rotated hi hn hrot)

/-- At rest a party is at its stored generation. -/
theorem Rest.eff_eq_own (h : Rest p rotation v) : v.eff p = v.own p := by
  cases h with
  | derived k hd => rw [eff_of_derived hd.recv, hd.own]
  | generated n hn => exact eff_of_generated hn

/-! ## Agreement -/

section Agreement

variable {rot : Role → Awaiting}

/-- Two parties on derived inboxes are at one generation: the hello of the later one would wait for the
other. -/
theorem Derived.le (hi : Inv v) (hp : Derived p rotation k v) {rotation' : Awaiting}
    (hq : Derived p.peer rotation' j v) (hl : v.Live (.derived p k))
    (hquiet : ∀ f, ¬ v.Waits (.derived p.peer j) f) : k ≤ j := by
  by_contra hlt
  have hknown : v.known p ≤ j := by
    rw [← eff_of_derived hq.recv]
    exact hi.known_le p
  obtain ⟨n, hn⟩ := hp.reaching j hknown hl (Nat.le_of_eq (floor_of_derived hq.recv)) (by omega)
  exact hquiet _ hn

/-- A party rests on an existing generated inbox only while the other is on one too, or has the answer
waiting. -/
theorem Rotated.not_derived (hi : Inv v) (hn : v.OnGenerated p n) (hrot : v.Rotated n p)
    (hq : Derived p.peer rotation k v) (hl : v.Live (.generated n))
    (hquiet : ∀ f, ¬ v.Waits (.derived p.peer k) f) : False := by
  have heff : v.eff p.peer = k := eff_of_derived hq.recv
  have hown : v.own p = k := by
    have hle := hi.reached p n hn
    have hge : ¬ v.own p < v.eff p.peer := fun hlt => hi.behind p n hn hlt hl
    omega
  cases p with
  | offerer =>
    -- the responder moves first
    obtain ⟨n', hn'⟩ := hi.first n hn (heff.trans hown.symm)
    have hr : v.recv .responder = some (.derived .responder k) := hq.recv
    rw [OnGenerated, hr] at hn'
    cases hn'
  | responder =>
    refine hquiet _ (hown ▸ hrot hl ?_)
    rw [hown]
    exact hq.recv

/-- Two parties on existing generated inboxes are at the generation of one offer and its answer. -/
theorem Rotated.agree (hi : Inv v) (hn : v.OnGenerated .offerer n) (hl : v.Live (.generated n))
    (hrot : v.Rotated n .offerer) :
    v.send .offerer = v.recv .responder ∧ v.send .responder = v.recv .offerer := by
  obtain ⟨hoff, y, hy, hsend⟩ := hrot
  have hle := hi.reached .offerer n hn
  have hge : ¬ v.own .offerer < v.eff .responder := fun hlt => hi.behind .offerer n hn hlt hl
  obtain ⟨x, hx, -, hat⟩ := hi.matched _ y hy
  obtain ⟨hrecv, hsend'⟩ := hat (Nat.le_antisymm (Nat.le_of_not_lt hge) hle)
  refine ⟨hsend.trans hrecv.symm, hsend'.trans ?_⟩
  rw [hi.offered_unique hx hoff, hn]

/-- Two parties at rest on existing inboxes, in which nothing waits, are both on derived inboxes of one
generation or both on generated inboxes. -/
theorem Rest.together (hi : Inv v) (hrest : ∀ p, Rest p (rot p) v)
    (hlive : ∀ p b, v.recv p = some b → v.Live b)
    (hquiet : ∀ p b, v.recv p = some b → ∀ f, ¬ v.Waits b f) :
    (∃ k, ∀ p, Derived p (rot p) k v) ∨ ∀ p, ∃ n, v.OnGenerated p n ∧ v.Rotated n p := by
  have hmixed : ∀ q n k, v.OnGenerated q n → v.Rotated n q → ¬ Derived q.peer (rot q.peer) k v :=
    fun q n k hn hrot hd =>
      hrot.not_derived hi hn hd (hlive q _ hn) (hquiet q.peer _ hd.recv)
  cases hrest .offerer with
  | derived k hd =>
    cases hrest .responder with
    | derived j hd' =>
      have hle : k ≤ j := hd.le hi hd' (hlive _ _ hd.recv) (hquiet _ _ hd'.recv)
      have hge : j ≤ k := hd'.le hi hd (hlive _ _ hd'.recv) (hquiet _ _ hd.recv)
      obtain rfl : k = j := by omega
      left
      refine ⟨k, fun p => ?_⟩
      cases p with
      | offerer => exact hd
      | responder => exact hd'
    | generated n hn hrot => exact absurd hd (hmixed .responder n k hn hrot)
  | generated n hn hrot =>
    cases hrest .responder with
    | derived j hd' => exact absurd hd' (hmixed .offerer n j hn hrot)
    | generated m hm hrot' =>
      right
      intro p
      cases p with
      | offerer => exact ⟨n, hn, hrot⟩
      | responder => exact ⟨m, hm, hrot'⟩

/-- **Agreement.** Two parties at rest on existing inboxes, in which nothing waits, send to each other. -/
theorem Rest.agree (hi : Inv v) (hrest : ∀ p, Rest p (rot p) v)
    (hlive : ∀ p b, v.recv p = some b → v.Live b)
    (hquiet : ∀ p b, v.recv p = some b → ∀ f, ¬ v.Waits b f) (p : Role) :
    v.send p = v.recv p.peer := by
  rcases Rest.together hi hrest hlive hquiet with ⟨k, hd⟩ | hgen
  · rw [(hd p).send, (hd p.peer).recv]
  · obtain ⟨n, hn, hrot⟩ := hgen .offerer
    have hagree := hrot.agree hi hn (hlive _ _ hn)
    cases p with
    | offerer => exact hagree.1
    | responder => exact hagree.2

end Agreement

/-- A party that has rotated may delete its derived inboxes. -/
theorem Rotated.retire (h : v.Rotated n p) : (v.setBox (.derived p k) none).Rotated n p := by
  cases p with
  | offerer => exact h
  | responder =>
    intro hl hr
    obtain ⟨l, hl', hm⟩ := h ((live_generated_setBox v _ k n none).mp hl) hr
    exact ⟨l, by simpa [View.setBox] using hl', hm⟩

/-! ## Leaving an inbox -/

/-- The party may leave its inbox: a generated one is lost, and an offer made from a derived one no longer
stands. -/
structure Gone (p : Role) (v : View) : Prop where
  generated : ∀ n, v.OnGenerated p n → ¬ v.Live (.generated n)
  offered : p = .offerer → ∀ k x, v.recv .offerer = some (.derived .offerer k) → v.Offered k x →
    v.eff .responder = k → ¬ v.Live (.derived .offerer k)

theorem gone_of_lost (h : ∀ b, v.recv p = some b → ¬ v.Live b) : Gone p v where
  generated n hn := h _ hn
  offered hp k x hr _ _ := by
    subst hp
    exact h _ hr

theorem Env.gone (h : Env κ p v v') (hi : Inv v) (hg : Gone p v) : Gone p v' where
  generated n hn hl := by
    have hn' : v.OnGenerated p n := h.recv_eq.symm.trans hn
    exact hg.generated n hn' (h.live_generated (hi.lt_nextBox hn') hl)
  offered hp k x hr hx he hl := by
    subst hp
    have hx' : v.Offered k x := h.log_peer hx
    obtain ⟨he', hl'⟩ := h.started hi (hi.helloed_of_offered hx') he hl
    exact hg.offered rfl k x (h.recv_eq.symm.trans hr) hx' he' hl'

/-- An existing generated inbox of the other party's is of a later generation. -/
theorem Gone.past (hg : Gone p v) (hi : Inv v) (ht : Traced v) (hn : v.OnGenerated p.peer n)
    (hl : v.Live (.generated n)) : v.eff p < v.own p.peer := by
  by_contra hlt
  have hle := hi.reached p.peer n hn
  have hbehind := hi.behind p.peer n hn
  rw [Role.peer_peer] at hle hbehind
  have heq : v.eff p = v.own p.peer := by
    by_contra hne
    exact hbehind (by omega) hl
  obtain ⟨b, hb, hlb⟩ := hi.beside p.peer n hn hl (by rwa [Role.peer_peer])
  rw [Role.peer_peer] at hb
  rcases hi.shape p with ⟨k, hk⟩ | ⟨m, hm, -⟩
  · rw [hb, Option.some.injEq] at hk
    subst hk
    cases p with
    | offerer =>
      -- the responder has moved on to the answer of an offer made from this inbox
      have hown : v.own .responder = k := heq.symm.trans (eff_of_derived hb)
      obtain ⟨x, hx⟩ := ht.rotated n hn
      rw [hown] at hx
      exact hg.offered rfl k x hb hx ((eff_of_generated hn).trans hown) hlb
    | responder =>
      obtain ⟨m, hm⟩ := hi.first n hn heq
      rw [OnGenerated, hb] at hm
      cases hm
  · rw [OnGenerated, hb, Option.some.injEq] at hm
    subst hm
    exact hg.generated m hb hlb

/-- Recovery moves to the next generation. -/
theorem Gone.derive (hg : Gone p v) (hi : Inv v) (ht : Traced v) (hmax : v.eff p < u32Max)
    (hlossy : κ.Lossy) :
    Step κ p v (v.setRecv p (.derived p (v.eff p + 1))) :=
  .derive _ (Nat.lt_succ_self _) hmax (fun _ hn hl => hg.past hi ht hn hl) hg.generated
    (fun k x hp => hg.offered hp k x) hlossy

/-- A hello of a later generation moves its reader there. -/
theorem Inv.raise (hi : Inv v) (hr : v.recv p = some (.derived p k)) (hlt : k < r)
    (hh : v.Helloed p j r) (hlossy : κ.Lossy) : Step κ p v (v.setRecv p (.derived p r)) := by
  have hle := (hi.hello_le p j r hh).1
  refine .derive r (by rwa [eff_of_derived hr]) (Nat.le_trans hle (hi.bounded p.peer)) ?_ ?_ ?_ hlossy
  · intro n hn _
    rwa [eff_of_generated hn] at hle
  · intro n hn
    rw [OnGenerated, hr] at hn
    cases hn
  · intro i x hp hi' _ he _
    subst hp
    rw [hr] at hi'
    cases hi'
    have hle' : r ≤ v.eff .responder := hle
    omega

/-! ## Probing -/

/-- The derived inbox `j` of the other party exists, if it may still come there. -/
def Reachable (v : View) (p : Role) (g j : ℕ) : Prop :=
  v.Live (.derived p g) → v.floor p.peer ≤ j → j < g → v.Live (.derived p.peer j)

theorem Env.reachable (h : Env κ p v v') (hr : v.recv p = some (.derived p g))
    (hreach : v.Reachable p g j) : v'.Reachable p g j := by
  intro hl hfloor hj
  have hfl := h.floor_le
  exact h.live_peer hl (by omega) (hreach (h.due hr hl hfloor hj) (by omega) hj)

/-- A hello keeps waiting while its sender creates inboxes and leaves more of them. -/
theorem Reaching.mono (h : v.Reaching p g j) (hl : v'.Live (.derived p g) → v.Live (.derived p g))
    (hfloor : v.floor p.peer ≤ v'.floor p.peer)
    (hw : ∀ f, v.Waits (.derived p.peer j) f → v'.Waits (.derived p.peer j) f) : v'.Reaching p g j := by
  intro hl' hfl hj
  obtain ⟨n, hn⟩ := h (hl hl') (Nat.le_trans hfloor hfl) hj
  exact ⟨n, hw _ hn⟩

theorem waits_setBox (hnone : ¬ v.Live b) {l : Option (List Queued)} (h : v.Waits c f) :
    (v.setBox b l).Waits c f := by
  have hne : c ≠ b := by
    rintro rfl
    exact hnone h.live
  obtain ⟨l', hl', hm⟩ := h
  exact ⟨l', by simpa [View.setBox, Function.update_of_ne hne] using hl', hm⟩

theorem waits_deposit {m : Queued} (hl : v.boxes b = some l) (h : v.Waits c f) :
    (v.deposit b l m).Waits c f := by
  obtain ⟨l', hl', m', hm', hf⟩ := h
  by_cases hc : c = b
  · subst hc
    rw [hl, Option.some.injEq] at hl'
    subst hl'
    exact ⟨l ++ [m], by simp [View.deposit, View.setBox], m', List.mem_append_left _ hm', hf⟩
  · exact ⟨l', by simpa [View.deposit, View.setBox, Function.update_of_ne hc] using hl', m', hm', hf⟩

theorem waits_deposit_self {m : Queued} : (v.deposit b l m).Waits b m.frame :=
  ⟨l ++ [m], by simp [View.deposit, View.setBox], m, by simp, rfl⟩

/-! ## Acks -/

/-- A party's rest does not depend on what waits in its own inbox. -/
theorem Rest.setQueue (h : Rest p rotation v) (hl : v.boxes (.derived p k) = some l)
    (l' : List Queued) : Rest p rotation (v.setBox (.derived p k) (some l')) := by
  have hpeer : ∀ j f, v.Waits (.derived p.peer j) f →
      (v.setBox (.derived p k) (some l')).Waits (.derived p.peer j) f := by
    rintro j f ⟨l₀, hl₀, hm⟩
    exact ⟨l₀, by simpa [View.setBox] using hl₀, hm⟩
  cases h with
  | derived g hd =>
    refine .derived g ⟨hd.recv, hd.own, hd.send, fun j hj => ?_, hd.awaiting⟩
    exact (hd.reaching j hj).mono (live_setQueue hl l').mp (Nat.le_refl _) (hpeer j)
  | generated n hn hrot =>
    refine .generated n hn ?_
    cases p with
    | offerer => exact hrot
    | responder => exact fun hlive hr => hpeer _ _ (hrot ((live_setQueue hl l').mp hlive) hr)

/-! ## Offering -/

/-- The generated inbox `x` may be offered. -/
def Offerable (v : View) (g x : ℕ) : Prop :=
  v.eff .responder = g → v.Live (.derived .offerer g) → v.Live (.generated x)

theorem Env.offerable (h : Env κ .offerer v v') (hi : Inv v) (hh : v.Helloed .offerer g g)
    (hn : n < v.nextBox) (ho : v.Offerable g n) : v'.Offerable g n := by
  intro he hl
  obtain ⟨he', hl'⟩ := h.started hi hh he hl
  cases h with
  | lose => cases hl
  | step h => exact (h.live_generated hn).mpr (ho he' hl')

/-- Hellos of generation `g` in the offerer's derived inbox, the message `i` apart. -/
def unread (v : View) (i : Option ℕ) (g : ℕ) : ℕ :=
  ((v.boxes (.derived .offerer g)).getD []).countP fun m =>
    isHello g m.frame && decide (some m.id ≠ i)

theorem Traced.unread_le (ht : Traced v) (i : Option ℕ) (g : ℕ) : v.unread i g ≤ v.helloLog g := by
  rw [unread]
  cases hl : v.boxes (.derived .offerer g) with
  | none => exact Nat.zero_le _
  | some l =>
    refine Nat.le_trans (List.countP_mono_left fun m _ h => ?_) (ht.counted g l hl)
    exact (Bool.and_eq_true _ _ ▸ h).1

theorem Step.helloLog_le (h : Step κ q v v') : v.helloLog g ≤ v'.helloLog g := by
  rcases h.log_eq with heq | ⟨k, f, heq⟩
  · rw [helloLog, helloLog, heq]
  · rw [helloLog, helloLog, heq, List.countP_append]
    exact Nat.le_add_right _ _

/-- Each hello that comes in is logged. -/
theorem Env.unread_le (h : Env κ .offerer v v') (i : Option ℕ) (g : ℕ) :
    v'.unread i g + v.helloLog g ≤ v.unread i g + v'.helloLog g := by
  cases h with
  | lose =>
    have hz : v.lose.unread i g = 0 := rfl
    have hl : v.lose.helloLog g = v.helloLog g := rfl
    omega
  | step h =>
    have hmono := h.helloLog_le (g := g)
    have hq : v'.boxes (.derived .offerer g) = v.boxes (.derived .offerer g) ∨ _ := h.queue_peer g
    rcases hq with heq | ⟨-, hnew, -⟩ | ⟨l, m, hl, hnew, hlog⟩
    · rw [unread, unread, heq]
      omega
    · have hnew' : v'.boxes (.derived .offerer g) = some [] := hnew
      have hz : v'.unread i g = 0 := by
        rw [unread, hnew']
        rfl
      omega
    · have hl' : v.boxes (.derived .offerer g) = some l := hl
      have hnew' : v'.boxes (.derived .offerer g) = some (l ++ [m]) := hnew
      have hlog' : v'.log = v.log ++ [(.derived .offerer g, m.frame)] := hlog
      have hhello : v'.helloLog g = v.helloLog g + if isHello g m.frame then 1 else 0 := by
        rw [helloLog, helloLog, hlog', List.countP_append, List.countP_singleton]
        simp
      rw [hhello, unread, unread, hl', hnew', Option.getD_some, Option.getD_some, List.countP_append,
        List.countP_singleton]
      by_cases hm : isHello g m.frame
      · simp only [hm, Bool.true_and, if_true]
        split <;> omega
      · simp only [hm, Bool.false_and, Bool.false_eq_true, if_false]
        omega

theorem Env.offerLog_eq (h : Env κ .offerer v v') (g : ℕ) : v'.offerLog g = v.offerLog g := by
  cases h with
  | lose => rfl
  | step h =>
    have hlog : v'.log = v.log ∨ ∃ k f, v'.log = v.log ++ [(.derived .offerer k, f)] := h.log_eq
    rcases hlog with heq | ⟨k, f, heq⟩
    · rw [offerLog, offerLog, heq]
    · rw [offerLog, offerLog, heq, List.countP_append]
      simp

/-! ## Storing generations -/

theorem floor_setGens_of_ne (h : q ≠ p) (a i : ℕ) : (v.setGens p a i).floor q = v.floor q := by
  simp [floor, View.setGens, Function.update_of_ne h]

/-- A party that has heard of the other stays at rest on its derived inbox. -/
theorem Derived.setGens (hd : Derived p rotation k v) (h : v.known p ≤ j) :
    Derived p rotation k (v.setGens p k j) where
  __ := hd
  own := by simp [View.setGens]
  reaching i hi := by
    have hi' : j ≤ i := by simpa [View.setGens] using hi
    exact (hd.reaching i (Nat.le_trans h hi')).mono id
      (Nat.le_of_eq (floor_setGens_of_ne p.peer_ne k j).symm) fun _ => id

/-! ## Answering -/

/-- The responder has generated `y` to answer the offer of `x`. -/
structure Answering (g x y : ℕ) (v : View) : Prop where
  offer : v.Offered g (.generated x)
  silent : ∀ z, ¬ v.Answered g z
  eff : v.eff .responder = g
  spent : x < v.nextBox ∧ y < v.nextBox
  together : v.Live (.generated x) ↔ v.Live (.generated y)
  waiting : v.Live (.generated y) →
    v.recv .offerer = some (.derived .offerer g) ∧ v.Live (.derived .offerer g)

theorem Env.answering {x y : ℕ} (h : Env κ .responder v v') (ha : Answering g x y v) :
    Answering g x y v' where
  offer := h.log_subset ha.offer
  silent z hz := ha.silent z (h.log_peer hz)
  eff := h.eff_eq.trans ha.eff
  spent := ⟨Nat.lt_of_lt_of_le ha.spent.1 h.nextBox_le, Nat.lt_of_lt_of_le ha.spent.2 h.nextBox_le⟩
  together := h.live_generated_iff ha.spent.1 ha.spent.2 ha.together
  waiting hl := by
    obtain ⟨hr, hl'⟩ := ha.waiting (h.live_generated ha.spent.2 hl)
    exact h.awaits hl ha.offer ha.eff ha.silent hr hl'

/-- The inbox for the answer is generated while the offerer's inbox exists. -/
theorem Inv.answering {x : ℕ} (hi : Inv v) (hr : v.recv .responder = some (.derived .responder g))
    (ho : v.Offered g (.generated x)) (hl : v.Live (.derived .offerer g)) :
    Answering g x v.nextBox v.mint := by
  have he : v.eff .responder = g := eff_of_derived hr
  obtain ⟨hlx, hro⟩ := hi.standing g _ ho he hr hl
  obtain ⟨-, x', hx', hxeq⟩ := hi.offered g _ ho
  cases hxeq
  exact
    { offer := ho
      silent := fun z => hi.not_answered hr
      eff := he
      spent := ⟨Nat.lt_succ_of_lt hx', Nat.lt_succ_self _⟩
      together := iff_of_true ((live_generated_mint hx').mpr hlx) (by simp [Live, View.mint, setBox])
      waiting := fun _ => ⟨hro, live_derived_mint.mpr hl⟩ }

/-- The responder moves to the inbox it answers with. -/
theorem Answering.settle {x y : ℕ} (ha : Answering g x y v) (hown : v.own .responder = g) :
    Answering g x y (v.setRecv .responder (.generated y)) where
  __ := ha
  eff := eff_setRecv_generated.trans hown
  waiting hl := by
    rw [recv_setRecv_of_ne (by decide)]
    exact ha.waiting hl

/-! ## Without losses -/

/-- Both parties are at one generation, on inboxes that exist, and so are the offered ones. -/
structure Kept (g : ℕ) (v : View) : Prop where
  eff : ∀ p, v.eff p = g
  live : ∀ p b, v.recv p = some b → v.Live b
  offered : ∀ x, v.Offered g x → v.Live x

/-- Without losses nobody changes generation. -/
theorem Step.eff_keeping (h : Step (.keeping g) p v v') : v'.eff p = v.eff p := by
  cases h with
  | derive _ _ _ _ _ _ hlossy => exact hlossy.elim
  | settle k x y hp hrecv hown =>
    subst hp
    rw [eff_of_derived hrecv, eff_of_generated recv_setRecv_self, ← hown]
    rfl
  | finish k x y hp hrecv hown =>
    subst hp
    rw [eff_of_derived hrecv, eff_of_generated recv_setRecv_self, ← hown]
    rfl
  | setGens k a i hrecv => exact eff_setGens hrecv a i p
  | _ => rfl

/-- Without losses a party moves only to existing generated inboxes. -/
theorem Kept.arrives (hk : Kept g v) (hi : Inv v) (h : Step (.keeping g) p v v')
    (hn : v'.OnGenerated p n) : v'.Live (.generated n) := by
  have hold : v.OnGenerated p n → v'.Live (.generated n) := fun hn' =>
    (h.live_generated (hi.lt_nextBox hn')).mpr (hk.live p _ hn')
  cases h with
  | derive _ _ _ _ _ _ hlossy => exact hlossy.elim
  | settle k x y hp _ _ _ _ _ hkept =>
    subst hp
    rw [OnGenerated, recv_setRecv_self] at hn
    cases hn
    exact hkept id
  | finish k x y hp hrecv _ hoffer =>
    subst hp
    rw [OnGenerated, recv_setRecv_self] at hn
    cases hn
    have hkg : k = g := (eff_of_derived hrecv).symm.trans (hk.eff _)
    exact hk.offered _ (hkg ▸ hoffer)
  | _ => exact hold hn

theorem Kept.step (hk : Kept g v) (hi : Inv v) (h : Step (.keeping g) p v v') : Kept g v' := by
  have hi' := hi.step h
  have heff := h.eff_keeping
  have hnew : ∀ n, v'.OnGenerated p n → v'.Live (.generated n) := fun n => hk.arrives hi h
  have hpeer : v'.recv p.peer = v.recv p.peer := h.recv_of_ne p.peer_ne
  have heff' : ∀ q, v'.eff q = g := by
    intro q
    rcases q.eq_or_eq_peer p with rfl | rfl
    · exact heff.trans (hk.eff q)
    · rw [View.eff, hpeer, (h.gens_of_ne p.peer_ne).1]
      exact hk.eff p.peer
  refine ⟨heff', fun q b hb => ?_, fun x hx => ?_⟩
  · rcases q.eq_or_eq_peer p with rfl | rfl
    · rcases hi'.shape q with ⟨k, hr⟩ | ⟨n, hn, -⟩
      · -- still on the derived inbox of the generation
        rw [hb, Option.some.injEq] at hr
        subst hr
        have hkg : k = g := (eff_of_derived hb).symm.trans (heff' q)
        subst hkg
        have hold : v.recv q = some (.derived q k) := by
          have henv : Env (.keeping k) q.peer v v' := .step (by rwa [Role.peer_peer])
          rcases henv.back (g := k) (by rwa [Role.peer_peer]) with h | h
          · rwa [Role.peer_peer] at h
          · rw [Role.peer_peer, hk.eff] at h
            exact absurd h (Nat.lt_irrefl _)
        exact h.live_own (Nat.le_of_eq (floor_of_derived hold)) (hk.live q _ hold)
      · rw [OnGenerated, hb, Option.some.injEq] at hn
        subst hn
        exact hnew n hb
    · rw [hpeer] at hb
      have hl := hk.live p.peer b hb
      rcases hi.shape p.peer with ⟨k, hr⟩ | ⟨n, hn, hlt, -⟩
      · rw [hb, Option.some.injEq] at hr
        subst hr
        exact h.live_peer hl
      · rw [OnGenerated, hb, Option.some.injEq] at hn
        subst hn
        exact (h.live_generated hlt).mpr hl
  · have hold : v.Offered g x → v'.Live x := by
      intro hx'
      obtain ⟨-, n, hn, rfl⟩ := hi.offered g x hx'
      exact (h.live_generated hn).mpr (hk.offered _ hx')
    cases h with
    | offer g' x' l m _ hr _ _ hst hl hm =>
      rcases offered_deposit.mp hx with hx | ⟨hb, hf⟩
      · exact hold hx
      · cases hb
        rw [hm] at hf
        cases hf
        exact (live_deposit hl _).mpr (hst (hk.eff _) (hk.live _ _ hr))
    | hello g' k n l m _ _ _ hl hm =>
      rcases offered_deposit.mp hx with hx | ⟨-, hf⟩
      · exact hold hx
      · rw [hm] at hf
        cases hf
    | answer g' x' y' l m _ _ _ _ _ _ _ hl hm =>
      rcases offered_deposit.mp hx with hx | ⟨hb, -⟩
      · exact hold hx
      · cases hb
    | _ => exact hold hx

/-- Without losses the offerer's inbox exists while the responder is on its derived one. -/
theorem Kept.offerer_live (hk : Kept g v) (hi : Inv v)
    (hr : v.recv .responder = some (.derived .responder k)) : v.Live (.derived .offerer k) := by
  have hkg : k = g := (eff_of_derived hr).symm.trans (hk.eff _)
  subst hkg
  rcases hi.shape .offerer with ⟨j, hj⟩ | ⟨n, hn, -⟩
  · obtain rfl : j = k := (eff_of_derived hj).symm.trans (hk.eff _)
    exact hk.live _ _ hj
  · have hown : v.eff .responder = v.own .offerer := by
      rw [hk.eff, ← eff_of_generated hn, hk.eff]
    obtain ⟨m, hm⟩ := hi.first n hn hown
    rw [OnGenerated, hr] at hm
    cases hm

end Titlan.World.View
