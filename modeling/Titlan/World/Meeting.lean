import Titlan.World.Rest

/-! # Where the responder's hello waits

Two parties on derived inboxes of one generation rotate when the offerer reads the responder's hello of
that generation in its inbox of that generation. `Due` says that this hello waits there, or that the
offerer has answered it with an offer and the offer waits for the responder, as long as the responder's
inbox has not been lost. In the regime `meeting` every step preserves it, and two parties at rest are
then on generated inboxes. -/

namespace Titlan.World.View

open Foundation

variable [Sealing] {κ : Regime} {v v' : View} {p q : Role} {b x : MailboxId} {f : Frame} {g k n : ℕ}

/-- The responder's hello waits for the offerer or has been answered by an offer, and an offer waits for
the responder. -/
structure Due (v : View) : Prop where
  hello : ∀ g, v.Meets g → v.Helloed .offerer g g →
    (∃ n, v.Waits (.derived .offerer g) (hello g n)) ∨ ∃ x, v.Offered g x
  offer : ∀ g x, v.Meets g → v.Offered g x → v.Waits (.derived .responder g) (handoff x)

/-- The responder has left its hello. -/
def Met (v : View) : Prop := ∀ g, v.Meets g → v.Helloed .offerer g g

/-! ## What waits -/

theorem waits_mint (h : v.Waits (.derived p k) f) : v.mint.Waits (.derived p k) f := by
  obtain ⟨l, hl, hm⟩ := h
  exact ⟨l, by simpa [View.mint, View.setBox] using hl, hm⟩

/-- A message of an inbox its owner may still read goes when it is acked. -/
theorem Step.waits_or_acked (h : Step κ q v v') (hw : v.Waits (.derived p k) f)
    (hfloor : p = q → v.floor q ≤ k) :
    v'.Waits (.derived p k) f ∨ p = q ∧ v'.log = v.log ∧
      (isHandoff f → v.recv q ≠ some (.derived q k)) ∧
      (κ = .meeting → q = .offerer → isHello k f → v.Meets k → ∃ x, v.Offered k x) := by
  cases h with
  | putOwn _ _ hnone => exact .inl (waits_setBox hnone hw)
  | putPeer _ _ _ _ _ hnone => exact .inl (waits_setBox hnone hw)
  | hello _ _ _ _ _ _ _ _ hl _ => exact .inl (waits_deposit hl hw)
  | mint => exact .inl (waits_mint hw)
  | offer _ _ _ _ _ _ _ _ _ hl _ => exact .inl (waits_deposit hl hw)
  | answer _ _ _ _ _ _ _ _ _ _ _ _ hl _ => exact .inl (waits_deposit hl hw)
  | retire j hj =>
    obtain ⟨l, hl, hm⟩ := hw
    have hne : MailboxId.derived p k ≠ .derived q j := by
      rintro heq
      obtain ⟨rfl, rfl⟩ := MailboxId.derived.inj heq
      exact absurd (hfloor rfl) (Nat.not_le_of_lt hj)
    exact .inl ⟨l, by simpa [View.setBox, Function.update_of_ne hne] using hl, hm⟩
  | ack j i l hl hdone hmet =>
    obtain ⟨l', hl', m, hm, rfl⟩ := hw
    by_cases heq : MailboxId.derived p k = .derived q j
    · obtain ⟨rfl, rfl⟩ := MailboxId.derived.inj heq
      rw [hl, Option.some.injEq] at hl'
      subst hl'
      by_cases hid : m.id = i
      · right
        exact ⟨rfl, rfl, (hdone m hm hid).2, fun hκ hq => hmet hκ hq m hm hid⟩
      · left
        exact ⟨l.filter fun m => m.id ≠ i, by simp [View.setBox], m,
          List.mem_filter.mpr ⟨hm, decide_eq_true hid⟩, rfl⟩
    · exact .inl ⟨l', by simpa [View.setBox, Function.update_of_ne heq] using hl', m, hm, rfl⟩
  | _ => exact .inl hw

/-- What a step logs waits after it. -/
theorem Step.logged_or_waits (h : Step κ q v v') (he : (b, f) ∈ v'.log) :
    (b, f) ∈ v.log ∨ v'.Waits b f := by
  have hdeposit : ∀ {c : MailboxId} {l : List Queued} {m : Queued},
      (b, f) ∈ (v.deposit c l m).log → (b, f) ∈ v.log ∨ (v.deposit c l m).Waits b f := by
    intro c l m he
    rcases mem_log_deposit.mp he with he | he
    · exact .inl he
    · cases he
      exact .inr waits_deposit_self
  cases h with
  | hello => exact hdeposit he
  | offer => exact hdeposit he
  | answer => exact hdeposit he
  | _ => exact .inl he

/-! ## Steps -/

/-- The parties come to meet only when the responder moves. -/
theorem Step.meets_back (h : Step .meeting q v v') (hm : v'.Meets g) :
    v.Meets g ∨ q = .responder ∧ (v.eff .responder < g ∨ g = u32Max) := by
  obtain ⟨hfloor, hrecv, hlive⟩ := hm
  have hfloor' : v.floor .offerer ≤ g := by
    cases q with
    | offerer => exact Nat.le_trans h.floor_le hfloor
    | responder =>
      rwa [View.floor, h.recv_of_ne (by decide), (h.gens_of_ne (by decide)).1] at hfloor
  cases h with
  | putOwn g' hg' =>
    by_cases heq : MailboxId.derived .responder g = .derived q g'
    · obtain ⟨rfl, rfl⟩ := MailboxId.derived.inj heq
      exact .inr ⟨rfl, hg'.imp id And.left⟩
    · exact .inl ⟨hfloor', hrecv, (live_setBox_of_ne heq).mp hlive⟩
  | putPeer g' k hrecv' _ _ _ hrevive =>
    by_cases heq : MailboxId.derived .responder g = .derived q.peer k
    · -- the offerer creates an inbox the responder is on only below its own generation
      obtain ⟨hq, rfl⟩ := MailboxId.derived.inj heq
      obtain rfl : q = .offerer := by
        rw [← q.peer_peer, ← hq]
        rfl
      have hlt := hrevive rfl rfl hrecv
      rw [floor_of_derived hrecv'] at hfloor'
      exact absurd hfloor' (Nat.not_le_of_lt hlt)
    · exact .inl ⟨hfloor', hrecv, (live_setBox_of_ne heq).mp hlive⟩
  | hello _ _ _ _ _ _ _ _ hl _ => exact .inl ⟨hfloor', hrecv, (live_deposit hl _).mp hlive⟩
  | mint => exact .inl ⟨hfloor', hrecv, live_derived_mint.mp hlive⟩
  | offer _ _ _ _ _ _ _ _ _ hl _ => exact .inl ⟨hfloor', hrecv, (live_deposit hl _).mp hlive⟩
  | answer _ _ _ _ _ _ _ _ _ _ _ _ hl _ => exact .inl ⟨hfloor', hrecv, (live_deposit hl _).mp hlive⟩
  | derive g' hg' =>
    cases q with
    | offerer => exact .inl ⟨hfloor', hrecv, hlive⟩
    | responder =>
      rw [recv_setRecv_self] at hrecv
      cases hrecv
      exact .inr ⟨rfl, .inl hg'⟩
  | settle _ _ _ hp =>
    rw [recv_setRecv_self] at hrecv
    cases hrecv
  | retire j hj =>
    by_cases heq : MailboxId.derived .responder g = .derived q j
    · rw [heq, live_setBox_self] at hlive
      cases hlive
    · exact .inl ⟨hfloor', hrecv, (live_setBox_of_ne heq).mp hlive⟩
  | ack j i l hl =>
    by_cases heq : MailboxId.derived .responder g = .derived q j
    · refine .inl ⟨hfloor', hrecv, ?_⟩
      rw [heq, Live, hl]
      rfl
    · exact .inl ⟨hfloor', hrecv, (live_setBox_of_ne heq).mp hlive⟩
  | _ => exact .inl ⟨hfloor', hrecv, hlive⟩

theorem Due.step (hd : Due v) (hi : Inv v) (h : Step .meeting q v v') : Due v' where
  hello g hm hh := by
    obtain ⟨n, hn⟩ := hh
    rcases h.logged_or_waits hn with hn | hn
    · have hh : v.Helloed .offerer g g := ⟨n, hn⟩
      rcases h.meets_back hm with hm | ⟨-, hlt | rfl⟩
      · rcases hd.hello g hm hh with ⟨n', hw⟩ | ⟨x, hx⟩
        · rcases h.waits_or_acked hw (fun hq => hq ▸ hm.floor) with hw | ⟨hq, hlog, -, hacked⟩
          · exact .inl ⟨n', hw⟩
          · obtain ⟨x, hx⟩ := hacked rfl hq.symm (decide_eq_true rfl) hm
            right
            exact ⟨x, by rwa [Offered, hlog]⟩
        · exact .inr ⟨x, h.log_subset hx⟩
      · exact absurd (hi.hello_le .offerer g g hh).1 (Nat.not_le_of_lt hlt)
      · exact absurd (hi.hello_le .offerer u32Max u32Max hh).2 (Nat.lt_irrefl _)
    · exact .inl ⟨n, hn⟩
  offer g x hm hx := by
    rcases h.logged_or_waits hx with hx | hw
    · rcases h.meets_back hm with hm | ⟨-, hlt | rfl⟩
      · have hfloor : Role.responder = q → v.floor q ≤ g := fun hq =>
          hq ▸ Nat.le_of_eq (floor_of_derived hm.recv)
        rcases h.waits_or_acked (hd.offer g x hm hx) hfloor with hw | ⟨hq, -, hacked, -⟩
        · exact hw
        · exact absurd (hq ▸ hm.recv) (hacked rfl)
      · exact absurd (hi.le_eff_of_offered hx) (Nat.not_le_of_lt hlt)
      · exact absurd (hi.lt_max_of_offered hx) (Nat.lt_irrefl _)
    · exact hw

theorem Due.lose : Due v.lose where
  hello g hm := by
    obtain ⟨-, -, hlive⟩ := hm
    cases hlive
  offer g x hm := by
    obtain ⟨-, -, hlive⟩ := hm
    cases hlive

/-- The offerer and the relay bring about no meeting. -/
theorem Env.meets_responder (h : Env .meeting .responder v v') (hm : v'.Meets g) : v.Meets g := by
  cases h with
  | lose =>
    obtain ⟨-, -, hlive⟩ := hm
    cases hlive
  | step h =>
    rcases h.meets_back hm with hm | ⟨hq, -⟩
    · exact hm
    · cases hq

/-- The responder's hello stays left, whatever the offerer and the relay do. -/
theorem Env.met (h : Env .meeting .responder v v') (hmet : Met v) : Met v' :=
  fun g hm => h.helloed (hmet g (h.meets_responder hm))

/-- Once the responder has left its hello, the parties do not come to meet again. -/
theorem Env.meets_back (h : Env .meeting .offerer v v') (hi : Inv v) (hh : v.Helloed .offerer g g)
    (hm : v'.Meets g) : v.Meets g := by
  obtain ⟨hle, hlt⟩ := hi.hello_le .offerer g g hh
  cases h with
  | lose =>
    obtain ⟨-, -, hlive⟩ := hm
    cases hlive
  | step h =>
    rcases h.meets_back hm with hm | ⟨-, hlt' | rfl⟩
    · exact hm
    · exact absurd hle (Nat.not_le_of_lt hlt')
    · exact absurd hlt (Nat.lt_irrefl _)

/-- **Rotation.** Two parties at rest on existing inboxes, in which nothing waits, are on generated
ones. -/
theorem Due.rotated {rot : Role → Awaiting} (hd : Due v) (hmet : Met v) (hi : Inv v)
    (hrest : ∀ p, Rest p (rot p) v) (hlive : ∀ p b, v.recv p = some b → v.Live b)
    (hquiet : ∀ p b, v.recv p = some b → ∀ f, ¬ v.Waits b f) (p : Role) : ∃ n, v.OnGenerated p n := by
  rcases Rest.together hi hrest hlive hquiet with ⟨k, hder⟩ | hgen
  · have hoff := (hder .offerer).recv
    have hresp := (hder .responder).recv
    have hm : v.Meets k := ⟨Nat.le_of_eq (floor_of_derived hoff), hresp, hlive _ _ hresp⟩
    rcases hd.hello k hm (hmet k hm) with ⟨n, hw⟩ | ⟨x, hx⟩
    · exact absurd hw (hquiet _ _ hoff _)
    · exact absurd (hd.offer k x hm hx) (hquiet _ _ hresp _)
  · obtain ⟨n, hn, -⟩ := hgen p
    exact ⟨n, hn⟩

end Titlan.World.View

namespace Titlan.World.Regime

open View

variable [Sealing] {κ : Regime} {v v' : View} {p : Role}

/-- What a regime adds to the protocol's invariant. -/
def Invariant : Regime → View → Prop
  | .losing, _ => True
  | .meeting, v => Due v
  | .keeping g, v => View.Kept g v

theorem Invariant.step (h : κ.Invariant v) (hi : Inv v) (hs : Step κ p v v') : κ.Invariant v' := by
  cases κ with
  | losing => trivial
  | meeting => exact Due.step h hi hs
  | keeping g => exact View.Kept.step h hi hs

theorem Invariant.lose (hκ : κ.Lossy) : κ.Invariant v.lose := by
  cases κ with
  | losing => trivial
  | meeting => exact Due.lose
  | keeping g => exact hκ.elim

end Titlan.World.Regime
