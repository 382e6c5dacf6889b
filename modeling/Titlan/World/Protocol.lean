import Mathlib.Data.List.Perm.Subperm
import Titlan.World.Flow

/-! # The recovery and rotation protocol

What recovery and rotation are about, without chats, sessions and sockets: which mailboxes exist and
which control frames wait in them, every control frame ever accepted, and each party's routing row and
generations. A party that lost its inbox moves to its derived inbox of a later generation and leaves
hellos in the derived inboxes the other may come to; two parties that meet on one generation rotate to
inboxes the relay generates, by an offer of the offerer and an answer of the responder.

`Step κ p` is what party `p` does in one operation, with the guards its program has established by then;
`Inv` is what every such step, and the loss of all mailboxes, preserves. -/

namespace Titlan.World

open Foundation

variable [Sealing]

/-- Which runs are considered. -/
inductive Regime
  /-- The relay may lose every mailbox at any time. -/
  | losing
  /-- The same, where a responder that the offerer can reach is reached by its hello. -/
  | meeting
  /-- Nothing is lost, and both parties stay at one generation. -/
  | keeping (g : ℕ)
deriving DecidableEq

/-- Mailboxes may be lost. -/
def Regime.Lossy : Regime → Prop
  | .keeping _ => False
  | _ => True

/-- The state of the protocol. -/
@[ext] structure View where
  /-- The control messages waiting in each existing mailbox. -/
  boxes : MailboxId → Option (List Queued)
  nextBox : ℕ
  /-- The control frames ever accepted, with the mailbox. -/
  log : List (MailboxId × Frame)
  /-- Where each party receives. -/
  recv : Role → Option MailboxId
  /-- Where each party deposits. -/
  send : Role → Option MailboxId
  own : Role → ℕ
  /-- The last generation of the other party each one knows of. -/
  known : Role → ℕ

namespace View

variable {κ : Regime} {v v' : View} {p q : Role} {b c x y : MailboxId} {g k r n : ℕ}

/-- The mailbox exists. -/
def Live (v : View) (b : MailboxId) : Prop := (v.boxes b).isSome

/-- The party receives on an inbox the relay generated. -/
def OnGenerated (v : View) (p : Role) (n : ℕ) : Prop := v.recv p = some (.generated n)

/-- The generation a party is at: that of its derived inbox, else the stored one. -/
def eff (v : View) (p : Role) : ℕ :=
  match v.recv p with
  | some (.derived _ k) => k
  | _ => v.own p

/-- The first generation whose derived inbox the party may still read. -/
def floor (v : View) (p : Role) : ℕ :=
  match v.recv p with
  | some (.derived _ k) => k
  | _ => v.own p + 1

theorem eff_of_derived (h : v.recv p = some (.derived q k)) : v.eff p = k := by rw [eff, h]

theorem floor_of_derived (h : v.recv p = some (.derived q k)) : v.floor p = k := by rw [floor, h]

theorem eff_of_generated (h : v.OnGenerated p n) : v.eff p = v.own p := by
  rw [OnGenerated] at h
  rw [eff, h]

theorem floor_of_generated (h : v.OnGenerated p n) : v.floor p = v.own p + 1 := by
  rw [OnGenerated] at h
  rw [floor, h]

theorem eff_le_floor (v : View) (p : Role) : v.eff p ≤ v.floor p := by
  rw [eff, floor]
  split
  · exact Nat.le_refl _
  · exact Nat.le_succ _

/-- The other party has left a hello of generation `r` in the derived inbox `k` of `p`. -/
def Helloed (v : View) (p : Role) (k r : ℕ) : Prop := ∃ n, (.derived p k, hello r n) ∈ v.log

/-- The offerer has offered `x` at generation `g`. -/
def Offered (v : View) (g : ℕ) (x : MailboxId) : Prop := (.derived .responder g, handoff x) ∈ v.log

/-- The responder has answered with `y` at generation `g`. -/
def Answered (v : View) (g : ℕ) (y : MailboxId) : Prop := (.derived .offerer g, handoff y) ∈ v.log

/-- How often the responder has left its hello of a generation in the offerer's inbox of it. -/
def helloLog (v : View) (g : ℕ) : ℕ :=
  v.log.countP fun e => decide (e.1 = .derived .offerer g) && isHello g e.2

/-- How often the offerer has offered at a generation. -/
def offerLog (v : View) (g : ℕ) : ℕ :=
  v.log.countP fun e => decide (e.1 = .derived .responder g) && isHandoff e.2

theorem helloLog_pos : 0 < v.helloLog g ↔ v.Helloed .offerer g g := by
  rw [helloLog, List.countP_pos_iff]
  constructor
  · rintro ⟨⟨b, f⟩, he, hp⟩
    simp only [Bool.and_eq_true, decide_eq_true_eq] at hp
    obtain ⟨rfl, hf⟩ := hp
    cases f with
    | recoveryHello r n =>
      obtain rfl : r = g := of_decide_eq_true hf
      exact ⟨n, he⟩
    | _ => cases hf
  · rintro ⟨n, hn⟩
    exact ⟨_, hn, by simp [isHello]⟩

theorem offerLog_pos (h : v.Offered g x) : 0 < v.offerLog g := by
  rw [offerLog, List.countP_pos_iff]
  exact ⟨_, h, by simp [isHandoff]⟩

theorem offerLog_eq_zero (h : ∀ x, ¬ v.Offered g x) : v.offerLog g = 0 := by
  rw [offerLog, List.countP_eq_zero]
  rintro ⟨b, f⟩ he hp
  simp only [Bool.and_eq_true, decide_eq_true_eq] at hp
  obtain ⟨rfl, hf⟩ := hp
  cases f with
  | mailboxUpdateV3 _ x => exact h x he
  | _ => cases hf

/-! ## The invariant -/

/-- The protocol's invariant. -/
structure Inv (v : View) : Prop where
  /-- A party is on a derived inbox of its own or on a generated one. -/
  shape : ∀ p, (∃ k, v.recv p = some (.derived p k)) ∨
    ∃ n, v.OnGenerated p n ∧ n < v.nextBox ∧ v.own p < u32Max
  bounded : ∀ p, v.eff p ≤ u32Max
  /-- A party knows of no generation the other has not reached. -/
  known_le : ∀ p, v.known p ≤ v.eff p.peer
  /-- A hello reports a generation its sender has reached. -/
  hello_le : ∀ p k r, v.Helloed p k r → r ≤ v.eff p.peer ∧ k < u32Max
  /-- The hello that starts a rotation is left once. -/
  hello_once : ∀ g, v.helloLog g ≤ 1
  /-- Each offer was started by such a hello. -/
  offer_le : ∀ g, v.offerLog g ≤ v.helloLog g
  /-- An offer names a generated inbox, and the offerer had reached its generation. -/
  offered : ∀ g x, v.Offered g x → g ≤ v.eff .offerer ∧ ∃ n < v.nextBox, x = .generated n
  /-- An answer names a generated inbox, lost once the responder has gone on. -/
  answered : ∀ g y, v.Answered g y → g ≤ v.eff .responder ∧ (∃ n < v.nextBox, y = .generated n) ∧
    (g < v.eff .responder → ¬ v.Live y)
  /-- The inboxes of an answered offer exist together, and until the responder has gone on it receives
  on the one and deposits into the other. -/
  matched : ∀ g y, v.Answered g y → ∃ x, v.Offered g x ∧ (v.Live x ↔ v.Live y) ∧
    (v.eff .responder = g → v.recv .responder = some y ∧ v.send .responder = some x)
  /-- The other party has reached the generation of a generated inbox. -/
  reached : ∀ p n, v.OnGenerated p n → v.own p ≤ v.eff p.peer
  /-- Once the other party has gone on, a generated inbox is lost. -/
  behind : ∀ p n, v.OnGenerated p n → v.own p < v.eff p.peer → ¬ v.Live (.generated n)
  /-- Next to an existing generated inbox, the other party's inbox exists. -/
  beside : ∀ p n, v.OnGenerated p n → v.Live (.generated n) → v.eff p.peer = v.own p →
    ∃ b, v.recv p.peer = some b ∧ v.Live b
  /-- The responder moves to its generated inbox first. -/
  first : ∀ n, v.OnGenerated .offerer n → v.eff .responder = v.own .offerer →
    ∃ n', v.OnGenerated .responder n'
  /-- While an offer stands, it exists as long as the inbox the offerer made it from. -/
  standing : ∀ g x, v.Offered g x → v.eff .responder = g →
    v.recv .responder = some (.derived .responder g) → v.Live (.derived .offerer g) →
    v.Live x ∧ v.recv .offerer = some (.derived .offerer g)

section Consequences

/-- An offer was started by a hello, so the responder had reached its generation too. -/
theorem Inv.helloed_of_offered (hi : Inv v) (h : v.Offered g x) : v.Helloed .offerer g g :=
  helloLog_pos.mp (Nat.lt_of_lt_of_le (offerLog_pos h) (hi.offer_le g))

theorem Inv.le_eff_of_offered (hi : Inv v) (h : v.Offered g x) : g ≤ v.eff .responder :=
  (hi.hello_le .offerer g g (hi.helloed_of_offered h)).1

theorem Inv.lt_max_of_offered (hi : Inv v) (h : v.Offered g x) : g < u32Max :=
  (hi.hello_le .offerer g g (hi.helloed_of_offered h)).2

theorem Inv.lt_nextBox (hi : Inv v) (h : v.OnGenerated p n) : n < v.nextBox := by
  rcases hi.shape p with ⟨k, hk⟩ | ⟨m, hm, hlt, -⟩
  · rw [OnGenerated, hk] at h
    cases h
  · rw [OnGenerated, hm] at h
    cases h
    exact hlt

/-- A generation has at most one offer. -/
theorem Inv.offered_unique (hi : Inv v) (h : v.Offered g x) (h' : v.Offered g y) : x = y := by
  by_contra hne
  have hle : v.offerLog g ≤ 1 := Nat.le_trans (hi.offer_le g) (hi.hello_once g)
  have hsub : [(MailboxId.derived .responder g, handoff x), (.derived .responder g, handoff y)].Subperm
      v.log := by
    refine List.subperm_of_subset ?_ ?_
    · simpa using hne
    · intro e he
      rcases List.mem_cons.mp he with rfl | he
      · exact h
      · rw [List.mem_singleton.mp he]
        exact h'
  have hcount := hsub.countP_le fun e => decide (e.1 = .derived .responder g) && isHandoff e.2
  have htwo : 2 ≤ v.offerLog g := by
    refine Nat.le_trans (Nat.le_of_eq ?_) hcount
    simp [isHandoff]
  omega

end Consequences

/-! ## Steps -/

/-- Create, replace or remove a mailbox. -/
def setBox (v : View) (b : MailboxId) (l : Option (List Queued)) : View :=
  { v with boxes := Function.update v.boxes b l }

/-- Accept a control message into a mailbox whose queue is `l`. -/
def deposit (v : View) (b : MailboxId) (l : List Queued) (m : Queued) : View :=
  { v.setBox b (some (l ++ [m])) with log := v.log ++ [(b, m.frame)] }

/-- Generate an inbox. -/
def mint (v : View) : View :=
  { v.setBox (.generated v.nextBox) (some []) with nextBox := v.nextBox + 1 }

/-- Change where a party receives. -/
def setRecv (v : View) (p : Role) (b : MailboxId) : View :=
  { v with recv := Function.update v.recv p (some b) }

/-- Change where a party deposits. -/
def setSend (v : View) (p : Role) (b : MailboxId) : View :=
  { v with send := Function.update v.send p (some b) }

/-- Change a party's generations. -/
def setGens (v : View) (p : Role) (own known : ℕ) : View :=
  { v with own := Function.update v.own p own, known := Function.update v.known p known }

/-- The relay loses every mailbox. -/
def lose (v : View) : View := { v with boxes := fun _ => none }

/-- The responder is on its existing derived inbox `g`, and the offerer may still read its own inbox
`g`. -/
structure Meets (v : View) (g : ℕ) : Prop where
  floor : v.floor .offerer ≤ g
  recv : v.recv .responder = some (.derived .responder g)
  live : v.Live (.derived .responder g)

/-- What party `p` may do in one operation. -/
inductive Step (κ : Regime) (p : Role) (v : View) : View → Prop
  /-- Create the derived inbox to move to; at the last generation, the one it is on. -/
  | putOwn (g : ℕ) (hg : v.eff p < g ∨ g = u32Max ∧ v.recv p = some (.derived p g))
    (hnone : ¬ v.Live (.derived p g)) :
    Step κ p v (v.setBox (.derived p g) (some []))
  /-- Create an inbox of the other party's, to leave a hello there: not the one that party is on, if
  lost at a later generation. -/
  | putPeer (g k : ℕ) (hrecv : v.recv p = some (.derived p g))
    (hlate : v.recv p.peer = some (.derived p.peer k) → k ≤ g)
    (honce : k = g → ¬ v.Helloed p.peer g g) (hnone : ¬ v.Live (.derived p.peer k))
    (hrevive : κ = .meeting → p = .offerer → v.recv p.peer = some (.derived p.peer k) → k < g) :
    Step κ p v (v.setBox (.derived p.peer k) (some []))
  | hello (g k n : ℕ) (l : List Queued) (m : Queued) (hrecv : v.recv p = some (.derived p g))
    (hk : k < u32Max) (honce : k = g → ¬ v.Helloed p.peer g g)
    (hl : v.boxes (.derived p.peer k) = some l) (hm : m.frame = World.hello g n) :
    Step κ p v (v.deposit (.derived p.peer k) l m)
  | mint : Step κ p v v.mint
  /-- The offerer offers a generated inbox. -/
  | offer (g x : ℕ) (l : List Queued) (m : Queued) (hp : p = .offerer)
    (hrecv : v.recv .offerer = some (.derived .offerer g)) (hx : x < v.nextBox)
    (honce : v.offerLog g < v.helloLog g)
    (hstanding : v.eff .responder = g → v.Live (.derived .offerer g) → v.Live (.generated x))
    (hl : v.boxes (.derived .responder g) = some l) (hm : m.frame = handoff (.generated x)) :
    Step κ p v (v.deposit (.derived .responder g) l m)
  /-- The responder answers with the generated inbox it is on. -/
  | answer (g x y : ℕ) (l : List Queued) (m : Queued) (hp : p = .responder)
    (hrecv : v.OnGenerated .responder y) (hown : v.own .responder = g) (hy : y < v.nextBox)
    (hsend : v.send .responder = some (.generated x)) (hoffer : v.Offered g (.generated x))
    (hlive : v.Live (.generated x) ↔ v.Live (.generated y))
    (hl : v.boxes (.derived .offerer g) = some l) (hm : m.frame = handoff (.generated y)) :
    Step κ p v (v.deposit (.derived .offerer g) l m)
  /-- Move to a derived inbox of a later generation: not past an existing generated inbox of the other
  party's, not off an existing generated inbox, not away from a standing offer. -/
  | derive (g : ℕ) (hg : v.eff p < g) (hmax : g ≤ u32Max)
    (hpast : ∀ n, v.OnGenerated p.peer n → v.Live (.generated n) → g ≤ v.own p.peer)
    (hoff : ∀ n, v.OnGenerated p n → ¬ v.Live (.generated n))
    (haway : ∀ k x, p = .offerer → v.recv .offerer = some (.derived .offerer k) → v.Offered k x →
      v.eff .responder = k → ¬ v.Live (.derived .offerer k)) (hlossy : κ.Lossy) :
    Step κ p v (v.setRecv p (.derived p g))
  /-- The responder moves to the inbox it generated, having adopted the offered one. -/
  | settle (g x y : ℕ) (hp : p = .responder)
    (hrecv : v.recv .responder = some (.derived .responder g)) (hown : v.own .responder = g)
    (hoffer : v.Offered g (.generated x)) (hy : y < v.nextBox)
    (hlive : v.Live (.generated y) →
      v.recv .offerer = some (.derived .offerer g) ∧ v.Live (.derived .offerer g))
    (hkept : ¬ κ.Lossy → v.Live (.generated y)) :
    Step κ p v (v.setRecv .responder (.generated y))
  | finish (g x : ℕ) (y : MailboxId) (hp : p = .offerer)
    (hrecv : v.recv .offerer = some (.derived .offerer g)) (hown : v.own .offerer = g)
    (hoffer : v.Offered g (.generated x)) (hanswer : v.Answered g y) :
    Step κ p v (v.setRecv .offerer (.generated x))
  /-- Change the routing row's other half while on a derived inbox. -/
  | setSend (k : ℕ) (b : MailboxId) (hrecv : v.recv p = some (.derived p k)) :
    Step κ p v (v.setSend p b)
  | setGens (k own known : ℕ) (hrecv : v.recv p = some (.derived p k)) (hknown : known ≤ v.eff p.peer) :
    Step κ p v (v.setGens p own known)
  /-- Delete a derived inbox that was left. -/
  | retire (k : ℕ) (hk : k < v.floor p) : Step κ p v (v.setBox (.derived p k) none)
  /-- Ack a control message: the generation a hello reports has been reached, a handoff has moved the
  party. -/
  | ack (k i : ℕ) (l : List Queued) (hl : v.boxes (.derived p k) = some l)
    (hdone : ∀ m ∈ l, m.id = i → (∀ r n, m.frame = World.hello r n → r ≤ v.eff p) ∧
      (isHandoff m.frame → v.recv p ≠ some (.derived p k)))
    (hmet : κ = .meeting → p = .offerer → ∀ m ∈ l, m.id = i → isHello k m.frame → v.Meets k →
      ∃ x, v.Offered k x) :
    Step κ p v (v.setBox (.derived p k) (some (l.filter fun m => m.id ≠ i)))

/-! ## Mailboxes come and go -/

@[simp] theorem live_setBox_self {l : Option (List Queued)} :
    (v.setBox b l).Live b ↔ l.isSome := by
  simp [Live, setBox]

theorem live_setBox_of_ne {l : Option (List Queued)} (h : c ≠ b) :
    (v.setBox b l).Live c ↔ v.Live c := by
  simp [Live, setBox, Function.update_of_ne h]

/-- Derived inboxes are no generated ones. -/
theorem live_generated_setBox (v : View) (p : Role) (k n : ℕ) (l : Option (List Queued)) :
    (v.setBox (.derived p k) l).Live (.generated n) ↔ v.Live (.generated n) :=
  live_setBox_of_ne (by simp)

theorem live_derived_mint : v.mint.Live (.derived p k) ↔ v.Live (.derived p k) := by
  simp [Live, View.mint, setBox]

theorem live_generated_mint (h : n < v.nextBox) :
    v.mint.Live (.generated n) ↔ v.Live (.generated n) := by
  simp [Live, View.mint, setBox, Nat.ne_of_lt h]

/-- The invariant survives a change of mailboxes that keeps the generated ones, keeps the inboxes the
parties are on, and revives none a standing offer was made from. -/
theorem Inv.of_boxes (hi : Inv v) {boxes : MailboxId → Option (List Queued)} {n' : ℕ}
    (hn : v.nextBox ≤ n')
    (hgen : ∀ n < v.nextBox, (boxes (.generated n)).isSome ↔ v.Live (.generated n))
    (hrecv : ∀ p b, v.recv p = some b → v.Live b → (boxes b).isSome)
    (hstanding : ∀ g x, v.Offered g x → v.eff .responder = g →
      v.recv .responder = some (.derived .responder g) → (boxes (.derived .offerer g)).isSome →
      v.Live (.derived .offerer g)) :
    Inv { v with boxes := boxes, nextBox := n' } where
  __ := hi
  shape p := by
    rcases hi.shape p with h | ⟨n, hgen, hlt, hown⟩
    · exact .inl h
    · exact .inr ⟨n, hgen, Nat.lt_of_lt_of_le hlt hn, hown⟩
  offered g x h := by
    obtain ⟨hle, n, hlt, rfl⟩ := hi.offered g x h
    exact ⟨hle, n, Nat.lt_of_lt_of_le hlt hn, rfl⟩
  answered g y h := by
    obtain ⟨hle, ⟨n, hlt, rfl⟩, hlost⟩ := hi.answered g y h
    exact ⟨hle, ⟨n, Nat.lt_of_lt_of_le hlt hn, rfl⟩, fun hg hl => hlost hg ((hgen n hlt).mp hl)⟩
  matched g y h := by
    obtain ⟨-, ⟨n, hlt, rfl⟩, -⟩ := hi.answered g y h
    obtain ⟨x, hx, hlive, hat⟩ := hi.matched g _ h
    obtain ⟨-, m, hm, rfl⟩ := hi.offered g x hx
    exact ⟨_, hx, (hgen m hm).trans (hlive.trans (hgen n hlt).symm), hat⟩
  behind p n h hlt hl := by
    have hn' := hi.lt_nextBox h
    exact hi.behind p n h hlt ((hgen n hn').mp hl)
  beside p n h hl heq := by
    have hn' := hi.lt_nextBox h
    obtain ⟨b, hb, hlb⟩ := hi.beside p n h ((hgen n hn').mp hl) heq
    exact ⟨b, hb, hrecv _ b hb hlb⟩
  standing g x h heff hr hl := by
    obtain ⟨hlx, hro⟩ := hi.standing g x h heff hr (hstanding g x h heff hr hl)
    obtain ⟨-, m, hm, rfl⟩ := hi.offered g x h
    exact ⟨(hgen m hm).mpr hlx, hro⟩

/-- Creating a derived inbox revives no standing offer that was not made from it. -/
theorem Inv.put (hi : Inv v) (hno : q = .offerer → ∀ x, v.Offered k x → v.eff .responder ≠ k) :
    Inv (v.setBox (.derived q k) (some [])) := by
  refine hi.of_boxes (Nat.le_refl _) (fun n _ => v.live_generated_setBox q k n (some [])) ?_ ?_
  · intro _ c _ hc
    by_cases h : c = .derived q k
    · rw [h]
      exact live_setBox_self.mpr rfl
    · exact (live_setBox_of_ne h).mpr hc
  · intro g' x hx heff _ hl
    by_cases h : MailboxId.derived .offerer g' = .derived q k
    · obtain ⟨rfl, rfl⟩ := MailboxId.derived.inj h
      exact absurd heff (hno rfl x hx)
    · exact (live_setBox_of_ne h).mp hl

theorem Inv.putOwn (hi : Inv v) (hg : v.eff p < g ∨ g = u32Max ∧ v.recv p = some (.derived p g)) :
    Inv (v.setBox (.derived p g) (some [])) := by
  refine hi.put ?_
  rintro rfl x hx -
  -- the offerer is past the offer, or at the last generation, which has none
  rcases hg with hg | ⟨rfl, -⟩
  · exact absurd (hi.offered g x hx).1 (Nat.not_le_of_lt hg)
  · exact absurd (hi.lt_max_of_offered hx) (Nat.lt_irrefl _)

theorem Inv.putPeer (hi : Inv v) (hrecv : v.recv p = some (.derived p g))
    (honce : k = g → ¬ v.Helloed p.peer g g) : Inv (v.setBox (.derived p.peer k) (some [])) := by
  refine hi.put fun hp x hx heff => ?_
  cases p with
  | offerer => cases hp
  | responder =>
    -- an offer at the prober's generation was started by a hello it has already left
    obtain rfl : k = g := heff.symm.trans (eff_of_derived hrecv)
    exact honce rfl (hi.helloed_of_offered hx)

theorem Inv.mint (hi : Inv v) : Inv v.mint := by
  refine hi.of_boxes (Nat.le_succ _) (fun n hn => live_generated_mint hn) ?_
    fun g x _ _ _ hl => live_derived_mint.mp hl
  intro q b hb hl
  rcases hi.shape q with ⟨k, hk⟩ | ⟨n, hn, hlt, -⟩
  · rw [hb, Option.some.injEq] at hk
    subst hk
    exact live_derived_mint.mpr hl
  · rw [OnGenerated, hb, Option.some.injEq] at hn
    subst hn
    exact (live_generated_mint hlt).mpr hl

theorem Inv.retire (hi : Inv v) (hk : k < v.floor p) : Inv (v.setBox (.derived p k) none) := by
  refine hi.of_boxes (Nat.le_refl _) (fun n _ => v.live_generated_setBox p k n none) ?_ ?_
  · intro q b hb hl
    by_cases h : b = .derived p k
    · subst h
      -- a party's inbox is not below its floor
      rcases hi.shape q with ⟨j, hj⟩ | ⟨n, hn, -⟩
      · rw [hb, Option.some.injEq] at hj
        obtain ⟨rfl, rfl⟩ := MailboxId.derived.inj hj
        rw [floor_of_derived hb] at hk
        exact absurd hk (Nat.lt_irrefl _)
      · rw [OnGenerated, hb] at hn
        cases hn
    · exact (live_setBox_of_ne h).mpr hl
  · intro g x _ _ _ hl
    by_cases h : MailboxId.derived .offerer g = .derived p k
    · rw [h] at hl
      simp at hl
    · exact (live_setBox_of_ne h).mp hl

/-- Acks remove messages, not mailboxes. -/
theorem live_setQueue {l : List Queued} (hl : v.boxes b = some l) (l' : List Queued) :
    (v.setBox b (some l')).Live c ↔ v.Live c := by
  by_cases h : c = b
  · subst h
    rw [live_setBox_self, Live, hl]
    simp
  · exact live_setBox_of_ne h

theorem Inv.setQueue (hi : Inv v) {l l' : List Queued} (hl : v.boxes b = some l) :
    Inv (v.setBox b (some l')) :=
  hi.of_boxes (Nat.le_refl _) (fun _ _ => live_setQueue hl l') (fun _ _ _ => (live_setQueue hl l').mpr)
    fun _ _ _ _ _ => (live_setQueue hl l').mp

/-- Losing every mailbox makes every promise about existing ones void. -/
theorem Inv.lose (hi : Inv v) : Inv v.lose where
  __ := hi
  answered g y h := by
    obtain ⟨hle, hn, -⟩ := hi.answered g y h
    exact ⟨hle, hn, fun _ hl => by cases hl⟩
  matched g y h := by
    obtain ⟨x, hx, -, hat⟩ := hi.matched g y h
    exact ⟨x, hx, Iff.rfl, hat⟩
  behind p n _ _ hl := by cases hl
  beside p n _ hl := by cases hl
  standing g x _ _ _ hl := by cases hl

/-! ## Frames are accepted -/

section Deposit

variable {l : List Queued} {m : Queued}

theorem live_deposit (hl : v.boxes b = some l) (c : MailboxId) :
    (v.deposit b l m).Live c ↔ v.Live c := by
  by_cases h : c = b
  · subst h
    simp [Live, deposit, setBox, hl]
  · simp [Live, deposit, setBox, Function.update_of_ne h]

theorem mem_log_deposit {e : MailboxId × Frame} :
    e ∈ (v.deposit b l m).log ↔ e ∈ v.log ∨ e = (b, m.frame) := by
  simp [deposit]

theorem helloed_deposit : (v.deposit b l m).Helloed p k r ↔
    v.Helloed p k r ∨ b = .derived p k ∧ ∃ n, m.frame = hello r n := by
  simp only [Helloed, mem_log_deposit, Prod.mk.injEq, exists_or, exists_and_left]
  simp only [eq_comm]

theorem offered_deposit : (v.deposit b l m).Offered g x ↔
    v.Offered g x ∨ b = .derived .responder g ∧ m.frame = handoff x := by
  simp only [Offered, mem_log_deposit, Prod.mk.injEq, eq_comm]

theorem answered_deposit : (v.deposit b l m).Answered g y ↔
    v.Answered g y ∨ b = .derived .offerer g ∧ m.frame = handoff y := by
  simp only [Answered, mem_log_deposit, Prod.mk.injEq, eq_comm]

theorem helloLog_deposit : (v.deposit b l m).helloLog g =
    v.helloLog g + if b = .derived .offerer g ∧ isHello g m.frame then 1 else 0 := by
  simp [helloLog, deposit, List.countP_append, List.countP_singleton]

theorem offerLog_deposit : (v.deposit b l m).offerLog g =
    v.offerLog g + if b = .derived .responder g ∧ isHandoff m.frame then 1 else 0 := by
  simp [offerLog, deposit, List.countP_append, List.countP_singleton]

/-- The invariant survives a deposit that meets what it asks of the new entry. -/
theorem Inv.of_deposit (hi : Inv v) (hl : v.boxes b = some l)
    (hhello : ∀ q k r n, b = .derived q k → m.frame = hello r n → r ≤ v.eff q.peer ∧ k < u32Max)
    (honce : ∀ g, b = .derived .offerer g → isHello g m.frame → v.helloLog g = 0)
    (hstart : ∀ g, b = .derived .responder g → isHandoff m.frame → v.offerLog g < v.helloLog g)
    (hoffer : ∀ g x, b = .derived .responder g → m.frame = handoff x → g ≤ v.eff .offerer ∧
      (∃ n < v.nextBox, x = .generated n) ∧ (v.eff .responder = g → v.Live (.derived .offerer g) →
        v.Live x ∧ v.recv .offerer = some (.derived .offerer g)))
    (hanswer : ∀ g y, b = .derived .offerer g → m.frame = handoff y → g ≤ v.eff .responder ∧
      (∃ n < v.nextBox, y = .generated n) ∧ (g < v.eff .responder → ¬ v.Live y) ∧
      ∃ x, v.Offered g x ∧ (v.Live x ↔ v.Live y) ∧
        (v.eff .responder = g → v.recv .responder = some y ∧ v.send .responder = some x)) :
    Inv (v.deposit b l m) where
  __ := hi
  hello_le q k r h := by
    rcases helloed_deposit.mp h with h | ⟨hb, n, hm⟩
    · exact hi.hello_le q k r h
    · exact hhello q k r n hb hm
  hello_once g := by
    rw [helloLog_deposit]
    split
    · rename_i h
      rw [honce g h.1 h.2]
    · exact hi.hello_once g
  offer_le g := by
    rw [helloLog_deposit, offerLog_deposit]
    have hle := hi.offer_le g
    split
    · rename_i h
      have hlt := hstart g h.1 h.2
      omega
    · omega
  offered g x h := by
    rcases offered_deposit.mp h with h | ⟨hb, hm⟩
    · exact hi.offered g x h
    · obtain ⟨hle, hn, -⟩ := hoffer g x hb hm
      exact ⟨hle, hn⟩
  answered g y h := by
    simp only [live_deposit hl]
    rcases answered_deposit.mp h with h | ⟨hb, hm⟩
    · exact hi.answered g y h
    · obtain ⟨hle, hn, hlost, -⟩ := hanswer g y hb hm
      exact ⟨hle, hn, hlost⟩
  matched g y h := by
    simp only [live_deposit hl, offered_deposit]
    rcases answered_deposit.mp h with h | ⟨hb, hm⟩
    · obtain ⟨x, hx, hrest⟩ := hi.matched g y h
      exact ⟨x, .inl hx, hrest⟩
    · obtain ⟨-, -, -, x, hx, hrest⟩ := hanswer g y hb hm
      exact ⟨x, .inl hx, hrest⟩
  behind p n h hlt := by
    rw [live_deposit hl]
    exact hi.behind p n h hlt
  beside p n h hlive heq := by
    rw [live_deposit hl] at hlive
    obtain ⟨c, hc, hlc⟩ := hi.beside p n h hlive heq
    exact ⟨c, hc, (live_deposit hl c).mpr hlc⟩
  standing g x h heff hr hlive := by
    rw [live_deposit hl] at hlive
    rw [live_deposit hl]
    rcases offered_deposit.mp h with h | ⟨hb, hm⟩
    · exact hi.standing g x h heff hr hlive
    · exact (hoffer g x hb hm).2.2 heff hlive

theorem Inv.depositHello (hi : Inv v) (hrecv : v.recv p = some (.derived p g)) (hk : k < u32Max)
    (honce : k = g → ¬ v.Helloed p.peer g g) (hl : v.boxes (.derived p.peer k) = some l)
    (hm : m.frame = hello g n) : Inv (v.deposit (.derived p.peer k) l m) := by
  refine hi.of_deposit hl ?_ ?_ ?_ ?_ ?_
  · intro q j r n' hb hf
    obtain ⟨rfl, rfl⟩ := MailboxId.derived.inj hb
    rw [hm] at hf
    cases hf
    rw [Role.peer_peer, eff_of_derived hrecv]
    exact ⟨Nat.le_refl _, hk⟩
  · intro j hb hf
    obtain ⟨hp, rfl⟩ := MailboxId.derived.inj hb
    rw [hm] at hf
    obtain rfl : g = k := of_decide_eq_true hf
    have hno := honce rfl
    rw [hp, ← helloLog_pos] at hno
    omega
  · intro j _ hf
    rw [hm] at hf
    cases hf
  · intro j x _ hf
    rw [hm] at hf
    cases hf
  · intro j y _ hf
    rw [hm] at hf
    cases hf

theorem Inv.depositOffer (hi : Inv v) {x : ℕ} (hrecv : v.recv .offerer = some (.derived .offerer g))
    (hx : x < v.nextBox) (honce : v.offerLog g < v.helloLog g)
    (hstanding : v.eff .responder = g → v.Live (.derived .offerer g) → v.Live (.generated x))
    (hl : v.boxes (.derived .responder g) = some l) (hm : m.frame = handoff (.generated x)) :
    Inv (v.deposit (.derived .responder g) l m) := by
  refine hi.of_deposit hl ?_ ?_ ?_ ?_ ?_
  · intro q j r n _ hf
    rw [hm] at hf
    cases hf
  · intro j hb
    cases hb
  · intro j hb _
    obtain ⟨-, rfl⟩ := MailboxId.derived.inj hb
    exact honce
  · intro j x' hb hf
    obtain ⟨-, rfl⟩ := MailboxId.derived.inj hb
    rw [hm] at hf
    cases hf
    exact ⟨Nat.le_of_eq (eff_of_derived hrecv).symm, ⟨x, hx, rfl⟩,
      fun heff hlive => ⟨hstanding heff hlive, hrecv⟩⟩
  · intro j y hb
    cases hb

theorem Inv.depositAnswer (hi : Inv v) {x y : ℕ} (hrecv : v.OnGenerated .responder y)
    (hown : v.own .responder = g) (hy : y < v.nextBox)
    (hsend : v.send .responder = some (.generated x)) (hoffer : v.Offered g (.generated x))
    (hlive : v.Live (.generated x) ↔ v.Live (.generated y))
    (hl : v.boxes (.derived .offerer g) = some l) (hm : m.frame = handoff (.generated y)) :
    Inv (v.deposit (.derived .offerer g) l m) := by
  have heff : v.eff .responder = g := (eff_of_generated hrecv).trans hown
  refine hi.of_deposit hl ?_ ?_ ?_ ?_ ?_
  · intro q j r n _ hf
    rw [hm] at hf
    cases hf
  · intro j _ hf
    rw [hm] at hf
    cases hf
  · intro j hb
    cases hb
  · intro j x' hb
    cases hb
  · intro j y' hb hf
    obtain ⟨-, rfl⟩ := MailboxId.derived.inj hb
    rw [hm] at hf
    cases hf
    refine ⟨Nat.le_of_eq heff.symm, ⟨y, hy, rfl⟩, fun hlt => ?_, _, hoffer, hlive, fun _ => ⟨hrecv, hsend⟩⟩
    exact absurd hlt (heff ▸ Nat.lt_irrefl _)

end Deposit

/-! ## Parties move -/

section Move

theorem recv_setRecv_self : (v.setRecv p b).recv p = some b := by simp [setRecv]

theorem recv_setRecv_of_ne (h : q ≠ p) : (v.setRecv p b).recv q = v.recv q := by
  simp [setRecv, Function.update_of_ne h]

theorem eff_setRecv_of_ne (h : q ≠ p) : (v.setRecv p b).eff q = v.eff q := by
  rw [eff, eff, recv_setRecv_of_ne h]
  rfl

theorem eff_setRecv_derived : (v.setRecv p (.derived p g)).eff p = g := eff_of_derived recv_setRecv_self

theorem eff_setRecv_generated : (v.setRecv p (.generated n)).eff p = v.own p :=
  eff_of_generated recv_setRecv_self

/-- Deriving a later generation only raises the party's generation. -/
theorem eff_le_derive (hg : v.eff p < g) (q : Role) : v.eff q ≤ (v.setRecv p (.derived p g)).eff q := by
  rcases q.eq_or_eq_peer p with rfl | rfl
  · rw [eff_setRecv_derived]
    exact Nat.le_of_lt hg
  · rw [eff_setRecv_of_ne p.peer_ne]

/-- After the step, only the other party may be on a generated inbox. -/
theorem onGenerated_derive (h : (v.setRecv p (.derived p g)).OnGenerated q n) :
    q = p.peer ∧ v.OnGenerated p.peer n := by
  rcases q.eq_or_eq_peer p with rfl | rfl
  · rw [OnGenerated, recv_setRecv_self] at h
    cases h
  · rw [OnGenerated, recv_setRecv_of_ne p.peer_ne] at h
    exact ⟨rfl, h⟩

theorem Inv.derive (hi : Inv v) (hg : v.eff p < g) (hmax : g ≤ u32Max)
    (hpast : ∀ n, v.OnGenerated p.peer n → v.Live (.generated n) → g ≤ v.own p.peer)
    (hoff : ∀ n, v.OnGenerated p n → ¬ v.Live (.generated n))
    (haway : ∀ k x, p = .offerer → v.recv .offerer = some (.derived .offerer k) → v.Offered k x →
      v.eff .responder = k → ¬ v.Live (.derived .offerer k)) :
    Inv (v.setRecv p (.derived p g)) where
  __ := hi
  shape q := by
    rcases q.eq_or_eq_peer p with rfl | rfl
    · exact .inl ⟨g, recv_setRecv_self⟩
    · simp only [OnGenerated, recv_setRecv_of_ne p.peer_ne]
      exact hi.shape p.peer
  bounded q := by
    rcases q.eq_or_eq_peer p with rfl | rfl
    · rwa [eff_setRecv_derived]
    · rw [eff_setRecv_of_ne p.peer_ne]
      exact hi.bounded p.peer
  known_le q := Nat.le_trans (hi.known_le q) (eff_le_derive hg q.peer)
  hello_le q k r h := by
    obtain ⟨hle, hk⟩ := hi.hello_le q k r h
    exact ⟨Nat.le_trans hle (eff_le_derive hg q.peer), hk⟩
  offered k x h := by
    obtain ⟨hle, hn⟩ := hi.offered k x h
    exact ⟨Nat.le_trans hle (eff_le_derive hg .offerer), hn⟩
  answered k y h := by
    obtain ⟨hle, hn, hlost⟩ := hi.answered k y h
    refine ⟨Nat.le_trans hle (eff_le_derive hg .responder), hn, fun hlt => ?_⟩
    rcases Nat.lt_or_eq_of_le hle with hlt' | heq
    · exact hlost hlt'
    · -- the responder leaves its generated inbox only when it is lost
      obtain ⟨n, -, rfl⟩ := hn
      obtain ⟨x, _, _, hat⟩ := hi.matched k _ h
      cases p with
      | responder => exact hoff n (hat heq.symm).1
      | offerer =>
        rw [eff_setRecv_of_ne (by decide)] at hlt
        exact hlost hlt
  matched k y h := by
    obtain ⟨x, hx, hlive, hat⟩ := hi.matched k y h
    refine ⟨x, hx, hlive, fun heq => ?_⟩
    cases p with
    | responder =>
      rw [eff_setRecv_derived] at heq
      exact absurd (hi.answered k y h).1 (heq ▸ Nat.not_le_of_lt hg)
    | offerer =>
      rw [eff_setRecv_of_ne (by decide)] at heq
      rw [recv_setRecv_of_ne (by decide)]
      exact hat heq
  reached q n h := by
    obtain ⟨rfl, h'⟩ := onGenerated_derive h
    exact Nat.le_trans (hi.reached _ n h') (eff_le_derive hg _)
  behind q n h hlt hlive := by
    obtain ⟨rfl, h'⟩ := onGenerated_derive h
    rw [Role.peer_peer, eff_setRecv_derived] at hlt
    exact absurd hlt (Nat.not_lt_of_le (hpast n h' hlive))
  beside q n h _ heq := by
    obtain ⟨rfl, h'⟩ := onGenerated_derive h
    rw [Role.peer_peer, eff_setRecv_derived] at heq
    have hle := hi.reached _ n h'
    rw [Role.peer_peer] at hle
    exact absurd (Nat.lt_of_le_of_lt hle hg) (heq ▸ Nat.lt_irrefl _)
  first n h heq := by
    obtain ⟨hp, h⟩ := onGenerated_derive h
    rw [← hp] at h
    have hle := hi.reached _ n h
    cases p with
    | offerer => cases hp
    | responder =>
      rw [eff_setRecv_derived] at heq
      exact absurd (Nat.lt_of_le_of_lt hle hg) (heq ▸ Nat.lt_irrefl _)
  standing k x h heff hr hlive := by
    cases p with
    | responder =>
      rw [eff_setRecv_derived] at heff
      exact absurd (hi.le_eff_of_offered h) (heff ▸ Nat.not_le_of_lt hg)
    | offerer =>
      rw [eff_setRecv_of_ne (by decide)] at heff
      rw [recv_setRecv_of_ne (by decide)] at hr
      obtain ⟨-, hro⟩ := hi.standing k x h heff hr hlive
      exact absurd hlive (haway k x rfl hro h heff)

/-- A responder on its derived inbox has not answered at that generation. -/
theorem Inv.not_answered (hi : Inv v) (hrecv : v.recv .responder = some (.derived .responder g)) :
    ¬ v.Answered g y := by
  intro h
  obtain ⟨-, ⟨n, -, rfl⟩, -⟩ := hi.answered g y h
  obtain ⟨x, -, -, hat⟩ := hi.matched g _ h
  have := (hat (eff_of_derived hrecv)).1
  rw [hrecv] at this
  cases this

/-- A party moves from its derived inbox to a generated one of the same generation. -/
theorem Inv.move (hi : Inv v) {x : ℕ} (hrecv : v.recv p = some (.derived p g)) (hown : v.own p = g)
    (hx : x < v.nextBox) (hmax : g < u32Max) (hanswers : p = .responder → ∀ y, ¬ v.Answered g y)
    (hreached : g ≤ v.eff p.peer) (hbehind : g < v.eff p.peer → ¬ v.Live (.generated x))
    (hbeside : v.Live (.generated x) → v.eff p.peer = g → ∃ b, v.recv p.peer = some b ∧ v.Live b)
    (hpeer : ∀ n, v.OnGenerated p.peer n → v.Live (.generated n) → v.own p.peer = g → v.Live (.generated x))
    (hfirst : p = .offerer → v.eff .responder = g → ∃ n, v.OnGenerated .responder n)
    (hstanding : p = .offerer → ∀ y, v.Offered g y → v.recv .responder ≠ some (.derived .responder g)) :
    Inv (v.setRecv p (.generated x)) := by
  have heffP : v.eff p = g := eff_of_derived hrecv
  have heff : ∀ q, (v.setRecv p (.generated x)).eff q = v.eff q := by
    intro q
    rcases q.eq_or_eq_peer p with rfl | rfl
    · rw [eff_setRecv_generated, hown, heffP]
    · exact eff_setRecv_of_ne p.peer_ne
  have hsame : (v.setRecv p (.generated x)).recv p.peer = v.recv p.peer := recv_setRecv_of_ne p.peer_ne
  -- the party itself is on the new inbox, the other one where it was
  have hgen : ∀ {q n}, (v.setRecv p (.generated x)).OnGenerated q n →
      q = p ∧ n = x ∨ q = p.peer ∧ v.OnGenerated p.peer n := by
    intro q n h
    rcases q.eq_or_eq_peer p with rfl | rfl
    · rw [OnGenerated, recv_setRecv_self] at h
      cases h
      exact .inl ⟨rfl, rfl⟩
    · rw [OnGenerated, hsame] at h
      exact .inr ⟨rfl, h⟩
  exact
    { hi with
      shape := fun q => by
        rcases q.eq_or_eq_peer p with rfl | rfl
        · exact .inr ⟨x, recv_setRecv_self, hx, hown ▸ hmax⟩
        · simp only [OnGenerated, hsame]
          exact hi.shape p.peer
      bounded := fun q => heff q ▸ hi.bounded q
      known_le := fun q => heff q.peer ▸ hi.known_le q
      hello_le := fun q k r h => heff q.peer ▸ hi.hello_le q k r h
      offered := fun k z h => heff .offerer ▸ hi.offered k z h
      answered := fun k z h => heff .responder ▸ hi.answered k z h
      matched := fun k z h => by
        obtain ⟨y, hy, hlive, hat⟩ := hi.matched k z h
        refine ⟨y, hy, hlive, fun heq => ?_⟩
        rw [heff] at heq
        cases p with
        | offerer => exact hsame.symm ▸ hat heq
        | responder => exact absurd (heffP.symm.trans heq ▸ h) (hanswers rfl z)
      reached := fun q n h => by
        rw [heff]
        rcases hgen h with ⟨rfl, rfl⟩ | ⟨rfl, hn⟩
        · exact hown ▸ hreached
        · exact hi.reached _ n hn
      behind := fun q n h hlt => by
        rw [heff] at hlt
        rcases hgen h with ⟨rfl, rfl⟩ | ⟨rfl, hn⟩
        · exact hbehind (hown ▸ hlt)
        · exact hi.behind _ n hn hlt
      beside := fun q n h hl heq => by
        rw [heff] at heq
        rcases hgen h with ⟨rfl, rfl⟩ | ⟨rfl, hn⟩
        · rw [hsame]
          exact hbeside hl (heq.trans hown)
        · rw [Role.peer_peer] at heq ⊢
          exact ⟨_, recv_setRecv_self, hpeer n hn hl (heq.symm.trans heffP)⟩
      first := fun n h heq => by
        rw [heff] at heq
        cases p with
        | offerer =>
          simp only [OnGenerated]
          exact hsame.symm ▸ hfirst rfl (heq.trans hown)
        | responder => exact ⟨x, recv_setRecv_self⟩
      standing := fun k z h heq hr hl => by
        rw [heff] at heq
        cases p with
        | offerer =>
          have hr : v.recv .responder = some (.derived .responder k) := hsame.symm.trans hr
          obtain ⟨-, hro⟩ := hi.standing k z h heq hr hl
          rw [hrecv] at hro
          cases hro
          exact absurd hr (hstanding rfl z h)
        | responder =>
          rw [recv_setRecv_self] at hr
          cases hr }

theorem Inv.settle (hi : Inv v) {x y : ℕ}
    (hrecv : v.recv .responder = some (.derived .responder g)) (hown : v.own .responder = g)
    (hoffer : v.Offered g (.generated x)) (hy : y < v.nextBox)
    (hlive : v.Live (.generated y) →
      v.recv .offerer = some (.derived .offerer g) ∧ v.Live (.derived .offerer g)) :
    Inv (v.setRecv .responder (.generated y)) := by
  refine hi.move hrecv hown hy (hi.lt_max_of_offered hoffer) (fun _ _ => hi.not_answered hrecv)
    (hi.offered g _ hoffer).1 (fun hlt hl => ?_) (fun hl _ => ⟨_, hlive hl⟩) (fun n hn _ heq => ?_)
    (fun h => by cases h) (fun h => by cases h)
  · exact Nat.ne_of_gt hlt (eff_of_derived (hlive hl).1)
  · -- the offerer is not on a generated inbox of this generation before the responder
    obtain ⟨n', hn'⟩ := hi.first n hn ((eff_of_derived hrecv).trans heq.symm)
    rw [OnGenerated, hrecv] at hn'
    cases hn'

theorem Inv.finish (hi : Inv v) {x : ℕ} (hrecv : v.recv .offerer = some (.derived .offerer g))
    (hown : v.own .offerer = g) (hoffer : v.Offered g (.generated x)) (hanswer : v.Answered g y) :
    Inv (v.setRecv .offerer (.generated x)) := by
  obtain ⟨hle, ⟨m, -, rfl⟩, hlost⟩ := hi.answered g y hanswer
  obtain ⟨x', hx', hlive, hat⟩ := hi.matched g _ hanswer
  obtain rfl := hi.offered_unique hx' hoffer
  obtain ⟨-, x₀, hx₀, hxeq⟩ := hi.offered g _ hoffer
  cases hxeq
  refine hi.move hrecv hown hx₀ (hi.lt_max_of_offered hoffer) (fun h => by cases h) hle
    (fun hlt hl => hlost hlt (hlive.mp hl)) (fun hl heq => ⟨_, (hat heq).1, hlive.mp hl⟩)
    (fun n hn hl heq => ?_) (fun _ heq => ⟨m, (hat heq).1⟩) (fun _ _ _ hr => hi.not_answered hr hanswer)
  -- both are at the generation of the answer, so the responder is on the inbox it named
  cases hn.symm.trans (hat ((eff_of_generated hn).trans heq)).1
  exact hlive.mpr hl

theorem Inv.setSend (hi : Inv v) (hrecv : v.recv p = some (.derived p k)) (b : MailboxId) :
    Inv (v.setSend p b) where
  __ := hi
  matched j y h := by
    obtain ⟨x, hx, hlive, hat⟩ := hi.matched j y h
    refine ⟨x, hx, hlive, fun heq => ?_⟩
    obtain ⟨hr, hs⟩ := hat heq
    refine ⟨hr, ?_⟩
    cases p with
    | offerer => simpa [View.setSend] using hs
    | responder =>
      have hk : k = j := (eff_of_derived hrecv).symm.trans heq
      exact absurd (hk ▸ h) (hi.not_answered hrecv)

/-- On a derived inbox the stored generation is not what counts. -/
theorem eff_setGens (hrecv : v.recv p = some (.derived p k)) (a j : ℕ) (q : Role) :
    (v.setGens p a j).eff q = v.eff q := by
  rcases q.eq_or_eq_peer p with rfl | rfl
  · rw [eff_of_derived hrecv]
    exact eff_of_derived hrecv
  · simp [eff, setGens]

theorem own_setGens_of_generated (hrecv : v.recv p = some (.derived p k)) {a j : ℕ}
    (h : v.OnGenerated q n) : (v.setGens p a j).own q = v.own q := by
  have hne : q ≠ p := by
    rintro rfl
    rw [OnGenerated, hrecv] at h
    cases h
  simp [setGens, Function.update_of_ne hne]

theorem Inv.setGens (hi : Inv v) (hrecv : v.recv p = some (.derived p k)) {a j : ℕ}
    (hj : j ≤ v.eff p.peer) : Inv (v.setGens p a j) where
  __ := hi
  shape q := by
    rcases hi.shape q with h | ⟨n, hn, hlt, hown⟩
    · exact .inl h
    · exact .inr ⟨n, hn, hlt, by rwa [own_setGens_of_generated hrecv hn]⟩
  bounded q := by
    rw [eff_setGens hrecv]
    exact hi.bounded q
  known_le q := by
    rw [eff_setGens hrecv]
    rcases q.eq_or_eq_peer p with rfl | rfl
    · simpa [View.setGens] using hj
    · simpa [View.setGens] using hi.known_le p.peer
  hello_le q i r h := by
    rw [eff_setGens hrecv]
    exact hi.hello_le q i r h
  offered i x h := by
    rw [eff_setGens hrecv]
    exact hi.offered i x h
  answered i y h := by
    rw [eff_setGens hrecv]
    exact hi.answered i y h
  matched i y h := by
    rw [eff_setGens hrecv]
    exact hi.matched i y h
  reached q n h := by
    rw [eff_setGens hrecv, own_setGens_of_generated hrecv h]
    exact hi.reached q n h
  behind q n h := by
    rw [eff_setGens hrecv, own_setGens_of_generated hrecv h]
    exact hi.behind q n h
  beside q n h := by
    rw [eff_setGens hrecv, own_setGens_of_generated hrecv h]
    exact hi.beside q n h
  first n h := by
    rw [eff_setGens hrecv, own_setGens_of_generated hrecv h]
    exact hi.first n h
  standing i x h := by
    rw [eff_setGens hrecv]
    exact hi.standing i x h

end Move

/-- **Every step of either party preserves the invariant.** -/
theorem Inv.step (hi : Inv v) (h : Step κ p v v') : Inv v' := by
  cases h with
  | putOwn g hg hnone => exact hi.putOwn hg
  | putPeer g k hrecv hlate honce hnone => exact hi.putPeer hrecv honce
  | hello g k n l m hrecv hk honce hl hm => exact hi.depositHello hrecv hk honce hl hm
  | mint => exact hi.mint
  | offer g x l m hp hrecv hx honce hstanding hl hm =>
    exact hi.depositOffer hrecv hx honce hstanding hl hm
  | answer g x y l m hp hrecv hown hy hsend hoffer hlive hl hm =>
    exact hi.depositAnswer hrecv hown hy hsend hoffer hlive hl hm
  | derive g hg hmax hpast hoff haway => exact hi.derive hg hmax hpast hoff haway
  | settle g x y hp hrecv hown hoffer hy hlive => exact hi.settle hrecv hown hoffer hy hlive
  | finish g x y hp hrecv hown hoffer hanswer => exact hi.finish hrecv hown hoffer hanswer
  | setSend k b hrecv => exact hi.setSend hrecv b
  | setGens k a j hrecv hknown => exact hi.setGens hrecv hknown
  | retire k hk => exact hi.retire hk
  | ack k i l hl hdone => exact hi.setQueue hl

end View

end Titlan.World
