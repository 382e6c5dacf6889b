import Titlan.World.OneSided
import Titlan.World.Running

/-! # Total loss

Two paired parties, and a relay that restarts any number of times, each time with an empty mailbox table.
Whenever both parties have come to rest on existing inboxes, each sends to where the other receives, as
long as two things do not happen. One: a party creates the derived inbox the other is on, and has lost
without noticing, at a later generation than the creator's: the other then subscribes to it again, and the
hello it had left for the creator is lost. Two: the responder has its answer's inbox generated when the
offerer's derived inbox is already lost: the answer finds no mailbox, and the responder rests on an inbox
nobody has heard of. -/

namespace Titlan.World

open Foundation

section

variable [Sealing]

/-! ## Statement -/

/-- Both parties are paired, at generation `γ`, on the inboxes the relay generated as `inbox`, and no
control frame waits or is remembered from before. -/
structure Paired (γ : ℕ) (inbox : Role → ℕ) (w : Sys) : Prop extends OnGenerated inbox w where
  generation : ∀ p, (w.shared.party p).recovery.ownGen = γ ∧ (w.shared.party p).recovery.peerGen ≤ γ
  below : γ < u32Max
  idle : ∀ p, (w.shared.party p).rotation = none ∧ ∀ e ∈ (w.shared.party p).helloSeen, e.1 ≤ γ
  quiet : ∀ b l, w.shared.boxes b = some l → ∀ m ∈ l, ¬ isControl m.frame
  ids : ∀ b l, w.shared.boxes b = some l → (l.map Queued.id).Nodup ∧ ∀ m ∈ l, m.id < w.shared.nextMsg
  history : ∀ e ∈ w.shared.log, ¬ isControl e.2

/-- Nothing but restarts of the relay disturbs the run. -/
def Label.restartsOnly : Label → Bool
  | .act _ _ | .sendChat _ _ | .relayRestart _ => true
  | _ => false

/-- No handler runs, both parties are subscribed to existing mailboxes in which no control frame waits,
and neither has reported that the conversation needs repair. -/
def AtRest (w : Sys) : Prop :=
  ∀ p, betweenDeliveries w p ∧
    (∃ b ∈ w.shared.subscribed p, ∃ l ∈ w.shared.boxes b, ∀ m ∈ l, ¬ isControl m.frame) ∧
    (w.shared.party p).needsRepair = false

instance (w : Sys) : Decidable (AtRest w) := inferInstanceAs (Decidable (∀ _, _ ∧ _ ∧ _))

/-- The operation the step performs, if any, is timely. -/
def TimelyStep (w : Sys) : Label → Prop
  | .act i _ => ∀ o ∈ (w.todo i).next?, Timely i.party w.shared o
  | _ => True

instance (p : Role) (s : St) : (o : Op carrier) → Decidable (Timely p s o)
  | .relay (.putMailbox _ (.derived q k)) => inferInstanceAs (Decidable
      (q = p.peer → s.recv q = some (.derived q k) → s.boxes (.derived q k) = none → k ≤ s.generation p))
  | .relay .createMailbox => inferInstanceAs (Decidable
      (p = .responder → (s.boxes (.derived .offerer (s.party .responder).recovery.ownGen)).isSome))
  | .relay (.putMailbox _ (.generated _)) | .relay (.deposit _ _ _) | .relay (.deleteMailbox _) =>
    .isTrue trivial
  | .store _ | .ram _ | .socket _ | .notify _ => .isTrue trivial

instance (w : Sys) : (l : Label) → Decidable (TimelyStep w l)
  | .act i _ => inferInstanceAs (Decidable (∀ o ∈ (w.todo i).next?, Timely i.party w.shared o))
  | .sendChat _ _ | .relayRestart _ | .sweep _ _ | .clientRestart _ _ => .isTrue trivial

/-! ## The start -/

namespace View

/-- The offer and the answer that stand for a pairing, with the hello before them. -/
def pairing (γ : ℕ) (inbox : Role → ℕ) : List (MailboxId × Frame) :=
  [(.derived .offerer γ, hello γ 0), (.derived .responder γ, handoff (.generated (inbox .offerer))),
    (.derived .offerer γ, handoff (.generated (inbox .responder)))]

/-- Two parties on the inboxes of a pairing, with nothing waiting. -/
structure Fresh (γ : ℕ) (inbox : Role → ℕ) (v : View) : Prop where
  log : v.log = pairing γ inbox
  recv : ∀ p, v.OnGenerated p (inbox p)
  send : ∀ p, v.send p = some (.generated (inbox p.peer))
  own : ∀ p, v.own p = γ
  known : ∀ p, v.known p ≤ γ
  spent : ∀ p, inbox p < v.nextBox
  live : ∀ p, v.Live (.generated (inbox p))
  below : γ < u32Max
  empty : ∀ b l, v.boxes b = some l → l = []

variable {γ g k r : ℕ} {inbox : Role → ℕ} {v : View} {p : Role} {x : MailboxId}

theorem Fresh.eff (h : Fresh γ inbox v) (p : Role) : v.eff p = γ := by
  rw [eff_of_generated (h.recv p), h.own]

theorem Fresh.helloed (h : Fresh γ inbox v) (hh : v.Helloed p k r) :
    p = .offerer ∧ k = γ ∧ r = γ := by
  obtain ⟨n, hn⟩ := hh
  rw [h.log] at hn
  simp only [pairing, List.mem_cons, Prod.mk.injEq, MailboxId.derived.injEq, Frame.recoveryHello.injEq,
    reduceCtorEq, and_false, List.not_mem_nil, or_false] at hn
  exact ⟨hn.1.1, hn.1.2, hn.2.1⟩

theorem Fresh.offered (h : Fresh γ inbox v) : v.Offered g x ↔ g = γ ∧ x = .generated (inbox .offerer) := by
  simp [Offered, h.log, pairing]

theorem Fresh.answered (h : Fresh γ inbox v) :
    v.Answered g x ↔ g = γ ∧ x = .generated (inbox .responder) := by
  simp [Answered, h.log, pairing]

theorem Fresh.helloLog (h : Fresh γ inbox v) : v.helloLog g = if g = γ then 1 else 0 := by
  rw [View.helloLog, h.log, pairing]
  by_cases hg : g = γ
  · subst hg
    simp [isHello]
  · simp [isHello, hg, Ne.symm hg]

theorem Fresh.offerLog (h : Fresh γ inbox v) : v.offerLog g = if g = γ then 1 else 0 := by
  rw [View.offerLog, h.log, pairing]
  by_cases hg : g = γ
  · subst hg
    simp [isHandoff]
  · simp [isHandoff, hg, Ne.symm hg]

theorem Fresh.inv (h : Fresh γ inbox v) : v.Inv where
  shape p := .inr ⟨inbox p, h.recv p, h.spent p, by rw [h.own]; exact h.below⟩
  bounded p := by
    rw [h.eff]
    exact Nat.le_of_lt h.below
  known_le p := by
    rw [h.eff]
    exact h.known p
  hello_le p k r hh := by
    obtain ⟨-, rfl, rfl⟩ := h.helloed hh
    rw [h.eff]
    exact ⟨Nat.le_refl _, h.below⟩
  hello_once g := by
    rw [h.helloLog]
    split <;> decide
  offer_le g := by
    rw [h.helloLog, h.offerLog]
  offered g x hx := by
    obtain ⟨rfl, rfl⟩ := h.offered.mp hx
    exact ⟨Nat.le_of_eq (h.eff _).symm, _, h.spent _, rfl⟩
  answered g y hy := by
    obtain ⟨rfl, rfl⟩ := h.answered.mp hy
    rw [h.eff]
    exact ⟨Nat.le_refl _, ⟨_, h.spent _, rfl⟩, fun hlt => absurd hlt (Nat.lt_irrefl _)⟩
  matched g y hy := by
    obtain ⟨rfl, rfl⟩ := h.answered.mp hy
    exact ⟨_, h.offered.mpr ⟨rfl, rfl⟩, iff_of_true (h.live _) (h.live _), fun _ => ⟨h.recv _, h.send _⟩⟩
  reached p n hn := by rw [h.eff, h.own]
  behind p n hn hlt := by
    rw [h.eff, h.own] at hlt
    exact absurd hlt (Nat.lt_irrefl _)
  beside p n hn hl heq := ⟨_, h.recv p.peer, h.live p.peer⟩
  first n hn heq := ⟨_, h.recv .responder⟩
  standing g x hx heff hr := by
    rw [h.recv] at hr
    cases hr

theorem Fresh.traced (h : Fresh γ inbox v) : v.Traced where
  queued b l hl m hm := by
    rw [h.empty b l hl] at hm
    cases hm
  sorts b f hf := by
    rw [h.log] at hf
    simp only [pairing, List.mem_cons, Prod.mk.injEq, List.not_mem_nil, or_false] at hf
    rcases hf with ⟨rfl, rfl⟩ | ⟨rfl, rfl⟩ | ⟨rfl, rfl⟩
    · exact ⟨_, _, rfl, .inl ⟨_, _, rfl⟩⟩
    · exact ⟨_, _, rfl, .inr ⟨_, rfl⟩⟩
    · exact ⟨_, _, rfl, .inr ⟨_, rfl⟩⟩
  counted g l hl := by
    rw [h.empty _ l hl]
    exact Nat.zero_le _
  rotated n _ := ⟨_, h.offered.mpr ⟨h.own _, rfl⟩⟩

theorem Fresh.rotated (h : Fresh γ inbox v) (p : Role) : v.Rotated (inbox p) p := by
  cases p with
  | responder =>
    intro _ hr
    rw [h.recv] at hr
    cases hr
  | offerer =>
    exact ⟨h.offered.mpr ⟨h.own _, rfl⟩, _, h.answered.mpr ⟨h.own _, rfl⟩, h.send _⟩

/-- On generated inboxes the parties do not meet. -/
theorem Fresh.not_meets (h : Fresh γ inbox v) : ¬ v.Meets g := by
  intro hm
  have hrecv := hm.recv
  rw [h.recv] at hrecv
  cases hrecv

end View

namespace Refinement

variable {γ : ℕ} {inbox : Role → ℕ} {w : Sys} {κ : Regime}

omit [Sealing] in
theorem isControl_of_isRecovery {f : Frame} (h : isRecovery f) : World.isControl f := by
  cases f <;> simp_all [isRecovery, World.isControl]

/-- Before the first control frame is accepted, the view shows the past alone. -/
theorem log_view {ρ : Course} {s : St} (h : ∀ e ∈ s.log, ¬ World.isControl e.2) :
    (ρ.view s).log = ρ.past := by
  have hnil : s.log.filter (fun e => isRecovery e.2) = [] :=
    List.filter_eq_nil_iff.mpr fun e he hc => h e he (isControl_of_isRecovery hc)
  simp only [Course.view, hnil, List.append_nil]

theorem Paired.fresh (h : Paired γ inbox w) :
    View.Fresh γ inbox (Course.view ⟨View.pairing γ inbox, κ⟩ w.shared) where
  log := log_view h.history
  recv p := (h.routed p).1
  send p := (h.routed p).2
  own p := (h.generation p).1
  known p := (h.generation p).2
  spent p := (h.generated p).1
  live p := live_view.mpr (h.live p)
  below := h.below
  empty b l hl := by
    obtain ⟨l₀, hl₀, rfl⟩ := Option.map_eq_some_iff.mp hl
    exact List.filter_eq_nil_iff.mpr fun m hm hc => h.quiet b l₀ hl₀ m hm (isControl_of_isRecovery hc)

/-- A paired start is a start of the protocol, whatever may be lost. -/
theorem Paired.running (h : Paired γ inbox w) (hκ : κ.Lossy) : Running ⟨View.pairing γ inbox, κ⟩ w := by
  have hf : View.Fresh γ inbox (Course.view ⟨View.pairing γ inbox, κ⟩ w.shared) := Paired.fresh h
  have hg : Good ⟨View.pairing γ inbox, κ⟩ w.shared := by
    refine ⟨⟨h.rooted, fun p m hm _ => h.rows p m hm, h.ids, fun b l hl m hm => ?_⟩, hf.inv, hf.traced, ?_⟩
    · have hquiet := h.quiet b l hl m hm
      cases hfr : m.frame <;> simp_all [Admitted, World.isControl]
    · cases κ with
      | losing => trivial
      | meeting => exact ⟨fun g hm => absurd hm hf.not_meets, fun g x hm => absurd hm hf.not_meets⟩
      | keeping g => exact hκ.elim
  refine hg.running
    (fun p => Left.between ⟨hf.recv p, hf.own p, hf.rotated p, (h.idle p).2, fun _ => (h.idle p).1⟩)
    h.listeners h.senders

/-- Two parties at rest read existing inboxes in which nothing waits. -/
theorem Running.atRest {ρ : Course} (h : Running ρ w) (hrest : AtRest w) (p : Role) :
    Settled ρ p w.shared ∧ ∀ b, (ρ.view w.shared).recv p = some b → (ρ.view w.shared).Live b ∧
      ∀ f, ¬ (ρ.view w.shared).Waits b f := by
  obtain ⟨hnext, ⟨b, hb, l, hl, hquiet⟩, -⟩ := hrest p
  obtain ⟨b', hreading⟩ := h.reading hnext
  have hbb : b' = b := by
    rw [St.subscribed] at hb
    rcases hreading.connected with hconn | ⟨-, buffered, hconn, -⟩
    · rw [hconn] at hb
      exact Option.some.inj hb
    · rw [hconn] at hb
      cases hb
  subst hbb
  refine ⟨hreading.toSettled, fun b hb => ?_⟩
  obtain rfl : b' = b := Option.some.inj (hreading.recv.symm.trans hb)
  refine ⟨?_, fun f hw => ?_⟩
  · rw [live_view, hl]
    rfl
  · obtain ⟨l', hl', m, hm, -⟩ := hw
    rw [view_boxes hl, Option.some.injEq] at hl'
    subst hl'
    obtain ⟨hm, hc⟩ := List.mem_filter.mp hm
    exact hquiet m hm (isControl_of_isRecovery hc)

/-- One step of a run in which nothing but the relay restarts. -/
theorem Running.lossy {ρ : Course} {w' : Sys} {l : Label} (h : Running ρ w) (hκ : ρ.regime.Lossy)
    (hl : l.restartsOnly)
    (hallows : ∀ i c, l = .act i c → ∀ o ∈ (w.todo i).next?, ρ.Allows i.party w.shared o)
    (hstep : step w l = some w') : Running ρ w' := by
  cases l with
  | act i c => exact h.act (hallows i c rfl) hstep
  | sendChat p n => exact h.sendChat hstep
  | relayRestart pushed => exact h.relayRestart hκ hstep
  | sweep _ _ => cases hl
  | clientRestart _ _ => cases hl

end Refinement

/-! ## Agreement -/

end

/-! ### An inbox that is created again -/

/-- Two paired parties whose listeners may take twelve turns. -/
def pairedPair : Sys where
  shared := (generatedPair 0).shared
  todo
    | .listener _ => engine.conversationListener 12
    | .sender _ _ => .ret ()

theorem pairedPair_paired : Paired 0 pairInbox pairedPair where
  toOnGenerated :=
    let h := generatedPair_onGenerated 0
    ⟨h.routed, h.rooted, h.generated, h.live, h.frames, h.rows, h.offline, fun _ => ⟨12, rfl⟩,
      fun _ _ => rfl⟩
  generation p := ⟨rfl, Nat.le_refl 0⟩
  below := by decide
  idle p := ⟨rfl, fun _ he => (by cases he)⟩
  quiet b l hl m hm := by
    simp only [pairedPair, generatedPair] at hl
    split at hl
    · cases hl
      cases hm
    · cases hl
  ids b l hl := by
    simp only [pairedPair, generatedPair] at hl
    split at hl
    · cases hl
      exact ⟨List.nodup_nil, (by simp)⟩
    · cases hl
  history := fun _ he => (by cases he)

/-- The relay restarts, with nothing in the sockets. -/
def restart : Label := .relayRestart fun _ => 0

/-- A listener finds its socket closed and performs its next `n` operations. -/
def reconnects (p : Role) (n : ℕ) : List Label := .act (.listener p) .closed :: acts (.listener p) n

/-- Both parties subscribe; the relay restarts twice, and each time the responder recovers alone; it
restarts once more, and the offerer recovers, to generation 1, and creates the inbox the responder is on, of
generation 2, before the responder has noticed; the responder subscribes to it again and handles the
offerer's hello. -/
def inboxCreatedAgain : List Label :=
  acts (.listener .offerer) 8 ++ acts (.listener .responder) 8 ++ restart :: reconnects .responder 39 ++
    restart :: reconnects .responder 39 ++ restart :: reconnects .offerer 39 ++ reconnects .responder 10 ++
    acts (.listener .responder) 13

/-- Both parties subscribe; the relay restarts; the responder recovers, then the offerer; the offerer
handles the responder's hello and offers; the responder handles the offerer's hello and the offer and
answers; the offerer handles the answer. -/
def recoversAndRotates : List Label :=
  acts (.listener .offerer) 8 ++ acts (.listener .responder) 8 ++ restart :: reconnects .responder 39 ++
    reconnects .offerer 39 ++ acts (.listener .offerer) 14 ++ acts (.listener .responder) 39 ++
    acts (.listener .offerer) 20

end Titlan.World
