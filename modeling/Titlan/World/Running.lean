import Titlan.World.ChatKept
import Titlan.World.Delivering

/-! # Runs as runs of the protocol

The invariant of a run of the two-party system in a regime: the state is good, and every thread is safe in
its setting. An operation the regime allows preserves it, and so does everything else the regime has in it:
a new chat, a restart of the relay where mailboxes may be lost, a restart of a client where they are
kept. -/

namespace Titlan.World.Refinement

open Foundation

variable [Sealing] {ρ : Course} {w w' : Sys} {p : Role}

/-- What a thread that has returned leaves. -/
def after (ρ : Course) : ThreadId → St → Prop
  | .listener p, s => Good ρ s ∧ Between ρ p s
  | .sender _ _, _ => True

/-- The state is good, and every thread is safe. -/
def Running (ρ : Course) (w : Sys) : Prop :=
  Good ρ w.shared ∧ Threads.AllSafe (setting ρ) (after ρ) w

/-- Two listeners about to start, with their parties at rest. -/
theorem Good.running (hg : Good ρ w.shared) (hrest : ∀ p, Between ρ p w.shared)
    (hlisteners : ∀ p, ∃ fuel, w.todo (.listener p) = engine.conversationListener fuel)
    (hsenders : ∀ p n, w.todo (.sender p n) = .ret ()) : Running ρ w := by
  refine ⟨hg, fun i => ?_⟩
  cases i with
  | listener p =>
    obtain ⟨fuel, hfuel⟩ := hlisteners p
    rw [hfuel]
    exact triple_conversationListener fuel _ ⟨hg, hrest p⟩
  | sender p n =>
    rw [hsenders p n]
    exact fun _ _ => trivial

/-- An operation of a thread. -/
theorem Running.act {i : ThreadId} {c : Choice} (h : Running ρ w)
    (hallows : ∀ o ∈ (w.todo i).next?, ρ.Allows i.party w.shared o)
    (hstep : step w (.act i c) = some w') : Running ρ w' := by
  obtain ⟨hg, hsafe⟩ := h
  obtain ⟨o, k, r, s', htodo, hperform, rfl⟩ := step_act hstep
  have hexec : (setting ρ i).exec o w.shared r s' := ⟨hallows o (by rw [htodo]; rfl), c, hperform⟩
  have hi := hsafe i
  rw [htodo] at hi
  refine ⟨((hi.step hexec).1 hg).1, ?_⟩
  exact hsafe.step (fun j hj _ _ hguar => setting_compat hj hguar) htodo hexec

/-- A new chat. -/
theorem Running.sendChat {n : ℕ} (h : Running ρ w) (hstep : step w (.sendChat p n) = some w') :
    Running ρ w' := by
  obtain ⟨hg, hsafe⟩ := h
  obtain rfl := step_sendChat hstep
  have hg' : Good ρ { w.shared with nextText := w.shared.nextText + 1 } :=
    ⟨{ hg with }, hg.inv, hg.traced, hg.regime⟩
  refine ⟨hg', Threads.AllSafe.start (hsafe.move fun i _ => ⟨hg', fun q _ => ?_⟩) ?_⟩
  · exact ⟨.inl rfl, rfl, rfl, .inl rfl, .of_boxes rfl rfl⟩
  · exact triple_sendChatThread ρ p n w.shared.nextText _ ⟨hg', trivial⟩

/-- The relay restarts. -/
theorem Running.relayRestart {pushed : Role → ℕ} (h : Running ρ w) (hκ : ρ.regime.Lossy)
    (hstep : step w (.relayRestart pushed) = some w') : Running ρ w' := by
  obtain ⟨hg, hsafe⟩ := h
  cases hstep
  obtain ⟨hg', hothers⟩ := hg.lose hκ pushed
  exact ⟨hg', hsafe.move fun i _ => ⟨hg', fun q _ => hothers q⟩⟩

/-! ## What a listener knows -/

/-- A listener between two deliveries reads its inbox. -/
theorem Running.reading (h : Running ρ w) (hp : betweenDeliveries w p) :
    ∃ b, Reading ρ p b w.shared := by
  have hsafe := h.2 (.listener p)
  cases htodo : w.todo (.listener p) with
  | ret _ => simp [betweenDeliveries, htodo] at hp
  | op o k =>
    rw [htodo] at hsafe
    refine (hsafe.check p rfl).next ?_
    simp only [betweenDeliveries, htodo, Program.next?_op] at hp
    split at hp
    · rename_i heq
      exact Option.some.inj heq
    · cases hp

/-- Only the responder takes the responder's leg of a rotation. -/
theorem Running.leg (h : Running ρ w) (hop : (w.todo (.listener p)).next? = some (.ram .takeRotation))
    (hnone : (w.shared.party p).rotation = none) : p = .responder := by
  have hsafe := h.2 (.listener p)
  cases htodo : w.todo (.listener p) with
  | ret _ =>
    rw [htodo] at hop
    cases hop
  | op o k =>
    rw [htodo] at hsafe hop
    exact (hsafe.check p rfl).leg (Option.some.inj hop) hnone

theorem Running.guarded (h : Running ρ w) (p : Role) : Guarded ρ p w.shared := by
  have hsafe := h.2 (.listener p)
  cases htodo : w.todo (.listener p) with
  | ret _ =>
    rw [htodo] at hsafe
    exact hsafe.post_ret.2.guarded
  | op o k =>
    rw [htodo] at hsafe
    exact (hsafe.check p rfl).restart

/-- Where nothing is lost, a party that handles no message is at rest. -/
theorem Running.between (h : Running ρ w) (hκ : ¬ ρ.regime.Lossy)
    (hidle : ∀ b i, (w.shared.party p).conn ≠ some (.live b (some i))) : Between ρ p w.shared := by
  rcases h.guarded p with hlossy | ⟨b, m, l, hconn, -⟩ | ⟨-, b, i, hconn⟩ | hbet
  · exact absurd hlossy hκ
  · exact absurd hconn (hidle b m.id)
  · exact absurd hconn (hidle b i)
  · exact hbet

/-- Where nothing is lost, a party is at rest when no control frame waits in the mailbox it is subscribed
to. -/
theorem Running.settled (h : Running ρ w) (hκ : ¬ ρ.regime.Lossy)
    (hquiet : ∀ b i, (w.shared.party p).conn = some (.live b i) → ∀ f, ¬ (ρ.view w.shared).Waits b f) :
    Settled ρ p w.shared := by
  rcases h.guarded p with hlossy | ⟨b, m, l, hconn, hl, hm⟩ | ⟨hset, -⟩ | hbet
  · exact absurd hlossy hκ
  · exact absurd ⟨l, hl, m, hm, rfl⟩ (hquiet b _ hconn m.frame)
  · exact hset
  · exact hbet.toSettled

/-! ## Client restarts -/

theorem view_forget (s : St) (p : Role) : ρ.view (s.forget p) = ρ.view s := view_modify_same rfl rfl

/-- A process that forgets nothing it needs starts again at rest. -/
theorem Between.forget {s : St} (h : Between ρ p s) (hκ : ρ.regime ≠ .meeting)
    (hrot : p = .offerer → (s.party p).rotation = none) : Between ρ p (s.forget p) := by
  have hself := s.modify_party_self p fun x => { x with
    rotation := none
    helloSeen := []
    exhaustion := none
    flushLocked := false
    conn := none }
  have hview := view_forget (ρ := ρ) s p
  refine ⟨⟨?_, ?_, fun _ => ?_, fun h => absurd h hκ, fun _ _ k _ hawaits => ?_⟩, ?_⟩
  · rw [hview, St.forget, hself]
    cases h.rest with
    | generated n hn hr => exact .generated n hn hr
    | derived k hd =>
      refine .derived k ⟨hd.recv, hd.own, hd.send, hd.reaching, fun hp x hx => ?_⟩
      have hsome := hd.awaiting hp x hx
      rw [hrot hp] at hsome
      exact hsome
  · rw [St.forget, hself]
    exact (by simp)
  · rw [St.forget, hself]
  · -- a restarted process awaits nothing
    rw [St.forget, hself] at hawaits
    exact absurd rfl hawaits
  · rintro rfl k hk
    have hk' : s.recv .offerer = some (.derived .offerer k) :=
      (congrFun (congrArg View.recv hview) .offerer).symm.trans hk
    rw [hview]
    exact ⟨(h.affords rfl k hk').1, fun h => absurd h hκ⟩

/-- A client that handles no message is killed and started again. -/
theorem Running.clientRestart {fuel : ℕ} (h : Running ρ w) (hκ : ¬ ρ.regime.Lossy)
    (hidle : ∀ b i, (w.shared.party p).conn ≠ some (.live b (some i)))
    (hrot : p = .offerer → (w.shared.party p).rotation = none)
    (hstep : step w (.clientRestart p fuel) = some w') : Running ρ w' := by
  have hmeeting : ρ.regime ≠ .meeting := by
    intro heq
    rw [heq] at hκ
    exact hκ trivial
  have hbet := (h.between hκ hidle).forget hmeeting hrot
  obtain ⟨hg, hsafe⟩ := h
  cases hstep
  have hview := view_forget (ρ := ρ) w.shared p
  obtain ⟨htidy, hlater, hpeer⟩ := hg.toTidy.remember (p := p) (g := fun x => { x with
    rotation := none
    helloSeen := []
    exhaustion := none
    flushLocked := false
    conn := none }) rfl rfl
  have hg' : Good ρ (w.shared.forget p) := hg.moves (p := p) htidy (.inl hview)
  refine ⟨hg', fun i => ?_⟩
  by_cases hi : i.party = p
  · simp only [hi, if_true]
    cases i with
    | listener q =>
      obtain rfl : q = p := hi
      exact triple_conversationListener fuel _ ⟨hg', hbet⟩
    | sender q n => exact fun _ _ => trivial
  · simp only [hi, if_false]
    refine (hsafe i).of_rely fun _ => ⟨hg', ?_⟩
    rintro q rfl
    -- the other listener's party is as it was
    have hsame : (w.shared.forget p).party q = w.shared.party q := w.shared.modify_party_of_ne _ hi
    exact ⟨.inl hview, by rw [hsame], by rw [hsame], .inl (by rw [hsame]), hlater⟩

end Titlan.World.Refinement
