import Titlan.World.Meeting

/-! # Entering a generation

What a party knows while it enters a recovery generation. Before its routing row names the derived inbox
it is `Departing`, for one of three reasons: a hello of a later generation, the loss of its inbox, or that
loss at the last generation. It then goes through the outbound window, creates the other party's derived
inbox at each generation of it and leaves a hello there. `Probing` holds between two of these, `Created`
between creating an inbox and leaving the hello, and at the end of the window the party is at rest on its
derived inbox. -/

namespace Titlan.World.View

open Foundation

variable [Sealing] {κ : Regime} {v v' : View} {p : Role} {x : MailboxId} {g j k n known : ℕ} {w : List ℕ}

/-- The party is about to move to its derived inbox `g`. -/
inductive Departing (p : Role) (g : ℕ) (v : View) : Prop
  /-- It has read a hello of the later generation. -/
  | raised (k j : ℕ) (hr : v.recv p = some (.derived p k)) (hlt : k < g) (hh : v.Helloed p j g)
  /-- Its inbox is lost. -/
  | lost (hg : Gone p v) (heff : v.eff p + 1 = g) (hmax : g ≤ u32Max)
  /-- Its inbox is lost, and there is no later generation. -/
  | last (hr : v.recv p = some (.derived p g)) (hg : g = u32Max)

theorem Env.departing (h : Env κ p v v') (hi : Inv v) (hd : Departing p g v) : Departing p g v' := by
  cases hd with
  | raised k j hr hlt hh => exact .raised k j (h.recv_eq.trans hr) hlt (h.helloed hh)
  | lost hg heff hmax => exact .lost (h.gone hi hg) (by rw [h.eff_eq, heff]) hmax
  | last hr hg => exact .last (h.recv_eq.trans hr) hg

theorem Departing.later (hd : Departing p g v) :
    v.eff p < g ∨ g = u32Max ∧ v.recv p = some (.derived p g) := by
  cases hd with
  | raised k j hr hlt => exact .inl (by rwa [eff_of_derived hr])
  | lost hg heff => exact .inl (by omega)
  | last hr hg => exact .inr ⟨hg, hr⟩

/-- Creating the inbox to move to. -/
theorem Departing.put (hd : Departing p g v) {l : Option (List Queued)} :
    Departing p g (v.setBox (.derived p g) l) := by
  cases hd with
  | raised k j hr hlt hh => exact .raised k j hr hlt hh
  | last hr hg => exact .last hr hg
  | lost hg heff hmax =>
    refine .lost ⟨fun n hn => ?_, fun hp k x hr hx he => ?_⟩ heff hmax
    · rw [live_generated_setBox]
      exact hg.generated n hn
    · subst hp
      have hk : k ≠ g := by
        have heffk : v.eff .offerer = k := eff_of_derived hr
        omega
      rw [live_setBox_of_ne (by simpa using hk)]
      exact hg.offered rfl k x hr hx he

/-- The move. -/
theorem Departing.move (hd : Departing p g v) (hi : Inv v) (ht : Traced v) (hlossy : κ.Lossy) :
    v.setRecv p (.derived p g) = v ∨ Step κ p v (v.setRecv p (.derived p g)) := by
  cases hd with
  | raised k j hr hlt hh => exact .inr (hi.raise hr hlt hh hlossy)
  | lost hg heff hmax =>
    subst heff
    exact .inr (hg.derive hi ht hmax hlossy)
  | last hr hg =>
    left
    have hsame : Function.update v.recv p (some (.derived p g)) = v.recv := by
      rw [← hr, Function.update_eq_self]
    rw [setRecv, hsame]

/-- The party is on its derived inbox `g` and has the generations `w` of its window still to probe. -/
structure Probing (κ : Regime) (p : Role) (g known : ℕ) (w : List ℕ) (v : View) : Prop where
  recv : v.recv p = some (.derived p g)
  known_eq : v.known p = known
  once : g ∈ w → ¬ v.Helloed p.peer g g
  reaching : ∀ j, known ≤ j → j < g → j ∈ w ∨ v.Reaching p g j
  unoffered : p = .offerer → ∀ x, ¬ v.Offered g x
  met : κ = .meeting → p = .responder → g ∈ w ∨ (v.Meets g → v.Helloed .offerer g g)

/-- The inbox `k` of the other party exists, if that party may still come there. -/
structure Created (κ : Regime) (p : Role) (g k : ℕ) (v : View) : Prop where
  reachable : v.Reachable p g k
  found : κ = .meeting → p = .responder → k = g → v.Meets g → v.Live (.derived .offerer g)

/-- Having moved, the party has the whole window to probe. -/
theorem Departing.probing (hd : Departing p g v) (hi : Inv v) (hknown : v.known p = known)
    (hmax : ∀ j ∈ w, j < u32Max) (hcover : ∀ j, known ≤ j → j < g → j ∈ w)
    (hmet : κ = .meeting → p = .responder → g ∈ w) :
    Probing κ p g known w (v.setRecv p (.derived p g)) where
  recv := recv_setRecv_self
  known_eq := hknown
  once hg hh := by
    have hle : g ≤ v.eff p.peer.peer := (hi.hello_le p.peer g g hh).1
    rw [Role.peer_peer] at hle
    rcases hd.later with hlt | ⟨rfl, -⟩
    · exact absurd hle (Nat.not_le_of_lt hlt)
    · exact absurd (hmax _ hg) (Nat.lt_irrefl _)
  reaching j hj hlt := .inl (hcover j hj hlt)
  unoffered hp x hx := by
    subst hp
    rcases hd.later with hlt | ⟨rfl, -⟩
    · exact absurd (hi.offered g x hx).1 (Nat.not_le_of_lt hlt)
    · exact absurd (hi.lt_max_of_offered hx) (Nat.lt_irrefl _)
  met hκ hp := .inl (hmet hκ hp)

theorem Env.probing (h : Env κ p v v') (hp : Probing κ p g known w v) : Probing κ p g known w v' where
  recv := h.recv_eq.trans hp.recv
  known_eq := h.known_eq.trans hp.known_eq
  once hg hh := hp.once hg (h.helloed_peer hh)
  reaching j hj hlt := (hp.reaching j hj hlt).imp_right (h.reaching hp.recv)
  unoffered hr x hx := by
    subst hr
    exact hp.unoffered rfl x (h.log_peer hx)
  met hκ hr := by
    subst hκ hr
    exact (hp.met rfl rfl).imp_right fun hmet hm => h.helloed (hmet (h.meets_responder hm))

theorem Env.created (h : Env κ p v v') (hr : v.recv p = some (.derived p g)) (hc : Created κ p g k v) :
    Created κ p g k v' where
  reachable := h.reachable hr hc.reachable
  found hκ hp hk hm := by
    subst hκ hp
    have hm' := h.meets_responder hm
    exact h.live_peer hm.live hm'.floor (hc.found rfl rfl hk hm')

/-! ## One probe -/

theorem created_of_live (hl : v.Live (.derived p.peer k)) : Created κ p g k v where
  reachable _ _ _ := hl
  found _ hp hk _ := by
    subst hp hk
    exact hl

/-- Creating the other party's inbox. -/
theorem Probing.put (hp : Probing κ p g known w v) (hnone : ¬ v.Live (.derived p.peer k)) :
    Probing κ p g known w (v.setBox (.derived p.peer k) (some [])) where
  __ := hp
  reaching j hj hlt := (hp.reaching j hj hlt).imp_right fun hr =>
    hr.mono (live_setBox_of_ne (by simp)).mp (Nat.le_refl _) fun f => waits_setBox hnone
  met hκ hr := by
    subst hr
    refine (hp.met hκ rfl).imp_right fun hmet hm => hmet ⟨hm.floor, hm.recv, ?_⟩
    exact (live_setBox_of_ne (by simp [Role.peer])).mp hm.live

/-- Leaving the hello. -/
theorem Probing.hello (hp : Probing κ p g known (k :: w) v) (hnd : (k :: w).Nodup) {l : List Queued}
    {m : Queued} (hl : v.boxes (.derived p.peer k) = some l) (hm : m.frame = hello g n) :
    Probing κ p g known w (v.deposit (.derived p.peer k) l m) where
  __ := hp
  once hg hh := by
    rcases helloed_deposit.mp hh with hh | ⟨hb, -⟩
    · exact hp.once (List.mem_cons_of_mem k hg) hh
    · obtain ⟨-, rfl⟩ := MailboxId.derived.inj hb
      exact (List.nodup_cons.mp hnd).1 hg
  reaching j hj hlt := by
    rcases hp.reaching j hj hlt with hmem | hr
    · rcases List.mem_cons.mp hmem with rfl | hmem
      · exact .inr fun _ _ _ => ⟨n, hm ▸ waits_deposit_self⟩
      · exact .inl hmem
    · exact .inr (hr.mono (live_deposit hl _).mp (Nat.le_refl _) fun f => waits_deposit hl)
  unoffered hr x hx := by
    rcases offered_deposit.mp hx with hx | ⟨-, hf⟩
    · exact hp.unoffered hr x hx
    · rw [hm] at hf
      cases hf
  met hκ hr := by
    subst hr
    rcases hp.met hκ rfl with hmem | hmet
    · rcases List.mem_cons.mp hmem with rfl | hmem
      · exact .inr fun _ => helloed_deposit.mpr (.inr ⟨rfl, n, hm⟩)
      · exact .inl hmem
    · refine .inr fun hm' => helloed_deposit.mpr (.inl (hmet ⟨hm'.floor, hm'.recv, ?_⟩))
      exact (live_deposit hl _).mp hm'.live

/-- The inbox is gone before the hello is left. -/
theorem Probing.skip (hp : Probing κ p g known (k :: w) v) (hc : Created κ p g k v)
    (hnone : ¬ v.Live (.derived p.peer k)) : Probing κ p g known w v where
  __ := hp
  once hg := hp.once (List.mem_cons_of_mem k hg)
  reaching j hj hlt := by
    rcases hp.reaching j hj hlt with hmem | hr
    · rcases List.mem_cons.mp hmem with rfl | hmem
      · exact .inr fun hl hf hlt => absurd (hc.reachable hl hf hlt) hnone
      · exact .inl hmem
    · exact .inr hr
  met hκ hr := by
    subst hr
    rcases hp.met hκ rfl with hmem | hmet
    · rcases List.mem_cons.mp hmem with rfl | hmem
      · exact .inr fun hm => absurd (hc.found hκ rfl rfl hm) hnone
      · exact .inl hmem
    · exact .inr hmet

/-! ## The end of the window -/

theorem Probing.setSend (hp : Probing κ p g known w v) (b : MailboxId) :
    Probing κ p g known w (v.setSend p b) :=
  ⟨hp.recv, hp.known_eq, hp.once, hp.reaching, hp.unoffered, fun hκ hr =>
    (hp.met hκ hr).imp_right fun hmet hm => hmet ⟨hm.floor, hm.recv, hm.live⟩⟩

/-- Storing the generations ends the entry. -/
theorem Probing.derived (hp : Probing κ p g known [] v) (hsend : v.send p = some (.derived p.peer g))
    (rotation : Awaiting) : Derived p rotation g (v.setGens p g known) where
  recv := hp.recv
  own := by simp [setGens]
  send := hsend
  reaching j hj hl hf hlt := by
    have hj' : known ≤ j := by simpa [setGens] using hj
    rcases hp.reaching j hj' hlt with hmem | hr
    · cases hmem
    · refine hr.mono id (Nat.le_of_eq ?_) (fun _ => id) hl hf hlt
      simp [floor, setGens]
  awaiting hr x hx := absurd hx (hp.unoffered hr x)

theorem Probing.met_setGens (hp : Probing κ .responder g known [] v) (hκ : κ = .meeting) (a i : ℕ) :
    Met (v.setGens .responder a i) := by
  intro k hm
  obtain rfl : k = g := by
    have hr := hp.recv.symm.trans hm.recv
    simpa using hr.symm
  rcases hp.met hκ rfl with hmem | hmet
  · cases hmem
  · refine hmet ⟨?_, hm.recv, hm.live⟩
    have hfloor := hm.floor
    simpa [View.floor, setGens] using hfloor

end Titlan.World.View
