import Titlan.Relay.Server

/-! # What PUT and DELETE reveal

A PUT is answered the same way whether the mailbox exists or not, and so is a DELETE. Over a sequence of
them this is not enough: a PUT of a free id takes a place in the table and a DELETE of an existing one
gives a place back, and near the cap the next PUT tells. Two relays that differ only in their mailboxes
answer alike exactly as long as no PUT gets to the table when one of them is full and the other is
not. -/

namespace Titlan.Relay

open Foundation

/-- A PUT or a DELETE. -/
inductive Probe
  | put (ip : IpAddr) (id : String)
  | delete (id : String)

/-- The request it is. -/
def Probe.request : Probe → Request
  | .put ip id => .put ip id
  | .delete id => .delete id

namespace Server

/-- Task `n` takes its steps, with nothing in between, until it is answered. -/
def finish (s : Server) (n : ℕ) (e : Env) : ℕ → Option (Response × Server)
  | 0 => none
  | fuel + 1 =>
    match s.tasks[n]? with
    | none => none
    | some (.answered r) => some (r, s)
    | some t => (s.perform n e t).bind fun s' => s'.finish n e fuel

/-- A PUT takes two steps to its answer, a DELETE at most three. -/
def serve (s : Server) (p : Probe) (e : Env) : Option (Response × Server) :=
  finish { s with tasks := s.tasks ++ [p.request.task] } s.tasks.length e 4

/-- The answers to requests served one after the other. -/
def responses (s : Server) : List (Probe × Env) → List Response
  | [] => []
  | (p, e) :: rest => (s.serve p e).elim [] fun out => out.1 :: out.2.responses rest

end Server

/-! ## One request -/

namespace AppState

variable {s s₁ s₂ : AppState}

/-- A PUT gets past the shape check and the source's limit. -/
def Admits (s : AppState) (e : Env) : Probe → Prop
  | .put ip id => mailboxIdShapeOk id ∧ (s.srcLimiter.admitPut s.cfg ip e.minute e.now.t₀ e.now.t₁).1
  | .delete _ => False

instance (s : AppState) (e : Env) : (p : Probe) → Decidable (s.Admits e p)
  | .put _ _ => inferInstanceAs (Decidable (_ ∧ _))
  | .delete _ => .isFalse id

/-- The table has no room left. -/
def Full (s : AppState) : Prop := s.cfg.maxMailboxes ≤ s.boxes.size

instance (s : AppState) : Decidable s.Full := inferInstanceAs (Decidable (_ ≤ _))

/-- The answer to a PUT or a DELETE. -/
def answer (s : AppState) (p : Probe) (e : Env) : Response :=
  match p with
  | .delete _ => .noContent
  | .put _ id =>
    if ¬ mailboxIdShapeOk id then .badRequest
    else if ¬ s.Admits e p then .tooManyRequests e.retryAfter
    else if s.Full then .serviceUnavailable
    else .created

/-- The source limiter after a PUT or a DELETE. -/
def limited (s : AppState) (e : Env) : Probe → SourceLimiter
  | .put ip id =>
    if mailboxIdShapeOk id then (s.srcLimiter.admitPut s.cfg ip e.minute e.now.t₀ e.now.t₁).2
    else s.srcLimiter
  | .delete _ => s.srcLimiter

end AppState

namespace Server

variable {s s₁ s₂ : Server} {e : Env}

theorem finish_answered {n fuel : ℕ} {app : AppState} {r : Response} (hn : n < s.tasks.length) :
    (s.become n app (.answered r)).finish n e (fuel + 1) = some (r, s.become n app (.answered r)) := by
  simp only [finish, become_tasks hn]

theorem finish_step {n fuel : ℕ} {t : Task} {s' : Server} (ht : s.tasks[n]? = some t)
    (hstep : s.perform n e t = some s') : s.finish n e (fuel + 1) = s'.finish n e fuel := by
  cases t with
  | answered r => cases hstep
  | _ => simp only [finish, ht, hstep, Option.bind_some]

/-- A later step of a task replaces what the earlier one left. -/
theorem become_become (s : Server) (n : ℕ) (app app' : AppState) (t t' : Task) :
    (s.become n app t).become n app' t' = s.become n app' t' := by
  simp [become]

theorem finish_become {n fuel : ℕ} {app app' : AppState} {t t' : Task} (hn : n < s.tasks.length)
    (hstep : (s.become n app t).perform n e t = some ((s.become n app t).become n app' t')) :
    (s.become n app t).finish n e (fuel + 1) = (s.become n app' t').finish n e fuel := by
  rw [finish_step (become_tasks hn app t) hstep, become_become]

/-- The relay with one more request. -/
def arrived (s : Server) (p : Probe) : Server := { s with tasks := s.tasks ++ [p.request.task] }

theorem arrived_length (s : Server) (p : Probe) : s.tasks.length < (s.arrived p).tasks.length := by
  simp [arrived]

/-- A request's first step. -/
theorem serve_step {p : Probe} {app : AppState} {t : Task}
    (hstep : (s.arrived p).perform s.tasks.length e p.request.task =
      some ((s.arrived p).become s.tasks.length app t)) :
    s.serve p e = ((s.arrived p).become s.tasks.length app t).finish s.tasks.length e 3 :=
  finish_step (by simp) hstep

/-- What a served request answers, and what it leaves of what later answers depend on. -/
structure Served (s : Server) (p : Probe) (e : Env) (s' : Server) : Prop where
  served : s.serve p e = some (s.app.answer p e, s')
  cfg : s'.app.cfg = s.app.cfg
  srcLimiter : s'.app.srcLimiter = s.app.limited e p

/-- A request that is answered by its first step. -/
theorem served_at_once {p : Probe} (app : AppState)
    (hstep : (s.arrived p).perform s.tasks.length e p.request.task =
      some ((s.arrived p).become s.tasks.length app (.answered (s.app.answer p e))))
    (hcfg : app.cfg = s.app.cfg) (hlimiter : app.srcLimiter = s.app.limited e p) :
    ∃ s', s.Served p e s' :=
  ⟨_, (serve_step hstep).trans (finish_answered (s.arrived_length p)), hcfg, hlimiter⟩

/-- A PUT that is not at the cap is granted, whether the mailbox exists or not. -/
theorem putMailbox_spec (app : AppState) (id : String) (now : ℕ) :
    ((app.putMailbox id now).1 = true ↔ ¬ app.Full) ∧ (app.putMailbox id now).2.cfg = app.cfg ∧
      (app.putMailbox id now).2.srcLimiter = app.srcLimiter := by
  unfold AppState.putMailbox
  split
  · next hfull => exact ⟨iff_of_false Bool.false_ne_true (not_not_intro hfull), rfl, rfl⟩
  · next hroom =>
    split
    · exact ⟨iff_of_true rfl hroom, rfl, rfl⟩
    · exact ⟨iff_of_true rfl hroom, rfl, rfl⟩

theorem served_put (s : Server) (ip : IpAddr) (id : String) (e : Env) :
    ∃ s', s.Served (.put ip id) e s' := by
  have hn := s.arrived_length (.put ip id)
  by_cases hshape : mailboxIdShapeOk id = true
  case neg =>
    refine served_at_once s.app ?_ rfl (if_neg hshape).symm
    simp [Probe.request, Request.task, perform, arrived, AppState.answer, hshape]
  have hlimited : s.app.limited e (.put ip id) =
      (s.app.srcLimiter.admitPut s.app.cfg ip e.minute e.now.t₀ e.now.t₁).2 := if_pos hshape
  by_cases hok : (s.app.srcLimiter.admitPut s.app.cfg ip e.minute e.now.t₀ e.now.t₁).1 = true
  case neg =>
    refine served_at_once { s.app with srcLimiter := s.app.limited e (.put ip id) } ?_ rfl rfl
    simp [Probe.request, Request.task, perform, arrived, AppState.answer, AppState.Admits, hshape, hok,
      hlimited]
  -- past the limiter the table decides
  let app := { s.app with srcLimiter := s.app.limited e (.put ip id) }
  obtain ⟨hgranted, hcfg, hlimiter⟩ := putMailbox_spec app id e.now.t₀
  have hadmit : (s.arrived (.put ip id)).perform s.tasks.length e (Probe.put ip id).request.task =
      some ((s.arrived (.put ip id)).become s.tasks.length app (.putInsert id)) := by
    simp [Probe.request, Request.task, perform, arrived, app, hshape, hok, hlimited]
  have hanswer : (if (app.putMailbox id e.now.t₀).1 then .created else .serviceUnavailable) =
      s.app.answer (.put ip id) e := by
    have hfull : app.Full ↔ s.app.Full := Iff.rfl
    simp [AppState.answer, AppState.Admits, hshape, hok, hgranted, hfull]
  refine ⟨(s.arrived (.put ip id)).become s.tasks.length (app.putMailbox id e.now.t₀).2
    (.answered (s.app.answer (.put ip id) e)), ?_, hcfg, hlimiter⟩
  rw [serve_step hadmit, finish_become hn rfl, ← hanswer]
  exact finish_answered hn

theorem served_delete (s : Server) (id : String) (e : Env) : ∃ s', s.Served (.delete id) e s' := by
  have hn := s.arrived_length (.delete id)
  by_cases hshape : mailboxIdShapeOk id = true
  case neg =>
    refine served_at_once s.app ?_ rfl rfl
    simp [Probe.request, Request.task, perform, arrived, AppState.answer, hshape]
  let app := { s.app with boxes := s.app.boxes.erase id }
  cases hlookup : s.app.boxes.lookup id with
  | none =>
    refine served_at_once app ?_ rfl rfl
    simp [Probe.request, Request.task, perform, arrived, app, AppState.removeMailbox, AppState.answer,
      hshape, hlookup]
  | some mailbox =>
    have hremove : (s.arrived (.delete id)).perform s.tasks.length e (Probe.delete id).request.task =
        some ((s.arrived (.delete id)).become s.tasks.length app
          (.deleteSubtract id mailbox.queuedBytes)) := by
      simp [Probe.request, Request.task, perform, arrived, app, AppState.removeMailbox, hshape, hlookup]
    refine ⟨(s.arrived (.delete id)).become s.tasks.length
      { app.subtractGlobal mailbox.queuedBytes with boxLimiter := app.boxLimiter.forget id }
      (.answered .noContent), ?_, rfl, rfl⟩
    rw [serve_step hremove, finish_become hn rfl, finish_become hn rfl]
    exact finish_answered hn

theorem exists_served (s : Server) (e : Env) : ∀ p, ∃ s', s.Served p e s'
  | .put ip id => s.served_put ip id e
  | .delete id => s.served_delete id e

/-! ## Two relays -/

/-- The relay after a request. -/
def after (s : Server) (p : Probe) (e : Env) : Server := (s.serve p e).elim s Prod.snd

theorem responses_cons (s : Server) (p : Probe) (e : Env) (ps : List (Probe × Env)) :
    s.responses ((p, e) :: ps) = s.app.answer p e :: (s.after p e).responses ps := by
  obtain ⟨s', hs'⟩ := s.exists_served e p
  simp only [responses, after, hs'.served, Option.elim_some]

/-- What the answers may depend on apart from the table. -/
structure Alike (s₁ s₂ : Server) : Prop where
  cfg : s₂.app.cfg = s₁.app.cfg
  srcLimiter : s₂.app.srcLimiter = s₁.app.srcLimiter

/-- Whenever a PUT gets to the table, both relays are full or neither is. -/
def FullTogether (s₁ s₂ : Server) : List (Probe × Env) → Prop
  | [] => True
  | (p, e) :: ps =>
    (s₁.app.Admits e p → (s₁.app.Full ↔ s₂.app.Full)) ∧ FullTogether (s₁.after p e) (s₂.after p e) ps

/-- **Step.** Serving the same request leaves the relays alike. -/
theorem Alike.after (h : s₁.Alike s₂) (p : Probe) (e : Env) : (s₁.after p e).Alike (s₂.after p e) := by
  obtain ⟨t₁, ht₁⟩ := s₁.exists_served e p
  obtain ⟨t₂, ht₂⟩ := s₂.exists_served e p
  have hlimited : s₂.app.limited e p = s₁.app.limited e p := by
    cases p with
    | put ip id => simp only [AppState.limited, h.cfg, h.srcLimiter]
    | delete id => exact h.srcLimiter
  simp only [Server.after, ht₁.served, ht₂.served, Option.elim_some]
  exact ⟨by rw [ht₁.cfg, ht₂.cfg, h.cfg], by rw [ht₁.srcLimiter, ht₂.srcLimiter, hlimited]⟩

/-- **Step.** One request is answered alike exactly if it does not get to two tables of which one is
full. -/
theorem Alike.answer_eq_iff (h : s₁.Alike s₂) (p : Probe) (e : Env) :
    s₁.app.answer p e = s₂.app.answer p e ↔ (s₁.app.Admits e p → (s₁.app.Full ↔ s₂.app.Full)) := by
  cases p with
  | delete id => exact iff_of_true rfl fun hadmits => hadmits.elim
  | put ip id =>
    have hsame : s₂.app.Admits e (.put ip id) ↔ s₁.app.Admits e (.put ip id) := by
      simp only [AppState.Admits, h.cfg, h.srcLimiter]
    by_cases hadmits : s₁.app.Admits e (.put ip id)
    · have hshape : mailboxIdShapeOk id = true := hadmits.1
      by_cases h₁ : s₁.app.Full <;> by_cases h₂ : s₂.app.Full <;>
        simp [AppState.answer, hsame, hadmits, hshape, h₁, h₂]
    · simp [AppState.answer, hsame, hadmits]

/-- **PUT and DELETE reveal existence only through the cap.** Two relays with the same configuration and
the same source limiter answer a sequence of PUT and DELETE requests alike exactly if no PUT gets to the
table while one of them is full and the other is not. -/
theorem responses_eq_iff (h : s₁.Alike s₂) (ps : List (Probe × Env)) :
    s₁.responses ps = s₂.responses ps ↔ s₁.FullTogether s₂ ps := by
  induction ps generalizing s₁ s₂ with
  | nil => exact iff_of_true rfl trivial
  | cons q ps ih =>
    obtain ⟨p, e⟩ := q
    rw [responses_cons, responses_cons, List.cons.injEq, h.answer_eq_iff, ih (h.after p e)]
    rfl

/-! ## Near the cap -/

/-- Another mailbox id. -/
def idB : String := "BAAAAAAAAAAAAAAAAAAAAAAAAAAAAAAAAAAAAAAAAAA"

/-- A third one. -/
def idC : String := "CAAAAAAAAAAAAAAAAAAAAAAAAAAAAAAAAAAAAAAAAAA"

/-- A relay with room for two mailboxes that holds one. -/
def holding (id : String) : Server :=
  (start { smallConfig with maxMailboxes := 2 } fun _ => 0).after (.put localhost id) (envAt 1 0 .nothing)

theorem alike_holding : (holding idA).Alike (holding idB) := ⟨rfl, rfl⟩

/-- A PUT of the one id is granted by both relays. -/
theorem responses_first_put :
    (holding idA).responses [(.put localhost idA, envAt 2 0 .nothing)] =
      (holding idB).responses [(.put localhost idA, envAt 2 0 .nothing)] :=
  (responses_eq_iff alike_holding _).mpr ⟨fun _ => by decide, trivial⟩

/-- A second PUT, of a third id, tells whether the first one found its mailbox: where it did there is
still room. -/
theorem second_put_tells :
    (holding idA).Alike (holding idB) ∧
    (holding idA).app.boxes.size = (holding idB).app.boxes.size ∧
    (holding idA).app.boxLimiter = (holding idB).app.boxLimiter ∧
    (holding idA).responses
      [(.put localhost idA, envAt 2 0 .nothing), (.put localhost idC, envAt 3 0 .nothing)] ≠
      (holding idB).responses
        [(.put localhost idA, envAt 2 0 .nothing), (.put localhost idC, envAt 3 0 .nothing)] :=
  ⟨alike_holding, rfl, rfl, by decide⟩

end Server

end Titlan.Relay
