import Titlan.Foundation.RelyGuarantee
import Titlan.Foundation.Run

/-! # Histories of a program

A program that runs alone against an arbitrary environment: every operation gets whatever answer the
environment likes. What has happened is a history, newest event first. A predicate on histories that
every event of the program keeps holds in every state of every run. -/

namespace Foundation

variable {S : Signature} {α : Type}

/-- An operation with the answer it got. -/
structure Performed (S : Signature) where
  op : S.Op
  answer : S.Answer op

/-- One event: the program's next operation is answered. -/
def History.step (x : List (Performed S) × Program S α) (answer : (o : S.Op) → S.Answer o) :
    Option (List (Performed S) × Program S α) :=
  match x.2 with
  | .ret _ => none
  | .op o k => some (⟨o, answer o⟩ :: x.1, k (answer o))

/-- The setting in which events are recorded and each must keep `P`. -/
def History.setting (S : Signature) (P : List (Performed S) → Prop) : Setting S (List (Performed S)) where
  exec o h r h' := h' = ⟨o, r⟩ :: h
  check _ _ := True
  rely _ _ := False
  guar _ h' := P h'

variable {P : List (Performed S) → Prop}

theorem History.stable (a : List (Performed S) → Prop) : Stable (History.setting S P) a :=
  fun _ _ hr => hr.elim

variable {pre : List (Performed S) → Prop}

/-- The operation rule: every answer keeps `P` and establishes the precondition of the rest. -/
theorem History.triple_perform {β : Type} {o : S.Op}
    {k : S.Answer o → Program S β} {m : S.Answer o → List (Performed S) → Prop}
    {post : β → List (Performed S) → Prop}
    (hstep : ∀ h r, pre h → P (⟨o, r⟩ :: h) ∧ m r (⟨o, r⟩ :: h))
    (hk : ∀ r, Triple (History.setting S P) (m r) (k r) post) :
    Triple (History.setting S P) pre (Program.perform o >>= k) post := by
  refine Foundation.triple_perform (History.stable _) (fun _ _ => trivial) ?_ hk
  rintro h r h' hpre rfl
  exact hstep h r hpre

/-- The operation rule for an operation alone. -/
theorem History.triple_performed {o : S.Op} {m : S.Answer o → List (Performed S) → Prop}
    (hstep : ∀ h r, pre h → P (⟨o, r⟩ :: h) ∧ m r (⟨o, r⟩ :: h)) :
    Triple (History.setting S P) pre (Program.perform o) m := by
  rw [← (Program.perform o).bind_ret]
  exact History.triple_perform hstep fun r =>
    Foundation.triple_ret (History.stable _) fun _ hm => hm

theorem History.triple_ret {β : Type} {a : β}
    {post : β → List (Performed S) → Prop} (h : ∀ s, pre s → post a s) :
    Triple (History.setting S P) pre (.ret a) post :=
  Foundation.triple_ret (History.stable _) h

/-- **Run rule.** A program that is safe from the empty history keeps `P` in every run. -/
theorem History.holds_of_run {p p' : Program S α} {h : List (Performed S)}
    {answers : List ((o : S.Op) → S.Answer o)}
    {post : α → List (Performed S) → Prop} (hp : Triple (History.setting S P) pre p post) (hpre : pre [])
    (hnil : P []) (hrun : run History.step ([], p) answers = some (h, p')) : P h := by
  have hstep : ∀ (x : List (Performed S) × Program S α) (answer : (o : S.Op) → S.Answer o) (y),
      (P x.1 ∧ Safe (History.setting S P) post x.2 x.1) → True → History.step x answer = some y →
      P y.1 ∧ Safe (History.setting S P) post y.2 y.1 := by
    rintro ⟨h, q⟩ answer y ⟨-, hsafe⟩ - hy
    cases q with
    | ret a => cases hy
    | op o k =>
      cases hy
      exact hsafe.step rfl
  exact (run_invariant hstep ⟨hnil, hp _ hpre⟩ (Along.of_forall fun _ _ => trivial) hrun).1

end Foundation
