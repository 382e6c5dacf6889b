import Mathlib.Logic.Relation

/-! # Effectful programs

A program over an effect *signature* is a tree: it either returns a value or performs one operation
and continues with the answer. Everything the environment decides (what a store returns, what a
network peer replies, how other threads interleave) enters through the answers, so one program text
can be run against a state machine, against an arbitrary environment, or step by step next to other
threads. -/

namespace Foundation

/-- An effect signature: the operations a program may perform, and the type of each one's answer. -/
structure Signature where
  Op : Type
  Answer : Op → Type

/-- A program over the signature `S` that returns an `α`. -/
inductive Program (S : Signature) (α : Type) : Type
  | ret (a : α) : Program S α
  | op (o : S.Op) (k : S.Answer o → Program S α) : Program S α

namespace Program

variable {S : Signature} {α β γ : Type}

/-- Run `p`, then run `f` on what it returned. -/
def andThen : Program S α → (α → Program S β) → Program S β
  | .ret a, f => f a
  | .op o k, f => .op o fun r => andThen (k r) f

instance : Monad (Program S) where
  pure := .ret
  bind := andThen

/-- The program that performs one operation and returns its answer. -/
def perform (o : S.Op) : Program S (S.Answer o) := .op o .ret

@[simp] theorem ret_bind (a : α) (f : α → Program S β) : (.ret a >>= f : Program S β) = f a := rfl

@[simp] theorem pure_eq_ret (a : α) : (pure a : Program S α) = .ret a := rfl

@[simp] theorem op_bind (o : S.Op) (k : S.Answer o → Program S α) (f : α → Program S β) :
    (.op o k >>= f : Program S β) = .op o fun r => k r >>= f := rfl

@[simp] theorem perform_bind (o : S.Op) (f : S.Answer o → Program S β) :
    (perform o >>= f : Program S β) = .op o f := rfl

theorem bind_ret (p : Program S α) : p >>= .ret = p := by
  induction p with
  | ret a => rfl
  | op o k ih =>
    rw [op_bind]
    congr
    funext r
    exact ih r

theorem bind_assoc (p : Program S α) (f : α → Program S β) (g : β → Program S γ) :
    p >>= f >>= g = p >>= fun a => f a >>= g := by
  induction p with
  | ret a => rfl
  | op o k ih =>
    simp only [op_bind]
    congr
    funext r
    exact ih r

/-- The operation a program performs next, if it has not returned. -/
def next? : Program S α → Option S.Op
  | .ret _ => none
  | .op o _ => some o

@[simp] theorem next?_ret (a : α) : (.ret a : Program S α).next? = none := rfl

@[simp] theorem next?_op (o : S.Op) (k : S.Answer o → Program S α) :
    (.op o k : Program S α).next? = some o := rfl

/-- Replace each operation by a program over another signature that answers it. The replacement may look
at what the program goes on with. -/
def elaborate {T : Signature} (f : (o : S.Op) → (S.Answer o → Program S α) → Program T (S.Answer o)) :
    Program S α → Program T α
  | .ret a => .ret a
  | .op o k => f o k >>= fun r => elaborate f (k r)

/-- Go on with the value a fallible program returns, or return its error. -/
def attempt {ε : Type} (p : Program S (Except ε α)) (f : α → Program S (Except ε β)) :
    Program S (Except ε β) :=
  p >>= fun r =>
    match r with
    | .error e => .ret (.error e)
    | .ok a => f a

@[simp] theorem ret_ok_attempt {ε : Type} (a : α) (f : α → Program S (Except ε β)) :
    attempt (.ret (.ok a)) f = f a := rfl

@[simp] theorem ret_error_attempt {ε : Type} (e : ε) (f : α → Program S (Except ε β)) :
    attempt (.ret (.error e)) f = .ret (.error e) := rfl

/-- Rename the operations of a program. -/
def rename {T : Signature} (f : S.Op → T.Op) (g : (o : S.Op) → T.Answer (f o) → S.Answer o) :
    Program S α → Program T α
  | .ret a => .ret a
  | .op o k => .op (f o) fun r => rename f g (k (g o r))

/-- Whatever is answered, what the program returns has `Q`. -/
def Returns (Q : α → Prop) : Program S α → Prop
  | .ret a => Q a
  | .op _ k => ∀ r, Returns Q (k r)

theorem Returns.bind {Q : β → Prop} {p : Program S α} {f : α → Program S β}
    (h : ∀ a, Returns Q (f a)) : Returns Q (p >>= f) := by
  induction p with
  | ret a => exact h a
  | op o k ih => exact ih

end Program

/-! ## Programs put together from blocks -/

section Composed

variable {S : Signature} {α β : Type}

/-- The program is put together from blocks of a given kind: between them it may branch on what they
return. -/
inductive Composed (B : (β : Type) → Program S β → Prop) {α : Type} : Program S α → Prop
  | ret (a : α) : Composed B (.ret a)
  | block {β : Type} (p : Program S β) (k : β → Program S α) (hp : B β p)
    (hk : ∀ b, Composed B (k b)) : Composed B (p >>= k)

variable {B B' : (β : Type) → Program S β → Prop} {p : Program S α}

theorem Composed.of_block (hp : B α p) : Composed B p := by
  rw [← p.bind_ret]
  exact .block p .ret hp .ret

theorem Composed.bind {f : α → Program S β} (hp : Composed B p)
    (hf : ∀ a, Composed B (f a)) : Composed B (p >>= f) := by
  induction hp with
  | ret a => exact hf a
  | block p k hp _ ih =>
    rw [Program.bind_assoc]
    exact .block p _ hp ih

theorem Composed.mono (hp : Composed B p) (h : ∀ β p, B β p → B' β p) : Composed B' p := by
  induction hp with
  | ret a => exact .ret a
  | block p k hp _ ih => exact .block p k (h _ p hp) ih

/-- Blocks that are themselves put together from smaller ones. -/
theorem Composed.expand (hp : Composed B p) (h : ∀ β p, B β p → Composed B' p) : Composed B' p := by
  induction hp with
  | ret a => exact .ret a
  | block p k hp _ ih => exact (h _ p hp).bind ih

/-- Blocks of a single operation of some kind. -/
inductive Each (P : S.Op → Prop) : (β : Type) → Program S β → Prop
  | op (o : S.Op) (ho : P o) : Each P (S.Answer o) (Program.perform o)

/-- The next operation of a program of single operations is of their kind, and so is what follows. -/
theorem Composed.of_op {P : S.Op → Prop} {o : S.Op} {k : S.Answer o → Program S α}
    (h : Composed (Each P) (.op o k)) : P o ∧ ∀ r, Composed (Each P) (k r) := by
  generalize hq : Program.op o k = q at h
  cases h with
  | ret a => cases hq
  | block p k' hp hk =>
    cases hp with
    | op o' ho =>
      cases hq
      exact ⟨ho, hk⟩

end Composed

end Foundation
