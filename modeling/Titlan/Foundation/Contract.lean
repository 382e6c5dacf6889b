import Titlan.Foundation.RelyGuarantee

/-! # Contracts of programs

A contract says which operations a program may perform and which answers it may be given. A program keeps
it if every operation is within the contract for as long as the answers are. Nothing is said about states:
a contract is what a program owes whatever its operations are performed on. -/

namespace Foundation

variable {S T : Signature} {α β : Type}

/-- What a program may do, and what it may count on. -/
structure Contract (S : Signature) where
  /-- The operations it may perform. -/
  performs : S.Op → Prop
  /-- The answers it may be given. -/
  answers : (o : S.Op) → S.Answer o → Prop

namespace Contract

variable (c : Contract S)

/-- Given answers within the contract, every operation is within it, and what is returned has `post`. -/
def Kept (post : α → Prop) : Program S α → Prop
  | .ret a => post a
  | .op o k => c.performs o ∧ ∀ r, c.answers o r → Kept post (k r)

/-- The same of a program whose result does not matter. -/
abbrev Keeps : Program S α → Prop := c.Kept fun _ => True

variable {c} {post post' : α → Prop} {p : Program S α}

theorem Kept.mono (h : c.Kept post p) (hpost : ∀ a, post a → post' a) : c.Kept post' p := by
  induction p with
  | ret a => exact hpost a h
  | op o k ih => exact ⟨h.1, fun r hr => ih r (h.2 r hr)⟩

/-- What a program returns does not matter to the contract. -/
theorem Kept.trivial (h : c.Kept post p) : c.Keeps p :=
  h.mono fun _ _ => True.intro

/-- One operation, with what the contract says about its answer. -/
theorem kept_perform {o : S.Op} (ho : c.performs o) : c.Kept (c.answers o) (Program.perform o) :=
  ⟨ho, fun _ hr => hr⟩

/-- One operation and what follows it. -/
theorem kept_step {o : S.Op} {k : S.Answer o → Program S α} (ho : c.performs o)
    (hk : ∀ r, c.answers o r → c.Kept post (k r)) : c.Kept post (Program.perform o >>= k) :=
  ⟨ho, hk⟩

/-- **Sequencing.** -/
theorem Kept.bind {post : β → Prop} {m : α → Prop} {f : α → Program S β}
    (hp : c.Kept m p) (hf : ∀ a, m a → c.Kept post (f a)) : c.Kept post (p >>= f) := by
  induction p with
  | ret a => exact hf a hp
  | op o k ih => exact ⟨hp.1, fun r hr => ih r (hp.2 r hr)⟩

/-- Sequencing of fallible programs: an error ends the program. -/
theorem Kept.attempt {ε : Type} {post : Except ε β → Prop} {m : α → Prop} {p : Program S (Except ε α)}
    {f : α → Program S (Except ε β)} (hp : c.Kept (fun r => ∀ a, r = .ok a → m a) p)
    (herror : ∀ e, post (.error e)) (hf : ∀ a, m a → c.Kept post (f a)) : c.Kept post (p.attempt f) := by
  refine hp.bind fun r hr => ?_
  cases r with
  | error e => exact herror e
  | ok a => exact hf a (hr a rfl)

/-- A program of single operations within the contract. -/
theorem kept_of_composed (hp : Composed (Each c.performs) p) : c.Kept (fun _ => True) p := by
  induction hp with
  | ret a => trivial
  | block p k hp _ ih =>
    cases hp with
    | op o ho => exact ⟨ho, fun r _ => ih r⟩

/-- Operations renamed into those of another signature. -/
theorem Kept.rename {d : Contract T} {f : S.Op → T.Op} {g : (o : S.Op) → T.Answer (f o) → S.Answer o}
    (hperforms : ∀ o, c.performs o → d.performs (f o))
    (hanswers : ∀ o r, d.answers (f o) r → c.answers o (g o r)) (h : c.Kept post p) :
    d.Kept post (p.rename f g) := by
  induction p with
  | ret a => exact h
  | op o k ih => exact ⟨hperforms o h.1, fun r hr => ih _ (h.2 _ (hanswers o r hr))⟩

/-- **Contracts in a setting.** An assertion that the operations within the contract preserve is preserved by
the program, if their answers are within the contract too. -/
theorem Kept.triple {σ : Type} {C : Setting S σ} {pre : σ → Prop} (h : c.Kept post p) (hs : Stable C pre)
    (hcheck : ∀ o s, c.performs o → pre s → C.check o s)
    (hstep : ∀ o s r s', c.performs o → pre s → C.exec o s r s' →
      C.guar s s' ∧ pre s' ∧ c.answers o r) :
    Triple C pre p fun a s => pre s ∧ post a := by
  induction p with
  | ret a => exact triple_ret hs fun _ hpre => ⟨hpre, h⟩
  | op o k ih =>
    refine triple_op (m := fun r s => pre s ∧ c.answers o r) hs (hcheck o · h.1)
      (fun s r s' hpre hexec => hstep o s r s' h.1 hpre hexec) fun r s hr => ?_
    exact ih r (h.2 r hr.2) s hr.1

end Contract

end Foundation
