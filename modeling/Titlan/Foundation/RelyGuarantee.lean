import Mathlib.Logic.Function.Basic
import Titlan.Foundation.Program

/-! # Rely–guarantee reasoning for effectful programs

A thread is verified in a `Setting`: the effect of each operation on the shared state, what may
happen to that state between the thread's own operations (*rely*), what each of its own operations
promises to the others (*guarantee*), and what must hold whenever it is about to perform an operation
(*check*). `Safe` is the resulting predicate on a program and a state; `Triple` packages it with a
precondition, and the rules below follow the shape of the program text. A thread that runs alone is
the special case of an empty rely. -/

namespace Foundation

open Relation

/-- What a thread is verified against. -/
structure Setting (S : Signature) (σ : Type) where
  /-- Performing `o` in a state may answer `r` and leave another state. -/
  exec : (o : S.Op) → σ → S.Answer o → σ → Prop
  /-- What holds whenever the thread is about to perform the operation. -/
  check : S.Op → σ → Prop
  /-- What may happen between two of the thread's operations. -/
  rely : σ → σ → Prop
  /-- What each operation of the thread promises. -/
  guar : σ → σ → Prop

variable {S : Signature} {σ α β : Type}

/-- From `s` on, and whatever the environment does within its rely, every operation of the program
passes its check and keeps the guarantee, and `post` holds once the program has returned. -/
def Safe (C : Setting S σ) (post : α → σ → Prop) : Program S α → σ → Prop
  | .ret a, s => ∀ s', ReflTransGen C.rely s s' → post a s'
  | .op o k, s => ∀ s', ReflTransGen C.rely s s' → C.check o s' ∧
      ∀ r s'', C.exec o s' r s'' → C.guar s' s'' ∧ Safe C post (k r) s''

/-- A program is safe from every state that meets the precondition. -/
def Triple (C : Setting S σ) (pre : σ → Prop) (p : Program S α) (post : α → σ → Prop) : Prop :=
  ∀ s, pre s → Safe C post p s

/-- The environment preserves the assertion. -/
def Stable (C : Setting S σ) (a : σ → Prop) : Prop :=
  ∀ s s', C.rely s s' → a s → a s'

section

variable {C : Setting S σ} {pre pre' : σ → Prop} {post post' : α → σ → Prop}

theorem Stable.star {a : σ → Prop} (h : Stable C a) {s s' : σ}
    (hr : ReflTransGen C.rely s s') (ha : a s) : a s' := by
  induction hr with
  | refl => exact ha
  | tail _ hstep ih => exact h _ _ hstep ih

/-- Safety survives a step of the environment. -/
theorem Safe.of_rely {p : Program S α} {s s' : σ} (h : Safe C post p s) (hr : C.rely s s') :
    Safe C post p s' := by
  cases p with
  | ret a => exact fun t ht => h t (ReflTransGen.head hr ht)
  | op o k => exact fun t ht => h t (ReflTransGen.head hr ht)

/-- A safe thread passes the check of the operation it is about to perform. -/
theorem Safe.check {o : S.Op} {k : S.Answer o → Program S α} {s : σ}
    (h : Safe C post (.op o k) s) : C.check o s :=
  (h s .refl).1

/-- A safe thread keeps its guarantee, and stays safe, when it performs an operation. -/
theorem Safe.step {o : S.Op} {k : S.Answer o → Program S α} {s s' : σ} {r : S.Answer o}
    (h : Safe C post (.op o k) s) (he : C.exec o s r s') :
    C.guar s s' ∧ Safe C post (k r) s' :=
  (h s .refl).2 r s' he

theorem Safe.post_ret {a : α} {s : σ} (h : Safe C post (.ret a) s) : post a s := h s .refl

/-! ## Rules -/

theorem triple_ret {a : α} (hs : Stable C pre) (h : ∀ s, pre s → post a s) :
    Triple C pre (.ret a) post :=
  fun _ hp s' hr => h s' (hs.star hr hp)

/-- **Operation rule.** The precondition is stable and gives the check; every answer keeps the
guarantee and establishes the precondition of the rest. -/
theorem triple_op {o : S.Op} {k : S.Answer o → Program S α} {m : S.Answer o → σ → Prop}
    (hs : Stable C pre) (hc : ∀ s, pre s → C.check o s)
    (hstep : ∀ s r s', pre s → C.exec o s r s' → C.guar s s' ∧ m r s')
    (hk : ∀ r, Triple C (m r) (k r) post) : Triple C pre (.op o k) post := by
  intro s hp s' hr
  have hp' := hs.star hr hp
  refine ⟨hc s' hp', fun r s'' he => ?_⟩
  obtain ⟨hg, hm⟩ := hstep s' r s'' hp' he
  exact ⟨hg, hk r s'' hm⟩

/-- The operation rule for one operation and what follows it. -/
theorem triple_perform {o : S.Op} {k : S.Answer o → Program S α} {m : S.Answer o → σ → Prop}
    (hs : Stable C pre) (hc : ∀ s, pre s → C.check o s)
    (hstep : ∀ s r s', pre s → C.exec o s r s' → C.guar s s' ∧ m r s')
    (hk : ∀ r, Triple C (m r) (k r) post) : Triple C pre (Program.perform o >>= k) post :=
  triple_op hs hc hstep hk

/-- **Sequencing rule.** -/
theorem triple_bind {p : Program S α} {f : α → Program S β} {m : α → σ → Prop}
    {post : β → σ → Prop} (hp : Triple C pre p m) (hf : ∀ a, Triple C (m a) (f a) post) :
    Triple C pre (p >>= f) post := by
  intro s hs
  have hsafe := hp s hs
  clear hp hs
  induction p generalizing s with
  | ret a => exact hf a s hsafe.post_ret
  | op o k ih =>
    intro s' hr
    obtain ⟨hc, hstep⟩ := hsafe s' hr
    refine ⟨hc, fun r s'' he => ?_⟩
    obtain ⟨hg, hk⟩ := hstep r s'' he
    exact ⟨hg, ih r s'' hk⟩

/-- **Consequence.** -/
theorem Triple.mono {p : Program S α} (h : Triple C pre p post) (hpre : ∀ s, pre' s → pre s)
    (hpost : ∀ a s, post a s → post' a s) : Triple C pre' p post' := by
  intro s hs
  have hsafe := h s (hpre s hs)
  clear h hs
  induction p generalizing s with
  | ret a => exact fun s' hr => hpost a s' (hsafe s' hr)
  | op o k ih =>
    intro s' hr
    obtain ⟨hc, hstep⟩ := hsafe s' hr
    refine ⟨hc, fun r s'' he => ?_⟩
    obtain ⟨hg, hk⟩ := hstep r s'' he
    exact ⟨hg, ih r s'' hk⟩

theorem Triple.of_pre {p : Program S α} (h : Triple C pre p post) (hpre : ∀ s, pre' s → pre s) :
    Triple C pre' p post :=
  h.mono hpre fun _ _ => id

/-- **Frame rule.** An assertion that the environment and the guarantee preserve stays true. -/
theorem Triple.frame {p : Program S α} {a : σ → Prop} (h : Triple C pre p post) (hs : Stable C a)
    (hg : ∀ s s', C.guar s s' → a s → a s') :
    Triple C (fun s => pre s ∧ a s) p fun x s => post x s ∧ a s := by
  rintro s ⟨hpre, ha⟩
  have hsafe := h s hpre
  clear h hpre
  induction p generalizing s with
  | ret x => exact fun s' hr => ⟨hsafe s' hr, hs.star hr ha⟩
  | op o k ih =>
    intro s' hr
    obtain ⟨hc, hstep⟩ := hsafe s' hr
    refine ⟨hc, fun r s'' he => ?_⟩
    obtain ⟨hguar, hk⟩ := hstep r s'' he
    exact ⟨hguar, ih r s'' (hg s' s'' hguar (hs.star hr ha)) hk⟩

/-- **Error rule.** A fallible program followed by what is done with its value. -/
theorem triple_attempt {ε : Type} {p : Program S (Except ε α)} {f : α → Program S (Except ε β)}
    {m : Except ε α → σ → Prop} {post : Except ε β → σ → Prop} (hp : Triple C pre p m)
    (herror : ∀ e, Triple C (m (.error e)) (.ret (.error e)) post)
    (hf : ∀ a, Triple C (m (.ok a)) (f a) post) : Triple C pre (p.attempt f) post := by
  refine triple_bind hp fun r => ?_
  cases r with
  | error e => exact herror e
  | ok a => exact hf a

/-- The setting of a program before its operations are renamed. -/
def Setting.comap {T : Signature} (C : Setting T σ) (f : S.Op → T.Op)
    (g : (o : S.Op) → T.Answer (f o) → S.Answer o) : Setting S σ where
  exec o s r s' := ∃ r', g o r' = r ∧ C.exec (f o) s r' s'
  check o := C.check (f o)
  rely := C.rely
  guar := C.guar

/-- **Renaming rule.** -/
theorem Triple.rename {T : Signature} {C : Setting T σ} {f : S.Op → T.Op}
    {g : (o : S.Op) → T.Answer (f o) → S.Answer o} {p : Program S α}
    (h : Triple (C.comap f g) pre p post) : Triple C pre (p.rename f g) post := by
  intro s hs
  have hsafe := h s hs
  clear h hs
  induction p generalizing s with
  | ret a => exact hsafe
  | op o k ih =>
    intro s' hr
    obtain ⟨hc, hstep⟩ := hsafe s' hr
    refine ⟨hc, fun r s'' he => ?_⟩
    obtain ⟨hg, hk⟩ := hstep (g o r) s'' ⟨r, rfl, he⟩
    exact ⟨hg, ih (g o r) s'' hk⟩

/-- **Composition rule.** An assertion the environment preserves and every block preserves is preserved
by whatever is put together from the blocks. -/
theorem Composed.triple {B : (β : Type) → Program S β → Prop} {p : Program S α} (hp : Composed B p)
    (hs : Stable C pre) (hB : ∀ β q, B β q → Triple C pre q fun _ => pre) :
    Triple C pre p fun _ => pre := by
  induction hp with
  | ret a => exact triple_ret hs fun _ => id
  | block q k hq _ ih => exact triple_bind (hB _ q hq) ih

end

/-! ## One invariant

The special case in which every thread keeps one invariant and remembers nothing but facts about the
values it has read. -/

section Keeping

variable {exec : (o : S.Op) → σ → S.Answer o → σ → Prop} {I : σ → Prop}

/-- The setting in which everybody keeps the invariant. -/
def Setting.keeping (exec : (o : S.Op) → σ → S.Answer o → σ → Prop) (I : σ → Prop) : Setting S σ where
  exec := exec
  check _ _ := True
  rely s s' := I s → I s'
  guar s s' := I s → I s'

theorem stable_keeping : Stable (Setting.keeping exec I) I := fun _ _ hr => hr

theorem triple_keeping {o : S.Op} {k : S.Answer o → Program S α} {φ : S.Answer o → Prop}
    {post : α → σ → Prop} (hstep : ∀ s r s', I s → exec o s r s' → I s' ∧ φ r)
    (hk : ∀ r, φ r → Triple (Setting.keeping exec I) I (k r) post) :
    Triple (Setting.keeping exec I) I (Program.perform o >>= k) post := by
  refine triple_perform (m := fun r s => I s ∧ φ r) stable_keeping (fun _ _ => trivial)
    (fun s r s' hs hexec => ?_) fun r s hs => hk r hs.2 s hs.1
  obtain ⟨hs', hr⟩ := hstep s r s' hs hexec
  exact ⟨fun _ => hs', hs', hr⟩

theorem triple_keeping_ret {a : α} {φ : α → Prop} (h : φ a) :
    Triple (Setting.keeping exec I) I (.ret a) fun x s => I s ∧ φ x :=
  triple_ret stable_keeping fun _ hs => ⟨hs, h⟩

theorem triple_keeping_bind {p : Program S α} {f : α → Program S β} {φ : α → Prop}
    {post : β → σ → Prop} (hp : Triple (Setting.keeping exec I) I p fun x s => I s ∧ φ x)
    (hf : ∀ x, φ x → Triple (Setting.keeping exec I) I (f x) post) :
    Triple (Setting.keeping exec I) I (p >>= f) post :=
  triple_bind hp fun x s hs => hf x hs.2 s hs.1

end Keeping

/-! ## Threads over one shared state -/

/-- Threads, named by `ι`, over one shared state. A thread that has returned is at rest. -/
structure Threads (ι : Type) (S : Signature) (σ : Type) where
  shared : σ
  todo : ι → Program S Unit

namespace Threads

variable {ι : Type} [DecidableEq ι]

/-- Replace one thread's program. -/
def start (w : Threads ι S σ) (i : ι) (p : Program S Unit) : Threads ι S σ :=
  { w with todo := Function.update w.todo i p }

/-- Replace the shared state. -/
def move (w : Threads ι S σ) (s : σ) : Threads ι S σ := { w with shared := s }

variable {C : ι → Setting S σ} {post : ι → σ → Prop} {w : Threads ι S σ}

/-- Every thread is safe in its own setting, and meets its postcondition once it is at rest. -/
def AllSafe (C : ι → Setting S σ) (post : ι → σ → Prop) (w : Threads ι S σ) : Prop :=
  ∀ i, Safe (C i) (fun _ => post i) (w.todo i) w.shared

omit [DecidableEq ι] in
/-- A step of the environment that every thread relies on keeps all threads safe. -/
theorem AllSafe.move {s' : σ} (h : AllSafe C post w) (hr : ∀ i, (C i).rely w.shared s') :
    AllSafe C post (w.move s') :=
  fun i => (h i).of_rely (hr i)

/-- Starting a safe program keeps all threads safe. -/
theorem AllSafe.start {i : ι} {p : Program S Unit} (h : AllSafe C post w)
    (hp : Safe (C i) (fun _ => post i) p w.shared) : AllSafe C post (w.start i p) := by
  intro j
  by_cases hj : j = i
  · subst hj
    simpa [Threads.start] using hp
  · simpa [Threads.start, Function.update_of_ne hj] using h j

/-- **Parallel composition.** When each thread's guarantee is within every other thread's rely, an
operation of one thread keeps all of them safe. -/
theorem AllSafe.step {i : ι} {o : S.Op} {k : S.Answer o → Program S Unit} {r : S.Answer o} {s' : σ}
    (hcompat : ∀ j, j ≠ i → ∀ s s', (C i).guar s s' → (C j).rely s s')
    (h : AllSafe C post w) (hi : w.todo i = .op o k) (he : (C i).exec o w.shared r s') :
    AllSafe C post ((w.move s').start i (k r)) := by
  have hsafe := h i
  rw [hi] at hsafe
  obtain ⟨hg, hk⟩ := hsafe.step he
  intro j
  by_cases hj : j = i
  · subst hj
    simpa [Threads.start, Threads.move] using hk
  · simpa [Threads.start, Threads.move, Function.update_of_ne hj] using
      (h j).of_rely (hcompat j hj _ _ hg)

end Threads

end Foundation
