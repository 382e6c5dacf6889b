import Mathlib.Data.List.Basic
import Titlan.Foundation.Run

/-! # Starting and stopping listeners

`spawn_conversation` and `stop_sync`, called from any number of threads. Both take the lock of the
current sync generation; `spawn_conversation` does all it does under it, `stop_sync` only takes the
generation away and then signals and joins its listeners with no lock held. So a second `stop_sync` does
not see the generation the first one is still joining: it finds nothing to stop, or a newer generation,
and may return while a listener of the older one is running. -/

namespace Titlan.Client

open Foundation

/-- `SyncTasks`: a sync generation, by the number of its cancel channel, and its listeners' handles. -/
structure SyncTasks where
  cancel : ℕ
  handles : List ℕ

/-- A task that runs `conversation_listener`. -/
structure Listener (C : Type) where
  conv : C
  /-- The cancel channel it is subscribed to. -/
  cancel : ℕ
  running : Bool

/-- Where a call of `stop_sync` is. -/
inductive StopPhase
  /-- In front of the locks. -/
  | take
  /-- It has taken a generation. -/
  | send (tasks : SyncTasks)
  /-- It has signalled and awaits the handles. -/
  | join (cancel : ℕ) (handles : List ℕ)
  | returned

/-- A call of `stop_sync`. -/
structure StopCall where
  /-- History: how many listeners had been spawned when the call began. -/
  before : ℕ
  phase : StopPhase

/-- The part of the engine that starts and stops listeners. A listener's handle is its number. -/
structure Lifecycle (C : Type) where
  sync : Option SyncTasks
  listening : List C
  listeners : List (Listener C)
  /-- The cancel channels made so far. -/
  channels : ℕ
  /-- The channels on which the signal was sent. -/
  signalled : List ℕ
  calls : List StopCall

/-- A step of one of the threads or tasks. -/
inductive Label (C : Type)
  | spawn (conv : C)
  | call
  | act (n : ℕ)
  /-- A listener returns on the signal. -/
  | observe (k : ℕ)
  /-- A listener returns for a reason of its own. -/
  | finish (k : ℕ)

/-- The handles a call still has to join. -/
def StopPhase.left : StopPhase → List ℕ
  | .send tasks => tasks.handles
  | .join _ handles => handles
  | .take | .returned => []

/-- The call still has to join listener `k` of a generation. -/
def StopPhase.Joins : StopPhase → ℕ → ℕ → Prop
  | .send tasks, cancel, k => tasks.cancel = cancel ∧ k ∈ tasks.handles
  | .join cancel' handles, cancel, k => cancel' = cancel ∧ k ∈ handles
  | _, _, _ => False

namespace Lifecycle

variable {C : Type}

/-- A new engine. -/
def new : Lifecycle C := ⟨none, [], [], 0, [], []⟩

/-- `spawn_conversation`. -/
def spawnConversation [DecidableEq C] (s : Lifecycle C) (conv : C) : Lifecycle C :=
  if conv ∈ s.listening then s
  else
    let tasks := s.sync.getD ⟨s.channels, []⟩
    { s with
      sync := some ⟨tasks.cancel, tasks.handles ++ [s.listeners.length]⟩
      listening := conv :: s.listening
      listeners := s.listeners ++ [⟨conv, tasks.cancel, true⟩]
      channels := if s.sync.isSome then s.channels else s.channels + 1 }

/-- A listener's task ends. -/
def finished (s : Lifecycle C) (k : ℕ) (l : Listener C) : Lifecycle C :=
  { s with listeners := s.listeners.set k { l with running := false } }

/-- A call goes on in another phase. -/
def goOn (s : Lifecycle C) (n : ℕ) (call : StopCall) (phase : StopPhase) : Lifecycle C :=
  { s with calls := s.calls.set n { call with phase } }

/-- The task of a handle has ended. -/
def done (s : Lifecycle C) (k : ℕ) : Bool := (s.listeners[k]?).all fun l => !l.running

/-- `stop_sync`, one step. -/
def stopSync (s : Lifecycle C) (n : ℕ) (call : StopCall) : Option (Lifecycle C) :=
  match call.phase with
  | .take =>
    match s.sync with
    | none => some ({ s with listening := [] }.goOn n call .returned)
    | some tasks => some ({ s with sync := none, listening := [] }.goOn n call (.send tasks))
  | .send tasks =>
    some ({ s with signalled := tasks.cancel :: s.signalled }.goOn n call (.join tasks.cancel tasks.handles))
  | .join _ [] => some (s.goOn n call .returned)
  | .join cancel (k :: rest) => if s.done k then some (s.goOn n call (.join cancel rest)) else none
  | .returned => none

/-- One step. -/
def step [DecidableEq C] (s : Lifecycle C) : Label C → Option (Lifecycle C)
  | .spawn conv => some (s.spawnConversation conv)
  | .call => some { s with calls := s.calls ++ [⟨s.listeners.length, .take⟩] }
  | .act n => (s.calls[n]?).bind (s.stopSync n)
  | .observe k =>
    (s.listeners[k]?).bind fun l =>
      if l.running ∧ l.cancel ∈ s.signalled then some (s.finished k l) else none
  | .finish k => (s.listeners[k]?).bind fun l => if l.running then some (s.finished k l) else none

/-! ## What is to hold -/

/-- Within one generation each conversation has at most one listener. -/
def OnePerGeneration (s : Lifecycle C) : Prop :=
  ∀ (i j : ℕ) (l l' : Listener C), s.listeners[i]? = some l → s.listeners[j]? = some l' →
    l.cancel = l'.cancel → l.conv = l'.conv → i = j

/-- Listener `l` is of the current generation. -/
def Current (s : Lifecycle C) (l : Listener C) : Prop :=
  ∃ tasks, s.sync = some tasks ∧ tasks.cancel = l.cancel

/-- Every running listener is of the current generation, or of one that a `stop_sync` is still joining
it for. -/
def Owned (s : Lifecycle C) : Prop :=
  ∀ (k : ℕ) (l : Listener C), s.listeners[k]? = some l → l.running = true →
    s.Current l ∨ ∃ (n : ℕ) (call : StopCall), s.calls[n]? = some call ∧ call.phase.Joins l.cancel k

/-- If call `n` has returned, no listener spawned before it began is running. -/
def Stopped (s : Lifecycle C) (n : ℕ) : Prop :=
  ∀ call : StopCall, s.calls[n]? = some call → call.phase = .returned →
    ∀ k < call.before, ∀ l : Listener C, s.listeners[k]? = some l → l.running = false

/-! ## The invariant -/

/-- The current generation and the spawned listeners fit together. -/
structure Inv (s : Lifecycle C) : Prop where
  made : ∀ (k : ℕ) (l : Listener C), s.listeners[k]? = some l → l.cancel < s.channels
  current : ∀ tasks, s.sync = some tasks → tasks.cancel < s.channels
  handles : ∀ tasks, s.sync = some tasks → ∀ k ∈ tasks.handles,
    ∃ l, s.listeners[k]? = some l ∧ l.cancel = tasks.cancel
  handled : ∀ tasks, s.sync = some tasks → ∀ (k : ℕ) (l : Listener C), s.listeners[k]? = some l →
    l.cancel = tasks.cancel → k ∈ tasks.handles ∧ l.conv ∈ s.listening
  one : s.OnePerGeneration
  owned : s.Owned
  began : ∀ (n : ℕ) (call : StopCall), s.calls[n]? = some call → call.before ≤ s.listeners.length

variable {s s' : Lifecycle C} {n k : ℕ} {call : StopCall}

theorem inv_new : Inv (new : Lifecycle C) where
  made _ _ h := by cases h
  current _ h := by cases h
  handles _ h := by cases h
  handled _ h := by cases h
  one _ _ _ _ h := by cases h
  owned _ _ h := by cases h
  began _ _ h := by cases h

/-! ### Spawning -/

section Spawn

variable {conv : C} {tasks : SyncTasks}

/-- No listener of the generation a new conversation joins has that conversation. -/
theorem Inv.fresh (h : s.Inv) (ht : s.sync.getD ⟨s.channels, []⟩ = tasks) {l : Listener C}
    (hl : s.listeners[k]? = some l) (hcancel : l.cancel = tasks.cancel) :
    s.sync = some tasks ∧ k ∈ tasks.handles ∧ l.conv ∈ s.listening := by
  cases hs : s.sync with
  | none =>
    rw [hs] at ht
    subst ht
    exact absurd (h.made k l hl) (Nat.not_lt.mpr (Nat.le_of_eq hcancel.symm))
  | some t =>
    rw [hs] at ht
    subst ht
    exact ⟨rfl, h.handled _ hs k l hl hcancel⟩

theorem Inv.spawn [DecidableEq C] (h : s.Inv) (conv : C) : (s.spawnConversation conv).Inv := by
  unfold spawnConversation
  split
  · exact h
  next hconv =>
  generalize ht : s.sync.getD ⟨s.channels, []⟩ = tasks
  have hmade : tasks.cancel < (if s.sync.isSome then s.channels else s.channels + 1) := by
    cases hs : s.sync with
    | none =>
      rw [hs] at ht
      exact ht ▸ Nat.lt_succ_self _
    | some t =>
      rw [hs] at ht
      exact ht ▸ h.current t hs
  have hold : ∀ {k : ℕ} {l : Listener C}, s.listeners[k]? = some l →
      (s.listeners ++ [⟨conv, tasks.cancel, true⟩])[k]? = some l := by
    intro k l hl
    rw [List.getElem?_append_left (List.getElem?_eq_some_iff.mp hl).1]
    exact hl
  constructor
  case made =>
    intro k l hl
    obtain ⟨-, rfl⟩ | hl := getElem?_append_cases hl
    · exact hmade
    · have hlt := h.made k l hl
      dsimp only
      split <;> omega
  case current =>
    rintro _ ⟨⟩
    exact hmade
  case handles =>
    rintro _ ⟨⟩ k hk
    rcases mem_concat hk with hk | rfl
    · cases hs : s.sync with
      | none =>
        rw [hs] at ht
        subst ht
        cases hk
      | some t =>
        rw [hs] at ht
        subst ht
        obtain ⟨l, hl, hcancel⟩ := h.handles t hs k hk
        exact ⟨l, hold hl, hcancel⟩
    · exact ⟨_, List.getElem?_concat_length, rfl⟩
  case handled =>
    rintro _ ⟨⟩ k l hl hcancel
    obtain ⟨rfl, rfl⟩ | hl := getElem?_append_cases hl
    · exact ⟨List.mem_append_right _ List.mem_cons_self, List.mem_cons_self⟩
    · obtain ⟨-, hk, hl⟩ := h.fresh ht hl hcancel
      exact ⟨List.mem_append_left _ hk, List.mem_cons_of_mem _ hl⟩
  case one =>
    intro i j l l' hl hl' hcancel heq
    obtain ⟨rfl, rfl⟩ | hl := getElem?_append_cases hl
    · obtain ⟨rfl, -⟩ | hl' := getElem?_append_cases hl'
      · rfl
      · have hmem := (h.fresh ht hl' hcancel.symm).2.2
        rw [← heq] at hmem
        exact absurd hmem hconv
    · obtain ⟨-, rfl⟩ | hl' := getElem?_append_cases hl'
      · have hmem := (h.fresh ht hl hcancel).2.2
        rw [heq] at hmem
        exact absurd hmem hconv
      · exact h.one i j l l' hl hl' hcancel heq
  case owned =>
    intro k l hl hrunning
    obtain ⟨-, rfl⟩ | hl := getElem?_append_cases hl
    · exact .inl ⟨_, rfl, rfl⟩
    · refine (h.owned k l hl hrunning).imp ?_ id
      rintro ⟨t, hs, hcancel⟩
      rw [hs] at ht
      exact ⟨_, rfl, ht ▸ hcancel⟩
  case began =>
    intro n call hcall
    have hle := h.began n call hcall
    rw [List.length_append]
    omega

end Spawn

/-! ### Stopping -/

/-- What a running listener is joined by does not change when a call goes on that leaves none out. -/
theorem Owned.goOn (h : s.Owned) (hn : s.calls[n]? = some call) {phase : StopPhase}
    (hjoins : ∀ (k : ℕ) (l : Listener C), s.listeners[k]? = some l → l.running = true →
      call.phase.Joins l.cancel k → phase.Joins l.cancel k) : (s.goOn n call phase).Owned := by
  intro k l hl hrunning
  refine (h k l hl hrunning).imp id ?_
  rintro ⟨m, call', hm, hphase⟩
  by_cases hmn : m = n
  · subst hmn
    cases hn.symm.trans hm
    refine ⟨m, ⟨call.before, phase⟩, ?_, hjoins k l hl hrunning hphase⟩
    exact List.getElem?_set_self (List.getElem?_eq_some_iff.mp hn).1
  · exact ⟨m, call', (List.getElem?_set_ne (Ne.symm hmn)).trans hm, hphase⟩

theorem began_goOn (h : s.Inv) (hn : s.calls[n]? = some call) {phase : StopPhase} (m : ℕ)
    (call' : StopCall) (hm : (s.goOn n call phase).calls[m]? = some call') :
    call'.before ≤ s.listeners.length := by
  obtain ⟨-, rfl⟩ | ⟨-, hm⟩ := getElem?_set_cases hn hm
  · exact h.began n call hn
  · exact h.began m call' hm

/-- A call that goes on leaves all but itself alone. -/
theorem Inv.goOn (h : s.Inv) (hn : s.calls[n]? = some call) {phase : StopPhase}
    (hjoins : ∀ (k : ℕ) (l : Listener C), s.listeners[k]? = some l → l.running = true →
      call.phase.Joins l.cancel k → phase.Joins l.cancel k) : (s.goOn n call phase).Inv where
  __ := h
  owned := h.owned.goOn hn hjoins
  began := began_goOn h hn

theorem Inv.take (h : s.Inv) (hn : s.calls[n]? = some call) (hphase : call.phase = .take)
    {tasks : SyncTasks} (hs : s.sync = some tasks) :
    ({ s with sync := none, listening := [] }.goOn n call (.send tasks)).Inv where
  __ := h
  current _ ht := by cases ht
  handles _ ht := by cases ht
  handled _ ht := by cases ht
  began := began_goOn h hn
  owned k l hl hrunning := by
    rcases h.owned k l hl hrunning with ⟨t, ht, hcancel⟩ | ⟨m, call', hm, hjoins⟩
    · -- the listeners of the generation taken are the call's to join
      cases hs.symm.trans ht
      refine .inr ⟨n, ⟨call.before, .send tasks⟩, ?_, hcancel, (h.handled tasks hs k l hl hcancel.symm).1⟩
      exact List.getElem?_set_self (List.getElem?_eq_some_iff.mp hn).1
    · have hmn : n ≠ m := by
        rintro rfl
        cases hn.symm.trans hm
        rw [hphase] at hjoins
        exact hjoins
      exact .inr ⟨m, call', (List.getElem?_set_ne hmn).trans hm, hjoins⟩

theorem Inv.stopSync (h : s.Inv) (hn : s.calls[n]? = some call) (hstep : s.stopSync n call = some s') :
    s'.Inv := by
  unfold Lifecycle.stopSync at hstep
  split at hstep
  next hphase =>
    split at hstep
    next hs =>
      cases hstep
      have hcleared : ({ s with listening := [] } : Lifecycle C).Inv :=
        ⟨h.made, h.current, h.handles, fun t ht => absurd ht (by simp [hs]), h.one, h.owned, h.began⟩
      refine hcleared.goOn hn fun k l _ _ hjoins => ?_
      rw [hphase] at hjoins
      exact hjoins.elim
    next tasks hs =>
      cases hstep
      exact h.take hn hphase hs
  next tasks hphase =>
    cases hstep
    have hsent : ({ s with signalled := tasks.cancel :: s.signalled } : Lifecycle C).Inv :=
      { h with }
    refine hsent.goOn hn fun k l _ _ hjoins => ?_
    rw [hphase] at hjoins
    exact hjoins
  next cancel hphase =>
    cases hstep
    refine h.goOn hn fun k l _ _ hjoins => ?_
    rw [hphase] at hjoins
    cases hjoins.2
  next cancel k rest hphase =>
    split at hstep
    next hdone =>
      cases hstep
      refine h.goOn hn fun k' l hl hrunning hjoins => ?_
      rw [hphase] at hjoins
      refine ⟨hjoins.1, (List.mem_cons.mp hjoins.2).resolve_left ?_⟩
      rintro rfl
      simp [done, hl, hrunning] at hdone
    next => cases hstep
  next => cases hstep

/-! ### A listener ends -/

variable {l : Listener C}

/-- Another listener, or the same one no longer running. -/
theorem finished_cases (hl : s.listeners[k]? = some l) {i : ℕ} {l' : Listener C}
    (h : (s.finished k l).listeners[i]? = some l') :
    ∃ l₀, s.listeners[i]? = some l₀ ∧ l'.cancel = l₀.cancel ∧ l'.conv = l₀.conv ∧
      (l'.running = true → l₀.running = true) := by
  obtain ⟨rfl, rfl⟩ | ⟨-, h⟩ := getElem?_set_cases hl h
  · exact ⟨l, hl, rfl, rfl, fun hrunning => by cases hrunning⟩
  · exact ⟨l', h, rfl, rfl, id⟩

theorem finished_of_ne {i : ℕ} (hne : i ≠ k) : (s.finished k l).listeners[i]? = s.listeners[i]? :=
  List.getElem?_set_ne (Ne.symm hne)

theorem finished_self (hl : s.listeners[k]? = some l) :
    (s.finished k l).listeners[k]? = some { l with running := false } :=
  List.getElem?_set_self (List.getElem?_eq_some_iff.mp hl).1

theorem Inv.finished (h : s.Inv) (hl : s.listeners[k]? = some l) : (s.finished k l).Inv where
  made i l' hl' := by
    obtain ⟨l₀, hl₀, hcancel, -, -⟩ := finished_cases hl hl'
    exact hcancel ▸ h.made i l₀ hl₀
  current := h.current
  handles tasks hs i hi := by
    obtain ⟨l₀, hl₀, hcancel⟩ := h.handles tasks hs i hi
    by_cases hik : i = k
    · subst hik
      cases hl.symm.trans hl₀
      exact ⟨_, finished_self hl, hcancel⟩
    · exact ⟨l₀, (finished_of_ne hik).trans hl₀, hcancel⟩
  handled tasks hs i l' hl' hcancel' := by
    obtain ⟨l₀, hl₀, hcancel, hconv, -⟩ := finished_cases hl hl'
    exact hconv ▸ h.handled tasks hs i l₀ hl₀ (hcancel ▸ hcancel')
  one i j l₁ l₂ hl₁ hl₂ hcancel hconv := by
    obtain ⟨l₁', hl₁', hcancel₁, hconv₁, -⟩ := finished_cases hl hl₁
    obtain ⟨l₂', hl₂', hcancel₂, hconv₂, -⟩ := finished_cases hl hl₂
    exact h.one i j l₁' l₂' hl₁' hl₂' (hcancel₁ ▸ hcancel₂ ▸ hcancel) (hconv₁ ▸ hconv₂ ▸ hconv)
  owned i l' hl' hrunning := by
    obtain ⟨l₀, hl₀, hcancel, -, hrunning₀⟩ := finished_cases hl hl'
    have howned := h.owned i l₀ hl₀ (hrunning₀ hrunning)
    unfold Current at howned ⊢
    rw [hcancel]
    exact howned
  began m call hm := by
    have hle := h.began m call hm
    rwa [Lifecycle.finished, List.length_set]

/-- **Step.** -/
theorem Inv.step [DecidableEq C] (h : s.Inv) {a : Label C} (hstep : s.step a = some s') : s'.Inv := by
  cases a with
  | spawn conv =>
    cases hstep
    exact h.spawn conv
  | call =>
    cases hstep
    refine ⟨h.made, h.current, h.handles, h.handled, h.one, fun k l hl hrunning => ?_, fun n call hn => ?_⟩
    · refine (h.owned k l hl hrunning).imp id ?_
      rintro ⟨m, call, hm, hjoins⟩
      exact ⟨m, call, (List.getElem?_append_left (List.getElem?_eq_some_iff.mp hm).1).trans hm, hjoins⟩
    · obtain ⟨-, rfl⟩ | hn := getElem?_append_cases hn
      · exact Nat.le_refl _
      · exact h.began n call hn
  | act n =>
    obtain ⟨call, hn, hstep⟩ := Option.bind_eq_some_iff.mp hstep
    exact h.stopSync hn hstep
  | observe k =>
    obtain ⟨l, hl, hstep⟩ := Option.bind_eq_some_iff.mp hstep
    split at hstep
    · cases hstep
      exact h.finished hl
    · cases hstep
  | finish k =>
    obtain ⟨l, hl, hstep⟩ := Option.bind_eq_some_iff.mp hstep
    split at hstep
    · cases hstep
      exact h.finished hl
    · cases hstep

/-! ## When a stop is a stop -/

/-- Call `n` has taken what there was to take, and every running listener spawned before it began is
still to be joined. -/
structure Covers (s : Lifecycle C) (n before : ℕ) : Prop where
  call : ∃ call, s.calls[n]? = some call ∧ call.before = before ∧ call.phase ≠ .take ∧
    ∀ k < before, ∀ l : Listener C, s.listeners[k]? = some l → l.running = true → k ∈ call.phase.left
  began : before ≤ s.listeners.length

variable {before : ℕ}

theorem Covers.stopped (h : s.Covers n before) : s.Stopped n := by
  obtain ⟨call, hn, rfl, -, hleft⟩ := h.call
  intro call' hn' hphase k hk l hl
  cases hn.symm.trans hn'
  rw [← Bool.not_eq_true]
  intro hrunning
  have hmem := hleft k hk l hl hrunning
  rw [hphase] at hmem
  cases hmem

theorem Covers.spawn [DecidableEq C] (h : s.Covers n before) (conv : C) :
    (s.spawnConversation conv).Covers n before := by
  unfold spawnConversation
  split
  · exact h
  · obtain ⟨call, hn, hbefore, hphase, hleft⟩ := h.call
    refine ⟨⟨call, hn, hbefore, hphase, fun k hk l hl hrunning => ?_⟩, ?_⟩
    · -- the new listener has a later number
      obtain ⟨rfl, -⟩ | hl := getElem?_append_cases hl
      · exact absurd h.began (Nat.not_le.mpr hk)
      · exact hleft k hk l hl hrunning
    · have hbegan := h.began
      rw [List.length_append]
      omega

theorem Covers.finished (h : s.Covers n before) (hl : s.listeners[k]? = some l) :
    (s.finished k l).Covers n before := by
  obtain ⟨call, hn, hbefore, hphase, hleft⟩ := h.call
  refine ⟨⟨call, hn, hbefore, hphase, fun i hi l' hl' hrunning => ?_⟩, ?_⟩
  · obtain ⟨l₀, hl₀, -, -, hrunning₀⟩ := finished_cases hl hl'
    exact hleft i hi l₀ hl₀ (hrunning₀ hrunning)
  · rw [Lifecycle.finished, List.length_set]
    exact h.began

/-- A call goes on that leaves no running listener out. -/
theorem Covers.goOn (h : s.Covers n before) {m : ℕ} {call : StopCall} (hm : s.calls[m]? = some call)
    {phase : StopPhase} (hphase : call.phase ≠ .take → phase ≠ .take)
    (hleft : ∀ k ∈ call.phase.left, s.done k = false → k ∈ phase.left) :
    (s.goOn m call phase).Covers n before := by
  obtain ⟨call', hn, hbefore, hphase', hleft'⟩ := h.call
  refine ⟨?_, h.began⟩
  by_cases hnm : n = m
  · subst hnm
    cases hn.symm.trans hm
    refine ⟨⟨call.before, phase⟩, List.getElem?_set_self (List.getElem?_eq_some_iff.mp hn).1, hbefore,
      hphase hphase', fun k hk l hl hrunning => ?_⟩
    exact hleft k (hleft' k hk l hl hrunning) (by simp [done, show s.listeners[k]? = some l from hl, hrunning])
  · exact ⟨call', (List.getElem?_set_ne (Ne.symm hnm)).trans hn, hbefore, hphase', hleft'⟩

theorem Covers.stopSync (h : s.Covers n before) {m : ℕ} {call : StopCall} (hm : s.calls[m]? = some call)
    (hstep : s.stopSync m call = some s') : s'.Covers n before := by
  unfold Lifecycle.stopSync at hstep
  split at hstep
  next hphase =>
    have hcleared : ∀ sync, ({ s with sync, listening := [] } : Lifecycle C).Covers n before :=
      fun _ => ⟨h.call, h.began⟩
    split at hstep
    next hs =>
      cases hstep
      exact (hcleared s.sync).goOn hm (absurd hphase) (by simp [hphase, StopPhase.left])
    next tasks hs =>
      cases hstep
      exact (hcleared none).goOn hm (absurd hphase) (by simp [hphase, StopPhase.left])
  next tasks hphase =>
    cases hstep
    have hsent : ({ s with signalled := tasks.cancel :: s.signalled } : Lifecycle C).Covers n before :=
      ⟨h.call, h.began⟩
    refine hsent.goOn hm (fun _ => StopPhase.noConfusion) fun k hk _ => ?_
    rw [hphase] at hk
    exact hk
  next cancel hphase =>
    cases hstep
    exact h.goOn hm (fun _ => StopPhase.noConfusion) (by simp [hphase, StopPhase.left])
  next cancel k rest hphase =>
    split at hstep
    next hdone =>
      cases hstep
      refine h.goOn hm (fun _ => StopPhase.noConfusion) fun k' hk' hrunning => ?_
      rw [hphase] at hk'
      refine (List.mem_cons.mp hk').resolve_left ?_
      rintro rfl
      rw [hdone] at hrunning
      cases hrunning
    next => cases hstep
  next => cases hstep

/-- **Step.** -/
theorem Covers.step [DecidableEq C] (h : s.Covers n before) {a : Label C} (hstep : s.step a = some s') :
    s'.Covers n before := by
  cases a with
  | spawn conv =>
    cases hstep
    exact h.spawn conv
  | call =>
    cases hstep
    obtain ⟨call, hn, hrest⟩ := h.call
    exact ⟨⟨call, (List.getElem?_append_left (List.getElem?_eq_some_iff.mp hn).1).trans hn, hrest⟩, h.began⟩
  | act m =>
    obtain ⟨call, hm, hstep⟩ := Option.bind_eq_some_iff.mp hstep
    exact h.stopSync hm hstep
  | observe k =>
    obtain ⟨l, hl, hstep⟩ := Option.bind_eq_some_iff.mp hstep
    split at hstep
    · cases hstep
      exact h.finished hl
    · cases hstep
  | finish k =>
    obtain ⟨l, hl, hstep⟩ := Option.bind_eq_some_iff.mp hstep
    split at hstep
    · cases hstep
      exact h.finished hl
    · cases hstep

/-- The step in which call `n` takes what there is covers the listeners of the current generation. -/
theorem Inv.covers_take [DecidableEq C] (h : s.Inv) (hn : s.calls[n]? = some call)
    (hphase : call.phase = .take) (hstep : s.step (.act n) = some s')
    (hcurrent : ∀ k < call.before, ∀ l, s.listeners[k]? = some l → l.running = true → s.Current l) :
    s'.Covers n call.before := by
  have hset : ∀ call', (s.calls.set n call')[n]? = some call' := fun call' =>
    List.getElem?_set_self (List.getElem?_eq_some_iff.mp hn).1
  simp only [Lifecycle.step, hn, Option.bind_some, Lifecycle.stopSync, hphase] at hstep
  split at hstep
  next hs =>
    cases hstep
    refine ⟨⟨_, hset _, rfl, StopPhase.noConfusion, fun k hk l hl hrunning => ?_⟩, h.began n call hn⟩
    obtain ⟨tasks, ht, -⟩ := hcurrent k hk l hl hrunning
    rw [hs] at ht
    cases ht
  next tasks hs =>
    cases hstep
    refine ⟨⟨_, hset _, rfl, StopPhase.noConfusion, fun k hk l hl hrunning => ?_⟩, h.began n call hn⟩
    obtain ⟨tasks', ht, hcancel⟩ := hcurrent k hk l hl hrunning
    cases hs.symm.trans ht
    exact (h.handled tasks hs k l hl hcancel.symm).1

/-! ### Returning early -/

section Early

variable [DecidableEq C] {handles : List ℕ} {cancel i : ℕ} {l : Listener C}

/-- A handle whose task has ended is joined. -/
theorem step_join (hn : s.calls[n]? = some ⟨before, .join cancel (k :: handles)⟩)
    (hdone : s.done k = true) :
    s.step (.act n) = some (s.goOn n ⟨before, .join cancel (k :: handles)⟩ (.join cancel handles)) := by
  simp [step, hn, stopSync, hdone]

/-- A listener returns on the signal. -/
theorem step_observe (hl : s.listeners[k]? = some l) (hrunning : l.running = true)
    (hsignal : l.cancel ∈ s.signalled) : s.step (.observe k) = some (s.finished k l) := by
  simp [step, hl, hrunning, hsignal]

/-- A call that joins a signalled generation can get to its end while a listener of another one is
left as it is. -/
theorem exists_return (hn : s.calls[n]? = some ⟨before, .join cancel handles⟩)
    (hsignal : cancel ∈ s.signalled)
    (hhandles : ∀ k ∈ handles, ∃ l, s.listeners[k]? = some l ∧ l.cancel = cancel)
    (hl : s.listeners[i]? = some l) (hne : l.cancel ≠ cancel) :
    ∃ ls s', run step s ls = some s' ∧ s'.calls[n]? = some ⟨before, .returned⟩ ∧
      s'.listeners[i]? = some l := by
  have hset : ∀ (s : Lifecycle C) call call', s.calls[n]? = some call →
      (s.calls.set n call')[n]? = some call' := fun s call call' hn =>
    List.getElem?_set_self (List.getElem?_eq_some_iff.mp hn).1
  induction handles generalizing s with
  | nil =>
    refine ⟨[.act n], s.goOn n ⟨before, .join cancel []⟩ .returned, ?_, hset s _ _ hn, hl⟩
    simp [run, step, hn, stopSync]
  | cons k handles ih =>
    obtain ⟨lk, hlk, hcancel⟩ := hhandles k List.mem_cons_self
    have hrest : ∀ k ∈ handles, ∃ l, s.listeners[k]? = some l ∧ l.cancel = cancel :=
      fun k hk => hhandles k (List.mem_cons_of_mem _ hk)
    by_cases hrunning : lk.running = true
    · -- the listener ends on the signal, and then it is joined
      let ended := s.finished k lk
      have hn' : ended.calls[n]? = some ⟨before, .join cancel (k :: handles)⟩ := hn
      have hdone : ended.done k = true := by simp [done, ended, finished_self hlk]
      have hi : i ≠ k := by
        rintro rfl
        cases hl.symm.trans hlk
        exact hne hcancel
      have hrest' : ∀ k ∈ handles, ∃ l, ended.listeners[k]? = some l ∧ l.cancel = cancel := by
        intro j hj
        obtain ⟨lj, hlj, hcancelj⟩ := hrest j hj
        by_cases hjk : j = k
        · subst hjk
          exact ⟨_, finished_self hlk, hcancel⟩
        · exact ⟨lj, (finished_of_ne hjk).trans hlj, hcancelj⟩
      obtain ⟨ls, s', hrun, hreturned, hl'⟩ :=
        ih (s := ended.goOn n ⟨before, .join cancel (k :: handles)⟩ (.join cancel handles))
          (hset ended _ _ hn') hsignal hrest' ((finished_of_ne hi).trans hl)
      refine ⟨.observe k :: .act n :: ls, s', ?_, hreturned, hl'⟩
      rw [run_cons, step_observe hlk hrunning (hcancel ▸ hsignal), Option.bind_some, run_cons,
        step_join hn' hdone]
      exact hrun
    · have hdone : s.done k = true := by simp [done, hlk, hrunning]
      obtain ⟨ls, s', hrun, hreturned, hl'⟩ := ih (s := s.goOn n
        ⟨before, .join cancel (k :: handles)⟩ (.join cancel handles)) (hset s _ _ hn) hsignal hrest hl
      refine ⟨.act n :: ls, s', ?_, hreturned, hl'⟩
      rw [run_cons, step_join hn hdone]
      exact hrun

/-- A call that takes what there is while a listener of an earlier generation runs can return while that
listener still runs. -/
theorem Inv.exists_early (h : s.Inv) (hn : s.calls[n]? = some call) (hphase : call.phase = .take)
    (hl : s.listeners[i]? = some l) (hcurrent : ¬ s.Current l) :
    ∃ ls s', run Lifecycle.step s (.act n :: ls) = some s' ∧
      s'.calls[n]? = some ⟨call.before, .returned⟩ ∧ s'.listeners[i]? = some l := by
  obtain ⟨before, phase⟩ := call
  cases hphase
  have hset : ∀ call', (s.calls.set n call')[n]? = some call' := fun call' =>
    List.getElem?_set_self (List.getElem?_eq_some_iff.mp hn).1
  cases hs : s.sync with
  | none =>
    refine ⟨[], { s with listening := [] }.goOn n ⟨before, .take⟩ .returned, ?_, hset _, hl⟩
    simp [run, Lifecycle.step, hn, Lifecycle.stopSync, hs]
  | some tasks =>
    have hne : l.cancel ≠ tasks.cancel := fun heq => hcurrent ⟨tasks, hs, heq.symm⟩
    let taken := { s with sync := none, listening := [] }.goOn n ⟨before, .take⟩ (.send tasks)
    let sent := { taken with signalled := tasks.cancel :: s.signalled }.goOn n ⟨before, .send tasks⟩
      (.join tasks.cancel tasks.handles)
    have htaken : taken.calls[n]? = some ⟨before, .send tasks⟩ := hset _
    have hsent : sent.calls[n]? = some ⟨before, .join tasks.cancel tasks.handles⟩ :=
      List.getElem?_set_self (List.getElem?_eq_some_iff.mp htaken).1
    obtain ⟨ls, s', hrun, hreturned, hl'⟩ :=
      exists_return hsent List.mem_cons_self (h.handles tasks hs) hl hne
    refine ⟨.act n :: ls, s', ?_, hreturned, hl'⟩
    have hstep : s.step (.act n) = some taken := by
      simp only [Lifecycle.step, hn, Option.bind_some, Lifecycle.stopSync, hs, taken]
    have hstep' : taken.step (.act n) = some sent := by
      simp only [Lifecycle.step, htaken, Option.bind_some, Lifecycle.stopSync, sent]
      rfl
    rw [run_cons, hstep, Option.bind_some, run_cons, hstep']
    exact hrun

end Early

/-- **Stop means stopped, unless another stop is under way.** In every state of every run each
conversation has at most one listener in a generation, and every running listener is of the current
generation or still to be joined by a `stop_sync`. A `stop_sync` that is about to take the generation is
certain to return with no listener running that was spawned before it began exactly if every such
listener that runs is of the current generation. -/
theorem stop_sync_stops_iff [DecidableEq C] (ls : List (Label C)) (s : Lifecycle C)
    (hrun : run step new ls = some s) :
    s.OnePerGeneration ∧ s.Owned ∧
      ∀ (n : ℕ) (call : StopCall), s.calls[n]? = some call → call.phase = .take →
        ((∀ ls' s', run step s (.act n :: ls') = some s' → s'.Stopped n) ↔
          ∀ k < call.before, ∀ l, s.listeners[k]? = some l → l.running = true → s.Current l) := by
  have hinv : s.Inv := run_invariant (fun _ _ _ h (_ : True) hstep => h.step hstep) inv_new
    (Along.of_forall fun _ _ => trivial) hrun
  refine ⟨hinv.one, hinv.owned, fun n call hn hphase => ⟨fun h k hk l hl hrunning => ?_, ?_⟩⟩
  · by_contra hcurrent
    obtain ⟨ls', s', hrun', hreturned, hl'⟩ := hinv.exists_early hn hphase hl hcurrent
    have hstopped := h ls' s' hrun' _ hreturned rfl k hk l hl'
    rw [hrunning] at hstopped
    cases hstopped
  · intro hcurrent ls' s' hrun'
    rw [run_cons] at hrun'
    obtain ⟨t, ht, hrun'⟩ := Option.bind_eq_some_iff.mp hrun'
    have hcovers : s'.Covers n call.before :=
      run_invariant (I := fun s => s.Covers n call.before)
        (fun _ _ _ h (_ : True) hstep => h.step hstep) (hinv.covers_take hn hphase ht hcurrent)
        (Along.of_forall fun _ _ => trivial) hrun'
    exact hcovers.stopped

/-- A conversation is spawned and `stop_sync` is called. -/
def spawnAndStop : List (Label ℕ) := [.spawn 0, .call]

/-- A `stop_sync` with no other under way stops the listener. -/
theorem single_stop_stops :
    ∃ s, run step new spawnAndStop = some s ∧
      ∀ ls' s', run step s (.act 0 :: ls') = some s' → s'.Stopped 0 := by
  refine ⟨_, rfl, ?_⟩
  refine ((stop_sync_stops_iff spawnAndStop _ rfl).2.2 0 ⟨1, .take⟩ rfl rfl).mpr ?_
  intro k hk l hl _
  obtain rfl : k = 0 := Nat.lt_one_iff.mp hk
  cases hl
  exact ⟨_, rfl, rfl⟩

/-- Two calls of `stop_sync`; the first has taken the generation and signals, the second finds nothing to
stop. -/
def stopTwice : List (Label ℕ) := [.spawn 0, .call, .call, .act 0, .act 0, .act 1]

/-- The second call has returned, and the listener spawned before it began is running. -/
theorem second_stop_returns_early : ∃ s, run step new stopTwice = some s ∧ ¬ s.Stopped 1 := by
  refine ⟨_, rfl, fun hstopped => ?_⟩
  exact absurd (hstopped ⟨1, .returned⟩ rfl rfl 0 Nat.one_pos ⟨0, 0, true⟩ rfl) Bool.noConfusion

end Lifecycle

end Titlan.Client
