import Titlan.Foundation.Run
import Titlan.Outbox.Flush

/-! # Chats are sent in order, and stopping sync can send one twice

Every call keeps the invariant of the shared state against all others, so it holds in every state of
every run: the relay accepts chats in the order of their rows, and a row is marked only after a final
answer to a deposit of its frame.

That a row is accepted at most once is a different matter. The relay's acceptance and the mark are two
steps, and `stop_sync` drops a flush that waits for the response in between. The row is then still
pending and the next flush encrypts it again. Runs in which no flush is dropped there accept every row at
most once. -/

namespace Titlan.Outbox

open Foundation

variable {C : Carrier}

/-! ## Conditions on runs -/

/-- The relay has processed the call's chat deposit, and the response is on its way. -/
def Op.Unanswered : Op C → Prop
  | .response (some _) _ => True
  | _ => False

/-- The operation a call is about to perform, if any, meets `P`. -/
def Next (P : Op C → Prop) : Program (sig C) Unit → Prop
  | .op o _ => P o
  | .ret _ => True

/-- The relay accepts each chat deposit, and every response that is still awaited arrives. -/
def Obliging (w : Sys C) : Label C → Prop
  | .act i c => Next c.Accepts (w.todo i)
  | _ => True

/-- No call is dropped while it waits for the response to a chat deposit. -/
def Unbroken (w : Sys C) : Label C → Prop
  | .drop i => Next (fun o => ¬ o.Unanswered) (w.todo i)
  | _ => True

theorem Next.of_eq {P : Op C → Prop} {p : Program (sig C) Unit} {o : Op C}
    {k : o.Answer → Program (sig C) Unit} (h : Next P p) (hp : p = .op o k) : P o := by
  rw [hp] at h
  exact h

instance {P : Op C → Prop} [DecidablePred P] : DecidablePred (Next P)
  | .op o _ => inferInstanceAs (Decidable (P o))
  | .ret _ => .isTrue trivial

instance (c : Choice C) : DecidablePred c.Accepts
  | .submit (some _) _ _ _ => inferInstanceAs (Decidable (c.processed = some .accepted))
  | .submit none _ _ _ => .isTrue trivial
  | .response (some _) _ => inferInstanceAs (Decidable (c.lost = none))
  | .response none _ => .isTrue trivial
  | .plain _ => .isTrue trivial

instance : DecidablePred (Op.Unanswered (C := C))
  | .response (some _) _ => .isTrue trivial
  | .response none _ => .isFalse id
  | .plain _ => .isFalse id
  | .submit _ _ _ _ => .isFalse id

instance (w : Sys C) : DecidablePred (Obliging w)
  | .act i c => inferInstanceAs (Decidable (Next c.Accepts (w.todo i)))
  | .sendChat _ _ | .startListener _ _ | .drop _ | .reroute _ _ => .isTrue trivial

instance (w : Sys C) : DecidablePred (Unbroken w)
  | .drop i => inferInstanceAs (Decidable (Next (fun o => ¬ o.Unanswered) (w.todo i)))
  | .sendChat _ _ | .startListener _ _ | .act _ _ | .reroute _ _ => .isTrue trivial

/-- A call that can be dropped is only between acceptance and mark if it waits for a response. -/
theorem Op.not_midway {o : Op C} (ho : o.awaits = true) (h : ¬ o.Unanswered) : ¬ o.Midway := by
  intro hmid
  unfold Op.Midway at hmid
  split at hmid
  · exact h trivial
  · cases ho
  · exact hmid

/-! ## The invariant of the system -/

/-- The rows that are sent at the start. -/
def SentBefore (d : Device C) (id : ℕ) : Prop := ∃ m ∈ d.messages, m.id = id ∧ m.status = .sent

/-- A client with no call under way keeps the invariant: row ids are insertion positions. -/
theorem inv_start {E : Engine C} {strict : Prop} {d : Device C}
    (hids : ∀ (k : ℕ) m, d.messages[k]? = some m → m.id = k) :
    Inv E strict (SentBefore d) (start d).shared where
  ids := hids
  order := .nil
  once _ := .nil
  rows _ ha := absurd ha List.not_mem_nil
  ahead _ ha := absurd ha List.not_mem_nil
  sent m hm _ hsent := .inl ⟨m, hm, rfl, hsent⟩
  sealed _ ha := absurd ha List.not_mem_nil
  settled _ _ _ ha := absurd ha List.not_mem_nil

variable [C.Comparable] {E : Engine C} {strict : Prop}
  {old : ℕ → Prop}

/-- Every call is safe against all others, calls at rest do not hold the lock, and the shared state keeps
the invariant. -/
structure Sound (E : Engine C) (strict : Prop) (old : ℕ → Prop) (w : Sys C) : Prop where
  calls : Threads.AllSafe (setting E strict old) (fun i s => s.holder ≠ some i) w
  shared : Inv E strict old w.shared

/-- A call at rest does not hold the lock. -/
theorem Sound.idle {w : Sys C} {i : Caller} {u : Unit} (h : Sound E strict old w)
    (hi : w.todo i = .ret u) : Idle E strict old i w.shared := by
  have hsafe := h.calls i
  rw [hi] at hsafe
  exact ⟨h.shared, hsafe.post_ret⟩

/-- Starting a caller. -/
theorem Sound.begin {w : Sys C} {i : Caller} {u : Unit} {p : EngineM C Unit}
    (h : Sound E strict old w) (hi : w.todo i = .ret u) (hp : Composed E.Running p) :
    Sound E strict old (w.start i (split p)) := by
  refine ⟨h.calls.start ?_, h.shared⟩
  have hrun : Triple (setting E strict old i) (Idle E strict old i) (split p)
      fun _ s => s.holder ≠ some i :=
    (triple_running hp).mono (fun _ hpre => hpre) fun _ _ hpost => hpost.2
  exact hrun _ (h.idle hi)

/-- Dropping a call outside the window between acceptance and mark. -/
theorem Sound.dropped {w : Sys C} {i : Caller} (h : Sound E strict old w)
    (hsettled : w.shared.holder = some i → w.shared.Settled strict) :
    Sound E strict old ((w.move (w.shared.release i)).start i (.ret ())) := by
  have hinv : Inv E strict old (w.shared.release i) := by
    unfold Client.release
    split
    · rename_i hholder
      exact h.shared.setHolder none fun _ => hsettled hholder
    · exact h.shared
  have hfree : (w.shared.release i).holder ≠ some i := by
    unfold Client.release
    split
    · exact fun hnone => by cases hnone
    · assumption
  have hothers : ∀ j, j ≠ i →
      ((w.shared.release i).holder = some j ↔ w.shared.holder = some j) := by
    intro j hj
    unfold Client.release
    split
    · rename_i hholder
      refine iff_of_false (fun hnone => by cases hnone) fun heq => ?_
      rw [hholder] at heq
      exact hj (Option.some.inj heq).symm
    · exact Iff.rfl
  have hgrows : Grows w.shared (w.shared.release i) := by
    unfold Client.release
    split
    · exact ⟨rfl, [], (List.append_nil _).symm⟩
    · exact Grows.refl _
  refine ⟨fun j => ?_, hinv⟩
  by_cases hj : j = i
  · subst hj
    have hret : Triple (setting E strict old j) (Idle E strict old j) (.ret ())
        fun _ s => s.holder ≠ some j := triple_ret quiet_idle.stable fun _ hpost => hpost.2
    simpa [Threads.start, Threads.move] using hret _ ⟨hinv, hfree⟩
  · simpa [Threads.start, Threads.move, Function.update_of_ne hj] using
      (h.calls j).of_rely fun _ => ⟨hinv, hothers j hj, fun _ => hgrows⟩

/-- **One step** keeps the system sound; in the strict sense, if the relay obliges and no call is dropped
while it waits for the response to a chat deposit. -/
theorem Sound.step {w w' : Sys C} {l : Label C} (h : Sound E strict old w)
    (hobliging : strict → Obliging w l) (hunbroken : strict → Unbroken w l)
    (hstep : step E w l = some w') : Sound E strict old w' := by
  cases l with
  | act i c =>
    simp only [Outbox.step] at hstep
    split at hstep
    · cases hstep
    · rename_i o k hi
      obtain ⟨⟨r, s'⟩, hperform, hw'⟩ := Option.map_eq_some_iff.mp hstep
      have hexec : (setting E strict old i).exec o w.shared r s' :=
        ⟨c, fun hs => Next.of_eq (hobliging hs) hi, hperform⟩
      have hcall := h.calls i
      rw [hi] at hcall
      rw [← hw']
      refine ⟨h.calls.step (fun j hj s s' => setting_compat E strict old hj s s') hi hexec, ?_⟩
      exact ((hcall.step hexec).1 h.shared).1
  | sendChat n text =>
    simp only [Outbox.step] at hstep
    split at hstep
    · rename_i u hi
      cases hstep
      exact h.begin hi ((Engine.running_sendChat text).bind fun _ => .ret _)
    · cases hstep
  | startListener n fuel =>
    simp only [Outbox.step] at hstep
    split at hstep
    · rename_i u hi
      cases hstep
      exact h.begin hi (Engine.running_conversationListener fuel)
    · cases hstep
  | drop i =>
    simp only [Outbox.step] at hstep
    split at hstep
    · cases hstep
    · rename_i o k hi
      split at hstep
      · rename_i hawaits
        cases hstep
        have hcall := h.calls i
        rw [hi] at hcall
        refine h.dropped fun hholder hs => ?_
        exact hcall.check hholder (Op.not_midway hawaits (Next.of_eq (hunbroken hs) hi)) hs
      · cases hstep
  | reroute relayUrl inbox =>
    cases hstep
    have hsame : Same w.shared (w.shared.reroute relayUrl inbox) := ⟨rfl, rfl, rfl⟩
    refine ⟨h.calls.move fun j hinv => ⟨hinv.same hsame, Iff.rfl, fun _ => hsame.grows⟩, ?_⟩
    exact h.shared.same hsame

/-- It is sound. -/
theorem sound_start {d : Device C} (hids : ∀ (k : ℕ) m, d.messages[k]? = some m → m.id = k) :
    Sound E strict (SentBefore d) (start d) where
  calls i := by
    have hret : Triple (setting E strict (SentBefore d) i) (Idle E strict (SentBefore d) i) (.ret ())
        fun _ s => s.holder ≠ some i := triple_ret quiet_idle.stable fun _ hpost => hpost.2
    exact hret _ ⟨inv_start hids, fun hnone => by cases hnone⟩
  shared := inv_start hids

/-- **A run** keeps the system sound. -/
theorem sound_run {d : Device C} (hids : ∀ (k : ℕ) m, d.messages[k]? = some m → m.id = k)
    {ls : List (Label C)} {w : Sys C} (hrun : run (step E) (start d) ls = some w)
    (hstrict : strict → Along (step E) (fun w l => Obliging w l ∧ Unbroken w l) (start d) ls) :
    Sound E strict (SentBefore d) w := by
  have halong : Along (step E) (fun w l => strict → Obliging w l ∧ Unbroken w l) (start d) ls :=
    Along.of_imp hstrict
  exact run_invariant (fun _ _ _ h hok hstep => h.step (fun hs => (hok hs).1) (fun hs => (hok hs).2)
    hstep) (sound_start hids) halong hrun

/-! ## Sending in order -/

/-- **Ordered, accounted sending.** In every run the relay accepts chats in the order in which their rows
were inserted, every processed chat deposit carries the frame of its row, and an outgoing row that is
sent was sent before the run or had a deposit of its frame that the relay accepted or answered with 400
or 413. -/
theorem chats_sent_in_order (E : Engine C) (d : Device C)
    (hids : ∀ (k : ℕ) m, d.messages[k]? = some m → m.id = k) (ls : List (Label C)) (w : Sys C)
    (hrun : run (step E) (start d) ls = some w) :
    w.shared.accepted.Pairwise (· ≤ ·) ∧
    (∀ p ∈ w.shared.log, ∃ m ∈ w.shared.device.messages,
      m.id = p.row ∧ m.direction = .outgoing ∧ Seals E m.frame p.wire) ∧
    ∀ m ∈ w.shared.device.messages, m.direction = .outgoing → m.status = .sent →
      SentBefore d m.id ∨ ∃ p ∈ w.shared.log, p.row = m.id ∧ p.Final ∧ Seals E m.frame p.wire := by
  have hsound : Sound E False (SentBefore d) w := sound_run hids hrun fun h => h.elim
  exact ⟨hsound.shared.order, hsound.shared.sealed, hsound.shared.sent⟩

/-- A client with one pending chat. -/
def pendingDevice : Device countingCarrier :=
  { freshDevice with messages := [⟨0, .outgoing, .chat 1 5, .pending⟩] }

theorem pendingDevice_ids (k : ℕ) (m : StoredMessage countingCarrier)
    (hm : pendingDevice.messages[k]? = some m) : m.id = k := by
  cases k with
  | zero => cases hm; rfl
  | succ k => cases hm

/-- The relay accepts, the response arrives, and everything else succeeds. -/
def accepting : Choice countingCarrier := ⟨⟨none, calmOracle []⟩, some .accepted, none⟩

/-- The relay never sees the request, and the connection is reset. -/
def resetting : Choice countingCarrier := ⟨⟨none, calmOracle []⟩, none, some (.network "reset")⟩

/-- A call performs its next `n` operations. -/
def acts (i : Caller) (c : Choice countingCarrier) (n : ℕ) : List (Label countingCarrier) :=
  List.replicate n (.act i c)

/-- The application sends another chat; its deposit of the older row fails and the flush stops. Sync is
started, and the connect-time flush sends both. -/
def retried : List (Label countingCarrier) :=
  [.sendChat 0 6] ++ acts (.sender 0) accepting 6 ++ acts (.sender 0) resetting 3 ++
    [.startListener 0 2] ++ acts (.listener 0) accepting 15

theorem retried_in_order :
    ∃ w, run (step countingEngine) (start pendingDevice) retried = some w ∧
      w.shared.accepted = [0, 1] ∧ w.shared.accepted.Pairwise (· ≤ ·) := by
  obtain ⟨w, hrun, haccepted⟩ : ∃ w, run (step countingEngine) (start pendingDevice) retried = some w ∧
      w.shared.accepted = [0, 1] := by
    decide +kernel
  exact ⟨w, hrun, haccepted, (chats_sent_in_order countingEngine pendingDevice pendingDevice_ids retried w
    hrun).1⟩

/-! ## At most once -/

/-- **Stopping sync.** In a run in which the relay accepts each chat deposit, every response that is still
awaited arrives, and no call is dropped while it waits for the response to a chat deposit, every row is
accepted at most once. -/
theorem chats_accepted_once (E : Engine C) (d : Device C)
    (hids : ∀ (k : ℕ) m, d.messages[k]? = some m → m.id = k) (ls : List (Label C)) (w : Sys C)
    (halong : Along (step E) (fun w l => Obliging w l ∧ Unbroken w l) (start d) ls)
    (hrun : run (step E) (start d) ls = some w) : w.shared.accepted.Nodup := by
  have hsound : Sound E True (SentBefore d) w := sound_run hids hrun fun _ => halong
  exact hsound.shared.once trivial

/-- Sync is stopped while the connect-time flush has not reached the relay yet, and started again. -/
def stoppedBefore : List (Label countingCarrier) :=
  [.startListener 0 2] ++ acts (.listener 0) accepting 9 ++ [.drop (.listener 0)] ++
    [.startListener 0 2] ++ acts (.listener 0) accepting 13

theorem stoppedBefore_once :
    ∃ w, run (step countingEngine) (start pendingDevice) stoppedBefore = some w ∧
      w.shared.accepted = [0] ∧ w.shared.accepted.Nodup := by
  obtain ⟨w, hrun, haccepted⟩ : ∃ w, run (step countingEngine) (start pendingDevice) stoppedBefore =
      some w ∧ w.shared.accepted = [0] := by
    decide +kernel
  exact ⟨w, hrun, haccepted, chats_accepted_once countingEngine pendingDevice pendingDevice_ids stoppedBefore
    w (by decide +kernel) hrun⟩

/-- The relay accepts the pending chat in the connect-time flush; sync is stopped before the response
arrives, and started again. -/
def stoppedBetween : List (Label countingCarrier) :=
  [.startListener 0 2] ++ acts (.listener 0) accepting 10 ++ [.drop (.listener 0)] ++
    [.startListener 0 2] ++ acts (.listener 0) accepting 10

theorem stopped_sync_duplicates :
    Along (step countingEngine) Obliging (start pendingDevice) stoppedBetween ∧
      ∃ w, run (step countingEngine) (start pendingDevice) stoppedBetween = some w ∧
        ¬ w.shared.accepted.Nodup := by
  exact ⟨by decide +kernel, by decide +kernel⟩

end Titlan.Outbox
