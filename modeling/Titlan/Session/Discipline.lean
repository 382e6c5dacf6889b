import Titlan.Engine.Blocks
import Titlan.Foundation.RelyGuarantee

/-! # Session calls of concurrent threads

Any number of threads of one client run the engine's callers (`send_chat`, conversation listeners) for
any number of conversations. Every `encrypt_message` and `decrypt_message` is a load of the peer's
session, a pure step, and a store, with other threads free to run in between; the only lock the
callers share is the flush lock of one conversation.

The shared state is the session table with the history of the calls made on it. A call that fails
takes effect when it loads, a call that succeeds takes effect when it stores. This module shows what
holds of each thread on its own: whatever the others do, it starts one call at a time, and what it
stores is the step of what that call loaded. -/

namespace Titlan

open Foundation

variable {C : Carrier} {ι : Type} [DecidableEq ι]

/-! ## Session calls as steps of a value -/

/-- What a session call that advanced the session returned. -/
inductive SessionOutcome (C : Carrier)
  | sealed (wire : C.Wire)
  | opened (wire : C.Wire)

/-- The pure step of a session call on the stored session. -/
def Engine.advance (E : Engine C) :
    SessionCall C → Option C.Session → Option (Option C.Session × SessionOutcome C)
  | .encrypt frame, session =>
    match E.messageEncrypt session frame with
    | .ok (session', wire) => some (some session', .sealed wire)
    | .error _ => none
  | .decrypt wire, session =>
    match E.messageDecrypt session wire with
    | .ok (session', _) => some (some session', .opened wire)
    | .error _ => none

/-! ## The shared table -/

/-- A call between its load and its store: thread, peer, call, and the session it loaded. -/
abbrev InFlight (ι : Type) (C : Carrier) := ι × String × SessionCall C × Option C.Session

/-- The session table of one client, its flush locks, and the history of the session calls. -/
structure SessionTable (ι : Type) (C : Carrier) where
  row : String → Option C.Session
  flushHolder : ℕ → Option ι
  /-- The calls between load and store. -/
  inFlight : List (InFlight ι C)
  /-- Every call, in the order of the loads. -/
  started : List (String × SessionCall C)
  /-- Every call that has taken effect, in that order, with its outcome. -/
  finished : List (String × SessionCall C × Option (SessionOutcome C))

namespace SessionTable

/-- The call a thread is in the middle of. -/
def snapshot (t : SessionTable ι C) (i : ι) : Option (String × SessionCall C × Option C.Session) :=
  (t.inFlight.find? fun x => x.1 = i).map Prod.snd

/-- The calls for one peer that have taken effect, with their outcomes. -/
def finishedFor (t : SessionTable ι C) (peer : String) :
    List (SessionCall C × Option (SessionOutcome C)) :=
  (t.finished.filter fun x => x.1 = peer).map Prod.snd

/-- `load_session` on behalf of a call. A call that will fail on what it loaded is over. -/
def load (E : Engine C) (t : SessionTable ι C) (i : ι) (peer : String) (call : SessionCall C) :
    SessionTable ι C :=
  match E.advance call (t.row peer) with
  | some _ => { t with
      started := t.started ++ [(peer, call)]
      inFlight := (i, peer, call, t.row peer) :: t.inFlight }
  | none => { t with
      started := t.started ++ [(peer, call)]
      finished := t.finished ++ [(peer, call, none)] }

/-- `store_session` on behalf of a call. -/
def commit (E : Engine C) (t : SessionTable ι C) (i : ι) (peer : String) (call : SessionCall C)
    (session : C.Session) : SessionTable ι C :=
  { t with
    row := Function.update t.row peer (some session)
    inFlight := t.inFlight.filter fun x => x.1 ≠ i
    finished := t.finished ++
      [(peer, call, (t.snapshot i).bind fun x => (E.advance call x.2.2).map Prod.snd)] }

/-- An answer for every operation the table does not decide. -/
abbrev Oracle (C : Carrier) := (o : Op C) → o.Answer

/-- The effect of one operation of thread `i`, which works for conversation `conv i`. Session accesses
and flush locks act on the table; everything else is answered by the oracle. -/
def perform (E : Engine C) (conv : ι → ℕ) (i : ι) (oracle : Oracle C) :
    (o : Op C) → SessionTable ι C → Option (o.Answer × SessionTable ι C)
  | .store (.loadSession peer call), t => some (.ok (t.row peer), t.load E i peer call)
  | .store (.storeSession peer call session), t => some (.ok (), t.commit E i peer call session)
  | .ram .lockFlush, t =>
    match t.flushHolder (conv i) with
    | none => some ((), { t with flushHolder := Function.update t.flushHolder (conv i) (some i) })
    | some _ => none
  | .ram .unlockFlush, t =>
    some ((), { t with flushHolder := Function.update t.flushHolder (conv i) none })
  | o, t => some (oracle o, t)

/-! ## Threads only store what they advanced

Each thread is verified on its own: another thread may change any row at any time, but not what this
thread has in flight. -/

/-- The setting of thread `i`: it starts a session call only when it has none in flight, and stores
only the step of what that call loaded. -/
def setting (E : Engine C) (conv : ι → ℕ) (i : ι) : Setting (engineSig C) (SessionTable ι C) where
  exec o t r t' := ∃ oracle, perform E conv i oracle o t = some (r, t')
  check o t := match o with
    | .store (.loadSession _ _) => t.snapshot i = none
    | .store (.storeSession peer call session) => ∃ loaded out,
        t.snapshot i = some (peer, call, loaded) ∧ E.advance call loaded = some (some session, out)
    | _ => True
  rely t t' := t'.snapshot i = t.snapshot i
  guar t t' := ∀ j, j ≠ i → t'.snapshot j = t.snapshot j

variable {E : Engine C} {conv : ι → ℕ} {i : ι}

theorem snapshot_load_of_some {t : SessionTable ι C} {peer : String} {call : SessionCall C}
    {out : Option C.Session × SessionOutcome C} (h : E.advance call (t.row peer) = some out) :
    (t.load E i peer call).snapshot i = some (peer, call, t.row peer) := by
  simp [load, h, snapshot]

theorem snapshot_load_of_none {t : SessionTable ι C} {peer : String} {call : SessionCall C}
    (h : E.advance call (t.row peer) = none) (j : ι) :
    (t.load E i peer call).snapshot j = t.snapshot j := by
  simp [load, h, snapshot]

variable (t : SessionTable ι C) (peer : String) (call : SessionCall C)

theorem snapshot_load_of_ne {j : ι}
    (hj : j ≠ i) : (t.load E i peer call).snapshot j = t.snapshot j := by
  cases h : E.advance call (t.row peer) with
  | none => exact snapshot_load_of_none h j
  | some out => simp [load, h, snapshot, hj.symm]

theorem snapshot_commit_self
    (session : C.Session) : (t.commit E i peer call session).snapshot i = none := by
  simp [commit, snapshot, List.find?_filter]

theorem snapshot_commit_of_ne (session : C.Session) {j : ι} (hj : j ≠ i) :
    (t.commit E i peer call session).snapshot j = t.snapshot j := by
  have hcongr : ∀ x : InFlight ι C, (x.1 ≠ i ∧ x.1 = j) ↔ x.1 = j :=
    fun x => ⟨And.right, fun hx => ⟨hx ▸ hj, hx⟩⟩
  simp only [commit, snapshot, List.find?_filter, decide_eq_true_eq, hcongr]

/-- Thread `i` has no session call in flight. -/
def AtRest (i : ι) (t : SessionTable ι C) : Prop := t.snapshot i = none

/-- A program that starts and ends with no session call in flight, and in between stores only what it
advanced. -/
def Disciplined {α : Type} (E : Engine C) (conv : ι → ℕ) (i : ι) (p : EngineM C α) : Prop :=
  Triple (setting E conv i) (AtRest i) p fun _ => AtRest i

theorem stable_atRest : Stable (setting E conv i) (AtRest i) :=
  fun _ _ hrely hrest => hrely.trans hrest

theorem disciplined_ret {α : Type} (a : α) : Disciplined E conv i (.ret a) :=
  triple_ret stable_atRest fun _ => id

/-- An operation the discipline does not constrain and that leaves the calls in flight alone. -/
theorem disciplined_perform {o : Op C} (hcheck : ∀ t, (setting E conv i).check o t)
    (hkeep : ∀ t r t' oracle, perform E conv i oracle o t = some (r, t') → t'.inFlight = t.inFlight) :
    Disciplined E conv i o.program := by
  refine triple_op (m := fun _ => AtRest i) stable_atRest (fun t _ => hcheck t) ?_
    fun r => disciplined_ret r
  rintro t r t' hrest ⟨oracle, hperform⟩
  have hsame : ∀ j, t'.snapshot j = t.snapshot j := fun j => by
    rw [snapshot, hkeep t r t' oracle hperform, snapshot]
  exact ⟨fun j _ => hsame j, (hsame i).trans hrest⟩

/-- The operations answered by the oracle are disciplined. -/
theorem disciplined_oracle {o : Op C} (hcheck : ∀ t, (setting E conv i).check o t)
    (horacle : ∀ t oracle, perform E conv i oracle o t = some (oracle o, t)) :
    Disciplined E conv i o.program :=
  disciplined_perform hcheck fun t r t' oracle h => by
    have hsome := (horacle t oracle).symm.trans h
    rw [← (Prod.mk.inj (Option.some.inj hsome)).2]

theorem disciplined_ram (o : RamOp C) : Disciplined E conv i (ram o) := by
  cases o with
  | lockFlush =>
    refine disciplined_perform (fun _ => trivial) fun t r t' oracle h => ?_
    simp only [perform] at h
    split at h
    · rw [← (Prod.mk.inj (Option.some.inj h)).2]
    · exact absurd h (by simp)
  | unlockFlush =>
    refine disciplined_perform (fun _ => trivial) fun t r t' oracle h => ?_
    rw [← (Prod.mk.inj (Option.some.inj h)).2]
  | _ => exact disciplined_oracle (fun _ => trivial) fun _ _ => rfl

/-- **A session call is disciplined**: load, pure step, store of that step, whatever the code does
with the result. -/
theorem disciplined_call {α : Type} {k : Result (Option C.Session) → EngineM C α}
    (hcall : ∀ loaded, E.advance call loaded = none ∧ Disciplined E conv i (k (.ok loaded)) ∨
      ∃ session out rest, E.advance call loaded = some (some session, out) ∧
        k (.ok loaded) = .op (.store (.storeSession peer call session)) rest ∧
        Disciplined E conv i (rest (.ok ()))) :
    Disciplined E conv i (store (.loadSession peer call) >>= k) := by
  -- after the load, the call is in flight exactly when it will store
  let loadedBy (r : Result (Option C.Session)) (t : SessionTable ι C) : Prop :=
    ∃ loaded, r = .ok loaded ∧ (E.advance call loaded = none → AtRest i t) ∧
      ∀ out, E.advance call loaded = some out → t.snapshot i = some (peer, call, loaded)
  refine triple_op (m := loadedBy) stable_atRest (fun t hrest => hrest) ?_ ?_
  · rintro t r t' hrest ⟨oracle, hperform⟩
    cases hperform
    refine ⟨fun j hj => snapshot_load_of_ne t peer call hj, t.row peer, rfl, fun hadv => ?_,
      fun out hadv => snapshot_load_of_some hadv⟩
    exact (snapshot_load_of_none hadv i).trans hrest
  · rintro r t ⟨loaded, rfl, hnone, hflight⟩
    rcases hcall loaded with ⟨hadv, hdone⟩ | ⟨session, out, rest, hadv, hk, hdone⟩
    · exact hdone t (hnone hadv)
    · have hstore : Triple (setting E conv i) (fun t => t.snapshot i = some (peer, call, loaded))
          (.op (.store (.storeSession peer call session)) rest) fun _ => AtRest i := by
        refine triple_op (m := fun r t => r = .ok () ∧ AtRest i t) ?_ ?_ ?_ ?_
        · exact fun _ _ hrely h => hrely.trans h
        · exact fun t h => ⟨loaded, out, h, hadv⟩
        · rintro t r t' h ⟨oracle, hperform⟩
          cases hperform
          exact ⟨fun j hj => snapshot_commit_of_ne t peer call session hj, rfl,
            snapshot_commit_self t peer call session⟩
        · rintro r t ⟨rfl, ht⟩
          exact hdone t ht
      change Safe _ _ (k (.ok loaded)) t
      rw [hk]
      exact hstore t (hflight _ hadv)

theorem disciplined_encryptMessage (frame : C.Frame) :
    Disciplined E conv i (E.encryptMessage peer frame) := by
  refine disciplined_call peer (.encrypt frame) fun loaded => ?_
  simp only [Engine.advance]
  cases E.messageEncrypt loaded frame with
  | error e => exact .inl ⟨rfl, disciplined_ret _⟩
  | ok out => exact .inr ⟨_, _, _, rfl, rfl, disciplined_ret _⟩

theorem disciplined_decryptMessage (wire : C.Wire) :
    Disciplined E conv i (E.decryptMessage peer wire) := by
  refine disciplined_call peer (.decrypt wire) fun loaded => ?_
  simp only [Engine.advance]
  cases E.messageDecrypt loaded wire with
  | error e => exact .inl ⟨rfl, disciplined_ret _⟩
  | ok out => exact .inr ⟨_, _, _, rfl, rfl, disciplined_ret _⟩

/-- Every operation outside the session table is disciplined. -/
theorem disciplined_standalone (o : Op C) (ho : o.Standalone) : Disciplined E conv i o.program := by
  cases o with
  | store o =>
    cases o with
    | loadSession peer call => exact ho.elim
    | storeSession peer call session => exact ho.elim
    | _ => exact disciplined_oracle (fun _ => trivial) fun _ _ => rfl
  | ram o => exact disciplined_ram o
  | relay o => exact disciplined_oracle (fun _ => trivial) fun _ _ => rfl
  | socket o => exact disciplined_oracle (fun _ => trivial) fun _ _ => rfl
  | notify n => exact disciplined_oracle (fun _ => trivial) fun _ _ => rfl

/-- **Whatever is put together from session calls and other operations is disciplined.** -/
theorem disciplined_of_calling {α : Type} {p : EngineM C α} (h : Composed E.Calling p) :
    Disciplined E conv i p :=
  h.triple stable_atRest fun _ q hq => by
    cases hq with
    | standalone o ho => exact disciplined_standalone o ho
    | encrypt peer frame => exact disciplined_encryptMessage peer frame
    | decrypt peer wire => exact disciplined_decryptMessage peer wire

end SessionTable

end Titlan
