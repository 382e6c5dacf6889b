import Mathlib.Data.List.Permutation
import Mathlib.Order.WithBot
import Titlan.Foundation.Run
import Titlan.Foundation.Serial
import Titlan.Session.Counting
import Titlan.Session.Discipline

/-! # Serializability of session calls

The engine's callers as one system: at each step one thread performs its next operation on the session
table. A store that finds the session its call loaded takes effect as that call would have, run at
that moment on its own; so as long as every store does, the history is a serial execution, no sending
counter is used twice, and no received message is forgotten. Nothing in the callers makes a store find
what its call loaded: a listener that decrypts while a chat is being sealed is enough to break it. -/

namespace Titlan

open Foundation

namespace SessionTable

variable {C : Carrier} {ι : Type} [DecidableEq ι] {E : Engine C} {conv : ι → ℕ} {i : ι}

/-! ## History invariant -/

/-- The calls for one peer, in the order in which they took effect. -/
def callsFor (t : SessionTable ι C) (peer : String) : List (SessionCall C) :=
  (t.finishedFor peer).map Prod.fst

/-- The history explains the table: every row is what the calls that took effect yield one after
another from `row0`, with the outcomes they had, and every call that was started has taken effect or
is in flight. -/
structure Explained (E : Engine C) (row0 : String → Option C.Session) (t : SessionTable ι C) :
    Prop where
  row_eq : ∀ peer, t.row peer = serial E.advance (row0 peer) (t.callsFor peer)
  outcomes_eq : ∀ peer, t.finishedFor peer = outcomes E.advance (row0 peer) (t.callsFor peer)
  nodup : (t.inFlight.map Prod.fst).Nodup
  perm : (t.finished.map (fun x => (x.1, x.2.1)) ++ t.inFlight.map fun x => (x.2.1, x.2.2.1)).Perm
    t.started

/-- A table with no history. -/
def init (row0 : String → Option C.Session) : SessionTable ι C where
  row := row0
  flushHolder _ := none
  inFlight := []
  started := []
  finished := []

omit [DecidableEq ι] in
theorem explained_init (row0 : String → Option C.Session) :
    Explained E row0 (init row0 : SessionTable ι C) :=
  ⟨fun _ => rfl, fun _ => rfl, List.nodup_nil, List.Perm.refl _⟩

variable {row0 : String → Option C.Session} {t t' : SessionTable ι C} {call : SessionCall C}

omit [DecidableEq ι] in
/-- The invariant reads the rows and the history only. -/
theorem Explained.congr
    (h : Explained E row0 t) (hrow : t'.row = t.row) (hflight : t'.inFlight = t.inFlight)
    (hstarted : t'.started = t.started) (hfinished : t'.finished = t.finished) :
    Explained E row0 t' := by
  obtain ⟨row, flushHolder, inFlight, started, finished⟩ := t
  obtain ⟨row', flushHolder', inFlight', started', finished'⟩ := t'
  obtain rfl : row' = row := hrow
  obtain rfl : inFlight' = inFlight := hflight
  obtain rfl : started' = started := hstarted
  obtain rfl : finished' = finished := hfinished
  exact { h with }

omit [DecidableEq ι] in
theorem finishedFor_append (t : SessionTable ι C) {t' : SessionTable ι C} {peer : String}
    {out : Option (SessionOutcome C)}
    (hfinished : t'.finished = t.finished ++ [(peer, call, out)]) (q : String) :
    t'.finishedFor q = t.finishedFor q ++ if peer = q then [(call, out)] else [] := by
  by_cases hq : peer = q <;> simp [finishedFor, hfinished, hq]

omit [DecidableEq ι] in
/-- **One call takes effect.** A table in which `call` took effect on the row as it stood is explained
again, as far as rows and outcomes go. -/
theorem Explained.append (h : Explained E row0 t) {peer : String}
    (hrow : t'.row = Function.update t.row peer (callOnce E.advance (t.row peer) call))
    (hfinished : t'.finished =
      t.finished ++ [(peer, call, (E.advance call (t.row peer)).map Prod.snd)]) :
    (∀ q, t'.row q = serial E.advance (row0 q) (t'.callsFor q)) ∧
      ∀ q, t'.finishedFor q = outcomes E.advance (row0 q) (t'.callsFor q) := by
  have happend := finishedFor_append t hfinished
  have hcalls : ∀ q, t'.callsFor q = t.callsFor q ++ if peer = q then [call] else [] := by
    intro q
    rw [callsFor, happend, List.map_append, callsFor]
    split <;> rfl
  constructor <;> intro q <;> by_cases hq : peer = q
  · subst hq
    rw [hrow, Function.update_self, hcalls, if_pos rfl, serial_append, ← h.row_eq]
    rfl
  · rw [hrow, Function.update_of_ne (Ne.symm hq), hcalls, if_neg hq, List.append_nil, h.row_eq]
  · subst hq
    rw [happend, hcalls, if_pos rfl, if_pos rfl, outcomes_append, ← h.row_eq, ← h.outcomes_eq]
    rfl
  · rw [happend, hcalls, if_neg hq, if_neg hq, List.append_nil, List.append_nil, ← h.outcomes_eq]

theorem not_mem_of_snapshot_none (h : t.snapshot i = none) : i ∉ t.inFlight.map Prod.fst := by
  rintro hmem
  obtain ⟨x, hx, hxi⟩ := List.mem_map.mp hmem
  have hnone := List.find?_eq_none.mp (Option.map_eq_none_iff.mp h) x hx
  simp [hxi] at hnone

/-- A load keeps the history explained: a call that will fail takes effect now, any other is in
flight. -/
theorem Explained.load
    (h : Explained E row0 t) (hrest : t.snapshot i = none) (peer : String) (call : SessionCall C) :
    Explained E row0 (t.load E i peer call) := by
  cases hadv : E.advance call (t.row peer) with
  | none =>
    have hrow : (t.load E i peer call).row =
        Function.update t.row peer (callOnce E.advance (t.row peer) call) := by
      rw [callOnce_of_none hadv, Function.update_eq_self]
      simp [SessionTable.load, hadv]
    obtain ⟨hserial, houtcomes⟩ := h.append hrow (by simp [SessionTable.load, hadv])
    refine ⟨hserial, houtcomes, ?_, ?_⟩
    · simpa [SessionTable.load, hadv] using h.nodup
    · simp only [SessionTable.load, hadv, List.map_append, List.map_cons, List.map_nil]
      rw [List.append_assoc]
      exact ((List.perm_append_comm.append_left _).trans (by rw [← List.append_assoc])).trans
        (h.perm.append_right _)
  | some out =>
    refine ⟨?_, ?_, ?_, ?_⟩
    · simpa [SessionTable.load, hadv, callsFor, finishedFor] using h.row_eq
    · simpa [SessionTable.load, hadv, callsFor, finishedFor] using h.outcomes_eq
    · simpa [SessionTable.load, hadv] using ⟨by simpa using not_mem_of_snapshot_none hrest, h.nodup⟩
    · simp only [SessionTable.load, hadv, List.map_cons]
      exact List.perm_middle.trans ((List.perm_append_singleton _ _).symm.trans
        (h.perm.append_right _))

omit [DecidableEq ι] in
/-- In a list with one entry a key, the rest of the list is what has another key. -/
theorem perm_cons_filter_of_find? [DecidableEq ι] {l : List (InFlight ι C)} {x : InFlight ι C}
    (hnodup : (l.map Prod.fst).Nodup) (hfind : l.find? (fun y => y.1 = i) = some x) :
    l.Perm (x :: l.filter fun y => y.1 ≠ i) := by
  induction l with
  | nil => simp at hfind
  | cons y l ih =>
    rw [List.map_cons, List.nodup_cons] at hnodup
    by_cases hy : y.1 = i
    · obtain rfl : y = x := by simpa [List.find?_cons, hy] using hfind
      have hrest : (y :: l).filter (fun z => z.1 ≠ i) = l := by
        rw [List.filter_cons_of_neg (by simp [hy])]
        refine List.filter_eq_self.mpr fun z hz => ?_
        simp only [ne_eq, decide_eq_true_eq]
        rintro rfl
        exact hnodup.1 (hy ▸ List.mem_map_of_mem hz)
      rw [hrest]
    · have hfind' : l.find? (fun y => y.1 = i) = some x := by
        simpa [List.find?_cons, hy] using hfind
      simpa [hy] using ((ih hnodup.2 hfind').cons y).trans (List.Perm.swap _ _ _)

/-- **An undisturbed store keeps the history explained**: what it writes is the step of the row as it
stands. -/
theorem Explained.commit
    (h : Explained E row0 t) {peer : String} {session : C.Session}
    {out : SessionOutcome C} (hflight : t.snapshot i = some (peer, call, t.row peer))
    (hadv : E.advance call (t.row peer) = some (some session, out)) :
    Explained E row0 (t.commit E i peer call session) := by
  have hfinished : (t.commit E i peer call session).finished =
      t.finished ++ [(peer, call, (E.advance call (t.row peer)).map Prod.snd)] := by
    simp [SessionTable.commit, hflight]
  have hrow : (t.commit E i peer call session).row =
      Function.update t.row peer (callOnce E.advance (t.row peer) call) := by
    rw [callOnce_of_some hadv]
    rfl
  obtain ⟨hserial, houtcomes⟩ := h.append hrow hfinished
  obtain ⟨x, hfind, hx⟩ := Option.map_eq_some_iff.mp hflight
  have hperm := perm_cons_filter_of_find? h.nodup hfind
  refine ⟨hserial, houtcomes, ?_, ?_⟩
  · exact h.nodup.sublist (List.filter_sublist.map Prod.fst)
  · rw [hfinished]
    have hsplit := hperm.map fun x => (x.2.1, x.2.2.1)
    simp only [List.map_cons, hx] at hsplit
    simp only [List.map_append, List.map_cons, List.map_nil, List.append_assoc,
      List.singleton_append]
    exact (hsplit.symm.append_left _).trans h.perm

/-- **Operation lemma.** An operation of a disciplined thread whose store, if it is one, finds the
session its call loaded keeps the history explained. -/
theorem Explained.perform {o : Op C} {oracle : Oracle C} {r : o.Answer} (h : Explained E row0 t)
    (hcheck : (setting E conv i).check o t)
    (hfound : ∀ peer call session loaded, o = .store (.storeSession peer call session) →
      t.snapshot i = some (peer, call, loaded) → t.row peer = loaded)
    (hperform : SessionTable.perform E conv i oracle o t = some (r, t')) : Explained E row0 t' := by
  cases o with
  | store o =>
    cases o with
    | loadSession peer call =>
      cases hperform
      exact h.load hcheck peer call
    | storeSession peer call session =>
      cases hperform
      obtain ⟨loaded, out, hflight, hadv⟩ := hcheck
      obtain rfl := hfound peer call session loaded rfl hflight
      exact h.commit hflight hadv
    | _ =>
      cases hperform
      exact h
  | ram o =>
    cases o with
    | lockFlush =>
      simp only [SessionTable.perform] at hperform
      split at hperform
      · cases hperform
        exact h.congr rfl rfl rfl rfl
      · exact absurd hperform (by simp)
    | unlockFlush =>
      cases hperform
      exact h.congr rfl rfl rfl rfl
    | _ =>
      cases hperform
      exact h
  | _ =>
    cases hperform
    exact h

end SessionTable

/-! ## The system -/

open SessionTable

variable {C : Carrier} {ι : Type} [DecidableEq ι]

/-- The threads of one client over its session table. -/
abbrev SessionSystem (ι : Type) (C : Carrier) := Threads ι (engineSig C) (SessionTable ι C)

namespace SessionSystem

/-- One thread performs its next operation; the oracle answers what the table does not decide. -/
def step (E : Engine C) (conv : ι → ℕ) (w : SessionSystem ι C) (l : ι × Oracle C) :
    Option (SessionSystem ι C) :=
  match w.todo l.1 with
  | .ret _ => none
  | .op o k => (perform E conv l.1 l.2 o w.shared).map fun out => (w.move out.2).start l.1 (k out.1)

/-- The peer whose session a thread is about to store, with the session its call loaded. -/
def storing (w : SessionSystem ι C) (i : ι) : Option (String × Option C.Session) :=
  match w.todo i with
  | .op (.store (.storeSession peer _ _)) _ => (w.shared.snapshot i).map fun x => (peer, x.2.2)
  | _ => none

/-- A store finds the session its call loaded: no other call on that peer's session has stored in
between. -/
def Undisturbed (w : SessionSystem ι C) (l : ι × Oracle C) : Prop :=
  ∀ x ∈ storing w l.1, w.shared.row x.1 = x.2

instance [DecidableEq C.Session] (w : SessionSystem ι C) (l : ι × Oracle C) :
    Decidable (Undisturbed w l) :=
  inferInstanceAs (Decidable (∀ x ∈ storing w l.1, w.shared.row x.1 = x.2))

/-- What the engine's threads start as. -/
inductive EngineCaller (E : Engine C) : EngineM C Unit → Prop
  | atRest : EngineCaller E (.ret ())
  | sendChat (text : C.Text) : EngineCaller E (E.sendChat text >>= fun _ => pure ())
  /-- A conversation listener, with every flush, recovery and rotation it makes. -/
  | listener (fuel : ℕ) : EngineCaller E (E.conversationListener fuel)

variable {E : Engine C} {conv : ι → ℕ}

theorem EngineCaller.disciplined {p : EngineM C Unit} (h : EngineCaller E p) (i : ι) :
    Disciplined E conv i p := by
  refine disciplined_of_calling ?_
  cases h with
  | atRest => exact .ret _
  | sendChat text => exact (Engine.calling_sendChat text).bind fun _ => .ret _
  | listener fuel => exact Engine.calling_conversationListener fuel

/-- Every thread is disciplined from here on, and the history explains the table. -/
def Consistent (E : Engine C) (conv : ι → ℕ) (row0 : String → Option C.Session)
    (w : SessionSystem ι C) : Prop :=
  Threads.AllSafe (setting E conv) (fun _ _ => True) w ∧ Explained E row0 w.shared

theorem consistent_start {row0 : String → Option C.Session} {todo : ι → EngineM C Unit}
    (hcallers : ∀ i, EngineCaller E (todo i)) : Consistent E conv row0 ⟨init row0, todo⟩ := by
  refine ⟨fun i => ?_, explained_init row0⟩
  exact ((hcallers i).disciplined i).mono (fun _ => id) (fun _ _ _ => trivial) _ rfl

/-- **Step lemma.** An undisturbed operation of one thread keeps the system consistent. -/
theorem Consistent.step {row0 : String → Option C.Session} {w w' : SessionSystem ι C}
    {l : ι × Oracle C} (h : Consistent E conv row0 w) (hok : Undisturbed w l)
    (hstep : step E conv w l = some w') : Consistent E conv row0 w' := by
  obtain ⟨i, oracle⟩ := l
  obtain ⟨hsafe, hexplained⟩ := h
  unfold SessionSystem.step at hstep
  split at hstep
  case h_1 => exact absurd hstep (by simp)
  case h_2 o k htodo =>
    obtain ⟨⟨r, t'⟩, hperform, rfl⟩ := Option.map_eq_some_iff.mp hstep
    have hcheck := (htodo ▸ hsafe i : Safe _ _ (.op o k) _).check
    refine ⟨hsafe.step (fun j hj t t' hguar => hguar j hj) htodo ⟨oracle, hperform⟩, ?_⟩
    refine hexplained.perform hcheck (fun peer call session loaded ho hflight => ?_) hperform
    exact hok (peer, loaded) (by subst ho; simp [storing, htodo, hflight])

end SessionSystem

/-! ## What the ratchet promises -/

/-- What libsignal documents about a session: a sending position that encryption uses up and nothing
moves back, and the set of messages it has received, which only grows. `Pos` orders positions across
chains. -/
structure RatchetLaws (E : Engine C) (Pos : Type) [LinearOrder Pos] where
  /-- The sending-chain position a session will encrypt at next. -/
  position : C.Session → Pos
  /-- The position an envelope was encrypted at. -/
  counter : C.Wire → Pos
  /-- The messages a session has received. -/
  received : C.Session → Set C.Wire
  /-- There is no encryption without a session. -/
  encrypt_none : ∀ frame session wire, E.messageEncrypt none frame ≠ .ok (session, wire)
  /-- An envelope carries the position it was encrypted at. -/
  encrypt_counter : ∀ {s frame s' wire}, E.messageEncrypt (some s) frame = .ok (s', wire) →
    counter wire = position s
  /-- Encryption moves past it. -/
  encrypt_advances : ∀ {s frame s' wire}, E.messageEncrypt (some s) frame = .ok (s', wire) →
    position s < position s'
  /-- Encryption forgets nothing received. -/
  encrypt_received : ∀ {s frame s' wire}, E.messageEncrypt (some s) frame = .ok (s', wire) →
    received s ⊆ received s'
  /-- Decryption never moves the sending position back. -/
  decrypt_position : ∀ {s wire s' frame}, E.messageDecrypt (some s) wire = .ok (s', frame) →
    position s ≤ position s'
  /-- A successful decryption records the message. -/
  decrypt_records : ∀ {s? wire s' frame}, E.messageDecrypt s? wire = .ok (s', frame) →
    wire ∈ received s'
  /-- Decryption forgets nothing received. -/
  decrypt_received : ∀ {s wire s' frame}, E.messageDecrypt (some s) wire = .ok (s', frame) →
    received s ⊆ received s'

namespace RatchetLaws

variable {E : Engine C} {Pos : Type} [LinearOrder Pos] (L : RatchetLaws E Pos)

/-- The position of a stored row; no session lies before every position. -/
def rowPosition : Option C.Session → WithBot Pos
  | none => ⊥
  | some s => L.position s

/-- The counter a call spent. -/
def spent : SessionOutcome C → Option (WithBot Pos)
  | .sealed wire => some (L.counter wire)
  | .opened _ => none

/-- The row has received what the outcome opened. -/
def Remembers : SessionOutcome C → Option C.Session → Prop
  | .sealed _, _ => True
  | .opened wire, session? => ∃ s, session? = some s ∧ wire ∈ L.received s

include L in
/-- A successful call is an encryption or a decryption of the loaded session. -/
theorem advance_cases {call : SessionCall C} {s s' : Option C.Session} {out : SessionOutcome C}
    (h : E.advance call s = some (s', out)) :
    (∃ frame before after wire, s = some before ∧ s' = some after ∧ out = .sealed wire ∧
        E.messageEncrypt (some before) frame = .ok (after, wire)) ∨
      ∃ wire after frame, s' = some after ∧ out = .opened wire ∧
        E.messageDecrypt s wire = .ok (after, frame) := by
  cases call with
  | encrypt frame =>
    simp only [Engine.advance] at h
    split at h
    · rename_i after wire henc
      cases h
      cases s with
      | none => exact absurd henc (L.encrypt_none frame after wire)
      | some before => exact .inl ⟨frame, before, after, wire, rfl, rfl, rfl, henc⟩
    · exact absurd h (by simp)
  | decrypt wire =>
    simp only [Engine.advance] at h
    split at h
    · rename_i after frame hdec
      cases h
      exact .inr ⟨wire, after, frame, rfl, rfl, hdec⟩
    · exact absurd h (by simp)

variable (call : SessionCall C) (s s' : Option C.Session) (out : SessionOutcome C)

theorem rowPosition_mono
    (h : E.advance call s = some (s', out)) : L.rowPosition s ≤ L.rowPosition s' := by
  obtain ⟨frame, before, after, wire, rfl, rfl, -, henc⟩ | ⟨wire, after, frame, rfl, -, hdec⟩ :=
    L.advance_cases h
  · exact WithBot.coe_le_coe.mpr (L.encrypt_advances henc).le
  · cases s with
    | none => exact bot_le
    | some before => exact WithBot.coe_le_coe.mpr (L.decrypt_position hdec)

theorem spent_eq
    (p : WithBot Pos) (h : E.advance call s = some (s', out)) (hp : L.spent out = some p) :
    p = L.rowPosition s := by
  obtain ⟨frame, before, after, wire, rfl, rfl, rfl, henc⟩ | ⟨wire, after, frame, rfl, rfl, -⟩ :=
    L.advance_cases h
  · rw [← Option.some.inj hp, L.encrypt_counter henc]
    rfl
  · exact absurd hp (by simp [spent])

theorem rowPosition_lt
    (p : WithBot Pos) (h : E.advance call s = some (s', out)) (hp : L.spent out = some p) :
    L.rowPosition s < L.rowPosition s' := by
  obtain ⟨frame, before, after, wire, rfl, rfl, rfl, henc⟩ | ⟨wire, after, frame, rfl, rfl, -⟩ :=
    L.advance_cases h
  · exact WithBot.coe_lt_coe.mpr (L.encrypt_advances henc)
  · exact absurd hp (by simp [spent])

theorem remembers_new (h : E.advance call s = some (s', out)) : L.Remembers out s' := by
  obtain ⟨frame, before, after, wire, -, -, rfl, -⟩ | ⟨wire, after, frame, rfl, rfl, hdec⟩ :=
    L.advance_cases h
  · trivial
  · exact ⟨after, rfl, L.decrypt_records hdec⟩

theorem remembers_mono (old : SessionOutcome C) (call : SessionCall C) (s s' : Option C.Session)
    (out : SessionOutcome C) (h : E.advance call s = some (s', out)) (hold : L.Remembers old s) :
    L.Remembers old s' := by
  cases old with
  | sealed wire => trivial
  | opened wire =>
    obtain ⟨before, rfl, hmem⟩ := hold
    obtain ⟨frame, s, after, _, hs, rfl, -, henc⟩ | ⟨_, after, frame, rfl, -, hdec⟩ :=
      L.advance_cases h
    · cases hs
      exact ⟨after, rfl, L.encrypt_received henc hmem⟩
    · exact ⟨after, rfl, L.decrypt_received hdec hmem⟩

end RatchetLaws

/-! ## No ratchet update is lost -/

/-- The envelope an outcome sealed. -/
def SessionOutcome.sealed? : SessionOutcome C → Option C.Wire
  | .sealed wire => some wire
  | .opened _ => none

namespace SessionTable

/-- The envelopes sealed for one peer, in the order in which they took effect. -/
def sealedFor (t : SessionTable ι C) (peer : String) : List C.Wire :=
  (t.finishedFor peer).filterMap fun x => x.2.bind SessionOutcome.sealed?

/-- **Ratchet updates are kept.** Every stored session is what some serial order of the calls yields;
once none is in flight these are all calls that were started; no two envelopes for a peer carry the
same counter; and every message opened stays received. -/
structure UpdatesKept {E : Engine C} {Pos : Type} [LinearOrder Pos] (L : RatchetLaws E Pos)
    (row0 : String → Option C.Session) (t : SessionTable ι C) : Prop where
  /-- Some serial order of the calls yields the stored session. -/
  serializable : ∀ peer, ∃ order, order.Perm (t.callsFor peer) ∧
    t.row peer = serial E.advance (row0 peer) order
  /-- No call is left out. -/
  complete : t.inFlight = [] → (t.finished.map fun x => (x.1, x.2.1)).Perm t.started
  /-- No counter is used twice. -/
  counters : ∀ peer, (t.sealedFor peer).Pairwise fun a b => L.counter a ≠ L.counter b
  /-- No received message is forgotten. -/
  received : ∀ peer call wire, (call, some (.opened wire)) ∈ t.finishedFor peer →
    ∃ s, t.row peer = some s ∧ wire ∈ L.received s

variable {E : Engine C} {Pos : Type} [LinearOrder Pos] {row0 : String → Option C.Session}

omit [DecidableEq ι] in
/-- An explained history keeps every update. -/
theorem Explained.updatesKept {t : SessionTable ι C} (h : Explained E row0 t)
    (L : RatchetLaws E Pos) : UpdatesKept L row0 t where
  serializable peer := ⟨t.callsFor peer, .refl _, h.row_eq peer⟩
  complete hnone := by simpa [hnone] using h.perm
  counters peer := by
    have hincreasing := outcomes_marks_increasing (L.rowPosition_mono) (L.spent_eq)
      (L.rowPosition_lt) (row0 peer) (t.callsFor peer)
    rw [← h.outcomes_eq] at hincreasing
    refine List.Pairwise.filterMap _ (fun a b hab => ?_) hincreasing
    intro x hx y hy
    obtain ⟨ox, hax, hox⟩ := Option.bind_eq_some_iff.mp hx
    obtain ⟨oy, hby, hoy⟩ := Option.bind_eq_some_iff.mp hy
    cases ox with
    | opened _ => exact absurd hox (by simp [SessionOutcome.sealed?])
    | sealed wx =>
      cases oy with
      | opened _ => exact absurd hoy (by simp [SessionOutcome.sealed?])
      | sealed wy =>
        cases hox
        cases hoy
        exact (WithBot.coe_lt_coe.mp (hab _ _ _ _ hax hby rfl rfl)).ne
  received peer call wire hmem := by
    rw [h.outcomes_eq] at hmem
    have := serial_establishes L.remembers_new L.remembers_mono hmem
    rwa [← h.row_eq] at this

end SessionTable

/-- **Undisturbed stores lose nothing.** In every run of the engine's callers, any number of them and
in any interleaving, in which each `store_session` finds the session its own call loaded, every
ratchet update is kept in every state reached. -/
theorem updatesKept_of_undisturbed {E : Engine C} {Pos : Type} [LinearOrder Pos]
    (L : RatchetLaws E Pos) (conv : ι → ℕ) (row0 : String → Option C.Session)
    (todo : ι → EngineM C Unit) (hcallers : ∀ i, SessionSystem.EngineCaller E (todo i))
    (schedule : List (ι × Oracle C)) (w : SessionSystem ι C)
    (hok : Along (SessionSystem.step E conv) SessionSystem.Undisturbed ⟨init row0, todo⟩ schedule)
    (hrun : run (SessionSystem.step E conv) ⟨init row0, todo⟩ schedule = some w) :
    UpdatesKept L row0 w.shared := by
  have hconsistent := run_invariant (I := SessionSystem.Consistent E conv row0)
    (fun w l w' h hundisturbed hstep => h.step hundisturbed hstep)
    (SessionSystem.consistent_start hcallers) hok hrun
  exact hconsistent.2.updatesKept L

/-! ## A send overlapping a receive

The counting ratchet, one conversation, one listener and one `send_chat` thread. -/

/-- The counting ratchet keeps the laws. -/
def countingLaws : RatchetLaws countingEngine ℕ where
  position s := s.1
  counter wire := wire
  received s := { wire | wire ∈ s.2 }
  encrypt_none _ _ _ h := by simp [countingEngine] at h
  encrypt_counter h := by
    simp only [countingEngine, Except.ok.injEq, Prod.mk.injEq] at h
    exact h.2.symm
  encrypt_advances h := by
    simp only [countingEngine, Except.ok.injEq, Prod.mk.injEq] at h
    simp [← h.1]
  encrypt_received h := by
    simp only [countingEngine, Except.ok.injEq, Prod.mk.injEq] at h
    exact h.1 ▸ fun _ => id
  decrypt_position h := by
    simp only [countingEngine] at h
    split at h
    · cases h
    · simp only [Except.ok.injEq, Prod.mk.injEq] at h
      simp [← h.1]
  decrypt_records {s?} _ _ _ h := by
    cases s? with
    | none => simp [countingEngine] at h
    | some s =>
      simp only [countingEngine] at h
      split at h
      · cases h
      · simp only [Except.ok.injEq, Prod.mk.injEq] at h
        simp [← h.1]
  decrypt_received h := by
    simp only [countingEngine] at h
    split at h
    · cases h
    · simp only [Except.ok.injEq, Prod.mk.injEq] at h
      intro x hx
      exact h.1 ▸ List.mem_cons_of_mem _ hx

/-- Thread `false` is the listener, thread `true` sends a chat. -/
def callers : Bool → EngineM countingCarrier Unit
  | false => countingEngine.conversationListener 2
  | true => countingEngine.sendChat 7 >>= fun _ => pure ()

theorem callers_engineCaller (i : Bool) : SessionSystem.EngineCaller countingEngine (callers i) := by
  cases i with
  | false => exact .listener 2
  | true => exact SessionSystem.EngineCaller.sendChat (C := countingCarrier) 7

/-- The peer's session before the race. -/
def freshRow : String → Option (ℕ × List ℕ) := fun _ => some (0, [])

/-- The listener connects and waits. The sender queues its row, takes the flush lock and loads the
session; the listener loads, opens message `100` and stores; then the sender stores. -/
def racingSchedule : List (Bool × Oracle countingCarrier) :=
  List.replicate 8 (false, calmOracle []) ++ List.replicate 5 (true, calmOracle [(0, .chat 1 7)]) ++
    List.replicate 3 (false, calmOracle []) ++ [(true, calmOracle [])]

/-- What the race leaves: a session that has sent but forgotten what it received. -/
theorem race_table :
    (run (SessionSystem.step countingEngine fun _ => 0) ⟨init freshRow, callers⟩ racingSchedule).map
      (fun w => (w.shared.row "peer", w.shared.finishedFor "peer")) =
    some (some (1, []),
      [(.decrypt 100, some (.opened 100)), (.encrypt (.chat 1 7), some (.sealed 0))]) := by
  rfl

/-- **An overlapping send undoes a receive.** The listener opened message `100` and stored the advanced
session, the sender sealed from the session it had loaded before and stored over it: no serial order
of the two calls yields the stored session. -/
theorem race_loses_update :
    ∃ w, run (SessionSystem.step countingEngine fun _ => 0) ⟨init freshRow, callers⟩ racingSchedule =
        some w ∧ ¬ UpdatesKept countingLaws freshRow w.shared := by
  obtain ⟨w, hrun, htable⟩ := Option.map_eq_some_iff.mp race_table
  obtain ⟨hrow, hfinished⟩ := Prod.mk.inj htable
  refine ⟨w, hrun, fun hkept => ?_⟩
  obtain ⟨order, hperm, hserial⟩ := hkept.serializable "peer"
  have hcalls : w.shared.callsFor "peer" = [.decrypt 100, .encrypt (.chat 1 7)] := by
    rw [callsFor, hfinished]
    rfl
  rw [hcalls, ← List.mem_permutations] at hperm
  rw [hrow] at hserial
  have horders : order = [.decrypt 100, .encrypt (.chat 1 7)] ∨
      order = [.encrypt (.chat 1 7), .decrypt 100] := by
    simpa [List.permutations, List.permutationsAux_cons, List.permutationsAux2] using hperm
  obtain rfl | rfl := horders
  · exact absurd hserial (by decide)
  · exact absurd hserial (by decide)

/-- The same two threads, with the whole send before the listener loads. -/
def orderlySchedule : List (Bool × Oracle countingCarrier) :=
  List.replicate 8 (false, calmOracle []) ++ List.replicate 9 (true, calmOracle [(0, .chat 1 7)]) ++
    List.replicate 3 (false, calmOracle [])

theorem orderly_updatesKept :
    ∃ w, run (SessionSystem.step countingEngine fun _ => 0) ⟨init freshRow, callers⟩ orderlySchedule =
        some w ∧ UpdatesKept countingLaws freshRow w.shared ∧
        w.shared.row "peer" = some (1, [100]) := by
  exact ⟨_, rfl, updatesKept_of_undisturbed countingLaws (fun _ => 0) freshRow callers
    callers_engineCaller orderlySchedule _ (by decide) rfl, rfl⟩

end Titlan
