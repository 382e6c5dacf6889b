import Titlan.Client.Socket
import Titlan.Foundation.Past

/-! # Keepalive

What the notes of a subscription say about its pings. The flag says that a ping has been sent and that
neither a pong nor a binary frame has come since; from this follow the order of pings and idle events and
the ground of every timeout, over any number of calls. A ping whose sending fails is no ping: the call
returns the socket's error and the flag stays down. -/

namespace Titlan.Client

open Foundation

/-! ## What is noted -/

namespace Note

/-- A ping was sent. -/
def isPing : Note → Bool
  | .sentPing => true
  | _ => false

/-- A pong came. -/
def isPong : Note → Bool
  | .received (.pong _) => true
  | _ => false

/-- A binary frame came. -/
def isBinary : Note → Bool
  | .received (.binary _) => true
  | _ => false

/-- `next` returned an idle event. -/
def isIdle : Note → Bool
  | .returned .idle => true
  | _ => false

/-- `next` returned the keepalive timeout. -/
def isTimeout : Note → Bool
  | .returned .timeout => true
  | _ => false

/-- A note of nothing the keepalive is about. -/
def isPlain (n : Note) : Bool :=
  !(n.isPing || n.isPong || n.isBinary || n.isIdle || n.isTimeout)

end Note

/-- A ping was sent, and neither a pong nor a binary frame has come since. -/
def Unanswered : List Note → Prop := Since (·.isPing) fun n => n.isPong || n.isBinary

/-- A ping was sent after the last idle event and the last binary frame. -/
def Unused : List Note → Prop := Since (·.isPing) fun n => n.isIdle || n.isBinary

variable {notes : List Note}

theorem unanswered_concat {n : Note} : Unanswered (notes ++ [n]) ↔
    n.isPing = true ∨ Unanswered notes ∧ ¬(n.isPong || n.isBinary) = true := since_concat

theorem unused_concat {n : Note} : Unused (notes ++ [n]) ↔
    n.isPing = true ∨ Unused notes ∧ ¬(n.isIdle || n.isBinary) = true := since_concat

/-- The notes are those of a sound keepalive. -/
structure KeepaliveSound (notes : List Note) : Prop where
  /-- An idle event comes after a ping that was sent after the last idle event and binary frame. -/
  idle : Whenever (·.isIdle) Unused notes
  /-- At no moment have there been more idle events than pings. -/
  idle_le_ping : ∀ done rest, notes = done ++ rest → done.countP (·.isIdle) ≤ done.countP (·.isPing)
  /-- A ping is sent only when a pong or a binary frame has followed the one before. -/
  ping : Whenever (·.isPing) (fun done => ¬Unanswered done) notes
  /-- At a timeout, neither a pong nor a binary frame has come since the last ping. -/
  timeout : Whenever (·.isTimeout) Unanswered notes

/-! ## The flag -/

/-- The notes so far are sound, and the flag tells whether a ping is unanswered. -/
structure Told (s : Subscription) (notes : List Note) : Prop where
  awaiting : s.awaitingPong = true ↔ Unanswered notes
  /-- An unanswered ping has not been used for an idle event. -/
  unused : s.awaitingPong = true → Unused notes
  idle : Whenever (·.isIdle) Unused notes
  ping : Whenever (·.isPing) (fun done => ¬Unanswered done) notes
  timeout : Whenever (·.isTimeout) Unanswered notes

section Told

variable {s s' : Subscription} {notes more : List Note} {n : Note} {w : Waited} {exit : Option Exit}

theorem told_new (timing : KeepaliveTiming) : Told (Subscription.new timing) [] := by
  constructor <;> simp [Subscription.new, Unanswered]

/-- The rules of the keepalive that a new note has to obey. -/
theorem Told.concat (ht : Told s notes) (hidle : n.isIdle = true → Unused notes)
    (hping : n.isPing = true → ¬Unanswered notes) (htimeout : n.isTimeout = true → Unanswered notes)
    (hawaiting : s'.awaitingPong = true ↔ Unanswered (notes ++ [n]))
    (hunused : s'.awaitingPong = true → Unused (notes ++ [n])) : Told s' (notes ++ [n]) :=
  ⟨hawaiting, hunused, whenever_concat.mpr ⟨ht.idle, hidle⟩, whenever_concat.mpr ⟨ht.ping, hping⟩,
    whenever_concat.mpr ⟨ht.timeout, htimeout⟩⟩

/-- A note that is neither a ping nor an answer nor an idle event leaves the flag as it is. -/
theorem Told.other (ht : Told s notes) (hping : n.isPing = false)
    (hanswer : (n.isPong || n.isBinary) = false) (hidle : n.isIdle = false)
    (htimeout : n.isTimeout = true → s.awaitingPong = true) : Told s (notes ++ [n]) := by
  have hbinary : n.isBinary = false := (Bool.or_eq_false_iff.mp hanswer).2
  refine ht.concat ?_ ?_ (fun h => ht.awaiting.mp (htimeout h)) ?_ fun h => ?_
  · simp [hidle]
  · simp [hping]
  · simp [unanswered_concat, hping, hanswer, ht.awaiting]
  · simp [unused_concat, hidle, hbinary, ht.unused h]

theorem Told.plain (ht : Told s notes) (n : Note) (hn : n.isPlain = true) : Told s (notes ++ [n]) := by
  simp only [Note.isPlain, Bool.not_eq_true', Bool.or_eq_false_iff] at hn
  obtain ⟨⟨⟨⟨hping, hpong⟩, hbinary⟩, hidle⟩, htimeout⟩ := hn
  exact ht.other hping (by rw [hpong, hbinary]; rfl) hidle fun h => by simp [htimeout] at h

theorem Told.sentPing (ht : Told s notes) (hs : s.awaitingPong = false) :
    Told { s with awaitingPong := true } (notes ++ [.sentPing]) := by
  have hnone : ¬Unanswered notes := by
    rw [← ht.awaiting, hs]
    decide
  refine ht.concat (fun h => ?_) (fun _ => hnone) (fun h => ?_) ?_ fun _ => ?_
  · cases h
  · cases h
  · simp [unanswered_concat, Note.isPing]
  · simp [unused_concat, Note.isPing]

/-- A pong or a binary frame takes the flag down. -/
theorem Told.answered (ht : Told s notes) (hping : n.isPing = false)
    (hanswer : (n.isPong || n.isBinary) = true) (hidle : n.isIdle = false)
    (htimeout : n.isTimeout = false) : Told { s with awaitingPong := false } (notes ++ [n]) := by
  refine ht.concat ?_ ?_ ?_ ?_ ?_
  · simp [hidle]
  · simp [hping]
  · simp [htimeout]
  · simp only [unanswered_concat, hping, hanswer, not_true_eq_false, and_false, or_false]
  · simp

/-- An idle event is returned with the flag down, for a ping that no idle event has used. -/
theorem Told.idled (ht : Told s notes) (hs : s.awaitingPong = false) (hunused : Unused notes) :
    Told s (notes ++ [.returned .idle]) := by
  refine ht.concat (fun _ => hunused) (fun h => ?_) (fun h => ?_) ?_ ?_
  · cases h
  · cases h
  · simp [unanswered_concat, Note.isPing, Note.isPong, Note.isBinary, ht.awaiting]
  · simp [hs]

/-- What a pass of the loop adds to the notes: its own, and its return if it returns. -/
def passNotes (more : List Note) (exit : Option Exit) : List Note :=
  more ++ (exit.map Note.returned).toList

/-- **Step lemma**: a pass of the loop keeps the notes sound and the flag truthful. -/
theorem Told.turn (ht : Told s notes) (hturn : s.turn w = (more, s', exit)) :
    Told s' (notes ++ passNotes more exit) := by
  cases w with
  | elapsed send =>
    have hsilent := ht.plain (.silence s.wait) rfl
    cases hs : s.awaitingPong with
    | true =>
      simp only [Subscription.turn, hs, if_true] at hturn
      cases hturn
      have htimeout := hsilent.other (n := .returned .timeout) (by rfl) (by rfl) (by rfl) fun _ => hs
      simpa [passNotes] using htimeout
    | false =>
      cases send with
      | ok u =>
        simp only [Subscription.turn, hs, Bool.false_eq_true, if_false] at hturn
        cases hturn
        simpa [passNotes] using hsilent.sentPing hs
      | error e =>
        simp only [Subscription.turn, hs, Bool.false_eq_true, if_false] at hturn
        cases hturn
        have hfailed := hsilent.plain (.returned (.transport e)) rfl
        simpa [passNotes] using hfailed
  | message m =>
    cases m with
    | binary data =>
      cases hturn
      have hbinary := ht.answered (n := .received (.binary data)) (by rfl) (by rfl) (by rfl) (by rfl)
      have hreturned := hbinary.plain (.returned (.delivery (readDelivery data))) rfl
      simpa [passNotes] using hreturned
    | pong payload =>
      have hpong := ht.answered (n := .received (.pong payload)) (by rfl) (by rfl) (by rfl) (by rfl)
      cases hs : s.awaitingPong with
      | true =>
        simp only [Subscription.turn, hs, if_true] at hturn
        cases hturn
        have hunused : Unused (notes ++ [.received (.pong payload)]) :=
          unused_concat.mpr (Or.inr ⟨ht.unused hs, by simp [Note.isIdle, Note.isBinary]⟩)
        simpa [passNotes] using hpong.idled rfl hunused
      | false =>
        simp only [Subscription.turn, hs, Bool.false_eq_true, if_false] at hturn
        cases hturn
        -- an unsolicited pong: the flag is down already
        have hsame : { s with awaitingPong := false } = s := by rw [← hs]
        simpa [passNotes, hsame] using hpong
    | ping payload =>
      cases hturn
      have hping := ht.plain (.received (.ping payload)) rfl
      have hreply := hping.plain (.sentPong payload) rfl
      simpa [passNotes] using hreply
    | close =>
      cases hturn
      have hclose := ht.plain (.received .close) rfl
      have hreturned := hclose.plain (.returned .closed) rfl
      simpa [passNotes] using hreturned
    | other =>
      cases hturn
      have hother := ht.plain (.received .other) rfl
      simpa [passNotes] using hother
  | ended =>
    cases hturn
    exact ht.plain (.returned .closed) rfl
  | failed e =>
    cases hturn
    exact ht.plain (.returned (.transport e)) rfl

/-- A call of `next`. -/
theorem Told.next {ws rest : List Waited} {exit : Exit} (ht : Told s notes)
    (hnext : s.next ws = some (exit, s', more, rest)) : Told s' (notes ++ more) := by
  induction ws generalizing s notes more with
  | nil => cases hnext
  | cons w ws ih =>
    rcases hturn : s.turn w with ⟨first, s₁, exit₁⟩
    have ht₁ := ht.turn hturn
    rw [Subscription.next, hturn] at hnext
    cases exit₁ with
    | some exit₁ =>
      cases hnext
      exact ht₁
    | none =>
      obtain ⟨⟨exit₂, s₂, later, rest₂⟩, hlater, hnext⟩ := Option.bind_eq_some_iff.mp hnext
      cases hnext
      rw [← List.append_assoc]
      refine ih ?_ hlater
      simpa [passNotes] using ht₁

/-- Calls one after the other. -/
theorem Told.calls {k : ℕ} {ws rest : List Waited} (ht : Told s notes)
    (hcalls : s.calls k ws = some (s', more, rest)) : Told s' (notes ++ more) := by
  induction k generalizing s notes ws more with
  | zero =>
    cases hcalls
    simpa using ht
  | succ k ih =>
    obtain ⟨⟨exit, s₁, first, ws₁⟩, hnext, hcalls⟩ := Option.bind_eq_some_iff.mp hcalls
    obtain ⟨⟨s₂, later, rest₂⟩, hlater, hcalls⟩ := Option.bind_eq_some_iff.mp hcalls
    cases hcalls
    rw [← List.append_assoc]
    exact ih (ht.next hnext) hlater

end Told

theorem Told.keepaliveSound {s : Subscription} (ht : Told s notes) : KeepaliveSound notes where
  __ := ht
  idle_le_ping done rest heq := by
    have hidle : Whenever (·.isIdle) Unused done := Whenever.of_append (heq ▸ ht.idle)
    have hcount := countP_le_of_whenever (p := fun n : Note => n.isPing) (r := fun n => n.isIdle)
      fun before x after hdone hx => (hidle before x after hdone hx).mono fun y hy => by simp [hy]
    simpa using hcount

/-- **Keepalive.** Over any number of calls of `next`, on whatever their waits yield, the keepalive is
sound. -/
theorem calls_keepaliveSound (timing : KeepaliveTiming) (k : ℕ) (ws : List Waited) {s : Subscription}
    {notes : List Note} {rest : List Waited}
    (hcalls : (Subscription.new timing).calls k ws = some (s, notes, rest)) : KeepaliveSound notes :=
  ((told_new timing).calls hcalls).keepaliveSound

/-- Two calls: a ping answered, with an unsolicited pong after it, and a ping that is not. -/
theorem answered_then_timeout :
    KeepaliveSound [.silence 55000, .sentPing, .received (.pong []), .returned .idle,
      .received (.pong []), .silence 55000, .sentPing, .silence 10000, .returned .timeout] :=
  calls_keepaliveSound KeepaliveTiming.production 2
    [.elapsed (.ok ()), .message (.pong []), .message (.pong []),
    .elapsed (.ok ()), .elapsed (.ok ())] rfl

end Titlan.Client
