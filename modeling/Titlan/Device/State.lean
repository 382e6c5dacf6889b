import Mathlib.Logic.Function.Basic
import Titlan.Engine.Blocks
import Titlan.Foundation.RelyGuarantee
import Titlan.Foundation.Run
import Titlan.Session.Counting

/-! # One client on an unreliable store

The state of one client for one conversation, and of the mailboxes it works on: the rows of its
database, the entries of its in-memory maps, and the mailbox queues of the relays. Any storage access
may fail, and then changes nothing. What comes from outside (a relay's replies, what the socket yields,
random bytes) is given turn by turn; a mailbox changes when the relay's reply says so. -/

namespace Titlan

open Foundation

/-- A client's rows and in-memory entries for a conversation, and the mailboxes. -/
structure Device (C : Carrier) where
  convo : Conversation C
  recovery : RecoveryRecord C
  sessions : String → Option C.Session
  messages : List (StoredMessage C)
  /-- The `rotation` map's entry. -/
  rotation : Option (OffererAwaitingFb C)
  /-- The ring of hellos seen, oldest first. -/
  helloSeen : List (ℕ × C.Nonce)
  /-- The `exhaustion` map's entry. -/
  exhaustion : Option ExhaustionTracker
  /-- The queue of each existing mailbox of each relay. -/
  boxes : C.Relay → C.Id → Option (List C.Wire)

/-- What the outside decides about one operation. -/
structure Turn (C : Carrier) where
  /-- The error a storage access fails with, if it fails. -/
  fault : Option CoreError
  /-- What relays, the socket and the random generator answer. -/
  answer : (o : Op C) → o.Answer

/-- The answer of a failed storage access. -/
def StoreOp.failWith {C : Carrier} (e : CoreError) : (o : StoreOp C) → o.Answer
  | .getConversation => .error e
  | .recoveryState => .error e
  | .setConversationSend _ _ => .error e
  | .setConversationRecv _ => .error e
  | .setRecoveryRoot _ _ => .error e
  | .setRecoveryGenerations _ _ => .error e
  | .pendingChat => .error e
  | .insertMessage _ _ _ => .error e
  | .markMessageSent _ => .error e
  | .loadSession _ _ => .error e
  | .storeSession _ _ _ => .error e

/-! ## The outgoing queue -/

section Queue

variable {C : Carrier}

/-- The row is outgoing and pending. -/
abbrev StoredMessage.Waits (m : StoredMessage C) : Prop := m.direction = .outgoing ∧ m.status = .pending

/-- The rows that wait, oldest first. -/
def Device.pending (d : Device C) : List (ℕ × C.Frame) :=
  (d.messages.filter fun m => m.Waits).map fun m => (m.id, m.frame)

/-- A table with the rows of these ids marked sent. -/
def marked (p : ℕ → Prop) [DecidablePred p] (rows : List (StoredMessage C)) : List (StoredMessage C) :=
  rows.map fun m => if p m.id then { m with status := .sent } else m

theorem filter_marked (p : ℕ → Prop) [DecidablePred p] (rows : List (StoredMessage C)) :
    (marked p rows).filter (fun m => m.Waits) = (rows.filter fun m => m.Waits).filter fun m => ¬ p m.id := by
  induction rows with
  | nil => rfl
  | cons m rows ih =>
    rw [marked, List.map_cons, ← marked]
    by_cases hid : p m.id
    · rw [if_pos hid, List.filter_cons_of_neg (by simp [StoredMessage.Waits]), ih]
      by_cases hwaits : m.Waits
      · rw [List.filter_cons_of_pos (by simpa using hwaits), List.filter_cons_of_neg (by simpa using hid)]
      · rw [List.filter_cons_of_neg (by simpa using hwaits)]
    · rw [if_neg hid]
      by_cases hwaits : m.Waits
      · rw [List.filter_cons_of_pos (by simpa using hwaits), ih,
          List.filter_cons_of_pos (by simpa using hwaits), List.filter_cons_of_pos (by simpa using hid)]
      · rw [List.filter_cons_of_neg (by simpa using hwaits), ih,
          List.filter_cons_of_neg (by simpa using hwaits)]

end Queue

namespace Device

variable {C : Carrier} [C.Comparable]

/-- Change the queue of one mailbox, or remove or create the mailbox. -/
def setBox (d : Device C) (relayUrl : C.Relay) (id : C.Id) (queue : Option (List C.Wire)) : Device C :=
  { d with boxes := fun r i => if r = relayUrl ∧ i = id then queue else d.boxes r i }

/-- Storage accesses that succeed. A row's id is its place in the table. -/
def performStore (d : Device C) : (o : StoreOp C) → o.Answer × Device C
  | .getConversation => (.ok (some d.convo), d)
  | .recoveryState => (.ok (some d.recovery), d)
  | .setConversationSend relayUrl inbox =>
    (.ok (), { d with convo := { d.convo with relayUrl, mailboxSend := some inbox } })
  | .setConversationRecv inbox => (.ok (), { d with convo := { d.convo with mailboxRecv := some inbox } })
  | .setRecoveryRoot _ root => (.ok (), { d with recovery := { d.recovery with root := some root } })
  | .setRecoveryGenerations ownGen peerGen =>
    (.ok (), { d with recovery := { d.recovery with ownGen, peerGen } })
  | .pendingChat =>
    (.ok ((d.messages.filter fun m => m.direction = .outgoing ∧ m.status = .pending).map
      fun m => (m.id, m.frame)), d)
  | .insertMessage direction frame status =>
    let row := ⟨d.messages.length, direction, frame, status⟩
    (.ok row, { d with messages := d.messages ++ [row] })
  | .markMessageSent id =>
    (.ok (), { d with messages := d.messages.map fun m => if m.id = id then { m with status := .sent } else m })
  | .loadSession peer _ => (.ok (d.sessions peer), d)
  | .storeSession peer _ session =>
    (.ok (), { d with sessions := Function.update d.sessions peer (some session) })

/-- Accesses to the in-memory maps. -/
def performRam (d : Device C) (nonce : C.Nonce) : (o : RamOp C) → o.Answer × Device C
  | .takeRotation => (d.rotation, { d with rotation := none })
  | .insertRotation entry => ((), { d with rotation := some entry })
  | .markHelloSeen generation nonce =>
    let seen := Titlan.markHelloSeen d.helloSeen generation nonce
    (seen.1, { d with helloSeen := seen.2 })
  | .cyclesExhausted =>
    let tracker := d.exhaustion.getD .new
    (tracker.isExhausted, { d with exhaustion := some tracker })
  | .noteProbeCycle => ((), { d with exhaustion := some (d.exhaustion.getD .new).noteProbeCycle })
  | .resetExhaustion => ((), { d with exhaustion := d.exhaustion.map .reset })
  | .drawNonce => (nonce, d)
  | .lockFlush => ((), d)
  | .unlockFlush => ((), d)

/-- Relay requests, by the relay's reply. -/
def performRelay (E : Engine C) (d : Device C) : (o : RelayOp C) → o.Answer → Device C
  | .createMailbox, .ok id => d.setBox E.myRelay id (some [])
  | .putMailbox relayUrl id, .ok .created =>
    d.setBox relayUrl id (some ((d.boxes relayUrl id).getD []))
  | .deposit relayUrl id wire, .ok .accepted =>
    d.setBox relayUrl id ((d.boxes relayUrl id).map (· ++ [wire]))
  | .deleteMailbox id, .ok () => d.setBox E.myRelay id none
  | _, _ => d

/-- The effect of one operation in one turn. -/
def perform (E : Engine C) (t : Turn C) (d : Device C) : (o : Op C) → o.Answer × Device C
  | .store o =>
    match t.fault with
    | some e => (o.failWith e, d)
    | none => d.performStore o
  | .ram o => d.performRam (t.answer (.ram .drawNonce)) o
  | .relay o => (t.answer (.relay o), d.performRelay E o (t.answer (.relay o)))
  | .socket o => (t.answer (.socket o), d)
  | .notify n => (t.answer (.notify n), d)

/-! ## What operations leave alone -/

section Frame

variable (E : Engine C) (t : Turn C) (d : Device C)

/-- No operation changes whose conversation it is. -/
theorem peerAddress_perform (o : Op C) :
    (d.perform E t o).2.convo.peerAddress = d.convo.peerAddress := by
  cases o with
  | store o =>
    simp only [perform]
    split
    · rfl
    · cases o <;> rfl
  | ram o => cases o <;> rfl
  | relay o =>
    simp only [perform, performRelay]
    split <;> rfl
  | socket o => rfl
  | notify n => rfl

/-- Only `store_session` changes sessions. -/
theorem sessions_perform {o : Op C} (ho : ∀ peer call s, o ≠ .store (.storeSession peer call s)) :
    (d.perform E t o).2.sessions = d.sessions := by
  cases o with
  | store o =>
    simp only [perform]
    split
    · rfl
    · cases o with
      | storeSession peer call s => exact absurd rfl (ho peer call s)
      | _ => rfl
  | ram o => cases o <;> rfl
  | relay o =>
    simp only [perform, performRelay]
    split <;> rfl
  | socket o => rfl
  | notify n => rfl

/-- Only an insert adds message rows; the others keep sides and frames. -/
theorem messages_perform {o : Op C}
    (ho : ∀ direction frame status, o ≠ .store (.insertMessage direction frame status)) :
    ∃ f : StoredMessage C → StoredMessage C,
      (∀ row, (f row).direction = row.direction ∧ (f row).frame = row.frame) ∧
        (d.perform E t o).2.messages = d.messages.map f := by
  have hsame : ∀ d' : Device C, d'.messages = d.messages → ∃ f : StoredMessage C → StoredMessage C,
      (∀ row, (f row).direction = row.direction ∧ (f row).frame = row.frame) ∧
        d'.messages = d.messages.map f :=
    fun d' h => ⟨id, fun _ => ⟨rfl, rfl⟩, by rw [h, List.map_id]⟩
  cases o with
  | store o =>
    simp only [perform]
    split
    · exact hsame d rfl
    · cases o with
      | insertMessage direction frame status => exact absurd rfl (ho direction frame status)
      | markMessageSent i =>
        refine ⟨fun row => if row.id = i then { row with status := .sent } else row, ?_, rfl⟩
        intro row
        dsimp only
        split <;> exact ⟨rfl, rfl⟩
      | _ => exact hsame _ rfl
  | ram o => cases o <;> exact hsame _ rfl
  | relay o =>
    simp only [perform, performRelay]
    split <;> exact hsame _ rfl
  | socket o => exact hsame d rfl
  | notify n => exact hsame d rfl

end Frame

/-! ## Programs on their own -/

/-- The outcome of a program that takes exactly the given turns. -/
def exec {α : Type} (E : Engine C) : EngineM C α → List (Turn C) → Device C → Option (α × Device C)
  | .ret a, [], d => some (a, d)
  | .op o k, t :: ts, d =>
    let out := d.perform E t o
    exec E (k out.1) ts out.2
  | _, _, _ => none

theorem exec_perform_bind {α : Type} (E : Engine C) (o : Op C) (k : o.Answer → EngineM C α)
    (t : Turn C) (ts : List (Turn C)) (d : Device C) : exec E (o.program >>= k) (t :: ts) d =
      exec E (k (d.perform E t o).1) ts (d.perform E t o).2 := rfl

/-- A run that has returned takes no more turns. -/
theorem exec_ret_eq {α : Type} {E : Engine C} {a b : α} {ts : List (Turn C)} {d d' : Device C}
    (h : exec E (.ret a) ts d = some (b, d')) : ts = [] ∧ b = a ∧ d' = d := by
  cases ts with
  | nil =>
    cases h
    exact ⟨rfl, rfl, rfl⟩
  | cons t ts => cases h

/-- A client whose program runs alone. -/
def alone (E : Engine C) : Setting (engineSig C) (Device C) where
  exec o d r d' := ∃ t, d.perform E t o = (r, d')
  check _ _ := True
  rely _ _ := False
  guar _ _ := True

theorem stable_alone (E : Engine C) (I : Device C → Prop) : Stable (alone E) I :=
  fun _ _ h _ => h.elim

/-- What a safe program promises holds when it has run. -/
theorem exec_of_safe {α : Type} {E : Engine C} {post : α → Device C → Prop} {p : EngineM C α}
    {ts : List (Turn C)} {d d' : Device C} {a : α} (h : Safe (alone E) post p d)
    (hexec : exec E p ts d = some (a, d')) : post a d' := by
  induction p generalizing ts d with
  | ret b =>
    cases ts with
    | nil =>
      cases hexec
      exact h.post_ret
    | cons t ts => cases hexec
  | op o k ih =>
    cases ts with
    | nil => cases hexec
    | cons t ts => exact ih _ (h.step ⟨t, rfl⟩).2 hexec

/-- What no operation of a kind changes, no program of such operations changes. -/
theorem triple_const {α β : Type} {E : Engine C} {P : Op C → Prop} (f : Device C → β)
    (hf : ∀ t (d : Device C) o, P o → f (d.perform E t o).2 = f d) {p : EngineM C α}
    (hp : Composed (Each (S := engineSig C) P) p) (b : β) :
    Triple (alone E) (fun d => f d = b) p fun _ d => f d = b := by
  refine hp.triple (stable_alone E _) fun _ q hq => ?_
  cases hq with
  | op o ho =>
    rw [← Program.bind_ret (Program.perform o)]
    refine triple_perform (m := fun _ d => f d = b) (stable_alone E _) (fun _ _ => trivial) ?_
      fun r => triple_ret (stable_alone E _) fun _ h => h
    rintro d r d' hd ⟨t, ht⟩
    refine ⟨trivial, ?_⟩
    have hsame := hf t d o ho
    rw [ht] at hsame
    exact hsame.trans hd

end Device

/-- A client of the counting ratchet with nothing pending and nothing received. -/
def freshDevice : Device countingCarrier where
  convo := ⟨"peer", (), some (), some ()⟩
  recovery := ⟨none, none, 0, 0⟩
  sessions _ := some (0, [])
  messages := []
  rotation := none
  helloSeen := []
  exhaustion := none
  boxes _ _ := some []

end Titlan
