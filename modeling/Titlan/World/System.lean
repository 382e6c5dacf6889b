import Titlan.Foundation.RelyGuarantee
import Titlan.Foundation.Run
import Titlan.World.State

/-! # Runs of the two-party system

Each party runs a conversation listener and any number of `send_chat` threads. A run is a list of
labels: one thread performs its next operation, an application sends a chat, the relay restarts or its
sweep removes a mailbox, or a client process is killed and started again on its database. Which of
these a statement allows is said where it is stated. -/

namespace Titlan.World

open Foundation

variable [Sealing]

/-- The threads of the system. -/
inductive ThreadId
  | listener (p : Role)
  | sender (p : Role) (n : ℕ)
deriving DecidableEq, Repr

/-- The party a thread belongs to. -/
def ThreadId.party : ThreadId → Role
  | .listener p => p
  | .sender p _ => p

/-- The system: the shared state and what each thread still has to do. -/
abbrev Sys := Threads ThreadId (engineSig carrier) St

/-- One step of a run. -/
inductive Label
  | act (i : ThreadId) (c : Choice)
  /-- An application sends a chat on a sender thread that is at rest. -/
  | sendChat (p : Role) (n : ℕ)
  /-- The relay restarts with an empty mailbox table; `pushed` says how many unread messages are
  already in each party's socket. -/
  | relayRestart (pushed : Role → ℕ)
  | sweep (b : MailboxId) (pushed : Role → ℕ)
  /-- A client process is killed and started again; its new listener may take `fuel` turns. -/
  | clientRestart (p : Role) (fuel : ℕ)

namespace St

/-- A socket whose mailbox the relay has lost: up to `n` unread messages are still in it. -/
def cut (s : St) (lost : MailboxId → Bool) (n : ℕ) : Conn → Conn
  | .live box current =>
    if lost box then
      .dead ((((s.boxes box).getD []).filter fun m => some m.id ≠ current).take n)
    else .live box current
  | .dead buffered => .dead buffered

/-- The relay loses the mailboxes `lost`. -/
def lose (s : St) (lost : MailboxId → Bool) (pushed : Role → ℕ) : St :=
  { s with
    boxes := fun b => if lost b then none else s.boxes b
    party := fun p => { s.party p with conn := (s.party p).conn.map (s.cut lost (pushed p)) } }

/-- A process restart empties a party's in-memory state. -/
def forget (s : St) (p : Role) : St :=
  s.modify p fun x => { x with
    rotation := none
    helloSeen := []
    exhaustion := none
    flushLocked := false
    conn := none }

end St

/-- What a `send_chat` thread runs. -/
def sendChatThread (text : ℕ) : EngineM carrier Unit := engine.sendChat text >>= fun _ => pure ()

/-- One step of the system. -/
def step (w : Sys) : Label → Option Sys
  | .act i c =>
    match w.todo i with
    | .ret _ => none
    | .op o k => (perform i.party c w.shared o).map fun out => (w.move out.2).start i (k out.1)
  | .sendChat p n =>
    match w.todo (.sender p n) with
    | .ret _ => some ((w.move { w.shared with nextText := w.shared.nextText + 1 }).start
        (.sender p n) (sendChatThread w.shared.nextText))
    | .op _ _ => none
  | .relayRestart pushed => some (w.move (w.shared.lose (fun _ => true) pushed))
  | .sweep b pushed => some (w.move (w.shared.lose (fun c => c = b) pushed))
  | .clientRestart p fuel => some
      { shared := w.shared.forget p
        todo := fun i => if i.party = p then
            (match i with
              | .listener _ => engine.conversationListener fuel
              | .sender _ _ => .ret ())
          else w.todo i }

variable {w w' : Sys}

/-- A thread that acts performs its next operation. -/
theorem step_act {i : ThreadId} {c : Choice} (h : step w (.act i c) = some w') :
    ∃ o k r s', w.todo i = .op o k ∧ perform i.party c w.shared o = some (r, s') ∧
      w' = (w.move s').start i (k r) := by
  simp only [step] at h
  split at h
  · cases h
  · rename_i o k htodo
    obtain ⟨⟨r, s'⟩, hperform, rfl⟩ := Option.map_eq_some_iff.mp h
    exact ⟨o, k, r, s', htodo, hperform, rfl⟩

theorem step_sendChat {p : Role} {n : ℕ} (h : step w (.sendChat p n) = some w') :
    w' = (w.move { w.shared with nextText := w.shared.nextText + 1 }).start (.sender p n)
      (sendChatThread w.shared.nextText) := by
  simp only [step] at h
  split at h
  · exact (Option.some.inj h).symm
  · cases h

end Titlan.World
