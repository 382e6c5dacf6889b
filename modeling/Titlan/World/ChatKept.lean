import Titlan.World.FlowListener

/-! # The rotation finisher and accepted chats

From two parties converged on their derived inboxes, along any interleaving of the two listeners and
any number of `send_chat` calls: a chat whose row is marked sent is stored at the receiver or waits in
an inbox the receiver reads or is about to read. This holds as long as no chat is deposited behind a
handoff: the responder handles the handoff at the head of its derived inbox by moving on and deleting
that inbox, with whatever is queued behind the handoff. -/

namespace Titlan.World

open Foundation

/-! ## Statement -/

section

variable [Sealing]

/-- What a derived inbox may hold while no rotation is under way. -/
def Unremarkable (g : ℕ) : Frame → Prop
  | .recoveryHello r _ => r ≤ g
  | .mailboxUpdateV1 _ _ | .mailboxUpdateV3 _ _ => False
  | _ => True

/-- The frame is stored at the party, or waits in an inbox of the list. -/
def HeldIn (s : St) (p : Role) (inboxes : List MailboxId) (f : Frame) : Prop :=
  (∃ m ∈ s.rows p, m.direction = .incoming ∧ m.frame = f) ∨
    ∃ b ∈ inboxes, ∃ m ∈ (s.boxes b).getD [], m.frame = f

instance (s : St) (p : Role) (inboxes : List MailboxId) (f : Frame) :
    Decidable (HeldIn s p inboxes f) :=
  inferInstanceAs (Decidable (_ ∨ _))

/-- Both parties are on their derived inboxes of generation `g`, which hold no handoff and at most one
hello that makes the offerer start the rotation; no rotation is under way; every row is accounted for;
the listeners are about to subscribe. -/
structure Converged (g : ℕ) (w : Sys) : Prop where
  routed : ∀ p, w.shared.recv p = some (.derived p g) ∧ w.shared.send p = some (.derived p.peer g)
  rooted : ∀ p, Rooted g p w.shared
  idle : ∀ p, (w.shared.party p).rotation = none ∧ w.shared.minted p = []
  live : ∀ p, (w.shared.boxes (.derived p g)).isSome
  frames : ∀ p, ∀ m ∈ (w.shared.boxes (.derived p g)).getD [], Unremarkable g m.frame
  one_hello : hellos g w.shared ≤ 1
  ids : ∀ b l, w.shared.boxes b = some l → (l.map Queued.id).Nodup ∧ ∀ m ∈ l, m.id < w.shared.nextMsg
  row_ids : ∀ p, ∀ m ∈ w.shared.rows p, m.id < w.shared.nextRow ∧
    ∀ m' ∈ w.shared.rows p, m'.id = m.id → m'.frame = m.frame
  outgoing : ∀ p, ∀ m ∈ w.shared.rows p, m.direction = .outgoing →
    isChat m.frame ∧ (m.status = .sent → HeldIn w.shared p.peer [.derived p.peer g] m.frame)
  listeners : ∀ p, ∃ fuel, w.todo (.listener p) = engine.conversationListener fuel
  senders : ∀ p n, w.todo (.sender p n) = .ret ()

/-- A step of a listener or of `send_chat`: nothing is lost and no process restarts. -/
def Label.undisturbed : Label → Bool
  | .act _ _ | .sendChat _ _ => true
  | _ => false

/-- The step deposits no chat into a mailbox in which a handoff waits. -/
def ClearStep (w : Sys) : Label → Prop
  | .act i _ => ∀ o ∈ (w.todo i).next?, Clear w.shared o
  | _ => True

/-- Whether the party's listener is between two deliveries. -/
def betweenDeliveries (w : Sys) (p : Role) : Bool :=
  match (w.todo (.listener p)).next? with
  | some (.socket .next) => true
  | _ => false

/-- The inboxes a party reads or has set to read next: the one it is subscribed to, its `mailbox_recv`,
the `F_A` it waits to move to, and, inside a handler, the ones it had generated. -/
def readInboxes (w : Sys) (p : Role) : List MailboxId :=
  let x := w.shared.party p
  (match x.conn with
    | some (.live b _) => [b]
    | _ => []) ++ x.convo.mailboxRecv.toList ++ (x.rotation.map OffererAwaitingFb.fA).toList ++
    if betweenDeliveries w p then [] else x.minted

/-- Every chat the party has marked sent is stored at the other party or waits where it reads. -/
def ChatsKept (w : Sys) (p : Role) : Prop :=
  ∀ m ∈ w.shared.rows p, m.direction = .outgoing → m.status = .sent →
    HeldIn w.shared p.peer (readInboxes w p.peer) m.frame

instance (w : Sys) (p : Role) : Decidable (ChatsKept w p) :=
  inferInstanceAs (Decidable (∀ m ∈ w.shared.rows p, _))

instance (w : Sys) : (l : Label) → Decidable (ClearStep w l)
  | .act i _ => inferInstanceAs (Decidable (∀ o ∈ (w.todo i).next?, Clear w.shared o))
  | .sendChat _ _ | .relayRestart _ | .sweep _ _ | .clientRestart _ _ => .isTrue trivial

/-! ## Every run -/

variable {g : ℕ} {w w' : Sys}

theorem Converged.flowInv (h : Converged g w) : FlowInv g w.shared where
  __ := h
  recv_live p := ⟨_, (h.routed p).1, h.live p, .inl rfl⟩
  minted_live p b hb := by
    rw [(h.idle p).2] at hb
    exact absurd hb List.not_mem_nil
  disjoint p b hb := by
    rw [(h.idle p).2] at hb
    exact absurd hb List.not_mem_nil
  send_inbox p := ⟨_, (h.routed p).2, .inl rfl⟩
  ordered p l hl := by
    refine List.pairwise_of_forall_mem_list fun a ha _ _ hhand => ?_
    have hf := h.frames p a (by rwa [hl])
    cases hfr : a.frame <;> simp_all [isHandoff, Unremarkable]
  retired p l _ hne := absurd (h.routed p).1 hne
  expected p l hl m hm := by
    have hf := h.frames p m (by rwa [hl])
    cases hfr : m.frame <;> simp_all [Expected, Unremarkable]
  chats p b hb := by
    rw [(h.idle p).2] at hb
    exact absurd hb List.not_mem_nil
  outgoing p m hm hd := (h.outgoing p m hm hd).1
  accounted p m hm hd hst := by
    rcases (h.outgoing p m hm hd).2 hst with hstored | ⟨b, hb, m', hm', hf⟩
    · exact .inl hstored
    · rw [List.mem_singleton.mp hb] at hm'
      obtain ⟨l, hl⟩ := Option.isSome_iff_exists.mp (h.live p.peer)
      rw [hl] at hm'
      exact .inr ⟨_, .inl (h.routed p.peer).1, l, hl, m', hm', hf⟩

theorem Converged.stage (h : Converged g w) (p : Role) : Stage g 0 p w.shared :=
  ⟨h.rooted p, .inl ⟨(h.routed p).1, (h.idle p).1, (h.idle p).2, fun _ => h.one_hello⟩⟩

/-- The invariant of a run: the shared state keeps the flow, and every thread is safe. -/
def Flowing (g : ℕ) (w : Sys) : Prop :=
  FlowInv g w.shared ∧ Threads.AllSafe (flowSetting g) (fun _ _ => True) w

theorem Converged.flowing (h : Converged g w) : Flowing g w := by
  refine ⟨h.flowInv, fun i => ?_⟩
  cases i with
  | listener p =>
    obtain ⟨fuel, hfuel⟩ := h.listeners p
    rw [hfuel]
    exact triple_conversationListener fuel _ ⟨h.flowInv, h.stage p⟩
  | sender p n =>
    rw [h.senders p n]
    exact fun _ _ => trivial

/-- One step keeps the flow. -/
theorem Flowing.step {l : Label} (h : Flowing g w) (hl : l.undisturbed) (hclear : ClearStep w l)
    (hstep : step w l = some w') : Flowing g w' := by
  obtain ⟨hi, hsafe⟩ := h
  cases l with
  | act i c =>
    obtain ⟨o, k, r, s', htodo, hperform, rfl⟩ := step_act hstep
    have hexec : (flowSetting g i).exec o w.shared r s' :=
      ⟨hclear o (by rw [htodo]; rfl), c, hperform⟩
    have hi_safe := hsafe i
    rw [htodo] at hi_safe
    refine ⟨((hi_safe.step hexec).1 hi).1.inv, ?_⟩
    exact hsafe.step (fun j hj _ _ hg => flowSetting_compat hj hg) htodo hexec
  | sendChat p n =>
    obtain rfl := step_sendChat hstep
    have hsame : SameFlow w.shared { w.shared with nextText := w.shared.nextText + 1 } := by
      constructor <;> intros <;> rfl
    have hi' := hi.of_same hsame
    refine ⟨hi', Threads.AllSafe.start ?_ ?_⟩
    · exact hsafe.move fun i _ => ⟨hi', hsame.progress, fun q _ => hsame.spares rfl⟩
    · exact triple_sendChatThread g p n w.shared.nextText _ ⟨hi', trivial⟩
  | relayRestart _ => cases hl
  | sweep _ _ => cases hl
  | clientRestart _ _ => cases hl

/-- A listener between two deliveries knows where its party is in the rotation. -/
theorem Flowing.stage (h : Flowing g w) {p : Role} (hp : betweenDeliveries w p) :
    Stage g 0 p w.shared := by
  have hsafe := h.2 (.listener p)
  cases htodo : w.todo (.listener p) with
  | ret _ => simp [betweenDeliveries, htodo] at hp
  | op o k =>
    rw [htodo] at hsafe
    refine hsafe.check p rfl ?_
    simp only [betweenDeliveries, htodo, Program.next?_op] at hp
    split at hp
    · rename_i heq
      exact Option.some.inj heq
    · cases hp

/-- What has reached a party waits where it reads. -/
theorem Flowing.heldIn (h : Flowing g w) {p : Role} {f : Frame} (hf : Reached w.shared p f) :
    HeldIn w.shared p (readInboxes w p) f := by
  rcases hf with hf | ⟨b, hb, l, hl, m, hm, hfr⟩
  · exact .inl hf
  refine .inr ⟨b, ?_, m, by rwa [hl], hfr⟩
  simp only [readInboxes, List.mem_append, Option.mem_toList]
  rcases hb with hb | hb
  · exact .inl (.inl (.inr hb))
  by_cases hp : betweenDeliveries w p
  · -- between deliveries, a generated inbox is the party's own or the `F_A` it waits to move to
    rcases (h.stage hp).place with ⟨-, -, hmint, -⟩ | ⟨-, -, -, fA, hrot, hmint⟩ | ⟨c, hc, hmint⟩
    · rw [hmint] at hb
      exact absurd hb List.not_mem_nil
    · rw [hmint, List.mem_singleton] at hb
      subst hb
      exact .inl (.inr (by rw [hrot]; rfl))
    · rw [hmint, List.mem_singleton] at hb
      subst hb
      exact .inl (.inl (.inr hc))
  · rw [if_neg hp]
    exact .inr hb

end

/-! ## A chat behind the handoff -/

/-- In the runs below an envelope is its frame. -/
instance plainSealing : Sealing where
  Session := Unit
  Wire := Frame
  messageEncrypt _ frame := .ok ((), frame)
  messageDecrypt _ frame := .ok ((), .ok frame)
  content := id
  seals _ frame := ⟨(), frame, rfl⟩
  sealed h := by
    cases h
    rfl
  opens _ _ := ⟨(), rfl⟩

/-- A party converged at generation 1. -/
def convergedParty (p : Role) : Party where
  convo := ⟨"peer", (), some (.derived p.peer 1), some (.derived p 1)⟩
  recovery := ⟨some p.code, some (), 1, 1⟩
  messages := []
  session := ()
  rotation := none
  helloSeen := []
  exhaustion := none
  flushLocked := false
  conn := none
  needsRepair := false
  minted := []

/-- Two parties converged at generation 1; the responder's hello waits for the offerer. -/
def convergedPair : Sys where
  shared :=
    { boxes := fun b =>
        if b = .derived .offerer 1 then some [⟨0, hello 1 0⟩]
        else if b = .derived .responder 1 then some []
        else none
      nextBox := 2
      nextMsg := 1
      log := []
      nextNonce := 1
      nextRow := 0
      nextText := 0
      party := convergedParty }
  todo
    | .listener _ => engine.conversationListener 6
    | .sender _ _ => .ret ()

/-- A thread performs its next `n` operations. -/
def acts (i : ThreadId) (n : ℕ) : List Label := List.replicate n (.act i .deliver)

/-- Both parties subscribe; the offerer handles the hello and announces `F_A`; it then sends a chat,
which is accepted into the responder's derived inbox behind the handoff; the responder handles the
handoff and deletes that inbox. -/
def chatBehindHandoff : List Label :=
  acts (.listener .offerer) 8 ++ acts (.listener .responder) 8 ++ acts (.listener .offerer) 14 ++
    [.sendChat .offerer 0] ++ acts (.sender .offerer 0) 9 ++ acts (.listener .responder) 26

theorem convergedPair_converged : Converged 1 convergedPair where
  routed p := ⟨rfl, rfl⟩
  rooted p := ⟨rfl, rfl, rfl⟩
  idle p := ⟨rfl, rfl⟩
  live p := by cases p <;> rfl
  frames p := by
    cases p
    · intro m hm
      rw [List.mem_singleton.mp hm]
      exact Nat.le_refl 1
    · exact fun m hm => absurd hm List.not_mem_nil
  one_hello := by decide
  ids b l hl := by
    simp only [convergedPair] at hl
    split at hl
    · cases hl
      decide
    · split at hl
      · cases hl
        decide
      · cases hl
  row_ids p m hm := absurd hm List.not_mem_nil
  outgoing p m hm := absurd hm List.not_mem_nil
  listeners p := ⟨6, rfl⟩
  senders p n := rfl

/-- The offerer sends before it handles the hello and after the rotation: each chat is accepted into an
inbox in which no handoff waits. -/
def chatsAroundRotation : List Label :=
  acts (.listener .offerer) 8 ++ acts (.listener .responder) 8 ++
    [.sendChat .offerer 0] ++ acts (.sender .offerer 0) 9 ++ acts (.listener .responder) 6 ++
    acts (.listener .offerer) 14 ++ acts (.listener .responder) 26 ++ acts (.listener .offerer) 20 ++
    [.sendChat .offerer 0] ++ acts (.sender .offerer 0) 9

end Titlan.World
