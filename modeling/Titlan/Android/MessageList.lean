import Mathlib.Logic.Function.Basic
import Titlan.Foundation.Run
import Titlan.Pairing

/-! # The message list

`refreshMessages` reads a conversation's messages from the core and publishes them. It is called when a
message has arrived, after a send, and when a screen comes up, and the calls run on a pool of threads: one
that has read earlier can publish later, and then takes messages off the list that the other had put there.
No later event corrects this. As long as no call publishes less than what is on display, the list is
complete whenever no call is under way.

A call that fails publishes nothing and is not modelled. -/

namespace Titlan.Android

open Foundation

/-! ## Messages -/

/-- `StoredChatMessage`, without the id of its conversation. -/
structure StoredChatMessage where
  id : Bytes
  incoming : Bool
  payloadType : ℕ
  typeVersion : ℕ
  body : Bytes
  sentAt : Option ℤ
  receivedAt : Option ℤ
deriving DecidableEq, Repr

/-- `DecodedBody`. -/
inductive DecodedBody
  | text (text : String)
  | undecodable
  | unsupported
deriving DecidableEq, Repr

/-- `UiMessage`. -/
structure UiMessage where
  id : String
  incoming : Bool
  body : DecodedBody
  epochSeconds : Option ℤ
deriving DecidableEq, Repr

/-- `ByteArray.toHexLower`. -/
def toHexLower (bytes : Bytes) : String :=
  String.ofList (bytes.flatMap fun b => [(b.toNat / 16).digitChar, (b.toNat % 16).digitChar])

/-- `ChatBody.decode`. -/
def ChatBody.decode (payloadType typeVersion : ℕ) (body : Bytes) : DecodedBody :=
  if payloadType ≠ 0x01 ∨ typeVersion ≠ 1 then .unsupported
  else
    match fromUtf8 body with
    | some text => .text text
    | none => .undecodable

/-- A message as the list shows it. -/
def uiMessage (m : StoredChatMessage) : UiMessage where
  id := toHexLower m.id
  incoming := m.incoming
  body := ChatBody.decode m.payloadType m.typeVersion m.body
  epochSeconds := if m.incoming then m.receivedAt else m.sentAt

/-! ## Calls and events -/

/-- How far a call of `refreshMessages` is. -/
inductive RefreshPhase
  | started
  | read (list : List StoredChatMessage)
  | published
deriving DecidableEq, Repr

/-- A call of `refreshMessages`. -/
structure Refresh (Key : Type) where
  key : Key
  phase : RefreshPhase
deriving DecidableEq, Repr

/-- The core's messages and what `ConversationStore` publishes of them. -/
structure MessageLists (Key : Type) where
  /-- The messages of each conversation in the core, in store order. -/
  stored : Key → List StoredChatMessage
  /-- The value of each conversation's flow. -/
  published : Key → List UiMessage
  refreshes : List (Refresh Key)
  /-- History: what was stored when `onMessageArrived` last fired for a conversation. -/
  arrived : Key → List StoredChatMessage

/-- What can happen. -/
inductive ListLabel (Key : Type)
  /-- The core stores a message, received or sent. -/
  | store (key : Key) (m : StoredChatMessage)
  | onMessageArrived (key : Key)
  /-- A send or a screen calls `refreshMessages`. -/
  | refreshMessages (key : Key)
  | read (n : ℕ)
  | publish (n : ℕ)
deriving DecidableEq, Repr

variable {Key : Type}

namespace MessageLists

/-- Nothing has been published and nothing has happened. -/
def initial (stored : Key → List StoredChatMessage) : MessageLists Key :=
  ⟨stored, fun _ => [], [], fun _ => []⟩

/-- A call of `refreshMessages` begins. -/
def launch (s : MessageLists Key) (key : Key) : MessageLists Key :=
  { s with refreshes := s.refreshes ++ [⟨key, .started⟩] }

/-- One step. -/
def step [DecidableEq Key] (s : MessageLists Key) : ListLabel Key → Option (MessageLists Key)
  | .store key m => some { s with stored := Function.update s.stored key (s.stored key ++ [m]) }
  | .onMessageArrived key =>
    some { s.launch key with arrived := Function.update s.arrived key (s.stored key) }
  | .refreshMessages key => some (s.launch key)
  | .read n =>
    match s.refreshes[n]? with
    | some ⟨key, .started⟩ => some { s with refreshes := s.refreshes.set n ⟨key, .read (s.stored key)⟩ }
    | _ => none
  | .publish n =>
    match s.refreshes[n]? with
    | some ⟨key, .read list⟩ => some { s with
        published := Function.update s.published key (list.map uiMessage)
        refreshes := s.refreshes.set n ⟨key, .published⟩ }
    | _ => none

/-- No call for the conversation is under way. -/
def Quiet (s : MessageLists Key) (key : Key) : Prop := ∀ r ∈ s.refreshes, r.key = key → r.phase = .published

/-- The list on display has what was stored when `onMessageArrived` last fired. -/
def Complete (s : MessageLists Key) (key : Key) : Prop := ∀ m ∈ s.arrived key, uiMessage m ∈ s.published key

/-- A call publishes no less than what is on display. -/
def inOrder (s : MessageLists Key) : ListLabel Key → Bool
  | .publish n =>
    match s.refreshes[n]? with
    | some ⟨key, .read list⟩ => (s.published key).length ≤ list.length
    | _ => true
  | _ => true

/-! ## What is on its way -/

section Sound

variable {s s' : MessageLists Key} {key : Key} {n : ℕ}

/-- A call in this phase will bring these messages to the list. -/
def Brings (messages : List StoredChatMessage) : RefreshPhase → Prop
  | .started => True
  | .read list => messages <+: list
  | .published => False

/-- Everything read or published is the beginning of what is stored, and what `onMessageArrived` announced
is on display or on its way. -/
structure Sound (s : MessageLists Key) : Prop where
  published : ∀ key, ∃ list, list <+: s.stored key ∧ s.published key = list.map uiMessage
  read : ∀ (n : ℕ) key list, s.refreshes[n]? = some ⟨key, .read list⟩ → list <+: s.stored key
  arrived : ∀ key, s.arrived key <+: s.stored key
  covered : ∀ key, (s.arrived key).map uiMessage <+: s.published key ∨
    ∃ (n : ℕ) (phase : RefreshPhase), s.refreshes[n]? = some ⟨key, phase⟩ ∧ Brings (s.arrived key) phase

theorem sound_initial (stored : Key → List StoredChatMessage) : Sound (initial stored) where
  published _ := ⟨[], List.nil_prefix, rfl⟩
  read _ _ _ h := by cases h
  arrived _ := List.nil_prefix
  covered _ := Or.inl List.nil_prefix

theorem Sound.complete (h : Sound s) (hquiet : s.Quiet key) : s.Complete key := by
  obtain hshown | ⟨n, phase, hn, hbrings⟩ := h.covered key
  · exact fun m hm => hshown.subset (List.mem_map_of_mem hm)
  · obtain rfl : phase = .published := hquiet _ (List.mem_of_getElem? hn) rfl
    exact hbrings.elim

/-- A new call takes nothing away. -/
theorem Sound.launch (h : Sound s) (key : Key) : Sound (s.launch key) := by
  refine ⟨h.published, fun n k list hn => ?_, h.arrived, fun k => ?_⟩
  · obtain ⟨-, hn⟩ | hn := getElem?_append_cases hn
    · cases hn
    · exact h.read n k list hn
  · obtain hshown | ⟨n, phase, hn, hbrings⟩ := h.covered k
    · exact Or.inl hshown
    · have hlt := (List.getElem?_eq_some_iff.mp hn).1
      exact Or.inr ⟨n, phase, (List.getElem?_append_left hlt).trans hn, hbrings⟩

/-- A call that reads, reads all that has been announced. -/
theorem Sound.read_step (h : Sound s) (hn : s.refreshes[n]? = some ⟨key, .started⟩) :
    Sound { s with refreshes := s.refreshes.set n ⟨key, .read (s.stored key)⟩ } := by
  refine ⟨h.published, fun j k list hj => ?_, h.arrived, fun k => ?_⟩
  · obtain ⟨-, hj⟩ | ⟨-, hj⟩ := getElem?_set_cases hn hj
    · cases hj
      exact List.prefix_rfl
    · exact h.read j k list hj
  · obtain hshown | ⟨j, phase, hj, hbrings⟩ := h.covered k
    · exact Or.inl hshown
    · by_cases hjn : j = n
      · subst hjn
        cases hn.symm.trans hj
        -- what was announced is stored by the time the call reads
        exact Or.inr ⟨j, _, List.getElem?_set_self (List.getElem?_eq_some_iff.mp hj).1, h.arrived key⟩
      · exact Or.inr ⟨j, phase, (List.getElem?_set_ne (Ne.symm hjn)).trans hj, hbrings⟩

variable [DecidableEq Key]

theorem Sound.store (h : Sound s) (key : Key) (m : StoredChatMessage) :
    Sound { s with stored := Function.update s.stored key (s.stored key ++ [m]) } := by
  have hgrows (k : Key) : s.stored k <+: Function.update s.stored key (s.stored key ++ [m]) k := by
    by_cases hk : k = key
    · subst hk
      rw [Function.update_self]
      exact List.prefix_append ..
    · simp only [Function.update_of_ne hk, List.prefix_rfl]
  refine ⟨fun k => ?_, fun n k list hn => (h.read n k list hn).trans (hgrows k),
    fun k => (h.arrived k).trans (hgrows k), h.covered⟩
  obtain ⟨list, hlist, hpublished⟩ := h.published k
  exact ⟨list, hlist.trans (hgrows k), hpublished⟩

/-- What an event announces, the call it launches brings. -/
theorem Sound.onMessageArrived (h : Sound s) (key : Key) :
    Sound { s.launch key with arrived := Function.update s.arrived key (s.stored key) } := by
  have hlaunch := h.launch key
  refine ⟨hlaunch.published, hlaunch.read, fun k => ?_, fun k => ?_⟩
  · show Function.update s.arrived key (s.stored key) k <+: s.stored k
    by_cases hk : k = key
    · subst hk
      simp only [Function.update_self, List.prefix_rfl]
    · rw [Function.update_of_ne hk]
      exact h.arrived k
  · by_cases hk : k = key
    · subst hk
      exact Or.inr ⟨s.refreshes.length, .started, List.getElem?_concat_length, trivial⟩
    · show (Function.update s.arrived key (s.stored key) k).map uiMessage <+: s.published k ∨ _
      simp only [Function.update_of_ne hk]
      exact hlaunch.covered k

/-- A call that publishes no less than what is on display. -/
theorem Sound.publish {list : List StoredChatMessage} (h : Sound s)
    (hn : s.refreshes[n]? = some ⟨key, .read list⟩) (horder : (s.published key).length ≤ list.length) :
    Sound { s with
      published := Function.update s.published key (list.map uiMessage)
      refreshes := s.refreshes.set n ⟨key, .published⟩ } := by
  have hlist := h.read n key list hn
  refine ⟨fun k => ?_, fun j k l hj => ?_, h.arrived, fun k => ?_⟩
  · show ∃ l, l <+: s.stored k ∧ Function.update s.published key (list.map uiMessage) k = l.map uiMessage
    by_cases hk : k = key
    · subst hk
      exact ⟨list, hlist, Function.update_self ..⟩
    · rw [Function.update_of_ne hk]
      exact h.published k
  · obtain ⟨-, hj⟩ | ⟨-, hj⟩ := getElem?_set_cases hn hj
    · cases hj
    · exact h.read j k l hj
  · show (s.arrived k).map uiMessage <+: Function.update s.published key (list.map uiMessage) k ∨ _
    by_cases hk : k = key
    · subst hk
      rw [Function.update_self]
      obtain hshown | ⟨j, phase, hj, hbrings⟩ := h.covered k
      · -- both lists are the beginning of what is stored, so the longer one continues the other
        obtain ⟨shown, hstored, hpublished⟩ := h.published k
        rw [hpublished, List.length_map] at horder
        have hmore : shown <+: list := List.prefix_of_prefix_length_le hstored hlist horder
        rw [hpublished] at hshown
        exact Or.inl (hshown.trans (hmore.map uiMessage))
      · by_cases hjn : j = n
        · subst hjn
          cases hn.symm.trans hj
          exact Or.inl (List.IsPrefix.map uiMessage hbrings)
        · exact Or.inr ⟨j, phase, (List.getElem?_set_ne (Ne.symm hjn)).trans hj, hbrings⟩
    · rw [Function.update_of_ne hk]
      obtain hshown | ⟨j, phase, hj, hbrings⟩ := h.covered k
      · exact Or.inl hshown
      · -- a call that brings `k` its messages is a call for `k`, so not the one that publishes
        have hjn : j ≠ n := by
          rintro rfl
          cases hn.symm.trans hj
          exact hk rfl
        exact Or.inr ⟨j, phase, (List.getElem?_set_ne (Ne.symm hjn)).trans hj, hbrings⟩

/-- **Step lemma.** -/
theorem Sound.step {l : ListLabel Key} (h : Sound s) (horder : s.inOrder l = true)
    (hstep : s.step l = some s') : Sound s' := by
  cases l with
  | store key m =>
    cases hstep
    exact h.store key m
  | onMessageArrived key =>
    cases hstep
    exact h.onMessageArrived key
  | refreshMessages key =>
    cases hstep
    exact h.launch key
  | read n =>
    simp only [MessageLists.step] at hstep
    split at hstep
    case h_1 key hn =>
      cases hstep
      exact h.read_step hn
    case h_2 => cases hstep
  | publish n =>
    simp only [MessageLists.step] at hstep
    split at hstep
    case h_1 key list hn =>
      cases hstep
      simp only [inOrder, hn, decide_eq_true_eq] at horder
      exact h.publish hn horder
    case h_2 => cases hstep

end Sound

/-- **The message list.** In every run in which no call publishes less than what is on display, the list of
a conversation for which no call is under way has every message that was stored when `onMessageArrived` last
fired for it. -/
theorem complete_of_inOrder [DecidableEq Key] (stored : Key → List StoredChatMessage)
    {ls : List (ListLabel Key)}
    {s : MessageLists Key} (horder : Along step (fun s l => s.inOrder l = true) (initial stored) ls)
    (hr : run step (initial stored) ls = some s) {key : Key} (hquiet : s.Quiet key) : s.Complete key :=
  (run_invariant (fun _ _ _ => Sound.step) (sound_initial stored) horder hr).complete hquiet

/-- A message. -/
def hello : StoredChatMessage := ⟨[7], true, 1, 1, [104, 101, 108, 108, 111], none, some 12⟩

/-- A screen's call reads before a message is stored, and the call of the message's event after it. -/
def overlapping : List (ListLabel ℕ) :=
  [.refreshMessages 0, .read 0, .store 0 hello, .onMessageArrived 0, .read 1]

/-- They publish in the order they have read in: the message is on the list. -/
theorem complete_overlapping :
    ∃ s, run step (initial fun _ => []) (overlapping ++ [.publish 0, .publish 1]) = some s ∧
    s.arrived 0 = [hello] ∧ s.Quiet 0 ∧ s.Complete 0 := by
  have horder : Along step (fun s l => s.inOrder l = true) (initial fun _ => [])
      (overlapping ++ [.publish 0, .publish 1]) := by decide
  have hquiet : ∀ r ∈ [(⟨0, .published⟩ : Refresh ℕ), ⟨0, .published⟩], r.key = 0 → r.phase = .published := by
    decide
  exact ⟨_, rfl, rfl, hquiet, complete_of_inOrder (fun _ => []) horder rfl hquiet⟩

/-- They publish the other way round: no call is under way, and the message is not on the list. -/
theorem not_complete_overlapping :
    ∃ s, run step (initial fun _ => []) (overlapping ++ [.publish 1, .publish 0]) = some s ∧
      (∀ r ∈ s.refreshes, r.phase = .published) ∧ hello ∈ s.arrived 0 ∧ uiMessage hello ∉ s.published 0 :=
  ⟨_, rfl, by decide, by decide, by decide⟩

end MessageLists

end Titlan.Android
