import Titlan.Device.Dispatch

/-! # Announcing a fresh inbox

Two handlers move a conversation to an inbox the relay has just generated and tell the peer about it:
`recover_v1` with a `mailbox-update/1`, and the responder's half of `handle_rotation` with a
`mailbox-update/3`. Both write the routing row before they announce. This module says, for every reply
of the relays and every storage failure, when the row is left as it was although the announcement was
not accepted: exactly when the handler gave up before it wrote. -/

namespace Titlan

open Foundation

variable {C : Carrier}

/-! ## Announcements -/

/-- An operation with its answer. -/
abbrev Done (C : Carrier) : Type := (o : Op C) × o.Answer

/-- The frame announces an inbox on this party's relay. -/
def Engine.Announces (E : Engine C) (frame : C.Frame) : Prop :=
  ∃ inbox, frame = .mailboxUpdateV1 E.myRelay inbox ∨ frame = .mailboxUpdateV3 E.myRelay inbox

/-- An announcement was sealed, and the deposit that followed was accepted. -/
def Engine.Announced (E : Engine C) (trace : List (Done C)) : Prop :=
  ∃ before peer frame session relayUrl id wire after, E.Announces frame ∧
    trace = before ++ ⟨.store (.storeSession peer (.encrypt frame) session), .ok ()⟩ ::
      ⟨.relay (.deposit relayUrl id wire), .ok .accepted⟩ :: after

/-- The coordinates of the conversation are what they were. -/
structure SameRoutes (d d' : Device C) : Prop where
  mailboxRecv : d'.convo.mailboxRecv = d.convo.mailboxRecv
  mailboxSend : d'.convo.mailboxSend = d.convo.mailboxSend
  relayUrl : d'.convo.relayUrl = d.convo.relayUrl

/-! ## The condition -/

/-- The relay creates no inbox, or the row is not written, or it already has the inbox. -/
def Device.CreatesNothingNew (d : Device C) : List (Turn C) → Prop
  | creating :: setting :: _ => ∀ id, creating.answer (.relay .createMailbox) = .ok id →
      setting.fault = none → d.convo.mailboxRecv = some id
  | _ => True

/-- The responder's leg has no role or root to answer with or cannot read the rows, or else it writes
the coordinates the row already has and then creates nothing new. -/
def Device.AnswersNothingNew (d : Device C) (relayUrl : C.Relay) (inbox : C.Id) :
    List (Turn C) → Prop
  | _taking :: recovery :: reading :: sending :: rest =>
    recovery.fault = none → d.recovery.role.isSome → d.recovery.root.isSome → reading.fault = none →
      (sending.fault = none → d.convo.relayUrl = relayUrl ∧ d.convo.mailboxSend = some inbox) ∧
        d.CreatesNothingNew rest
  | _ => True

section

variable {ts : List (Turn C)} {d d' : Device C}

theorem SameRoutes.of_convo (h : d'.convo = d.convo) : SameRoutes d d' := by
  constructor <;> rw [h]

/-- What creating an inbox comes to depends on the row's own inbox only. -/
theorem createsNothingNew_congr (h : d'.convo.mailboxRecv = d.convo.mailboxRecv) :
    d'.CreatesNothingNew ts ↔ d.CreatesNothingNew ts := by
  unfold Device.CreatesNothingNew
  split
  · rw [h]
  · exact Iff.rfl

end

variable [C.Comparable]

/-- The operations of a run, in order. -/
def Device.trace {α : Type} (E : Engine C) : EngineM C α → List (Turn C) → Device C → List (Done C)
  | .op o k, t :: ts, d =>
    let out := d.perform E t o
    ⟨o, out.1⟩ :: trace E (k out.1) ts out.2
  | _, _, _ => []

/-! ## Sending leaves the row -/

/-- Operations that write no routing row. -/
def Op.KeepsRoutes : Op C → Prop
  | .store (.setConversationSend _ _) | .store (.setConversationRecv _) => False
  | _ => True

theorem convo_perform {E : Engine C} (t : Turn C) (d : Device C) (o : Op C) (ho : o.KeepsRoutes) :
    (d.perform E t o).2.convo = d.convo := by
  cases o with
  | store o =>
    simp only [Device.perform]
    split
    · rfl
    · cases o <;> first | rfl | exact ho.elim
  | ram o => cases o <;> rfl
  | relay o =>
    simp only [Device.perform, Device.performRelay]
    split <;> rfl
  | socket o => rfl
  | notify n => rfl

theorem convo_of_sending {α : Type} {E : Engine C} {p : EngineM C α} (h : Composed E.Sending p)
    {ts : List (Turn C)} {d d' : Device C} {a : α} (hexec : Device.exec E p ts d = some (a, d')) :
    d'.convo = d.convo := by
  refine Device.exec_of_safe (Device.triple_const (fun d => d.convo) convo_perform
    (h.expand fun _ q hq => ?_) d.convo d rfl) hexec
  cases hq with
  | plain o ho =>
    refine Engine.each_op o ?_
    cases o with
    | store o => cases o <;> trivial
    | _ => trivial
  | encrypt peer frame =>
    exact Engine.each_encryptMessage peer frame trivial fun _ => trivial

/-! ## Both handlers -/

section Handlers

variable {E : Engine C} {ts : List (Turn C)} {d d' : Device C}

/-- Creating an inbox, writing it to the row and then only sending moves the row exactly when both the
request and the write succeed and the inbox is a new one. -/
theorem routes_of_creating {α : Type} {a : α} {f : Result C.Id → EngineM C α}
    {g : C.Id → Result Unit → EngineM C α}
    (hexec : Device.exec E (relay .createMailbox >>= f) ts d = some (a, d'))
    (herror : ∀ e, Composed E.Sending (f (.error e)))
    (hok : ∀ id, f (.ok id) = (store (.setConversationRecv id) >>= g id))
    (hg : ∀ id r, Composed E.Sending (g id r)) :
    d'.convo.mailboxSend = d.convo.mailboxSend ∧ d'.convo.relayUrl = d.convo.relayUrl ∧
      (d'.convo.mailboxRecv = d.convo.mailboxRecv ↔ d.CreatesNothingNew ts) := by
  cases ts with
  | nil => cases hexec
  | cons creating ts =>
    rw [Device.exec_perform_bind] at hexec
    simp only [Device.perform] at hexec
    cases hcreated : creating.answer (.relay .createMailbox) with
    | error e =>
      rw [hcreated] at hexec
      have hconvo := convo_of_sending (herror e) hexec
      have hcond : d.CreatesNothingNew (creating :: ts) := by
        cases ts with
        | nil => trivial
        | cons setting ts =>
          intro id hid
          rw [hcreated] at hid
          cases hid
      rw [hconvo]
      exact ⟨rfl, rfl, iff_of_true rfl hcond⟩
    | ok id =>
      rw [hcreated, hok] at hexec
      cases ts with
      | nil => cases hexec
      | cons setting ts =>
        rw [Device.exec_perform_bind] at hexec
        have hconvo := convo_of_sending (hg id _) hexec
        have hcond : d.CreatesNothingNew (creating :: setting :: ts) ↔
            (setting.fault = none → d.convo.mailboxRecv = some id) := by
          refine ⟨fun h => h id hcreated, fun h id' hid' => ?_⟩
          rw [hcreated] at hid'
          cases hid'
          exact h
        rw [hcond, hconvo]
        by_cases hfault : setting.fault = none
        · simp only [Device.perform, hfault, Device.performStore, Device.performRelay, Device.setBox,
            true_and, forall_const]
          exact eq_comm
        · obtain ⟨e, he⟩ := Option.ne_none_iff_exists'.mp hfault
          simp only [Device.perform, he, Device.performRelay, Device.setBox, true_and]
          exact iff_of_true trivial fun h => by cases h

/-- **`recover_v1`** leaves the row exactly when it creates nothing new. -/
theorem sameRoutes_recoverV1_iff {convo : Conversation C} {outcome : RecoveryOutcome}
    (hexec : Device.exec E (E.recoverV1 convo) ts d = some (outcome, d')) :
    SameRoutes d d' ↔ d.CreatesNothingNew ts := by
  rw [Engine.recoverV1] at hexec
  have hroutes := routes_of_creating hexec (fun e => .ret _) (fun id => rfl) fun id set => by
    cases set with
    | error e => exact .ret _
    | ok _ =>
      dsimp only
      split
      · exact .ret _
      · refine (Engine.sending_encryptMessage _ _).bind fun wire => ?_
        cases wire with
        | error e => exact .ret _
        | ok wire =>
          refine (Engine.sending_plain _ (by trivial)).bind fun outcome => ?_
          split <;> exact .ret _
  obtain ⟨hsend, hrelay, hrecv⟩ := hroutes
  exact ⟨fun h => hrecv.mp h.mailboxRecv, fun h => ⟨hrecv.mpr h, hsend, hrelay⟩⟩

/-- The answering part of the responder's leg: the row's send coordinates are written, then an inbox is
created. -/
theorem sameRoutes_answering_iff {α : Type} {a : α} {relayUrl : C.Relay} {inbox : C.Id}
    {f : Result C.Id → EngineM C α} {g : C.Id → Result Unit → EngineM C α} {sending : Turn C}
    (hexec : Device.exec E (relay .createMailbox >>= f) ts
      (d.perform E sending (.store (.setConversationSend relayUrl inbox))).2 = some (a, d'))
    (herror : ∀ e, Composed E.Sending (f (.error e)))
    (hok : ∀ id, f (.ok id) = (store (.setConversationRecv id) >>= g id))
    (hg : ∀ id r, Composed E.Sending (g id r)) :
    SameRoutes d d' ↔
      (sending.fault = none → d.convo.relayUrl = relayUrl ∧ d.convo.mailboxSend = some inbox) ∧
        d.CreatesNothingNew ts := by
  obtain ⟨hsend, hrelay, hrecv⟩ := routes_of_creating hexec herror hok hg
  by_cases hfault : sending.fault = none
  · simp only [Device.perform, hfault, Device.performStore] at hsend hrelay hrecv
    replace hrecv := hrecv.trans (createsNothingNew_congr (d := d) rfl)
    constructor
    · intro h
      refine ⟨fun _ => ⟨?_, ?_⟩, hrecv.mp h.mailboxRecv⟩
      · rw [← h.relayUrl, hrelay]
      · rw [← h.mailboxSend, hsend]
    · rintro ⟨hcurrent, hnothing⟩
      obtain ⟨hrelay', hsend'⟩ := hcurrent hfault
      exact ⟨hrecv.mpr hnothing, hsend.trans hsend'.symm, hrelay.trans hrelay'.symm⟩
  · obtain ⟨e, he⟩ := Option.ne_none_iff_exists'.mp hfault
    simp only [Device.perform, he] at hsend hrelay hrecv
    constructor
    · exact fun h => ⟨fun hnone => absurd hnone hfault, hrecv.mp h.mailboxRecv⟩
    · exact fun h => ⟨hrecv.mpr h.2, hsend, hrelay⟩

/-- **The responder's leg** leaves the row exactly when it answers with nothing new. -/
theorem sameRoutes_handleRotation_iff {relayUrl : C.Relay} {inbox : C.Id} {changed : Bool}
    (hrotation : d.rotation = none)
    (hexec : Device.exec E (E.handleRotation relayUrl inbox) ts d = some (changed, d')) :
    SameRoutes d d' ↔ d.AnswersNothingNew relayUrl inbox ts := by
  rw [Engine.handleRotation] at hexec
  cases ts with
  | nil => cases hexec
  | cons taking ts =>
    rw [Device.exec_perform_bind] at hexec
    simp only [Device.perform, Device.performRam, hrotation] at hexec
    rw [Engine.answerRotation] at hexec
    cases ts with
    | nil => cases hexec
    | cons recovery ts =>
      rw [Device.exec_perform_bind] at hexec
      cases hrecovery : recovery.fault with
      | some e =>
        simp only [Device.perform, hrecovery] at hexec
        obtain ⟨rfl, -, rfl⟩ := Device.exec_ret_eq hexec
        exact iff_of_true (.of_convo rfl) trivial
      | none =>
        simp only [Device.perform, hrecovery, Device.performStore] at hexec
        split at hexec
        · rename_i role root ownGen peerGen heq
          cases ts with
          | nil => cases hexec
          | cons reading ts =>
            rw [Device.exec_perform_bind] at hexec
            cases hreading : reading.fault with
            | some e =>
              simp only [Device.perform, hreading] at hexec
              obtain ⟨rfl, -, rfl⟩ := Device.exec_ret_eq hexec
              exact iff_of_true (.of_convo rfl) trivial
            | none =>
              simp only [Device.perform, hreading, Device.performStore] at hexec
              cases ts with
              | nil => cases hexec
              | cons sending ts =>
                rw [Device.exec_perform_bind] at hexec
                have hiff := sameRoutes_answering_iff hexec (fun e => .ret _) (fun id => rfl)
                  fun id set => by
                    cases set with
                    | error e => exact .ret _
                    | ok _ =>
                      exact (Engine.sending_announce _ _ _).bind fun _ =>
                        (Engine.sending_retire _).bind fun _ =>
                        Engine.sending_flushPending.bind fun _ => .ret _
                have hrec : d.recovery = ⟨some role, some root, ownGen, peerGen⟩ := by
                  injection heq with heq
                  injection heq
                have hcond : d.AnswersNothingNew relayUrl inbox
                    (taking :: recovery :: reading :: sending :: ts) ↔
                    (sending.fault = none →
                      d.convo.relayUrl = relayUrl ∧ d.convo.mailboxSend = some inbox) ∧
                      d.CreatesNothingNew ts := by
                  refine ⟨fun h => h hrecovery ?_ ?_ hreading, fun h _ _ _ _ => h⟩
                  · rw [hrec]
                    rfl
                  · rw [hrec]
                    rfl
                have hsame : SameRoutes d d' ↔ SameRoutes { d with rotation := none } d' :=
                  ⟨fun h => ⟨h.1, h.2, h.3⟩, fun h => ⟨h.1, h.2, h.3⟩⟩
                rw [hsame, hiff, hcond]
                exact and_congr Iff.rfl (createsNothingNew_congr rfl)
        · obtain ⟨rfl, -, rfl⟩ := Device.exec_ret_eq hexec
          exact iff_of_true (.of_convo rfl) trivial

end Handlers

/-! ## The theorem -/

/-- **When an inbox that was not announced is not adopted.** For every conversation, every reply of the
relays and every storage failure: a run of `recover_v1`, or of the responder's leg of `handle_rotation`,
in which no announcement is accepted leaves `mailbox_recv`, `mailbox_send` and `relay_url` as they were
if and only if it never got to write anything new to the row. -/
theorem unannounced_kept_iff (E : Engine C) (d d' : Device C) (ts : List (Turn C)) :
    (∀ convo outcome, Device.exec E (E.recoverV1 convo) ts d = some (outcome, d') →
      ((¬ E.Announced (Device.trace E (E.recoverV1 convo) ts d) → SameRoutes d d') ↔
        (¬ E.Announced (Device.trace E (E.recoverV1 convo) ts d) → d.CreatesNothingNew ts))) ∧
    ∀ relayUrl inbox changed, d.rotation = none →
      Device.exec E (E.handleRotation relayUrl inbox) ts d = some (changed, d') →
      ((¬ E.Announced (Device.trace E (E.handleRotation relayUrl inbox) ts d) → SameRoutes d d') ↔
        (¬ E.Announced (Device.trace E (E.handleRotation relayUrl inbox) ts d) →
          d.AnswersNothingNew relayUrl inbox ts)) :=
  ⟨fun _ _ hexec => imp_congr_right fun _ => sameRoutes_recoverV1_iff hexec,
    fun _ _ _ hrotation hexec => imp_congr_right fun _ =>
      sameRoutes_handleRotation_iff hrotation hexec⟩

/-! ## A refused announcement -/

/-- The operation is a deposit the relay accepted. -/
def Done.isAccepted : Done C → Bool
  | ⟨.relay (.deposit _ _ _), .ok .accepted⟩ => true
  | _ => false

omit [C.Comparable] in
theorem not_announced {E : Engine C} {trace : List (Done C)} (h : trace.any Done.isAccepted = false) :
    ¬ E.Announced trace := by
  rintro ⟨before, peer, frame, session, relayUrl, id, wire, after, -, rfl⟩
  rw [List.any_eq_false] at h
  exact h _ (List.mem_append_right _ (List.mem_cons_of_mem _ List.mem_cons_self)) rfl

/-- A turn in which the storage works, the relay generates the inbox `created` and answers every deposit
with `status`. -/
def refusingTurn (created : String) (status : ℕ) : Turn (byteCarrier Unit) := ⟨none, fun
  | .relay .createMailbox => .ok created
  | .relay (.deposit _ _ _) => .ok (.other status)
  | o => offlineTurn.answer o⟩

/-- **An inbox the peer never hears of is adopted.** The relay generates an inbox and answers the
announcing deposit with 429: `recover_v1` fails, and the responder's leg goes on, but both have moved the
row. -/
theorem refused_inbox_adopted :
    (∃ d', Device.exec plainEngine (plainEngine.recoverV1 rootedDevice.convo)
        (List.replicate 5 (refusingTurn "fresh" 429)) rootedDevice = some (.failed, d') ∧
      ¬ plainEngine.Announced
        (Device.trace plainEngine (plainEngine.recoverV1 rootedDevice.convo)
          (List.replicate 5 (refusingTurn "fresh" 429)) rootedDevice) ∧
      ¬ SameRoutes rootedDevice d') ∧
    ∃ d', Device.exec plainEngine (plainEngine.handleRotation "wss://other" "F_A")
        (List.replicate 14 (refusingTurn "fresh" 429)) rootedDevice = some (true, d') ∧
      ¬ plainEngine.Announced
        (Device.trace plainEngine (plainEngine.handleRotation "wss://other" "F_A")
          (List.replicate 14 (refusingTurn "fresh" 429)) rootedDevice) ∧
      ¬ SameRoutes rootedDevice d' := by
  refine ⟨⟨_, rfl, not_announced rfl, fun h => ?_⟩, ⟨_, rfl, not_announced rfl, fun h => ?_⟩⟩
  · exact absurd h.mailboxRecv (by decide)
  · exact absurd h.mailboxRecv (by decide)

/-- With the relay unreachable `recover_v1` fails before it writes, and the responder's leg writes the
route it is on already. -/
theorem unreachable_relay_kept :
    (∃ d', Device.exec plainEngine (plainEngine.recoverV1 rootedDevice.convo)
        [offlineTurn] rootedDevice = some (.failed, d') ∧ SameRoutes rootedDevice d') ∧
    ∃ d', Device.exec plainEngine (plainEngine.handleRotation "wss://relay" "send")
        (List.replicate 5 offlineTurn) rootedDevice = some (false, d') ∧ SameRoutes rootedDevice d' := by
  refine ⟨⟨rootedDevice, rfl, ?_⟩, ⟨_, rfl, ?_⟩⟩
  · exact ((unannounced_kept_iff plainEngine rootedDevice rootedDevice [offlineTurn]).1
      rootedDevice.convo .failed rfl).mpr (fun _ => trivial) (not_announced rfl)
  · exact ((unannounced_kept_iff plainEngine rootedDevice _ (List.replicate 5 offlineTurn)).2
      "wss://relay" "send" false rfl rfl).mpr (fun _ _ _ _ _ => ⟨fun _ => ⟨rfl, rfl⟩, trivial⟩)
      (not_announced rfl)

end Titlan
