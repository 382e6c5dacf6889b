import Titlan.Device.State
import Titlan.Pairing.SingleUse

/-! # What a failed pairing leaves in the conversation table

Both sides of the handshake insert the conversation in the middle of their network steps and never take
it back. Here the table of conversations is explicit, and everything else an operation returns comes from
outside. A call that fails leaves the table as it was exactly when it failed at the insert or before. -/

namespace Titlan.Pairing

open Foundation

variable {C : PairingCarrier}

/-! ## The table -/

/-- A row of the conversation table. -/
structure ConversationRow (C : PairingCarrier) where
  convo : Conversation C.toCarrier
  recovery : RecoveryRecord C.toCarrier
  ownContribution : Option C.Contribution
  peerContribution : Option C.Contribution

/-- The row `create_routed_conversation` inserts. -/
def ConversationRow.routed (convo : Conversation C.toCarrier) : ConversationRow C :=
  ⟨convo, ⟨none, none, 0, 0⟩, none, none⟩

/-- `set_recovery_pairing` on the row. -/
def ConversationRow.setPairing (row : ConversationRow C) (role : UInt8)
    (contribution : C.Contribution) : ConversationRow C :=
  { row with
    recovery := { row.recovery with role := some role }
    ownContribution := some contribution }

/-- The accesses to a conversation's row: the answer, and the row after it. Accesses to messages and
sessions are none. -/
def ConversationRow.access (row : ConversationRow C) :
    (o : StoreOp C.toCarrier) → Option (o.Answer × ConversationRow C)
  | .getConversation => some (.ok (some row.convo), row)
  | .recoveryState => some (.ok (some row.recovery), row)
  | .setConversationSend relayUrl inbox =>
    some (.ok (), { row with convo := { row.convo with relayUrl, mailboxSend := some inbox } })
  | .setConversationRecv inbox =>
    some (.ok (), { row with convo := { row.convo with mailboxRecv := some inbox } })
  | .setRecoveryRoot contribution root =>
    some (.ok (), { row with
      recovery := { row.recovery with root := some root }
      peerContribution := some contribution })
  | .setRecoveryGenerations ownGen peerGen =>
    some (.ok (), { row with recovery := { row.recovery with ownGen, peerGen } })
  | _ => none

/-- The conversation table; a conversation's id is its position. -/
abbrev ConversationTable (C : PairingCarrier) : Type := List (ConversationRow C)

/-- What the outside decides about one operation. -/
structure PairingTurn (C : PairingCarrier) where
  /-- The error a storage access fails with, if it fails. -/
  fault : Option CoreError
  /-- What relays, sockets, libsignal, the clock and the random generator answer. -/
  answer : (o : PairingOp C) → o.Answer

namespace ConversationTable

/-- An access to the table, if the operation is one; the row of an unknown conversation stays as it
is. -/
def access (s : ConversationTable C) (conv : ConversationId) (o : StoreOp C.toCarrier) :
    Option (o.Answer × ConversationTable C) :=
  (s[conv]?.bind fun row => row.access o).map fun out => (out.1, s.set conv out.2)

/-- The effect of one operation. -/
def perform (t : PairingTurn C) (s : ConversationTable C) :
    (o : PairingOp C) → o.Answer × ConversationTable C
  | .createRoutedConversation convo =>
    match t.fault with
    | some e => (.error e, s)
    | none => (.ok s.length, s ++ [.routed convo])
  | .setRecoveryPairing conv role contribution =>
    match t.fault with
    | some e => (.error e, s)
    | none => (.ok (), s.modify conv fun row => row.setPairing role contribution)
  | .about conv (.store o) =>
    match t.fault with
    | some e => (o.failWith e, s)
    | none => (s.access conv o).getD (t.answer (.about conv (.store o)), s)
  | o => (t.answer o, s)

/-- The outcome of a program that takes exactly the given turns. -/
def exec {α : Type} : PairingM C α → List (PairingTurn C) → ConversationTable C →
    Option (α × ConversationTable C)
  | .ret a, [], s => some (a, s)
  | .op o k, t :: ts, s =>
    let out := s.perform t o
    exec (k out.1) ts out.2
  | _, _, _ => none

theorem exec_perform_bind {α : Type} (o : PairingOp C) (k : o.Answer → PairingM C α)
    (t : PairingTurn C) (ts : List (PairingTurn C)) (s : ConversationTable C) :
    exec (pairing o >>= k) (t :: ts) s = exec (k (s.perform t o).1) ts (s.perform t o).2 := rfl

/-- No operation removes a row. -/
theorem length_le_perform (t : PairingTurn C) (s : ConversationTable C) (o : PairingOp C) :
    s.length ≤ (s.perform t o).2.length := by
  cases o with
  | createRoutedConversation convo =>
    simp only [perform]
    split
    · exact Nat.le_refl _
    · rw [List.length_append]
      exact Nat.le_add_right _ _
  | setRecoveryPairing conv role contribution =>
    simp only [perform]
    split
    · exact Nat.le_refl _
    · rw [List.length_modify]
  | about conv o =>
    cases o with
    | store o =>
      simp only [perform]
      split
      · exact Nat.le_refl _
      · unfold access
        cases s[conv]?.bind fun row => row.access o with
        | none => exact Nat.le_refl _
        | some out =>
          show s.length ≤ (s.set conv out.2).length
          rw [List.length_set]
    | _ => exact Nat.le_refl _
  | _ => exact Nat.le_refl _

theorem length_le_exec {α : Type} {p : PairingM C α} {ts : List (PairingTurn C)}
    {s s' : ConversationTable C} {a : α} (hexec : exec p ts s = some (a, s')) :
    s.length ≤ s'.length := by
  induction p generalizing ts s with
  | ret b =>
    cases ts with
    | nil =>
      cases hexec
      exact Nat.le_refl _
    | cons t ts => cases hexec
  | op o k ih =>
    cases ts with
    | nil => cases hexec
    | cons t ts => exact Nat.le_trans (length_le_perform t s o) (ih _ hexec)

theorem eq_of_exec_ret {α : Type} {a b : α} {ts : List (PairingTurn C)} {s s' : ConversationTable C}
    (hexec : exec (.ret a) ts s = some (b, s')) : ts = [] ∧ b = a ∧ s' = s := by
  cases ts with
  | nil =>
    cases hexec
    exact ⟨rfl, rfl, rfl⟩
  | cons t ts => cases hexec

end ConversationTable

/-! ## Failing early -/

/-- The result is an error. -/
def Refused {α : Type} (r : Result α) : Prop := ∃ e, r = .error e

/-- No row is inserted: the relay creates no inbox, or the insert fails. -/
def CreatesNoRow : List (PairingTurn C) → Prop
  | inbox :: rest => Refused (inbox.answer (.call (.relay .createMailbox))) ∨
      ∃ insert ∈ rest.head?, insert.fault ≠ none
  | [] => False

/-- The responder's call inserts no row: the offer is refused, no session is established, or
`CreatesNoRow`. -/
def BeginCreatesNoRow (L : PairingLib C) (payload : C.Payload) : List (PairingTurn C) → Prop
  | clock :: rest => ∀ offer, L.parsePairingOfferV3 payload (clock.answer .unixNow) = .ok offer →
      (∃ session ∈ rest.head?, Refused (session.answer (.establishSession offer.bundle))) ∨
        CreatesNoRow rest.tail
  | [] => False

/-- The offerer's handler inserts no row: the envelope does not open to a well-formed `pair-ack/2` whose
proof verifies, or `CreatesNoRow`. -/
def HandleCreatesNoRow (L : PairingLib C) (secret : C.Secret) (envelope : C.Wire) :
    List (PairingTurn C) → Prop
  | opening :: rest => ∀ peer inner ack,
      opening.answer (.decryptSetupFromUnknown envelope) = .ok (peer, inner) →
      L.readFrame inner = .pairAck ack → Proven L secret ack → CreatesNoRow rest
  | [] => False

section Rows

open ConversationTable

variable {L : PairingLib C} {s s' : ConversationTable C} {ts : List (PairingTurn C)} {e : CoreError}

/-- The insert and what follows it. -/
theorem rows_of_insert {β : Type} {convo : Conversation C.toCarrier}
    {f : ConversationId → PairingM C (Result β)}
    (hexec : exec ((pairing (.createRoutedConversation convo)).attempt f) ts s = some (.error e, s')) :
    s' = s ↔ ∃ insert ∈ ts.head?, insert.fault ≠ none := by
  cases ts with
  | nil => cases hexec
  | cons insert rest =>
    have hexec : exec (Program.attempt (.ret (s.perform insert (.createRoutedConversation convo)).1) f)
        rest (s.perform insert (.createRoutedConversation convo)).2 = some (.error e, s') := hexec
    cases hfault : insert.fault with
    | some err =>
      simp only [ConversationTable.perform, hfault, Program.ret_error_attempt] at hexec
      obtain ⟨-, -, hs⟩ := eq_of_exec_ret hexec
      exact iff_of_true hs ⟨insert, rfl, by simp [hfault]⟩
    | none =>
      simp only [ConversationTable.perform, hfault, Program.ret_ok_attempt] at hexec
      -- the row stays, whatever follows
      have hlength := length_le_exec hexec
      rw [List.length_append, List.length_singleton] at hlength
      refine iff_of_false (fun hs => ?_) ?_
      · rw [hs] at hlength
        omega
      · rintro ⟨t, ht, hne⟩
        cases ht
        exact hne hfault

/-- The part both sides share: create an inbox, insert the row, go on. -/
theorem rows_of_inserting {β : Type} {convo : C.Id → Conversation C.toCarrier}
    {f : C.Id → ConversationId → PairingM C (Result β)}
    (hexec : exec ((pairing (.call (.relay .createMailbox))).attempt fun myInbox =>
      (pairing (.createRoutedConversation (convo myInbox))).attempt (f myInbox)) ts s =
        some (.error e, s')) : s' = s ↔ CreatesNoRow ts := by
  cases ts with
  | nil => cases hexec
  | cons inbox rest =>
    change exec (Program.attempt (.ret (inbox.answer (.call (.relay .createMailbox)))) _) rest s = _
      at hexec
    unfold CreatesNoRow
    cases hinbox : inbox.answer (.call (.relay .createMailbox)) with
    | error err =>
      rw [hinbox] at hexec
      obtain ⟨-, -, hs⟩ := eq_of_exec_ret hexec
      exact iff_of_true hs (.inl ⟨err, hinbox⟩)
    | ok myInbox =>
      rw [hinbox] at hexec
      refine (rows_of_insert hexec).trans ⟨.inr, fun h => h.resolve_left ?_⟩
      rintro ⟨err, herror⟩
      cases hinbox.symm.trans herror

/-- The responder's call. -/
theorem rows_of_begin {payload : C.Payload} {fuel : ℕ}
    (hexec : exec (L.beginPairingFromOffer payload fuel) ts s = some (.error e, s')) :
    s' = s ↔ BeginCreatesNoRow L payload ts := by
  cases ts with
  | nil => cases hexec
  | cons clock rest =>
    have hnow : s.perform clock .unixNow = (clock.answer .unixNow, s) := rfl
    rw [PairingLib.beginPairingFromOffer, ConversationTable.exec_perform_bind, hnow] at hexec
    dsimp only at hexec
    rw [BeginCreatesNoRow]
    cases hoffer : L.parsePairingOfferV3 payload (clock.answer .unixNow) with
    | error err =>
      rw [hoffer] at hexec
      obtain ⟨-, -, hs⟩ := eq_of_exec_ret hexec
      exact iff_of_true hs fun _ hok => by cases hok
    | ok offer =>
      rw [hoffer] at hexec
      suffices h : s' = s ↔
          (∃ session ∈ rest.head?, Refused (session.answer (.establishSession offer.bundle))) ∨
            CreatesNoRow rest.tail by
        rw [h]
        exact ⟨fun hrow _ hok => by cases hok; exact hrow, fun hrow => hrow offer rfl⟩
      cases rest with
      | nil => cases hexec
      | cons session rest =>
        change exec (Program.attempt (.ret (session.answer (.establishSession offer.bundle))) _) rest s =
          _ at hexec
        cases hsession : session.answer (.establishSession offer.bundle) with
        | error err =>
          rw [hsession] at hexec
          obtain ⟨-, -, hs⟩ := eq_of_exec_ret hexec
          exact iff_of_true hs (.inl ⟨session, rfl, err, hsession⟩)
        | ok peerAddr =>
          rw [hsession] at hexec
          refine (rows_of_inserting hexec).trans ⟨.inr, fun h => h.resolve_left ?_⟩
          rintro ⟨t, ht, err, herror⟩
          cases ht
          cases hsession.symm.trans herror

variable [DecidableEq C.Proof]

/-- The offerer's handler. -/
theorem rows_of_handle {inbox : C.Id} {secret : C.Secret} {envelope : C.Wire}
    (hexec : exec (L.handlePairAckV2 inbox secret envelope) ts s = some (.error e, s')) :
    s' = s ↔ HandleCreatesNoRow L secret envelope ts := by
  cases ts with
  | nil => cases hexec
  | cons opening rest =>
    change exec (Program.attempt (.ret (opening.answer (.decryptSetupFromUnknown envelope))) _) rest s =
      _ at hexec
    rw [HandleCreatesNoRow]
    cases hopened : opening.answer (.decryptSetupFromUnknown envelope) with
    | error err =>
      rw [hopened] at hexec
      obtain ⟨-, -, hs⟩ := eq_of_exec_ret hexec
      exact iff_of_true hs fun _ _ _ hok => by cases hok
    | ok frame =>
      obtain ⟨peer, inner⟩ := frame
      rw [hopened, Program.ret_ok_attempt] at hexec
      dsimp only at hexec
      cases hread : L.readFrame inner with
      | other f =>
        rw [hread] at hexec
        obtain ⟨-, herror, -⟩ := eq_of_exec_ret hexec
        cases herror
      | malformedAck err =>
        rw [hread] at hexec
        obtain ⟨-, -, hs⟩ := eq_of_exec_ret hexec
        refine iff_of_true hs fun _ _ _ hok hack => ?_
        cases hok
        cases hread.symm.trans hack
      | pairAck ack =>
        rw [hread] at hexec
        dsimp only at hexec
        by_cases hproven : Proven L secret ack
        · rw [verifyProofOfScan_of_proven hproven] at hexec
          rw [rows_of_inserting hexec]
          refine ⟨fun hrow _ _ _ _ _ _ => hrow, fun hrow => ?_⟩
          exact hrow peer inner ack rfl hread hproven
        · rw [verifyProofOfScan_of_not hproven] at hexec
          obtain ⟨-, -, hs⟩ := eq_of_exec_ret hexec
          refine iff_of_true hs fun _ _ _ hok hack hproven' => ?_
          cases hok
          cases hread.symm.trans hack
          exact absurd hproven' hproven

/-- **What a failed pairing leaves.** A call of either side that returns an error leaves the conversation
table as it was exactly when it failed at the insert of the row or before. -/
theorem failed_pairing_keeps_rows_iff (L : PairingLib C) (s s' : ConversationTable C)
    (ts : List (PairingTurn C)) (e : CoreError) :
    (∀ payload fuel, exec (L.beginPairingFromOffer payload fuel) ts s = some (.error e, s') →
      (s' = s ↔ BeginCreatesNoRow L payload ts)) ∧
    ∀ inbox secret envelope,
      exec (L.handlePairAckV2 inbox secret envelope) ts s = some (.error e, s') →
      (s' = s ↔ HandleCreatesNoRow L secret envelope ts) :=
  ⟨fun _ _ hexec => rows_of_begin hexec, fun _ _ _ hexec => rows_of_handle hexec⟩

end Rows

/-! ## Rows that stay behind -/

/-- A turn in which storage works and everything else is as in `deliveringAck`. -/
def plainTurn (deposited : Result DepositOutcome) : PairingTurn (bytePairingCarrier Unit) :=
  ⟨none, deliveringAck deposited⟩

/-- An offer of an hour, dated at the epoch. -/
def plainOffer : Bytes :=
  let bundle := (serializeBundle ⟨"peer", 0, 1, [], 0, [], [], 0, [1], [], none⟩).getD []
  [offerVersionV3] ++ (putBytes bundle).getD [] ++ (putBytes (asBytes "wss://relay")).getD [] ++
    List.replicate mailboxIdLen 65 ++ List.replicate pairingSecretLen 0 ++ toBeBytes 8 0 ++
    toBeBytes 4 3600 ++ List.replicate offerSigLen 0

/-- **Rows stay behind.** A responder finds the pairing inbox gone, an offerer cannot deposit the handoff:
both calls return an error and leave a row. -/
theorem failed_pairing_leaves_row :
    (∃ s', ConversationTable.exec (plainPairing.beginPairingFromOffer plainOffer 4)
        (List.replicate 9 (plainTurn (.ok .notFound))) [] = some (.error .pairingUnavailable, s') ∧
      s' ≠ []) ∧
    ∃ s', ConversationTable.exec (plainPairing.handlePairAckV2 "pairing" [] [])
        (List.replicate 9 (plainTurn (.error (.network "unreachable")))) [] =
          some (.error (.network "unreachable"), s') ∧ s' ≠ [] := by
  have hbegin : (ConversationTable.exec (plainPairing.beginPairingFromOffer plainOffer 4)
      (List.replicate 9 (plainTurn (.ok .notFound))) []).map (fun x => (x.1, x.2.length)) =
        some (.error .pairingUnavailable, 1) := by
    decide +kernel
  have hhandle : (ConversationTable.exec (plainPairing.handlePairAckV2 "pairing" [] [])
      (List.replicate 9 (plainTurn (.error (.network "unreachable")))) []).map
        (fun x => (x.1, x.2.length)) = some (.error (.network "unreachable"), 1) := by
    decide +kernel
  have hrow : ∀ s' : ConversationTable (bytePairingCarrier Unit), s'.length = 1 → s' ≠ [] := by
    rintro _ hlength rfl
    cases hlength
  obtain ⟨⟨r, s'⟩, hexec, hx⟩ := Option.map_eq_some_iff.mp hbegin
  obtain ⟨⟨r₂, s₂⟩, hexec₂, hx₂⟩ := Option.map_eq_some_iff.mp hhandle
  obtain ⟨rfl, hlength⟩ := Prod.mk.inj hx
  obtain ⟨rfl, hlength₂⟩ := Prod.mk.inj hx₂
  exact ⟨⟨s', hexec, hrow s' hlength⟩, s₂, hexec₂, hrow s₂ hlength₂⟩

/-- Storage works for `n` operations and then fails. -/
def diskFullAfter (n : ℕ) : List (PairingTurn (bytePairingCarrier Unit)) :=
  List.replicate n (plainTurn (.ok .accepted)) ++
    [⟨some (.storage "disk full"), deliveringAck (.ok .accepted)⟩]

/-- Where the insert fails, a valid offer and a verified ack leave nothing. -/
theorem failed_insert_leaves_nothing :
    (ConversationTable.exec (plainPairing.beginPairingFromOffer plainOffer 4) (diskFullAfter 3) [] =
        some (.error (.storage "disk full"), []) ∧
      BeginCreatesNoRow plainPairing plainOffer (diskFullAfter 3)) ∧
    ConversationTable.exec (plainPairing.handlePairAckV2 "pairing" [] []) (diskFullAfter 2) [] =
        some (.error (.storage "disk full"), []) ∧
      HandleCreatesNoRow plainPairing [] [] (diskFullAfter 2) := by
  have hbegin : (ConversationTable.exec (plainPairing.beginPairingFromOffer plainOffer 4) (diskFullAfter 3)
      []).map (fun x => (x.1, x.2.length)) = some (.error (.storage "disk full"), 0) := by
    decide +kernel
  have hhandle : (ConversationTable.exec (plainPairing.handlePairAckV2 "pairing" [] []) (diskFullAfter 2)
      []).map (fun x => (x.1, x.2.length)) = some (.error (.storage "disk full"), 0) := by
    decide +kernel
  obtain ⟨⟨r, s'⟩, hexec, hx⟩ := Option.map_eq_some_iff.mp hbegin
  obtain ⟨⟨r₂, s₂⟩, hexec₂, hx₂⟩ := Option.map_eq_some_iff.mp hhandle
  obtain ⟨rfl, hlength⟩ := Prod.mk.inj hx
  obtain ⟨rfl, hlength₂⟩ := Prod.mk.inj hx₂
  obtain rfl := List.eq_nil_of_length_eq_zero hlength
  obtain rfl := List.eq_nil_of_length_eq_zero hlength₂
  have hkeeps := fun ts => failed_pairing_keeps_rows_iff plainPairing [] [] ts (.storage "disk full")
  exact ⟨⟨hexec, ((hkeeps _).1 plainOffer 4 hexec).mp rfl⟩, hexec₂, ((hkeeps _).2 _ _ _ hexec₂).mp rfl⟩

end Titlan.Pairing
