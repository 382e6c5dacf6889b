import Titlan.Codec.Padding
import Titlan.Device.Flushing
import Titlan.Device.Pacing

/-! # Messages that cannot be sent

A chat is queued as it comes and sealed when it is its turn, and a payload that no bucket holds is refused
by the frame encoder. `flush_pending` leaves on that error with `?`, without going on to the next row, so
the row and every row behind it stay pending for good. -/

namespace Titlan

open Foundation

variable {C : Carrier}

/-! ## The queue -/

/-- The frames of the rows that wait. -/
def Device.queue (d : Device C) : List C.Frame := d.pending.map Prod.snd

theorem mem_queue {d : Device C} {frame : C.Frame} :
    frame ∈ d.queue ↔ ∃ row ∈ d.messages, row.Waits ∧ row.frame = frame := by
  simp [Device.queue, Device.pending, and_assoc]

/-- No storage access fails and the relay accepts every deposit. -/
def Accepting (ts : List (Turn C)) : Prop := Answering (fun _ answer => answer = .ok .accepted) ts

/-- Over a session, exactly the frames with `fits` can be sealed. -/
def Engine.SealsExactly (E : Engine C) (fits : C.Frame → Bool) : Prop :=
  ∀ session frame,
    if fits frame then ∃ out, E.messageEncrypt (some session) frame = .ok out
    else ∃ e, E.messageEncrypt (some session) frame = .error e

/-! ## Flushes -/

variable [C.Comparable] {E : Engine C}
  {fits : C.Frame → Bool} {d d' : Device C} {ts : List (Turn C)} {result : Result Unit}

/-- **A completed flush** leaves the queue from the first row on that cannot be sealed. -/
theorem queue_flushPending (hseals : E.SealsExactly fits) (haccept : Accepting ts) (hready : d.Ready)
    (h : Device.exec E E.flushPending ts d = some (result, d')) :
    d'.Ready ∧ d'.queue = d.queue.dropWhile fits := by
  obtain ⟨hready', gone, hpending, hgone, hrest⟩ := exec_flushPending haccept hready h
  have hfits : ∀ frame ∈ gone.map Prod.snd, fits frame = true := by
    intro frame hframe
    obtain ⟨x, hx, rfl⟩ := List.mem_map.mp hframe
    obtain ⟨outcome, ⟨session, session', wire, hout, -⟩, -⟩ := hgone x hx
    by_contra hnot
    obtain ⟨e, he⟩ := (if_neg hnot ▸ hseals session x.2 :)
    cases hout.symm.trans he
  have hnot : ∀ frame, d'.queue.head? = some frame → ¬ fits frame = true := by
    intro frame hframe hfits
    obtain ⟨x, hx, rfl⟩ := Option.map_eq_some_iff.mp (List.head?_map.symm.trans hframe)
    obtain ⟨session, e, he⟩ | ⟨answer, ⟨-, -, -, -, haccepted⟩, hopen⟩ := hrest x hx
    · obtain ⟨out, hout⟩ := (if_pos hfits ▸ hseals session x.2 :)
      cases hout.symm.trans he
    · exact hopen .accepted haccepted (.inl rfl)
  have hsplit : d.queue = gone.map Prod.snd ++ d'.queue := by
    rw [Device.queue, hpending, List.map_append]
    rfl
  refine ⟨hready', ?_⟩
  rw [hsplit, List.dropWhile_append_of_pos hfits]
  cases hqueue : d'.queue with
  | nil => rfl
  | cons frame rest => rw [List.dropWhile_cons_of_neg (hnot frame (by rw [hqueue]; rfl))]

/-- `send_chat` queues the text and flushes. -/
theorem exec_sendChat {text : C.Text} (hseals : E.SealsExactly fits)
    (haccept : Accepting ts) (hready : d.Ready)
    (h : Device.exec E (E.sendChat text) ts d = some (result, d')) :
    d'.Ready ∧ d'.queue = (d.queue ++ [chatV1 text]).dropWhile fits := by
  rw [Engine.sendChat] at h
  obtain ⟨inserting, ts₁, rfl, -, h₁⟩ := exec_store_bind haccept.calm h
  obtain ⟨ts₂, ts₃, flushed, d₁, rfl, hflush, h₂⟩ := Device.exec_bind h₁
  obtain ⟨-, -, rfl⟩ := Device.exec_ret_eq h₂
  have hinserted : (d.performStore (.insertMessage .outgoing (chatV1 text) .pending)).2.Ready := by
    refine ⟨hready.mailbox, hready.session, ?_⟩
    show (d.messages ++ [_]).map StoredMessage.id = List.range (d.messages ++ [_]).length
    rw [List.map_append, hready.numbered, List.length_append, List.length_singleton, List.range_succ]
    rfl
  have hqueue : (d.performStore (.insertMessage .outgoing (chatV1 text) .pending)).2.queue =
      d.queue ++ [chatV1 text] := by
    simp only [Device.performStore, Device.queue, Device.pending, List.filter_append, List.map_append]
    rfl
  rw [← hqueue]
  exact queue_flushPending hseals haccept.of_cons.of_append.1 hinserted hflush

/-- A call of `send_chat`, with the turns it takes. -/
def Device.send (E : Engine C) (d : Device C) (call : C.Text × List (Turn C)) : Option (Device C) :=
  (Device.exec E (E.sendChat call.1) call.2 d).map Prod.snd

/-- **Run.** Whatever has been flushed on the way, a flush at the end leaves what it would have left of
the whole queue. -/
theorem queue_sends {calls : List (C.Text × List (Turn C))} (hseals : E.SealsExactly fits) (hready : d.Ready)
    (haccept : ∀ call ∈ calls, Accepting call.2) (hrun : run (Device.send E) d calls = some d') :
    d'.Ready ∧
      d'.queue.dropWhile fits = (d.queue ++ (calls.map Prod.fst).map chatV1).dropWhile fits := by
  induction calls generalizing d with
  | nil =>
    cases hrun
    rw [List.map_nil, List.map_nil, List.append_nil]
    exact ⟨hready, rfl⟩
  | cons call calls ih =>
    obtain ⟨d₁, hsend, hrest⟩ := Option.bind_eq_some_iff.mp (run_cons d call calls ▸ hrun)
    obtain ⟨⟨result, d₁⟩, hexec, rfl⟩ := Option.map_eq_some_iff.mp hsend
    obtain ⟨hready₁, hqueue₁⟩ := exec_sendChat hseals (haccept call List.mem_cons_self) hready hexec
    obtain ⟨hready', hqueue'⟩ :=
      ih hready₁ (fun c hc => haccept c (List.mem_cons_of_mem call hc)) hrest
    refine ⟨hready', hqueue'.trans ?_⟩
    rw [hqueue₁, dropWhile_append_dropWhile, List.map_cons, List.map_cons, List.append_assoc,
      List.singleton_append]

/-! ## Sizes -/

section Bytes

variable {Session : Type}

/-- The payload fits the profile's `max_payload`, a `u32`. -/
def Fits (profile : PaddingProfile) (frame : (byteCarrier Session).Frame) : Bool :=
  match innerFrame frame with
  | some inner => inner.payload.length ≤ u32Max && inner.payload.length ≤ profile.maxPayload
  | none => false

/-- With a libsignal that does not fail, exactly the frames that fit are sealed. -/
theorem seals_fits (lib : Libsignal Session) (profile : PaddingProfile) (myRelay : String)
    (hlib : ∀ session plaintext, ∃ out, lib.messageEncrypt (some session) plaintext = .ok out) :
    (byteEngine lib profile myRelay).SealsExactly (Fits profile) := by
  intro session frame
  cases hinner : innerFrame frame with
  | none =>
    rw [if_neg (by simp [Fits, hinner])]
    exact ⟨.malformed "field exceeds u16", by simp only [byteEngine, hinner]⟩
  | some inner =>
    have hencrypt : (byteEngine lib profile myRelay).messageEncrypt (some session) frame =
        sealEnvelope lib profile (some session) inner := by
      simp only [byteEngine, hinner]
    rw [hencrypt]
    by_cases hfits : inner.payload.length ≤ u32Max ∧ inner.payload.length ≤ profile.maxPayload
    · rw [if_pos (by simpa [Fits, hinner] using hfits)]
      obtain ⟨plaintext, hplaintext⟩ := encode_of_le hfits.1 hfits.2
      obtain ⟨out, hout⟩ := hlib session plaintext
      rw [sealEnvelope, hplaintext]
      exact ⟨_, by simp only [bind, Except.bind, hout]; rfl⟩
    · rw [if_neg (by simpa [Fits, hinner] using hfits)]
      obtain ⟨e, he⟩ := encode_of_lt hfits
      rw [sealEnvelope, he]
      exact ⟨e, rfl⟩

/-- **When nothing that fits stays behind.** For every client that knows the peer's inbox and has a session
that never fails, any calls of `send_chat` with texts of any lengths, a relay that accepts every deposit
and storage that does not fail: after a completed flush no row that fits is pending exactly if, among the
rows pending before and the texts sent since, none that fits comes after one that does not. -/
theorem unsent_iff (lib : Libsignal Session) (profile : PaddingProfile) (myRelay : String)
    (hlib : ∀ session plaintext, ∃ out, lib.messageEncrypt (some session) plaintext = .ok out)
    (d d₁ d₂ : Device (byteCarrier Session)) (hready : d.Ready)
    (calls : List (Bytes × List (Turn (byteCarrier Session))))
    (hcalls : ∀ call ∈ calls, Accepting call.2)
    (hrun : run (Device.send (byteEngine lib profile myRelay)) d calls = some d₁)
    (ts : List (Turn (byteCarrier Session))) (hts : Accepting ts) (result : Result Unit)
    (hflush : Device.exec (byteEngine lib profile myRelay) (byteEngine lib profile myRelay).flushPending
      ts d₁ = some (result, d₂)) :
    (∀ row ∈ d₂.messages, row.Waits → Fits profile row.frame = false) ↔
      (d.queue ++ (calls.map Prod.fst).map chatV1).Pairwise fun earlier later =>
        Fits profile later = true → Fits profile earlier = true := by
  have hseals := seals_fits lib profile myRelay hlib
  obtain ⟨hready₁, hqueue₁⟩ := queue_sends hseals hready hcalls hrun
  obtain ⟨-, hqueue₂⟩ := queue_flushPending hseals hts hready₁ hflush
  rw [← forall_dropWhile_iff, ← hqueue₁, ← hqueue₂]
  constructor
  · intro h frame hframe
    obtain ⟨row, hrow, hwaits, rfl⟩ := mem_queue.mp hframe
    exact h row hrow hwaits
  · intro h row hrow hwaits
    exact h row.frame (mem_queue.mpr ⟨row, hrow, hwaits, rfl⟩)

end Bytes

/-! ## Starved -/

/-- The relay accepts every deposit. -/
def acceptingTurn : Turn (byteCarrier Unit) := ⟨none, fun
  | .relay (.deposit _ _ _) => .ok .accepted
  | o => offlineTurn.answer o⟩

theorem accepting_replicate (n : ℕ) : Accepting (List.replicate n acceptingTurn) :=
  fun _ h => List.eq_of_mem_replicate h ▸ ⟨rfl, fun _ _ _ => rfl⟩

/-- Two calls of `send_chat` of `n` turns each, with a text and with a short one. -/
def thenShort (text : Bytes) (n : ℕ) : List (Bytes × List (Turn (byteCarrier Unit))) :=
  [(text, List.replicate n acceptingTurn), ([0x62], List.replicate n acceptingTurn)]

theorem accepting_thenShort (text : Bytes) (n : ℕ) : ∀ call ∈ thenShort text n, Accepting call.2 := by
  intro call hcall
  simp only [thenShort, List.mem_cons, List.not_mem_nil, or_false] at hcall
  obtain rfl | rfl := hcall <;> exact accepting_replicate n

theorem ready_rootedDevice : rootedDevice.Ready := ⟨rfl, rfl, rfl⟩

/-- Two short texts both go out. -/
theorem short_texts_sent :
    ∃ d₁ d₂, run (Device.send plainEngine) rootedDevice (thenShort [0x61] 9) = some d₁ ∧
      Device.exec plainEngine plainEngine.flushPending (List.replicate 4 acceptingTurn) d₁ =
        some (.ok (), d₂) ∧
      ∀ row ∈ d₂.messages, row.Waits → Fits smallProfile row.frame = false := by
  refine ⟨_, _, rfl, rfl, ?_⟩
  refine (unsent_iff plainLib smallProfile "wss://relay" (fun _ _ => ⟨_, rfl⟩) rootedDevice _ _
    ready_rootedDevice (thenShort [0x61] 9) (accepting_thenShort _ _) rfl
    (List.replicate 4 acceptingTurn) (accepting_replicate 4) (.ok ()) rfl).mpr ?_
  decide

/-- **Starved.** A text of 27 bytes, one more than the profile carries, and then a text of one byte: every
request is accepted and nothing fails, and the second text is still pending. -/
theorem short_text_starved :
    ∃ d₁ d₂ result, run (Device.send plainEngine) rootedDevice (thenShort (List.replicate 27 0x61) 6) =
        some d₁ ∧
      Device.exec plainEngine plainEngine.flushPending (List.replicate 5 acceptingTurn) d₁ =
        some (result, d₂) ∧
      rootedDevice.Ready ∧ (∀ call ∈ thenShort (List.replicate 27 0x61) 6, Accepting call.2) ∧
      Accepting (List.replicate 5 acceptingTurn) ∧
      ¬ ∀ row ∈ d₂.messages, row.Waits → Fits smallProfile row.frame = false := by
  refine ⟨_, _, _, rfl, rfl, ready_rootedDevice, accepting_thenShort _ _, accepting_replicate 5, ?_⟩
  intro h
  have hno := h ⟨1, .outgoing, chatV1 [0x62], .pending⟩ (List.mem_of_getElem? (i := 1) rfl) ⟨rfl, rfl⟩
  exact absurd hno (by decide)

end Titlan
