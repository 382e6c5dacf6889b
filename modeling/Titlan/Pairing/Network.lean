import Titlan.Foundation.Run
import Titlan.Pairing.Rows

/-! # Any number of parties pairing over relays

Parties are named by their addresses; each has its own relay. Any number of offers are out, any number of
responders answer them, and every conversation that exists may have listeners and `send_chat` calls. The
tasks interleave freely and may be dropped anywhere, as an offer's time-to-live or a stopped sync does.

Session decryption is ideal: an envelope carries who sealed it, for whom, and what is in it, and opens for
that receiver under the session with that sender only. It may always fail instead, as it does for an
envelope that was opened before. Relays are FIFO and lose no mailbox: a generated id is never generated
again, and a mailbox goes away only when it is deleted. Requests may be refused, and responses may be lost.
Everything else an operation returns comes from outside. -/

namespace Titlan.Pairing.Network

open Foundation

/-! ## Symbolic representations -/

/-- Proof-of-scan MACs: what they are made from. -/
abbrev Mac : Type := ℕ × String × ℕ

/-- Acknowledgements; a bundle is its owner's address. -/
abbrev Ack : Type := PairAckV2 String ℕ ℕ ℕ Mac

/-- Offers. -/
abbrev Offer : Type := OfferV3 String ℕ ℕ ℕ

/-- Frames. -/
abbrev Frame : Type := Titlan.Frame ℕ ℕ ℕ ℕ ℕ

/-- What an envelope holds. -/
inductive Content
  | pairAck (ack : Ack)
  | other (frame : Frame)
deriving DecidableEq, Repr

/-- A sealed envelope. -/
structure Sealed where
  sender : String
  receiver : String
  content : Content
deriving DecidableEq, Repr

/-- Relays, mailbox ids, roots, contributions and texts are numbers; a session is the two addresses. -/
abbrev carrier : PairingCarrier where
  toCarrier := ⟨ℕ, ℕ, ℕ, ℕ, ℕ, ℕ, String × String, Sealed⟩
  Payload := Offer
  Bundle := String
  Secret := ℕ
  Proof := Mac
  Inner := Content

/-- The content of a frame of the handshake. -/
def Content.of : PairingFrame carrier → Content
  | .pairAck ack => .pairAck ack
  | .malformedAck _ => .other .discarded
  | .other frame => .other frame

/-- The pairing inbox's reading of it. -/
def Content.read : Content → PairingFrame carrier
  | .pairAck ack => .pairAck ack
  | .other frame => .other frame

/-- A conversation inbox's reading of it. -/
def Content.frame : Content → Frame
  | .pairAck _ => .discarded
  | .other frame => frame

/-- What is the same in a run: everybody's relay and the two derivations, whatever they are. -/
structure Config where
  relayOf : String → ℕ
  deriveRoot : ℕ → ℕ → ℕ
  deriveMailboxId : ℕ → Role → ℕ → ℕ

/-- The engine of a party. -/
def engine (N : Config) (p : String) : Engine carrier.toCarrier where
  myRelay := N.relayOf p
  deriveMailboxId := N.deriveMailboxId
  deriveRoot := N.deriveRoot
  messageEncrypt session frame :=
    match session with
    | none => .error (.signal "session not found")
    | some (me, peer) => .ok ((me, peer), ⟨me, peer, .other frame⟩)
  messageDecrypt session wire :=
    match session with
    | none => .error (.signal "session not found")
    | some (me, peer) =>
      if wire.sender = peer ∧ wire.receiver = me then .ok ((me, peer), .ok wire.content.frame)
      else .error (.signal "invalid message")

/-- The handshake of a party. -/
def lib (N : Config) (p : String) : PairingLib carrier where
  engine := engine N p
  parsePairingOfferV3 offer now :=
    if now < offer.issuedAt + offer.ttlS then .ok offer
    else .error (.offerExpired offer.issuedAt offer.ttlS now .expired)
  computeProofOfScan secret bundle contribution := (secret, bundle, contribution)
  readFrame := Content.read

/-! ## State -/

/-- The tasks. -/
inductive Task
  /-- An offer of a party: `export_offer` and its listener. -/
  | offer (p : String) (n : ℕ)
  /-- A party's `begin_pairing_from_offer` on a scanned offer. -/
  | responder (p : String) (scanned : Offer) (n : ℕ)
  | listener (p : String) (conv : ConversationId) (n : ℕ)
  | sender (p : String) (conv : ConversationId) (n : ℕ)
deriving DecidableEq, Repr

/-- Whose task it is. -/
def Task.party : Task → String
  | .offer p _ => p
  | .responder p _ _ => p
  | .listener p _ _ => p
  | .sender p _ _ => p

/-- A conversation row, and the task that inserted it. -/
structure NetRow where
  row : ConversationRow carrier
  /-- History: who inserted it. -/
  creator : Task

/-- A message in a mailbox. -/
structure Queued where
  id : ℕ
  envelope : Sealed
deriving DecidableEq, Repr

/-- All databases and relays. -/
structure Net where
  conversations : String → List NetRow
  messages : String → ConversationId → List (StoredMessage carrier.toCarrier)
  boxes : ℕ → ℕ → Option (List Queued)
  nextBox : ℕ
  nextMsg : ℕ
  conn : Task → Option (ℕ × ℕ)
  offers : List Offer
  /-- History: the task that had a mailbox id generated. -/
  mintedBy : ℕ → Option Task
  /-- History: the conversations tasks have spawned a listener for; a responder does when its pairing has
  returned `Ok`. -/
  spawned : List (Task × ConversationId)

namespace Net

/-- Replace one mailbox. -/
def setBox (s : Net) (relay id : ℕ) (queue : Option (List Queued)) : Net :=
  { s with boxes := Function.update s.boxes relay (Function.update (s.boxes relay) id queue) }

/-- Queue an envelope in a mailbox that exists. -/
def enqueue (s : Net) (relay id : ℕ) (envelope : Sealed) : Net :=
  match s.boxes relay id with
  | none => s
  | some queue =>
    { s.setBox relay id (some (queue ++ [⟨s.nextMsg, envelope⟩])) with nextMsg := s.nextMsg + 1 }

/-- Generate a mailbox for a task. -/
def mint (s : Net) (N : Config) (i : Task) : Net :=
  { s.setBox (N.relayOf i.party) s.nextBox (some []) with
    nextBox := s.nextBox + 1
    mintedBy := Function.update s.mintedBy s.nextBox (some i) }

/-- Insert a conversation row. -/
def insertRow (s : Net) (i : Task) (convo : Conversation carrier.toCarrier) : Net :=
  { s with
    conversations := Function.update s.conversations i.party
      (s.conversations i.party ++ [⟨.routed convo, i⟩]) }

/-- Replace a conversation row's columns. -/
def setRow (s : Net) (p : String) (conv : ConversationId) (row : ConversationRow carrier) : Net :=
  { s with
    conversations := Function.update s.conversations p
      ((s.conversations p).modify conv fun x => { x with row }) }

/-- Subscribe a task, or end its subscription. -/
def setConn (s : Net) (i : Task) (conn : Option (ℕ × ℕ)) : Net :=
  { s with conn := Function.update s.conn i conn }

/-- Replace a conversation's messages. -/
def setMessages (s : Net) (p : String) (conv : ConversationId)
    (messages : List (StoredMessage carrier.toCarrier)) : Net :=
  { s with messages := Function.update s.messages p (Function.update (s.messages p) conv messages) }

end Net

/-! ## Effects -/

/-- How a relay request ends. -/
inductive Reply
  | served
  | refused (status : ℕ)
  /-- No response arrives, whether or not the relay processed the request. -/
  | lost (processed : Bool)
deriving DecidableEq, Repr

/-- What the inbox socket does next. -/
inductive Arrival
  | deliver
  | idle
  | closed
  | deadline
deriving DecidableEq, Repr

/-- What the outside decides about one operation. -/
structure Choice where
  reply : Reply
  arrival : Arrival
  fails : Bool
  /-- Whatever else is answered from outside. -/
  answer : (o : PairingOp carrier) → o.Answer

/-- Relay requests. -/
def performRelay (N : Config) (i : Task) (c : Choice) (s : Net) :
    (o : RelayOp carrier.toCarrier) → o.Answer × Net
  | .createMailbox =>
    match c.reply with
    | .served => (.ok s.nextBox, s.mint N i)
    | _ => (.error (.network "create_mailbox"), s)
  | .putMailbox relayUrl id => (c.answer (.call (.relay (.putMailbox relayUrl id))), s)
  | .deposit relayUrl id envelope =>
    match c.reply, s.boxes relayUrl id with
    | .served, some _ => (.ok .accepted, s.enqueue relayUrl id envelope)
    | .served, none => (.ok .notFound, s)
    | .refused status, _ => (.ok (.other status), s)
    | .lost true, _ => (.error (.network "deposit"), s.enqueue relayUrl id envelope)
    | .lost false, _ => (.error (.network "deposit"), s)
  | .deleteMailbox id =>
    match c.reply with
    | .served => (.ok (), s.setBox (N.relayOf i.party) id none)
    | .lost true => (.error (.network "delete_mailbox"), s.setBox (N.relayOf i.party) id none)
    | _ => (.error (.network "delete_mailbox"), s)

/-- The next event of a task's subscription; nothing while it has to wait. -/
def nextEvent (i : Task) (c : Choice) (s : Net) : Option (Event carrier.toCarrier × Net) :=
  match c.arrival with
  | .deliver =>
    match (s.conn i).bind fun box => (s.boxes box.1 box.2).bind List.head? with
    | some m => some (.delivery m.id m.envelope, s)
    | none => none
  | .idle => some (.idle, s)
  | _ => some (.closed, s.setConn i none)

/-- Remove an acked message from the mailbox of the task's subscription. -/
def ackMessage (i : Task) (s : Net) (id : ℕ) : Net :=
  match s.conn i with
  | none => s
  | some (relay, box) =>
    s.setBox relay box ((s.boxes relay box).map fun queue => queue.filter fun m => m.id ≠ id)

/-- The inbox socket. -/
def performSocket (N : Config) (i : Task) (c : Choice) (s : Net) :
    (o : SocketOp carrier.toCarrier) → Option (o.Answer × Net)
  | .subscribe id =>
    match c.reply, s.boxes (N.relayOf i.party) id with
    | .served, some _ => some (.ok, s.setConn i (some (N.relayOf i.party, id)))
    | .served, none => some (.notFound, s)
    | _, _ => some (.unreachable, s)
  | .next => nextEvent i c s
  | .nextBeforeDeadline =>
    if c.arrival = .deadline then some (none, s)
    else (nextEvent i c s).map fun out => (some out.1, out.2)
  | .deadlinePassed => some (c.answer (.call (.socket .deadlinePassed)), s)
  | .ack id => some ((), ackMessage i s id)

/-- Accesses to a conversation's messages and to sessions. -/
def performMessages (p : String) (conv : ConversationId) (c : Choice) (s : Net) :
    (o : StoreOp carrier.toCarrier) → o.Answer × Net
  | .pendingChat =>
    (.ok (((s.messages p conv).filter fun m => m.direction = .outgoing ∧ m.status = .pending).map
      fun m => (m.id, m.frame)), s)
  | .insertMessage direction frame status =>
    let row := ⟨(s.messages p conv).length, direction, frame, status⟩
    (.ok row, s.setMessages p conv (s.messages p conv ++ [row]))
  | .markMessageSent id =>
    (.ok (), s.setMessages p conv ((s.messages p conv).map fun m =>
      if m.id = id then { m with status := .sent } else m))
  | .loadSession peer _ => (.ok (if c.fails then none else some (p, peer)), s)
  | .storeSession _ _ _ => (.ok (), s)
  | o => (c.answer (.about conv (.store o)), s)

/-- Store accesses for a conversation: its row, its messages or a session. -/
def performStore (p : String) (conv : ConversationId) (c : Choice) (s : Net)
    (o : StoreOp carrier.toCarrier) : o.Answer × Net :=
  match (s.conversations p)[conv]?.bind fun x => x.row.access o with
  | some out => (out.1, s.setRow p conv out.2)
  | none => performMessages p conv c s o

/-- Operations of the engine. -/
def performEngine (N : Config) (i : Task) (c : Choice) (s : Net) :
    (o : Op carrier.toCarrier) → Option (o.Answer × Net)
  | .relay o => some (performRelay N i c s o)
  | .socket o => performSocket N i c s o
  | o => some (c.answer (.call o), s)

/-- The effect of one operation of a task. -/
def perform (N : Config) (i : Task) (c : Choice) (s : Net) :
    (o : PairingOp carrier) → Option (o.Answer × Net)
  | .encodePairingOfferV3 offer =>
    if c.fails then some (.error (.signal "sign"), s)
    else some (.ok offer, { s with offers := s.offers ++ [offer] })
  | .establishSession bundle =>
    some (if c.fails then .error (.signal "process_prekey_bundle") else .ok bundle, s)
  | .exportPrekeyBundle =>
    some (if c.fails then .error (.signal "export_prekey_bundle") else .ok i.party, s)
  | .encryptMessage peer frame =>
    some (if c.fails then .error (.signal "message_encrypt") else .ok ⟨i.party, peer, .of frame⟩, s)
  | .decryptSetupFromUnknown envelope =>
    some (if c.fails ∨ envelope.receiver ≠ i.party then .error (.signal "message_decrypt")
      else .ok (envelope.sender, envelope.content), s)
  | .createRoutedConversation convo =>
    some (.ok (s.conversations i.party).length, s.insertRow i convo)
  | .setRecoveryPairing conv role contribution =>
    match (s.conversations i.party)[conv]? with
    | some x => some (.ok (), s.setRow i.party conv (x.row.setPairing role contribution))
    | none => some (.ok (), s)
  | .call o => performEngine N i c s o
  | .about conv (.store o) => some (performStore i.party conv c s o)
  | .about _ o => performEngine N i c s o
  | .spawnConversation conv => some ((), { s with spawned := s.spawned ++ [(i, conv)] })
  | o => some (c.answer o, s)

/-! ## Runs -/

/-- The tasks over the shared state. -/
abbrev Sys := Threads Task (pairingSig carrier) Net

/-- What an offer runs. -/
def offerTask (N : Config) (p : String) (fuel : ℕ) : PairingM carrier Unit := do
  let _ ← (lib N p).exportOffer p fuel
  return ()

/-- What a responder runs: the pairing, and a listener for the conversation if it returned `Ok`. -/
def responderTask (N : Config) (p : String) (scanned : Offer) (fuel : ℕ) : PairingM carrier Unit := do
  match ← (lib N p).beginPairingFromOffer scanned fuel with
  | .ok (some conv) => pairing (.spawnConversation conv)
  | _ => return ()

/-- One step of a run. -/
inductive Label
  | act (i : Task) (c : Choice)
  | mint (p : String) (n fuel : ℕ)
  | scan (p : String) (scanned : Offer) (n fuel : ℕ)
  | listen (p : String) (conv : ConversationId) (n fuel : ℕ)
  | sendChat (p : String) (conv : ConversationId) (n text : ℕ)
  | drop (i : Task)

/-- Start a task that is at rest. -/
def startTask (w : Sys) (i : Task) (p : PairingM carrier Unit) : Option Sys :=
  match w.todo i with
  | .ret _ => some (w.start i p)
  | .op _ _ => none

/-- One step of the system. -/
def step (N : Config) (w : Sys) : Label → Option Sys
  | .act i c =>
    match w.todo i with
    | .ret _ => none
    | .op o k => (perform N i c w.shared o).map fun out => (w.move out.2).start i (k out.1)
  | .mint p n fuel => startTask w (.offer p n) (offerTask N p fuel)
  | .scan p scanned n fuel =>
    if scanned ∈ w.shared.offers then
      startTask w (.responder p scanned n) (responderTask N p scanned fuel)
    else none
  | .listen p conv n fuel =>
    if conv < (w.shared.conversations p).length then
      startTask w (.listener p conv n)
        (aboutConversation conv ((engine N p).conversationListener fuel))
    else none
  | .sendChat p conv n text =>
    if conv < (w.shared.conversations p).length then
      startTask w (.sender p conv n)
        (aboutConversation conv ((engine N p).sendChat text >>= fun _ => pure ()))
    else none
  | .drop i => some (w.start i (.ret ()))

/-- Nothing has happened yet. -/
def start : Sys where
  shared :=
    { conversations := fun _ => []
      messages := fun _ _ => []
      boxes := fun _ _ => none
      nextBox := 0
      nextMsg := 0
      conn := fun _ => none
      offers := []
      mintedBy := fun _ => none
      spawned := [] }
  todo _ := .ret ()

end Titlan.Pairing.Network
