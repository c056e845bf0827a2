import RouterFabric.Packet.Transfer
import RouterFabric.Tree

/-!
# Commands

A command is one read or write of config space. It is tried in attempts, each with a generation of
its own and a sequence number that its request carries. An attempt is complete once both of its
signals are in: the transport has sent the request, and the answer has arrived. Signals name the
generation they are for, and those of another generation change nothing.

* `Command.request` : the request of the current attempt
* `Command.beginAttempt` : a fresh attempt, with its request put into the frame
* `Command.mark`, `Command.markAll` : signals of an attempt; whoever completes it is told so
* `Command.finish`, `Command.takeEnding` : how the attempt ended, and taking note of it
-/

namespace RouterFabric

/-- The id of a command in a topology. -/
structure CommandId where
  number : Nat
  deriving DecidableEq, Repr

/-! ## Frames -/

/-- What a frame is for; the transport hands it back once the frame is sent. -/
inductive FrameContext
  /-- the request of one attempt of a command -/
  | command (node : NodeId) (command : CommandId) (generation : Nat)
  /-- the acknowledgment of a hot-plug event, for which nothing waits -/
  | acknowledgment
  deriving DecidableEq, Repr

/-- A frame. It comes empty from the pool, and is handed to the transport with a packet. -/
structure Frame where
  packetType : PacketType := .read
  bytes : List UInt8 := []
  /-- the length of the expected answer in bytes -/
  responseLength : Nat := 0
  context : FrameContext := .acknowledgment
  deriving DecidableEq, Repr

/-! ## Attempts -/

/-- What a command does. -/
inductive CommandKind
  | read
  | write
  deriving DecidableEq, Repr

/-- The packet type of a request and of its answer. -/
def CommandKind.packetType : CommandKind → PacketType
  | .read => .read
  | .write => .write

/-- Where a command stands. -/
inductive Phase
  /-- known to no queue -/
  | idle
  | queued
  /-- holding the slot of its router -/
  | inflight
  /-- ended, as far as the current attempt goes -/
  | done
  deriving DecidableEq, Repr

/-- How an attempt ended. -/
inductive Ending
  /-- answered, with the words read -/
  | completed (data : List UInt32)
  /-- interrupted by a notification -/
  | interrupted (event : Event)
  /-- refused by the transport -/
  | refused (fault : TransportFault)
  /-- released after it had held its slot for too long -/
  | expired
  deriving DecidableEq, Repr

/-- What the caller of a command is told. -/
def Ending.reply : Ending → Reply
  | .completed data => .ok data
  | .interrupted event => .error (.asyncEvent event)
  | .refused fault => .error (.transport fault)
  | .expired => .error .timeout

/-- The two signals that complete an attempt. -/
inductive Signal
  /-- the request frame was sent -/
  | sent
  /-- the answer arrived -/
  | answered
  deriving DecidableEq, Repr

/-- Who learns of the end of a command, besides a caller that waits for it. -/
inductive Listener
  | nobody
  /-- a callback, which runs once -/
  | callback (tag : Nat)
  /-- a future, which keeps the reply until it is awaited -/
  | future (reply : Option Reply)
  deriving DecidableEq, Repr

/-- One read or write of config space. -/
structure Command where
  id : CommandId
  node : NodeId
  route : Route
  kind : CommandKind
  address : Address
  payload : List UInt32
  /-- holds the request of the current attempt -/
  frame : Frame := {}
  /-- the number of the current attempt, zero before the first -/
  generation : Nat := 0
  /-- the sequence number of the current attempt -/
  seq : Nat := 0
  /-- whether the request of the current attempt was sent -/
  sent : Bool := false
  /-- whether the current attempt was answered -/
  answered : Bool := false
  /-- what a polling caller looks at -/
  pollComplete : Bool := false
  phase : Phase := .idle
  /-- since when the current attempt holds its slot -/
  since : Option Nat := none
  /-- the words of the answer, until they are taken -/
  response : Option (List UInt32) := none
  /-- how the current attempt ended, until a caller takes it -/
  ending : Option Ending := none
  listener : Listener := .nobody
  deriving DecidableEq, Repr

namespace Command

/-! ### Requests -/

/-- Refuses a write that carries another number of words than its address declares. -/
def checkPayload (kind : CommandKind) (address : Address) (payload : List UInt32) : Outcome Unit :=
  if kind = .write ∧ payload.length ≠ address.dwords then
    .error (.invalidArgument (.writeCount address.dwords payload.length))
  else
    .ok ()

/-- The words of an answer besides its data: three words in front and the checksum. -/
def frameOverhead : Nat := 4

/-- The length in bytes of the answer to the command. -/
def responseLength (c : Command) : Nat :=
  match c.kind with
  | .read => (c.address.dwords + frameOverhead) * Limit.wordSize
  | .write => frameOverhead * Limit.wordSize

/-- The packet that the current attempt sends. -/
def requestBytes (c : Command) : List UInt8 :=
  match c.kind with
  | .read => ReadRequest.encode ⟨c.route, c.address.withSeq c.seq⟩
  | .write => WriteRequest.encode ⟨c.route, c.address.withSeq c.seq, c.payload⟩

/-- The request of the current attempt. -/
def request (c : Command) : Frame where
  packetType := c.kind.packetType
  bytes := c.requestBytes
  responseLength := c.responseLength
  context := .command c.node c.id c.generation

/-! ### The course of an attempt -/

/-- Whether both signals of the current attempt are in. -/
def isComplete (c : Command) : Bool :=
  c.sent && c.answered

/-- Moves the command to another phase; taking the slot starts the clock of the attempt. -/
def setPhase (c : Command) (phase : Phase) (now : Nat) : Command :=
  { c with phase := phase, since := if phase = .inflight then some now else none }

/-- Starts the next attempt under a sequence number, of which two bits count, and puts its request
into the frame. -/
def beginAttempt (c : Command) (seq : Nat) : Command :=
  let begun := { c with
    generation := c.generation + 1
    seq := seq % 4
    sent := false
    answered := false
    pollComplete := false
    phase := .idle
    since := none
    response := none
    ending := none }
  { begun with frame := begun.request }

/-- Takes note of one signal for an attempt, and of the words that came with it. The answer is
whether this signal made the current attempt complete. -/
def mark (c : Command) (generation : Nat) (signal : Signal) (words : Option (List UInt32)) :
    Bool × Command :=
  if c.generation = generation then
    let marked := { c with
      response := words.orElse fun _ => c.response
      sent := c.sent || signal == .sent
      answered := c.answered || signal == .answered }
    (!c.isComplete && marked.isComplete, marked)
  else
    (false, c)

/-- Completes an attempt by force. The answer is whether it was the current one and not complete
before. -/
def markAll (c : Command) (generation : Nat) : Bool × Command :=
  if c.generation = generation then
    (!c.isComplete, { c with sent := true, answered := true })
  else
    (false, c)

/-- The words of the answer, which are taken away; none if there were none. -/
def takeResponse (c : Command) : List UInt32 × Command :=
  (c.response.getD [], { c with response := none })

/-- Ends the current attempt. A callback is used up, a future keeps the first reply. -/
def finish (c : Command) (ending : Ending) : Command :=
  { c with
    phase := .done
    ending := some ending
    pollComplete := true
    listener :=
      match c.listener with
      | .future none => .future (some ending.reply)
      | .future (some reply) => .future (some reply)
      | _ => .nobody }

/-- The callback that runs when the command ends. -/
def callback? (c : Command) : Option Nat :=
  match c.listener with
  | .callback tag => some tag
  | _ => none

/-- How the current attempt ended, if it has; the note is taken away. -/
def takeEnding (c : Command) : Option Ending × Command :=
  if c.phase = .done then (c.ending, { c with ending := none }) else (none, c)

/-- Whether the current attempt has held its slot for at least `limit`. -/
def heldFor (c : Command) (limit now : Nat) : Bool :=
  c.since.any fun since => limit ≤ now - since

end Command

/-! ## Command stores -/

/-- A reference to a command in a store. -/
structure CommandRef where
  index : Nat
  deriving DecidableEq, Repr

/-- The commands made so far, in the order in which they were made. -/
abbrev Commands := List Command

namespace Commands

/-- The command a reference stands for. -/
def get? (cs : Commands) (c : CommandRef) : Option Command :=
  cs[c.index]?

/-- The store with one command changed. -/
def update (cs : Commands) (c : CommandRef) (f : Command → Command) : Commands :=
  cs.modify c.index f

/-- Changes one command and tells what the change gives; `absent` if there is no such command. -/
def change {α : Type} (cs : Commands) (c : CommandRef) (absent : α) (f : Command → α × Command) :
    α × Commands :=
  match cs.get? c with
  | none => (absent, cs)
  | some command =>
    let (given, changed) := f command
    (given, cs.set c.index changed)

/-- The store with a command added, and the reference to it. -/
def add (cs : Commands) (command : Command) : CommandRef × Commands :=
  (⟨cs.length⟩, cs ++ [command])

end Commands

end RouterFabric
