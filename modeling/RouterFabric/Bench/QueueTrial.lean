import RouterFabric.Queue

/-!
# A queue on its own

Commands that are made and queued without ever being handed to a transport. Each has a frame from a
pool, which goes back once neither the caller nor the queue holds the command any more.

* `QueueTrial.make` : a command, if the pool has a frame for it
* `QueueTrial.act` : one operation on the queue
-/

namespace RouterFabric

/-- What a command is made from. -/
structure CommandDraft where
  kind : CommandKind
  route : Route
  address : Address
  payload : List UInt32
  deriving DecidableEq, Repr

/-- An operation on the queue, on the command made in a given place. -/
inductive QueueAction
  | enqueue (place : Nat)
  | abandon (place : Nat)
  | complete (place generation : Nat)
  | expire (ms : Nat)
  /-- the caller lets go of a command -/
  | drop (place : Nat)
  deriving DecidableEq, Repr

/-- A queue, the commands made for it, and those the caller still holds. -/
structure QueueTrial where
  queue : Queue := {}
  commands : Commands := []
  /-- one entry per command that was asked for -/
  held : List (Option CommandRef) := []
  deriving DecidableEq, Repr

namespace QueueTrial

/-- The frames in use. -/
def frames (t : QueueTrial) : Nat :=
  (t.queue.members ++ t.held.filterMap id).eraseDups.length

/-- The command that a draft describes. -/
def compose (number : Nat) (draft : CommandDraft) : Command where
  id := ⟨number⟩
  node := ⟨0⟩
  route := draft.route
  kind := draft.kind
  address := draft.address
  payload := draft.payload

/-- The transport's answer to the request for a frame. -/
def frameAnswer (t : QueueTrial) (pool : Nat) (fault : Option TransportFault) :
    Except TransportFault Unit :=
  match fault with
  | some fault => .error fault
  | none => if pool ≤ t.frames then .error .busy else .ok ()

/-- Makes a command. Its payload is checked before a frame is asked for. -/
def make (pool : Nat) (fault : Option TransportFault) (t : QueueTrial) (draft : CommandDraft) :
    Outcome Command × QueueTrial :=
  let refused (failure : Failure) : Outcome Command × QueueTrial :=
    (.error failure, { t with held := t.held ++ [none] })
  match Command.checkPayload draft.kind draft.address draft.payload with
  | .error failure => refused failure
  | .ok () =>
    match t.frameAnswer pool fault with
    | .error fault => refused (Failure.ofAllocation fault)
    | .ok () =>
      let command := compose t.held.length draft
      let (c, commands) := t.commands.add command
      (.ok command, { t with commands := commands, held := t.held ++ [some c] })

/-- Makes commands one after the other. -/
def makeAll (pool : Nat) (fault : Option TransportFault) :
    QueueTrial → List CommandDraft → List (Outcome Command) × QueueTrial
  | t, [] => ([], t)
  | t, draft :: rest =>
    let (made, t) := make pool fault t draft
    let (others, t) := makeAll pool fault t rest
    (made :: others, t)

/-- The command in a place, if the caller still holds it. -/
def held? (t : QueueTrial) (place : Nat) : Option CommandRef :=
  t.held[place]?.join

/-- Carries out one operation; some of them tell whether they did something. -/
def act (t : QueueTrial) : QueueAction → Option Bool × QueueTrial
  | .enqueue place =>
    match t.held? place with
    | none => (none, t)
    | some c =>
      let (queue, commands) := t.queue.enqueue t.commands c
      (none, { t with queue := queue, commands := commands })
  | .abandon place =>
    match t.held? place with
    | none => (none, t)
    | some c =>
      let (withdrawn, queue) := t.queue.abandon c
      (some withdrawn, { t with queue := queue })
  | .complete place generation =>
    match t.held? place with
    | none => (none, t)
    | some c =>
      let (claimed, queue) := t.queue.complete t.commands c generation
      (some claimed, { t with queue := queue })
  | .expire ms =>
    let (expired, queue, commands) := t.queue.expire t.commands ms 0
    (some expired.isSome, { t with queue := queue, commands := commands })
  | .drop place => (none, { t with held := t.held.set place none })

/-- Where the commands stand that the caller still holds. -/
def phases (t : QueueTrial) : List (Option Phase) :=
  t.held.map fun held => (held.bind t.commands.get?).map (·.phase)

/-- The trial after the caller has let go of all commands and the queue is gone. -/
def dropAll (t : QueueTrial) : QueueTrial :=
  { t with queue := {}, held := t.held.map fun _ => none }

end QueueTrial

end RouterFabric
