import RouterFabric.Command

/-!
# Command queues

Every router admits its commands through a queue: commands wait in line, and one at a time holds
the slot, from the moment it is about to be handed to the transport until its attempt has ended.
Each operation below is one section that nothing interrupts.

* `Queue.enqueue`, `Queue.beginDrain` : into the line, and from its head into the slot
* `Queue.submitted`, `Queue.defer`, `Queue.reject` : the transport's answer for the slot's command
* `Queue.complete`, `Queue.expire`, `Queue.abandon` : the end of an attempt
-/

namespace RouterFabric

/-- What becomes of the slot of a router. -/
inductive SlotState
  /-- free -/
  | idle
  /-- held by a command that is being handed to the transport -/
  | draining
  /-- held by a command that the transport has accepted -/
  | inflight
  deriving DecidableEq, Repr

/-- Why a pass over the queue of a router has come to its end. -/
inductive Drained
  /-- nothing waits any more -/
  | empty
  /-- a command holds the slot -/
  | occupied
  /-- the transport had no capacity for the next command -/
  | deferred
  deriving DecidableEq, Repr

/-- The line of a router and the slot in front of it. -/
structure Queue where
  pending : List CommandRef := []
  slot : Option CommandRef := none
  state : SlotState := .idle
  deriving DecidableEq, Repr

namespace Queue

/-- Whether nothing waits and nothing holds the slot. -/
def isEmpty (q : Queue) : Bool :=
  q.pending.isEmpty && q.slot.isNone

/-- The commands of the queue, the slot's first. -/
def members (q : Queue) : List CommandRef :=
  q.slot.toList ++ q.pending

/-- The number of commands that wait or hold the slot. -/
def outstanding (q : Queue) : Nat :=
  q.members.length

/-- Whether a command holds the slot. -/
def holds (q : Queue) (c : CommandRef) : Bool :=
  q.slot == some c

/-- The queue with its slot free. -/
def release (q : Queue) : Queue :=
  { q with slot := none, state := .idle }

/-- Puts a command at the end of the line. -/
def enqueue (q : Queue) (cs : Commands) (c : CommandRef) : Queue × Commands :=
  ({ q with pending := q.pending ++ [c] }, cs.update c (·.setPhase .queued 0))

/-- Moves the head of the line into the slot, if the slot is free. -/
def beginDrain (q : Queue) (cs : Commands) (now : Nat) : Option (CommandRef × Queue × Commands) :=
  match q.state, q.pending with
  | .idle, c :: rest =>
    some (c, { pending := rest, slot := some c, state := .draining },
      cs.update c (·.setPhase .inflight now))
  | _, _ => none

/-- The transport has accepted the slot's command. -/
def submitted (q : Queue) (c : CommandRef) : Queue :=
  if q.holds c && q.state == .draining then { q with state := .inflight } else q

/-- The transport had no capacity: the slot's command goes back to the head of the line. A command
that was withdrawn in the meantime is left alone. -/
def defer (q : Queue) (cs : Commands) (c : CommandRef) : Bool × Queue × Commands :=
  if q.holds c then
    (true, { q.release with pending := c :: q.pending }, cs.update c (·.setPhase .queued 0))
  else
    (false, q, cs)

/-- The transport has refused the slot's command for good. -/
def reject (q : Queue) (c : CommandRef) : Bool × Queue :=
  if q.holds c then (true, q.release) else (false, q)

/-- Frees the slot for an attempt that is complete, if the slot still holds that attempt. -/
def complete (q : Queue) (cs : Commands) (c : CommandRef) (generation : Nat) : Bool × Queue :=
  if q.holds c && (cs.get? c).any (·.generation == generation) then (true, q.release)
  else (false, q)

/-- Frees the slot if its command has held it for at least `limit`. The attempt is completed by
force, so that no later signal completes it; whoever expired it has to end it. -/
def expire (q : Queue) (cs : Commands) (limit now : Nat) :
    Option CommandRef × Queue × Commands :=
  match q.slot with
  | none => (none, q, cs)
  | some c =>
    match cs.get? c with
    | none => (none, q, cs)
    | some command =>
      if command.heldFor limit now then
        let (claimed, marked) := command.markAll command.generation
        if claimed then
          (some c, q.release, cs.set c.index marked)
        else
          (none, q, cs)
      else
        (none, q, cs)

/-- Withdraws a command that its caller has given up, from the slot or from the line. It is in
neither if its attempt has been claimed already. -/
def abandon (q : Queue) (c : CommandRef) : Bool × Queue :=
  if q.holds c then
    (true, q.release)
  else if c ∈ q.pending then
    (true, { q with pending := q.pending.erase c })
  else
    (false, q)

end Queue

end RouterFabric
