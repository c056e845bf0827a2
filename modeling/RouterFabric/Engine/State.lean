import RouterFabric.Packet.Notice
import RouterFabric.Procedure
import RouterFabric.Queue

/-!
# The state of an engine

An engine serves one topology. Its state is made of the routers and commands there ever were, the
topology itself, the time, and a stack of tasks: the work that is under way. A task may need
something from outside, such as a frame or the transport's answer for one, and meanwhile other
calls and arrivals may put their own tasks on top of it.

* `Router`, `Topology` : what is known of the fabric
* `Task` : a piece of work under way
* `Engine` : all of it
-/

namespace RouterFabric

/-! ## Routers -/

/-- The counters of a router. -/
structure Statistics where
  /-- frames that the transport accepted -/
  submitted : Nat := 0
  /-- attempts that a signal completed -/
  completed : Nat := 0
  /-- attempts that were given up after their timeout -/
  timeouts : Nat := 0
  /-- submissions that found the transport busy -/
  busyDeferrals : Nat := 0
  /-- signals for which there was no attempt -/
  staleDiscards : Nat := 0
  deriving DecidableEq, Repr

/-- One router. -/
structure Router where
  id : NodeId
  route : Route
  /-- known once the router has been discovered -/
  identity : Option Identity := none
  suspended : Bool := false
  /-- whether the router has been taken out of its topology -/
  detached : Bool := false
  /-- the number of attempts begun on the router; its last two bits are the next sequence number -/
  begun : Nat := 0
  queue : Queue := {}
  stats : Statistics := {}
  deriving DecidableEq, Repr

/-- A reference to a router. -/
structure RouterRef where
  index : Nat
  deriving DecidableEq, Repr

/-! ## Topologies -/

/-- The routers attached to one host router, and what is kept for all of them. -/
structure Topology where
  settings : Settings := {}
  tree : RouterTree RouterRef := {}
  /-- routers whose head command found the transport busy -/
  deferred : List NodeId := []
  nextCommand : Nat := 1
  /-- hot-plug events that the current listener has not received yet -/
  listener : Option (List HotplugEvent) := none
  deriving DecidableEq, Repr

namespace Topology

/-- The router a route leads to. -/
def lookup (t : Topology) (route : Route) : Outcome RouterRef :=
  match t.tree.lookup route with
  | .error failure => .error failure
  | .ok id =>
    match t.tree.get? id with
    | some r => .ok r
    | none => .error .notFound

/-- The routers in the tree. -/
def routers (t : Topology) : List RouterRef :=
  t.tree.nodes.map (·.2.value)

/-- Adds a router to those that wait for the transport, unless it is among them. -/
def defer (t : Topology) (id : NodeId) : Topology :=
  if id ∈ t.deferred then t else { t with deferred := t.deferred ++ [id] }

/-- Passes a hot-plug event on to the listener, if there is one. -/
def announce (t : Topology) (event : HotplugEvent) : Topology :=
  { t with listener := t.listener.map (· ++ [event]) }

end Topology

/-! ## Tasks -/

/-- What a finished call answers. -/
inductive Answer
  | nothing
  | words (words : List UInt32)
  | offset (offset : Nat)
  | router (router : RouterRef)
  deriving DecidableEq, Repr

/-- How a caller waits for its command. -/
inductive Patience
  /-- by watching, with this many attempts to follow -/
  | retrying (watching : Watching) (left : Nat)
  /-- by awaiting a future -/
  | future
  deriving DecidableEq, Repr

/-- A caller that waits for a command of a router. -/
structure Waiter where
  router : RouterRef
  command : CommandRef
  patience : Patience
  deriving DecidableEq, Repr

/-- A piece of work under way. What is below a task on the stack waits until the task is done. -/
inductive Task where
  /-- run a program for a router; its result answers the call -/
  | perform (router : RouterRef) (program : Program Request Answer)
  /-- go on with a program, once there is a reply to its request -/
  | resume (router : RouterRef) (next : Reply → Program Request Answer)
  /-- hand a reply to the program below -/
  | reply (reply : Reply)
  /-- wait until the answer of a call is collected -/
  | answer (result : Outcome Answer)
  /-- let time pass -/
  | sleep (ms : Nat)
  /-- wait for a frame for a new command -/
  | allocate (router : RouterRef) (command : Command) (style : Style)
  /-- begin the next attempt of a waiting caller -/
  | attempt (waiter : Waiter)
  /-- start to wait -/
  | watch (waiter : Waiter)
  /-- wait until the command has ended or the deadline has passed -/
  | await (waiter : Waiter) (deadline : Nat)
  /-- wait for the end of an attempt that someone else has claimed -/
  | claimed (waiter : Waiter)
  /-- hand commands of a router to the transport, as far as its slot allows -/
  | drain (router : RouterRef)
  /-- wait for the transport's answer for a command -/
  | offer (router : RouterRef) (command : CommandRef)
  /-- offer the commands of all routers that wait for the transport -/
  | kick
  /-- offer the commands of these routers, as far as they are still attached -/
  | drainEach (ids : List NodeId)
  /-- end a command that has held its slot for too long -/
  | expire (router : RouterRef) (command : CommandRef)
  /-- wait until a callback returns -/
  | notify (tag : Nat) (reply : Reply)
  /-- keep routers and commands in use until here -/
  | hold (routers : List RouterRef) (commands : List CommandRef)
  /-- wait until the transport has taken the handlers of the topology -/
  | register
  /-- wait for a frame for the acknowledgment of a hot-plug event -/
  | acknowledge (event : HotplugEvent)
  /-- wait for the transport's answer for an acknowledgment -/
  | offerAcknowledgment (event : HotplugEvent)
  /-- pass a hot-plug event on to the listener -/
  | announce (event : HotplugEvent)
  /-- wait until it is noted that an arrival has been dealt with -/
  | handled

/-- The routers a task keeps in use. -/
def Task.routers : Task → List RouterRef
  | .perform r _ => [r]
  | .resume r _ => [r]
  | .answer (.ok (.router r)) => [r]
  | .allocate r _ _ => [r]
  | .attempt w => [w.router]
  | .watch w => [w.router]
  | .await w _ => [w.router]
  | .claimed w => [w.router]
  | .drain r => [r]
  | .offer r _ => [r]
  | .expire r _ => [r]
  | .hold rs _ => rs
  | _ => []

/-- The commands a task keeps in use. -/
def Task.commands : Task → List CommandRef
  | .attempt w => [w.command]
  | .watch w => [w.command]
  | .await w _ => [w.command]
  | .claimed w => [w.command]
  | .offer _ c => [c]
  | .expire _ c => [c]
  | .hold _ cs => cs
  | _ => []

/-! ## Engines -/

/-- The state of an engine. -/
structure Engine where
  topology : Topology := {}
  /-- all routers there ever were, by reference -/
  routers : List Router := []
  /-- all commands there ever were, by reference -/
  commands : Commands := []
  /-- the time in milliseconds -/
  now : Nat := 0
  /-- the work under way, the task in progress first -/
  stack : List Task := []
  /-- the number of frames that have been taken for acknowledgments and not been given back -/
  lent : Nat := 0

namespace Engine

/-- The router a reference stands for. -/
def router? (e : Engine) (r : RouterRef) : Option Router :=
  e.routers[r.index]?

/-- Changes one router. -/
def updateRouter (e : Engine) (r : RouterRef) (f : Router → Router) : Engine :=
  { e with routers := e.routers.modify r.index f }

/-- Changes the counters of one router. -/
def count (e : Engine) (r : RouterRef) (f : Statistics → Statistics) : Engine :=
  e.updateRouter r fun router => { router with stats := f router.stats }

/-- Adds a router. -/
def addRouter (e : Engine) (id : NodeId) (route : Route) : RouterRef × Engine :=
  (⟨e.routers.length⟩, { e with routers := e.routers ++ [{ id := id, route := route }] })

/-- The command a reference stands for. -/
def command? (e : Engine) (c : CommandRef) : Option Command :=
  e.commands.get? c

/-- Replaces the queue of a router. -/
def setQueue (e : Engine) (r : RouterRef) (q : Queue) : Engine :=
  e.updateRouter r fun router => { router with queue := q }

/-- Replaces the queue of a router and the commands. -/
def setLine (e : Engine) (r : RouterRef) (line : Queue × Commands) : Engine :=
  { e.setQueue r line.1 with commands := line.2 }

/-- Puts tasks on top of the stack, the first of them uppermost. -/
def push (e : Engine) (tasks : List Task) : Engine :=
  { e with stack := tasks ++ e.stack }

/-! ## Frames in use -/

/-- The routers in use: those outside holds, those attached and those that tasks work on. -/
def routersInUse (e : Engine) (outside : List RouterRef) : List RouterRef :=
  (outside ++ e.topology.routers ++ e.stack.flatMap Task.routers).eraseDups

/-- The commands in use: those in the queue of a router in use and those that tasks work on. -/
def commandsInUse (e : Engine) (outside : List RouterRef) : List CommandRef :=
  let queued := (e.routersInUse outside).flatMap fun r =>
    ((e.router? r).map (·.queue.members)).getD []
  (queued ++ e.stack.flatMap Task.commands).eraseDups

/-- Takes a frame for an acknowledgment. -/
def takeFrame (e : Engine) : Engine :=
  { e with lent := e.lent + 1 }

/-- Gives the frame of an acknowledgment back. -/
def freeFrame (e : Engine) : Engine :=
  { e with lent := e.lent - 1 }

/-- The frames in use. A command has its frame from its making until nothing uses it any more, while
that of an acknowledgment is given back by whoever has taken it. -/
def framesInUse (e : Engine) (outside : List RouterRef) : Nat :=
  (e.commandsInUse outside).length + e.lent

end Engine

end RouterFabric
