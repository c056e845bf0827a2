import RouterFabric.Bench.Script
import RouterFabric.Engine.Move

/-!
# The state of a bench

A bench drives one engine. It has a stack of activities, beside the stack of tasks of the engine:
the instructions and cues still to be carried out, and the calls and arrivals that the engine is
dealing with. It also has the transport: a pool of frames, a plan for submissions to come, and what
is kept back.

* `Bench` : all of it
* `Bench.load`, `Bench.enter` : one engine serves several topologies, one after the other
* `Bench.framesInUse` : the frames that have not gone back to the pool
-/

namespace RouterFabric

/-- Something that arrives at the handlers of a topology. -/
inductive Bench.Delivery
  /-- a frame of this type was sent -/
  | sent (packetType : PacketType) (context : Option FrameContext)
  | received (channel label : PacketType) (bytes : List UInt8)
  deriving DecidableEq, Repr

/-- What the arrival is for the engine; no handler is there for the sending of notifications. -/
def Bench.Delivery.arrival? : Bench.Delivery → Option Arrival
  | .sent .read context => some (.sent context)
  | .sent .write context => some (.sent context)
  | .sent _ _ => none
  | .received channel label bytes => some (.received channel label bytes)

/-- What becomes of the answer of a call. -/
inductive Bench.Ending
  | plain
  /-- the router of the answer gets a name -/
  | named (name : Option String)
  /-- the topology at this index becomes the current one, and its host router gets a name -/
  | attached (index : Nat) (name : String)
  deriving DecidableEq, Repr

/-- Something the bench is doing. -/
inductive Bench.Activity where
  | instructions (performer : Bench.Performer) (instructions : List Bench.Instruction)
  | cues (frame : Option Frame) (cues : List Bench.Cue)
  /-- the transport is about to answer -/
  | submission (answer : Except TransportFault Unit)
  /-- a callback is about to return -/
  | callback
  /-- an instruction is about to be concluded -/
  | conclusion (performer : Bench.Performer) (result : Bench.Result)
  | deliveries (deliveries : List Bench.Delivery)
  /-- the engine is carrying out a call, on a router that its caller keeps in use meanwhile -/
  | call (performer : Bench.Performer) (ending : Bench.Ending) (router : Option RouterRef)
  /-- the engine is dealing with an arrival -/
  | delivery
  /-- go back to another topology, or to none -/
  | leave (topology : Option Nat)

/-- A bench, with all that it knows. -/
structure Bench where
  engine : Engine := {}
  far : FarEnd := {}
  /-- how the next submissions are dealt with -/
  actions : List Bench.Action := []
  /-- the number of frames of the transport -/
  pool : Nat
  frameFault : Option TransportFault := none
  handlerFault : Option TransportFault := none
  /-- what the transport keeps back, oldest first -/
  kept : List Bench.Delivery := []
  /-- the routers the caller has names for -/
  handles : List (String × RouterRef) := []
  /-- all topologies there ever were; the one the engine serves at the moment stands in the engine -/
  topologies : List Topology := []
  /-- the topology the caller holds -/
  current : Option Nat := none
  /-- the topology the engine serves at the moment -/
  loaded : Option Nat := none
  /-- the topology whose handlers the transport has -/
  handlers : Option Nat := none
  /-- the topology whose hot-plug events the caller receives -/
  receiver : Option Nat := none
  /-- the callbacks issued, with the kind of their command and what they do -/
  callbacks : List (Nat × CommandKind × List Bench.Instruction) := []
  /-- cues that were put off, each with the frame it is about, in the order in which they are due -/
  later : List (Option Frame × List Bench.Cue) := []
  log : List Bench.Entry := []
  result : Bench.Result := .shown .nothing
  activities : List Bench.Activity := []

namespace Bench

/-! ## Bookkeeping -/

/-- Puts activities on top of the stack, the first of them uppermost. -/
def push (b : Bench) (activities : List Activity) : Bench :=
  { b with activities := activities ++ b.activities }

/-- Notes something down. -/
def note (b : Bench) (entry : Entry) : Bench :=
  { b with log := b.log ++ [entry] }

/-- Notes the result of an instruction, where its performer looks for it. -/
def conclude (b : Bench) (performer : Performer) (result : Result) : Bench :=
  match performer with
  | .caller => { b with result := result }
  | _ => b.note (.performed performer result)

/-- The router a name stands for. -/
def handle? (b : Bench) (name : String) : Option RouterRef :=
  (b.handles.find? (·.1 == name)).map (·.2)

/-- Gives a router a name, in place of any router that had it. -/
def bind (b : Bench) (name : String) (r : RouterRef) : Bench :=
  { b with handles := b.handles.filter (·.1 != name) ++ [(name, r)] }

/-- Gives a router a name, if one is wanted. -/
def bindAny (b : Bench) (name : Option String) (r : RouterRef) : Bench :=
  match name with
  | some name => b.bind name r
  | none => b

/-! ## Topologies -/

/-- One of the topologies, as it is now. -/
def topology? (b : Bench) (index : Nat) : Option Topology :=
  if b.loaded = some index then some b.engine.topology else b.topologies[index]?

/-- Lets the engine serve another topology, or none. -/
def load (b : Bench) (next : Option Nat) : Bench :=
  let topologies :=
    match b.loaded with
    | some index => b.topologies.set index b.engine.topology
    | none => b.topologies
  let topology := (next.bind (topologies[·]?)).getD {}
  { b with
    topologies := topologies
    loaded := next
    engine := { b.engine with topology := topology } }

/-- Lets the engine serve a topology for the activities to come. -/
def enter (b : Bench) (index : Nat) (activities : List Activity) : Bench :=
  (b.push (activities ++ [.leave b.loaded])).load (some index)

/-- Changes one of the topologies. -/
def updateTopology (b : Bench) (index : Nat) (f : Topology → Topology) : Bench :=
  if b.loaded = some index then
    { b with engine := { b.engine with topology := f b.engine.topology } }
  else
    { b with topologies := b.topologies.modify index f }

/-- The topologies in use: the caller's, and those the engine is serving. -/
def topologiesInUse (b : Bench) : List Nat :=
  b.current.toList ++ b.loaded.toList ++ b.activities.filterMap fun
    | .leave (some index) => some index
    | _ => none

/-- The routers on which calls are under way. -/
def routersCalled (b : Bench) : List RouterRef :=
  b.activities.filterMap fun
    | .call _ _ router => router
    | _ => none

/-- The routers in use outside the engine: those with names, those with a call under way, and all
of the topologies in use. -/
def routersOutside (b : Bench) : List RouterRef :=
  b.handles.map (·.2) ++ b.routersCalled ++
    (b.topologiesInUse.filterMap b.topology?).flatMap Topology.routers

/-- The frames in use. -/
def framesInUse (b : Bench) : Nat :=
  b.engine.framesInUse b.routersOutside

end Bench

end RouterFabric
