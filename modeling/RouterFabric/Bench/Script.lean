import RouterFabric.Bench.FarEnd
import RouterFabric.Engine.Call
import RouterFabric.Settings.Document

/-!
# Scripts for a bench

A bench exercises an engine: a caller carries out instructions one after the other, while the
transport follows a plan that says how it answers each submission and what happens during it.

* `Cue` : something that happens at the transport, such as the arrival of an answer
* `Action` : how the transport deals with one submission
* `Instruction` : something the caller does
* `Result` : what an instruction gives
-/

namespace RouterFabric.Bench

/-- The context reported with the sending of a frame. -/
inductive SentContext
  /-- the one the frame was given -/
  | own
  | missing
  | acknowledgment
  /-- the own one, for another generation -/
  | generation (generation : Nat)
  deriving DecidableEq, Repr

/-- What the settings of a new topology are made from: a document, and values of single fields. -/
structure Plan where
  document : Option String := none
  values : List (Settings.Field × Nat) := []
  deriving DecidableEq, Repr

/-- The settings a plan describes. The document must be in order by itself. -/
def Plan.settings (plan : Plan) : Outcome Settings :=
  let base :=
    match plan.document with
    | some text => Settings.ofText text
    | none => .ok {}
  base.map fun settings => plan.values.foldl (fun s (field, value) => s.set field value) settings

mutual

/-- Something that happens at the transport. Cues that speak of a frame are about the one that is
being submitted. -/
inductive Cue where
  /-- the frame is reported as sent, at once or when it is released -/
  | sent (kept : Bool) (context : SentContext)
  /-- the far end answers the frame, and the answer arrives at once or when it is released -/
  | answer (kept : Bool) (alteration : Alteration)
  /-- everything kept back arrives, oldest first -/
  | releaseAll
  /-- one thing kept back arrives -/
  | release (index : Nat)
  /-- one thing kept back arrives, and is kept all the same -/
  | replay (index : Nat)
  /-- bytes arrive at the handler for `channel` in a packet of type `label` -/
  | received (channel label : PacketType) (bytes : List UInt8)
  | sleep (ms : Nat)
  /-- someone else carries out instructions -/
  | perform (instructions : List Instruction)
  /-- the cues are put off until a caller begins to wait, or to the end of the instruction -/
  | later (cues : List Cue)

/-- How the transport deals with a submission: what happens before it answers, by default what the
far end does of itself, and its answer. -/
inductive Action where
  | mk (cues : Option (List Cue)) (answer : Except TransportFault Unit)

/-- Something the caller does to a router. -/
inductive RouterInstruction where
  | operate (operation : Operation)
  /-- a transfer with a callback that carries out instructions -/
  | callback (transfer : Transfer) (tag : Nat) (following : List Instruction)
  | attachChild (route : Route) (name : Option String)
  | detach
  | resume
  | info
  | byId
  | parent
  | children

/-- Something the caller does. -/
inductive Instruction where
  | plan (actions : List Action)
  | poke (place : Place) (words : List UInt32)
  | peek (place : Place) (count : Nat)
  | plug (route : Route)
  | unplug (route : Route)
  | pool (size : Nat)
  /-- let the transport refuse every frame, or none -/
  | refuseFrames (fault : Option TransportFault)
  /-- let the transport refuse handlers, or take them -/
  | refuseHandlers (fault : Option TransportFault)
  | sleep (ms : Nat)
  | inject (cues : List Cue)
  | dropTopology
  | forget (name : String)
  | attachRoot (plan : Plan) (name : String)
  | lookup (route : Route) (name : Option String)
  | root (name : Option String)
  | count
  | settings
  | listen
  | closeListener
  | receiveEvents
  | router (name : String) (instruction : RouterInstruction)

end

/-! ## Results -/

/-- What an instruction shows. -/
inductive Value
  | nothing
  | words (words : List UInt32)
  | offset (offset : Nat)
  | router (router : Router)
  | attached (settings : Settings) (root : Router)
  | settings (settings : Settings)
  | count (count : Nat)
  | events (events : List HotplugEvent)
  | children (children : List (Nat × Router))

/-- What an instruction gives. -/
inductive Result
  /-- a value of something that cannot fail -/
  | shown (value : Value)
  | succeeded (value : Value)
  | failed (failure : Failure)
  | noTopology
  | noHandle

/-- Who carries out an instruction. -/
inductive Performer
  /-- the caller itself -/
  | caller
  /-- someone else, during a submission -/
  | other
  /-- a callback -/
  | callback
  deriving DecidableEq, Repr

/-- What is noted down while instructions are carried out. -/
inductive Entry
  | submitted (frame : Frame) (answer : Except TransportFault Unit)
  | calledBack (tag : Nat) (kind : CommandKind) (reply : Reply)
  | performed (performer : Performer) (result : Result)

end RouterFabric.Bench
