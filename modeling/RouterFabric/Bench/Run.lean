import RouterFabric.Bench.Drive

/-!
# Running a script

The caller of a bench carries out instructions one after the other. Some are done at once, others
begin a call of the engine; either way the bench takes steps until nothing is under way, and then
reports what can be seen.

* `Bench.start` : carries out an instruction, or begins to
* `Bench.step`, `Bench.settle` : one step of the activity on top, and steps until all is done
* `Bench.run` : a script from beginning to end, with a report after every instruction
-/

namespace RouterFabric.Bench

/-! ## Instructions -/

/-- Begins a call on the current topology. -/
def startCall (b : Bench) (performer : Performer) (index : Nat) (ending : Ending)
    (router : Option RouterRef) (call : Call) : Bench :=
  (b.enter index [.call performer ending router]).move (.call call)

/-- The router with a given id in a topology, as far as it is there. -/
def routerIn? (b : Bench) (t : Topology) (id : NodeId) : Option (RouterRef × Router) := do
  let r ← t.tree.get? id
  let router ← b.engine.router? r
  some (r, router)

/-- Shows a router, if there is one. -/
def showAny (router : Option Router) : Result :=
  match router with
  | some router => .shown (.router router)
  | none => .shown .nothing

/-- Carries out an instruction on the router `r`. -/
def startOnRouter (b : Bench) (performer : Performer) (index : Nat) (t : Topology) (r : RouterRef)
    (router : Router) : RouterInstruction → Bench
  | .operate operation => b.startCall performer index .plain r (.operate r operation)
  | .callback transfer tag following =>
    let issued := { b with callbacks := (tag, transfer.kind, following) :: b.callbacks }
    issued.startCall performer index .plain r (.operate r (.transfer transfer (.callback tag)))
  | .attachChild route name => b.startCall performer index (.named name) r (.attachChild r route)
  | .detach => b.startCall performer index .plain r (.detach r)
  | .resume => b.startCall performer index .plain r (.resume r)
  | .info => b.conclude performer (.shown (.router router))
  | .byId => b.conclude performer (showAny ((b.routerIn? t router.id).map (·.2)))
  | .parent =>
    b.conclude performer
      (showAny (((t.tree.parent? router.id).bind (b.routerIn? t)).map (·.2)))
  | .children =>
    b.conclude performer (.shown (.children ((t.tree.children router.id).filterMap
      fun (adapter, id) => (b.routerIn? t id).map fun (_, child) => (adapter, child))))

/-- Carries out an instruction that needs a topology. -/
def startOnTopology (b : Bench) (performer : Performer) (index : Nat) (t : Topology) :
    Instruction → Bench
  | .lookup route name =>
    match t.lookup route with
    | .error failure => b.conclude performer (.failed failure)
    | .ok r => (b.bindAny name r).conclude performer (.succeeded (b.valueOf (.router r)))
  | .root name =>
    match t.tree.root.bind (b.routerIn? t) with
    | some (r, router) => (b.bindAny name r).conclude performer (.shown (.router router))
    | none => b.conclude performer (.shown .nothing)
  | .count => b.conclude performer (.shown (.count t.tree.size))
  | .settings => b.conclude performer (.shown (.settings t.settings))
  | .listen =>
    let closed :=
      match b.receiver with
      | some old => b.updateTopology old ({ · with listener := none })
      | none => b
    ({ closed with receiver := some index }.updateTopology index
      ({ · with listener := some [] })).conclude performer (.shown .nothing)
  | .closeListener =>
    let closed :=
      match b.receiver with
      | some old => b.updateTopology old ({ · with listener := none })
      | none => b
    { closed with receiver := none }.conclude performer (.shown .nothing)
  | .receiveEvents =>
    match b.receiver with
    | some source =>
      let events := ((b.topology? source).bind (·.listener)).getD []
      (b.updateTopology source fun t => { t with listener := t.listener.map fun _ => [] }).conclude
        performer (.shown (.events events))
    | none => b.conclude performer (.shown (.events []))
  | .router name instruction =>
    match b.handle? name with
    | none => b.conclude performer .noHandle
    | some r =>
      match b.engine.router? r with
      | none => b.conclude performer .noHandle
      | some router => b.startOnRouter performer index t r router instruction
  | _ => b

/-- Starts a new topology. -/
def startTopology (b : Bench) (performer : Performer) (plan : Plan) (name : String) : Bench :=
  match plan.settings with
  | .error failure => b.conclude performer (.failed failure)
  | .ok settings =>
    let index := b.topologies.length
    { b with topologies := b.topologies ++ [({} : Topology)] }.startCall performer index
      (.attached index name) none (.attachRoot settings)

/-- Carries out an instruction, or begins to. -/
def start (b : Bench) (performer : Performer) (instruction : Instruction) : Bench :=
  let done (b : Bench) : Bench := b.conclude performer (.shown .nothing)
  match instruction with
  | .plan actions => done { b with actions := b.actions ++ actions }
  | .poke place words => done { b with far := b.far.write place words }
  | .peek place count => b.conclude performer (.shown (.words (b.far.read place count)))
  | .plug route => done { b with far := { b.far with plugged := route :: b.far.plugged } }
  | .unplug route =>
    done { b with far := { b.far with plugged := b.far.plugged.filter (· != route) } }
  | .pool size => done { b with pool := size }
  | .refuseFrames fault => done { b with frameFault := fault }
  | .refuseHandlers fault => done { b with handlerFault := fault }
  | .sleep ms => done (b.move (.elapse ms))
  | .inject cues => b.push [.cues none cues, .conclusion performer (.shown .nothing)]
  | .dropTopology => done { b with current := none }
  | .forget name => done { b with handles := b.handles.filter (·.1 != name) }
  | .attachRoot plan name => b.startTopology performer plan name
  | other =>
    match b.current with
    | none => b.conclude performer .noTopology
    | some index =>
      match b.topology? index with
      | none => b.conclude performer .noTopology
      | some t => b.startOnTopology performer index t other

/-! ## Steps -/

/-- One step of the activity on top; when there is none, cues that were put off are taken up. -/
def step (b : Bench) : Bench :=
  match b.activities with
  | [] => b.takeUp?.getD b
  | activity :: below =>
    let rest := { b with activities := below }
    match activity with
    | .instructions _ [] => rest
    | .instructions performer (first :: others) =>
      (rest.push [.instructions performer others]).start performer first
    | .cues _ [] => rest
    | .cues frame (first :: others) => (rest.push [.cues frame others]).play frame first
    | .submission answer => rest.move (.grant answer)
    | .callback => rest.move .back
    | .conclusion performer result => rest.conclude performer result
    | .deliveries [] => rest
    | .deliveries (first :: others) => (rest.push [.deliveries others]).deliver first
    | .leave index => rest.load index
    | .call _ _ _ => b.drive activity
    | .delivery => b.drive activity

/-- Whether nothing is under way and nothing was put off. -/
def isSettled (b : Bench) : Bool :=
  b.activities.isEmpty && b.later.isEmpty

/-- Steps until the bench is settled, `limit` of them at most. -/
def settle : Nat → Bench → Bench
  | 0, b => b
  | limit + 1, b => if b.isSettled then b else settle limit b.step

/-! ## Reports -/

/-- What can be seen after an instruction. -/
structure Report where
  result : Result
  log : List Entry
  frames : Nat
  /-- the number of things the transport keeps back -/
  kept : Nat
  routers : List (String × Router)
  /-- the number of attached routers, if there is a topology -/
  size : Option Nat

/-- What can be seen now. -/
def report (b : Bench) : Report where
  result := b.result
  log := b.log
  frames := b.framesInUse
  kept := b.kept.length
  routers := b.handles.filterMap fun (name, r) => (b.engine.router? r).map (name, ·)
  size := (b.current.bind b.topology?).map (·.tree.size)

/-- Carries out one instruction of the caller, and all cues that are put off in its course. -/
def perform (limit : Nat) (b : Bench) (instruction : Instruction) : Bench :=
  settle limit ({ b with log := [], result := .shown .nothing }.push
    [.instructions .caller [instruction]])

/-- Carries out instructions one after the other, with a report after each. -/
def reports (limit : Nat) : Bench → List Instruction → List Report
  | _, [] => []
  | b, instruction :: rest =>
    let performed := b.perform limit instruction
    performed.report :: reports limit performed rest

/-- The reports of a script, on a transport with a given number of frames. -/
def run (limit pool : Nat) (instructions : List Instruction) : List Report :=
  reports limit { pool := pool } instructions

end RouterFabric.Bench
