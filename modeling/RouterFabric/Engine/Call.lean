import RouterFabric.Engine.Step

/-!
# Calls

What can be asked of an engine from outside: to attach a host router or another router, to detach
routers, and to carry out operations on a router. A call puts tasks on the stack; its answer stands
there when they are done.

* `Operation` : the operations on one router, with the program of each
* `Engine.call` : begins a call
* `Engine.detach` : all of a detachment that happens at once
-/

namespace RouterFabric

/-- An operation on one router. -/
inductive Operation
  | transfer (transfer : Transfer) (style : Style)
  | suspend
  | findCapability (target : Capability.Target)
  | findAdapterCapability (adapter id : Nat)
  | linkControllerUuid
  deriving DecidableEq, Repr

namespace Operation

/-- The answer to a transfer: the words of a read that the caller waited for. -/
def transferAnswer (t : Transfer) (style : Style) (words : List UInt32) : Answer :=
  match t, style with
  | .write .., _ => .nothing
  | .read .., .callback _ => .nothing
  | .read .., _ => .words words

/-- The program of an operation, on a router in a given state. -/
def program (settings : Settings) (router : Router) : Operation → Program Request Answer
  | .transfer t style => do
    let words ← Program.request (.transfer t style)
    return transferAnswer t style words
  | .suspend => do
    Procedure.suspend settings router.suspended
    return .nothing
  | .findCapability target => do
    return .offset (← Procedure.routerCapability target)
  | .findAdapterCapability adapter id => do
    return .offset (← Procedure.adapterCapability router.identity adapter id)
  | .linkControllerUuid => do
    return .words (← Procedure.linkControllerUuid router.identity)

end Operation

/-- A call from outside. -/
inductive Call
  /-- start a new topology with the host router of the transport -/
  | attachRoot (settings : Settings)
  /-- attach a router one hop below another one -/
  | attachChild (parent : RouterRef) (route : Route)
  /-- remove a router and all below it -/
  | detach (router : RouterRef)
  /-- mark a router as awake again -/
  | resume (router : RouterRef)
  | operate (router : RouterRef) (operation : Operation)
  deriving DecidableEq, Repr

namespace Engine

/-- Discovers a linked router, whose reference is the answer. -/
def discovery (e : Engine) (r : RouterRef) (route : Route) : Engine :=
  e.push [.perform r do
    Procedure.discover e.topology.settings route
    return .router r]

/-! ## Attaching -/

/-- Starts a new topology, unless its settings are no valid ones. -/
def attachRoot (e : Engine) (settings : Settings) : Engine :=
  let e := { e with topology := { settings := settings } }
  match settings.validate with
  | .error failure => e.push [.answer (.error failure)]
  | .ok () => e.push [.register]

/-- Links the host router and discovers it. -/
def linkRoot (e : Engine) : Engine :=
  let (id, tree) := e.topology.tree.allocateId
  let (r, added) := e.addRouter id Route.root
  match tree.insertRoot id r with
  | .error failure =>
    { added with topology := { added.topology with tree := tree } }.push [.answer (.error failure)]
  | .ok linked =>
    { added with topology := { added.topology with tree := linked } }.discovery r Route.root

/-- Links a router below another one and discovers it. -/
def attachChild (e : Engine) (parent : RouterRef) (route : Route) : Engine :=
  match e.router? parent with
  | none => e.push [.answer (.error .notFound)]
  | some above =>
    let (id, tree) := e.topology.tree.allocateId
    let (r, added) := e.addRouter id route
    match tree.insert above.id id route r with
    | .error failure =>
      { added with topology := { added.topology with tree := tree } }.push
        [.answer (.error failure)]
    | .ok linked =>
      { added with topology := { added.topology with tree := linked } }.discovery r route

/-! ## Detaching -/

/-- Expires the command in the slot of each router that has been there for the whole timeout. -/
def expireEach (e : Engine) : List RouterRef → List (RouterRef × CommandRef) × Engine
  | [] => ([], e)
  | r :: rest =>
    match e.router? r with
    | none => e.expireEach rest
    | some router =>
      let (expired, line) :=
        router.queue.expire e.commands e.topology.settings.timeoutMs e.now
      let (others, done) := (e.setLine r line).expireEach rest
      (expired.toList.map (r, ·) ++ others, done)

/-- Marks routers as detached and removes them, in the given order. -/
def removeEach (e : Engine) : List (NodeId × RouterRef) → Outcome Unit × Engine
  | [] => (.ok (), e)
  | (id, r) :: rest =>
    let marked := e.updateRouter r fun router => { router with detached := true }
    match marked.topology.tree.remove id with
    | .error failure => (.error failure, marked)
    | .ok (_, tree) => { marked with topology := { marked.topology with tree := tree } }.removeEach rest

/-- Removes the routers of a subtree, children first, unless one of them has a command left. -/
def removeSubtree (e : Engine) (ids : List NodeId) (routers : List RouterRef) :
    Outcome Unit × Engine :=
  if routers.any fun r => (e.router? r).any (0 < ·.queue.outstanding) then
    (.error .busy, e)
  else
    e.removeEach (ids.zip routers)

/-- Removes a router and all below it. The commands that have held their slot for the whole timeout
are expired first, and ended afterwards; if the removal is refused, their routers and all that wait
for the transport are tried again. -/
def detach (e : Engine) (r : RouterRef) : Engine :=
  let ids := ((e.router? r).map fun router => e.topology.tree.subtree router.id).getD []
  if ids.isEmpty then
    e.push [.kick, .answer (.error .notFound)]
  else
    let routers := ids.filterMap e.topology.tree.get?
    let (expired, freed) := e.expireEach routers
    let (result, removed) := freed.removeSubtree ids routers
    let ended := expired.map fun (r, c) => Task.expire r c
    let again :=
      match result with
      | .ok () => []
      | .error _ => expired.map (fun (r, _) => Task.drain r) ++ [.kick]
    removed.push (ended ++ again ++
      [.hold (expired.map (·.1)) (expired.map (·.2)), .answer (result.map fun _ => .nothing)])

/-! ## Calls -/

/-- Marks a router as awake; a detached router is no router any more. -/
def resume (e : Engine) (r : RouterRef) : Engine :=
  match e.router? r with
  | none => e.push [.answer (.error .notFound)]
  | some router =>
    if router.detached then
      e.push [.answer (.error .notFound)]
    else
      (e.updateRouter r fun router => { router with suspended := false }).push
        [.answer (.ok .nothing)]

/-- Begins an operation on a router. -/
def operate (e : Engine) (r : RouterRef) (operation : Operation) : Engine :=
  match e.router? r with
  | none => e.push [.answer (.error .notFound)]
  | some router => e.push [.perform r (operation.program e.topology.settings router)]

/-- Begins a call. -/
def call (e : Engine) : Call → Engine
  | .attachRoot settings => e.attachRoot settings
  | .attachChild parent route => e.attachChild parent route
  | .detach r => e.detach r
  | .resume r => e.resume r
  | .operate r operation => e.operate r operation

end Engine

end RouterFabric
