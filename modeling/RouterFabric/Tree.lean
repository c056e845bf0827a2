import RouterFabric.Failure

/-!
# The router tree

The routers of a topology form a tree below the host router. Every router is known by a node id,
and a router whose number of adapters is known has a table with one slot per adapter; the slot of
an adapter holds the id of the router behind it. Slot zero belongs to the upward adapter and
never holds a router.

* `RouterTree.putRoot`, `put`, `equip`, `take` : changes, with the tree after each answer
* `RouterTree.insertRoot`, `insert`, `setAdapterCount`, `remove` : the changed tree, unless refused
* `RouterTree.lookup` : the router a route leads to
* `RouterTree.subtree` : a router and all below it, children before their parents
-/

namespace RouterFabric

/-- The id of a router in a topology. -/
structure NodeId where
  number : Nat
  deriving DecidableEq, Repr

/-- The name of a node in answers. -/
def NodeId.text (id : NodeId) : String :=
  s!"router#{id.number}"

/-- What the tree holds for one router. -/
structure TreeNode (α : Type) where
  value : α
  route : Route
  parent : Option NodeId
  /-- one slot per adapter number, once that number is known -/
  adapters : Option (List (Option NodeId))
  deriving DecidableEq, Repr

/-- Routers by id, linked through their adapter tables. -/
structure RouterTree (α : Type) where
  nodes : List (NodeId × TreeNode α) := []
  root : Option NodeId := none
  nextId : Nat := 0
  deriving DecidableEq, Repr

namespace RouterTree

variable {α : Type}

/-! ## Records -/

/-- The record of a router. -/
def node? (t : RouterTree α) (id : NodeId) : Option (TreeNode α) :=
  (t.nodes.find? (·.1 == id)).map (·.2)

/-- The tree with the record of `id` set, whether or not there was one. -/
def setNode (t : RouterTree α) (id : NodeId) (node : TreeNode α) : RouterTree α :=
  { t with nodes := (id, node) :: t.nodes.filter (·.1 != id) }

/-- The tree without the record of `id`. -/
def dropNode (t : RouterTree α) (id : NodeId) : RouterTree α :=
  { t with nodes := t.nodes.filter (·.1 != id) }

/-- The number of routers. -/
def size (t : RouterTree α) : Nat :=
  t.nodes.length

/-- Whether there is a record of `id`. -/
def contains (t : RouterTree α) (id : NodeId) : Bool :=
  (t.node? id).isSome

/-- The value stored with a router. -/
def get? (t : RouterTree α) (id : NodeId) : Option α :=
  (t.node? id).map (·.value)

/-- The route of a router. -/
def route? (t : RouterTree α) (id : NodeId) : Option Route :=
  (t.node? id).map (·.route)

/-- The router above; the host router has none. -/
def parent? (t : RouterTree α) (id : NodeId) : Option NodeId :=
  (t.node? id).bind (·.parent)

/-- The adapter table of a router, if it has one. -/
def adapters? (t : RouterTree α) (id : NodeId) : Option (List (Option NodeId)) :=
  (t.node? id).bind (·.adapters)

/-- The router behind an adapter. -/
def child? (t : RouterTree α) (id : NodeId) (adapter : Nat) : Option NodeId :=
  ((t.adapters? id).bind (·[adapter]?)).join

/-- The adapters of a router that lead to another one, with that one, in adapter order. -/
def children (t : RouterTree α) (id : NodeId) : List (Nat × NodeId) :=
  ((t.adapters? id).getD []).zipIdx.filterMap fun (slot, adapter) => slot.map (adapter, ·)

/-! ## Changes -/

/-- A fresh id. Ids are never given twice. -/
def allocateId (t : RouterTree α) : NodeId × RouterTree α :=
  (⟨t.nextId⟩, { t with nextId := t.nextId + 1 })

/-- Installs the host router; there is at most one. The answer, and the tree after the call. -/
def putRoot (t : RouterTree α) (id : NodeId) (value : α) : Outcome Unit × RouterTree α :=
  match t.root with
  | some _ => (.error .alreadyExists, t)
  | none => (.ok (), { t.setNode id ⟨value, Route.root, none, none⟩ with root := some id })

/-- Links a router below `parent`, at the adapter that the last hop of its route names. The slot
must be free. -/
def put (t : RouterTree α) (parent id : NodeId) (route : Route) (value : α) :
    Outcome Unit × RouterTree α :=
  match route.validate with
  | .error fault => (.error (.invalidRoute fault), t)
  | .ok () =>
    match t.node? parent with
    | none => (.error .notFound, t)
    | some above =>
      if route.depth ≠ above.route.depth + 1 ∨ route.parent? ≠ some above.route then
        (.error (.invalidRoute (.notBelow route above.route)), t)
      else
        match above.adapters with
        | none => (.error .notFound, t)
        | some table =>
          let hop := (route.lastHop?.getD 0).toNat
          match if hop = 0 then none else table[hop]? with
          | none => (.error (.invalidRoute (.adapterOutOfRange hop above.route)), t)
          | some (some _) => (.error .alreadyExists, t)
          | some none =>
            let linked :=
              t.setNode parent { above with adapters := some (table.set hop (some id)) }
            (.ok (), linked.setNode id ⟨value, route, some parent, none⟩)

/-- Gives a router its adapter table, for adapters up to `maxAdapter`. -/
def equip (t : RouterTree α) (id : NodeId) (maxAdapter : Nat) : Outcome Unit × RouterTree α :=
  match t.node? id with
  | none => (.error .notFound, t)
  | some node =>
    match node.adapters with
    | some _ => (.error .alreadyExists, t)
    | none =>
      (.ok (), t.setNode id { node with adapters := some (List.replicate (maxAdapter + 1) none) })

/-- The tree with the slot of `parent` at `hop` cleared, if it holds `id`. -/
def unlinkSlot (t : RouterTree α) (parent : NodeId) (hop : Nat) (id : NodeId) : RouterTree α :=
  match t.node? parent with
  | none => t
  | some above =>
    match above.adapters with
    | none => t
    | some table =>
      if table[hop]? = some (some id) then
        t.setNode parent { above with adapters := some (table.set hop none) }
      else
        t

/-- Takes a router out below which there is none. -/
def take (t : RouterTree α) (id : NodeId) : Outcome α × RouterTree α :=
  match t.node? id with
  | none => (.error .notFound, t)
  | some node =>
    if (node.adapters.getD []).any Option.isSome then
      (.error .busy, t)
    else
      let unlinked :=
        match node.parent, node.route.lastHop? with
        | some parent, some hop => t.unlinkSlot parent hop.toNat id
        | _, _ => t
      let rootless := if unlinked.root = some id then { unlinked with root := none } else unlinked
      (.ok node.value, rootless.dropNode id)

/-! ### Changes that are not refused -/

/-- The tree with the host router installed. -/
def insertRoot (t : RouterTree α) (id : NodeId) (value : α) : Outcome (RouterTree α) :=
  (t.putRoot id value).1.map fun _ => (t.putRoot id value).2

/-- The tree with a router linked below `parent`. -/
def insert (t : RouterTree α) (parent id : NodeId) (route : Route) (value : α) :
    Outcome (RouterTree α) :=
  (t.put parent id route value).1.map fun _ => (t.put parent id route value).2

/-- The tree with an adapter table for a router. -/
def setAdapterCount (t : RouterTree α) (id : NodeId) (maxAdapter : Nat) : Outcome (RouterTree α) :=
  (t.equip id maxAdapter).1.map fun _ => (t.equip id maxAdapter).2

/-- What is stored with a router, and the tree without it. -/
def remove (t : RouterTree α) (id : NodeId) : Outcome (α × RouterTree α) :=
  (t.take id).1.map fun value => (value, (t.take id).2)

/-! ## Walks -/

/-- Follows the hops of `route` from `current` on, as far as the router it was inserted with. -/
def descend (t : RouterTree α) (route : Route) (current : NodeId) : List UInt8 → Outcome NodeId
  | [] => .error .notFound
  | hop :: rest =>
    if hop = 0 then
      .error .notFound
    else
      match t.node? current with
      | none => .error .notFound
      | some node =>
        match node.adapters with
        | none => .error .notFound
        | some table =>
          match table[hop.toNat]? with
          | none => .error (.invalidRoute (.beyondTable hop.toNat (table.length - 1) node.route))
          | some none => .error .notFound
          | some (some next) =>
            match t.node? next with
            | none => .error .notFound
            | some reached =>
              if reached.route = route then .ok next else t.descend route next rest

/-- The router a route leads to, one hop at a time from the host router. -/
def lookup (t : RouterTree α) (route : Route) : Outcome NodeId :=
  match t.root with
  | none => .error .notFound
  | some root => if route.isRoot then .ok root else t.descend route root route.hops

/-- A router and all below it, down to `fuel` levels, children before their parents. -/
def postOrder (t : RouterTree α) : Nat → NodeId → List NodeId
  | 0, _ => []
  | fuel + 1, id => (t.children id).flatMap (fun (_, child) => t.postOrder fuel child) ++ [id]

/-- A router and all below it, children before their parents. No path is longer than the number of
routers, one step to an absent one included. -/
def subtree (t : RouterTree α) (id : NodeId) : List NodeId :=
  if t.contains id then t.postOrder (t.size + 1) id else []

end RouterTree

end RouterFabric
