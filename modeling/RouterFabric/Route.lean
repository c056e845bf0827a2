import RouterFabric.Hex

/-!
# Routes

A route is the path from the host router to a router of the fabric: the adapter taken at the host
router is the lowest byte, the adapter taken at the router below it the next byte, and so on. A
zero byte ends the path, and the host router itself has route zero. On the wire a route is two
words, and the top bit of the upper one marks packets that travel towards the host; it is not part
of the route.

* `Route.hop`, `Route.depth`, `Route.hops` : the adapters along the path
* `Route.ofHops`, `Route.child`, `Route.parent?` : building routes hop by hop
* `Route.validate` : at most six hops, none of them zero
-/

namespace RouterFabric

/-- A path through the fabric, one adapter number per byte, the first hop lowest. -/
structure Route where
  raw : UInt64
  deriving DecidableEq, Repr

namespace Route

/-- Routers sit at most six hops below the host router. -/
def maxDepth : Nat := 6

/-- The top bit of the upper wire word, set in packets that travel towards the host. -/
def marker : UInt32 := 0x80000000

/-- The route of the host router. -/
def root : Route := ⟨0⟩

/-- The route in two wire words; the marker bit is dropped. -/
def ofWords (hi lo : UInt32) : Route :=
  ⟨UInt64.ofNat ((hi.toNat % 0x80000000) <<< 32 + lo.toNat)⟩

/-- The upper wire word. -/
def hi (r : Route) : UInt32 :=
  UInt32.ofNat (r.raw.toNat >>> 32)

/-- The lower wire word. -/
def lo (r : Route) : UInt32 :=
  UInt32.ofNat r.raw.toNat

/-- The upper wire word of a packet that travels towards the host. -/
def markedHi (r : Route) : UInt32 :=
  UInt32.ofNat ((r.raw.toNat >>> 32) % 0x80000000 + 0x80000000)

/-- The adapter taken at `level`, counted from the host router; zero past the end. -/
def hop (r : Route) (level : Nat) : UInt8 :=
  UInt8.ofNat (r.raw.toNat >>> (8 * level))

/-- The number of bytes up to the last one that is not zero. -/
def depth (r : Route) : Nat :=
  if r.raw = 0 then 0 else r.raw.toNat.log2 / 8 + 1

/-- The adapters along the path, the one at the host router first. -/
def hops (r : Route) : List UInt8 :=
  (List.range r.depth).map r.hop

/-- Whether this is the route of the host router. -/
def isRoot (r : Route) : Bool :=
  r.raw = 0

/-- The adapter of the router above that leads here; the host router has none. -/
def lastHop? (r : Route) : Option UInt8 :=
  if r.depth = 0 then none else some (r.hop (r.depth - 1))

/-- The route without its last hop; the host router has no parent. -/
def parent? (r : Route) : Option Route :=
  if r.depth = 0 then none else some ⟨UInt64.ofNat (r.raw.toNat % (1 <<< (8 * (r.depth - 1))))⟩

/-- A route is shown as sixteen hexadecimal digits. -/
def text (r : Route) : String :=
  Hex.wide 16 r.raw.toNat

/-! ## Faults -/

/-- Why a route, or a step along one, is refused. -/
inductive Fault
  /-- more hops than a route holds -/
  | tooManyHops (count : Nat)
  /-- a zero in a list of hops, at this level -/
  | zeroHop (level : Nat)
  /-- adapter zero leads up, so no route continues through it -/
  | upwardAdapter
  /-- no hop can be added below the deepest routers -/
  | noRoomBelow (route : Route)
  | tooDeep (route : Route)
  | zeroHopInRoute (route : Route) (level : Nat)
  | notBelow (route parent : Route)
  | adapterOutOfRange (adapter : Nat) (parent : Route)
  | beyondTable (adapter last : Nat) (route : Route)
  /-- a fault described in words -/
  | stated (detail : String)
  deriving DecidableEq, Repr

/-- The wording of a fault. -/
def Fault.message : Fault → String
  | .tooManyHops count => s!"{count} hops exceed maximum depth {maxDepth}"
  | .zeroHop level => s!"adapter 0 used as hop {level + 1}"
  | .upwardAdapter => "adapter 0 is the upstream interface"
  | .noRoomBelow route => s!"route {route.text} is already at maximum depth"
  | .tooDeep route => s!"route {route.text} exceeds maximum depth {maxDepth}"
  | .zeroHopInRoute route level => s!"route {route.text} has adapter 0 at hop {level + 1}"
  | .notBelow route parent => s!"route {route.text} is not one hop below {parent.text}"
  | .adapterOutOfRange adapter parent => s!"adapter {adapter} out of range for {parent.text}"
  | .beyondTable adapter last route =>
    s!"adapter {adapter} exceeds the {last} adapters of {route.text}"
  | .stated detail => detail

/-! ## Building and checking -/

/-- The route with the given bytes, lowest first. -/
def ofBytes (hops : List UInt8) : Route :=
  ⟨UInt64.ofNat (hops.foldr (fun hop above => hop.toNat + 256 * above) 0)⟩

/-- The route that takes the given adapters in turn. -/
def ofHops (hops : List UInt8) : Except Fault Route :=
  if maxDepth < hops.length then
    .error (.tooManyHops hops.length)
  else
    match hops.findIdx? (· == 0) with
    | some level => .error (.zeroHop level)
    | none => .ok (ofBytes hops)

/-- The route one hop further, through `adapter`. -/
def child (r : Route) (adapter : UInt8) : Except Fault Route :=
  if adapter = 0 then
    .error .upwardAdapter
  else if maxDepth ≤ r.depth then
    .error (.noRoomBelow r)
  else
    .ok ⟨UInt64.ofNat (r.raw.toNat + adapter.toNat <<< (8 * r.depth))⟩

/-- Accepts the routes of at most six hops that take adapter zero nowhere. -/
def validate (r : Route) : Except Fault Unit :=
  if maxDepth < r.depth then
    .error (.tooDeep r)
  else
    match r.hops.findIdx? (· == 0) with
    | some level => .error (.zeroHopInRoute r level)
    | none => .ok ()

end Route

end RouterFabric
