import RouterFabric.Command
import RouterFabric.Packet.Notice

/-!
# A simulated far end

The routers on the other side of the transport, as far as their config spaces go: a memory of words
that are zero until written, and the set of routers that are there. Their answers echo a request,
and can be altered in every field, damaged and cut short.

* `FarEnd.read`, `FarEnd.write` : the memory
* `FarEnd.accept` : what an accepted write request does to it
* `FarEnd.answer?` : the answer to a request
-/

namespace RouterFabric

/-- Where a word is kept at the far end. -/
structure Place where
  route : Route
  space : Space
  adapter : Nat
  offset : Nat
  deriving DecidableEq, Repr

/-- The place some words further on. -/
def Place.plus (p : Place) (words : Nat) : Place :=
  { p with offset := p.offset + words }

/-- The routers at the far end and their memory. -/
structure FarEnd where
  /-- routers that are there besides the host router -/
  plugged : List Route := []
  words : List (Place × UInt32) := []
  deriving DecidableEq, Repr

/-- What is different in an answer from the one a request asks for. -/
structure Alteration where
  packetType : Option PacketType := none
  data : Option (List UInt32) := none
  dwords : Option Nat := none
  seq : Option Nat := none
  route : Option Route := none
  /-- a byte to be inverted -/
  flip : Option Nat := none
  /-- the number of bytes cut off the end -/
  cut : Nat := 0
  deriving DecidableEq, Repr

/-- Inverts one byte and cuts bytes off the end. -/
def damage (flip : Option Nat) (cut : Nat) (bytes : List UInt8) : List UInt8 :=
  let flipped :=
    match flip with
    | some index => bytes.modify index (· ^^^ 0xff)
    | none => bytes
  flipped.take (flipped.length - cut)

namespace FarEnd

/-- The word at a place. -/
def word (far : FarEnd) (p : Place) : UInt32 :=
  ((far.words.find? (·.1 == p)).map (·.2)).getD 0

/-- The words from a place on. -/
def read (far : FarEnd) (p : Place) (count : Nat) : List UInt32 :=
  (List.range count).map fun i => far.word (p.plus i)

/-- Stores words from a place on. -/
def write (far : FarEnd) (p : Place) : List UInt32 → FarEnd
  | [] => far
  | w :: ws =>
    { far with words := (p, w) :: far.words.filter (·.1 != p) }.write (p.plus 1) ws

/-- Whether a router is there; the host router always is. -/
def isPresent (far : FarEnd) (route : Route) : Bool :=
  route.isRoot || far.plugged.contains route

/-- The route and address of a request, and the words it carries. -/
def request? (frame : Frame) : Option (Route × Address × List UInt32) :=
  match frame.packetType with
  | .read =>
    match ReadRequest.decode frame.bytes with
    | .ok packet => some (packet.route, packet.address, [])
    | .error _ => none
  | .write =>
    match WriteRequest.decode frame.bytes with
    | .ok packet => some (packet.route, packet.address, packet.data)
    | .error _ => none
  | _ => none

/-- The place a request is about. -/
def placeOf (route : Route) (address : Address) : Place :=
  ⟨route, address.space, address.adapter, address.offset⟩

/-- Whether the router a frame is for is there; nothing if the frame is no request. -/
def reaches? (far : FarEnd) (frame : Frame) : Option Bool :=
  (request? frame).map fun (route, _, _) => far.isPresent route

/-- Stores the words of a write request to a router that is there. -/
def accept (far : FarEnd) (frame : Frame) : FarEnd :=
  match request? frame with
  | some (route, address, data) =>
    if far.isPresent route then far.write (placeOf route address) data else far
  | none => far

/-- The answer to a request and the type it travels under. Its data are the words that were asked
for, as they are now, whatever else is different in the answer. -/
def answer? (far : FarEnd) (frame : Frame) (a : Alteration) :
    Option (PacketType × List UInt8) :=
  match request? frame with
  | none => none
  | some (route, address, _) =>
    let echoed := { address with
      dwords := a.dwords.getD address.dwords
      seq := a.seq.getD address.seq }
    let target := a.route.getD route
    let packetType := a.packetType.getD frame.packetType
    let bytes :=
      match packetType with
      | .write => WriteResponse.encode ⟨target, echoed⟩
      | _ =>
        ReadResponse.encode ⟨target, echoed,
          a.data.getD (far.read (placeOf route address) address.dwords)⟩
    some (packetType, damage a.flip a.cut bytes)

end FarEnd

end RouterFabric
