import RouterFabric.Address
import RouterFabric.Packet.Wire

/-!
# Requests and responses

A transfer begins with the two route words and the address word; write requests and read responses
carry data words after them. Responses travel towards the host and carry the route marker.

* `ReadRequest`, `WriteRequest` : what the engine sends
* `ReadResponse`, `WriteResponse` : what routers answer
-/

namespace RouterFabric

/-- The three words a packet begins with, and the words that follow them. -/
def Packet.header (form : PacketForm) (words : List UInt32) :
    Outcome (Route × UInt32 × List UInt32) :=
  match words with
  | hi :: lo :: third :: rest => .ok (Route.ofWords hi lo, third, rest)
  | _ => .error (.protocol (.shortPacket form words.length))

/-! ## Requests -/

/-- A request to read config space. -/
structure ReadRequest where
  route : Route
  address : Address
  deriving DecidableEq, Repr

namespace ReadRequest

def encode (packet : ReadRequest) : List UInt8 :=
  Packet.toWire [packet.route.hi, packet.route.lo, packet.address.word]

def decode (bytes : List UInt8) : Outcome ReadRequest := do
  let (route, word, _) ← Packet.header .readRequest (← Packet.ofWire bytes)
  return ⟨route, Address.ofWord word⟩

end ReadRequest

/-- A request to write config space. -/
structure WriteRequest where
  route : Route
  address : Address
  data : List UInt32
  deriving DecidableEq, Repr

namespace WriteRequest

def encode (packet : WriteRequest) : List UInt8 :=
  Packet.toWire (packet.route.hi :: packet.route.lo :: packet.address.word :: packet.data)

/-- Refuses a request that carries another number of words than its address declares. -/
def decode (bytes : List UInt8) : Outcome WriteRequest := do
  let (route, word, data) ← Packet.header .writeRequest (← Packet.ofWire bytes)
  let address := Address.ofWord word
  if data.length = address.dwords then
    return ⟨route, address, data⟩
  else
    throw (.protocol (.writeLength address.dwords data.length))

end WriteRequest

/-! ## Responses -/

/-- The words read from config space. -/
structure ReadResponse where
  route : Route
  address : Address
  data : List UInt32
  deriving DecidableEq, Repr

namespace ReadResponse

def encode (packet : ReadResponse) : List UInt8 :=
  Packet.toWire (packet.route.markedHi :: packet.route.lo :: packet.address.word :: packet.data)

/-- Keeps at most as many words as the address declares and as one packet holds. -/
def decode (bytes : List UInt8) : Outcome ReadResponse := do
  let (route, word, data) ← Packet.header .readResponse (← Packet.ofWire bytes)
  let address := Address.ofWord word
  return ⟨route, address, data.take (min address.dwords Limit.maxDwords)⟩

end ReadResponse

/-- The acknowledgment of a write. -/
structure WriteResponse where
  route : Route
  address : Address
  deriving DecidableEq, Repr

namespace WriteResponse

def encode (packet : WriteResponse) : List UInt8 :=
  Packet.toWire [packet.route.markedHi, packet.route.lo, packet.address.word]

def decode (bytes : List UInt8) : Outcome WriteResponse := do
  let (route, word, _) ← Packet.header .writeResponse (← Packet.ofWire bytes)
  return ⟨route, Address.ofWord word⟩

end WriteResponse

end RouterFabric
