import RouterFabric.Event
import RouterFabric.Limits
import RouterFabric.Route

/-!
# Failures

Every way an operation on the fabric can fail, as a cause. The wording of a failure is a function
of its cause, `Failure.message`.

* `TransportFault` : the ways the frame transport refuses
* `ProtocolFault` : what a packet or a register read says that it must not say
* `ArgumentFault` : what a caller asks for that no request can carry
* `Failure` : all of them, and the failures of the engine itself
-/

namespace RouterFabric

/-- Why the transport refuses a frame or a request for one. -/
inductive TransportFault
  /-- no capacity at the moment; the same submission may succeed later -/
  | busy
  | closed
  | failed (reason : String)
  deriving DecidableEq, Repr

/-- The wording of a transport fault. -/
def TransportFault.message : TransportFault → String
  | .busy => "transport busy"
  | .closed => "transport closed"
  | .failed reason => s!"transport failure: {reason}"

/-- The packets that are read from bytes. -/
inductive PacketForm
  | readRequest
  | writeRequest
  | readResponse
  | writeResponse
  | notification
  | hotplugEvent
  deriving DecidableEq, Repr

/-- The name of a packet in a message. -/
def PacketForm.text : PacketForm → String
  | .readRequest => "read request"
  | .writeRequest => "write request"
  | .readResponse => "read response"
  | .writeResponse => "write response"
  | .notification => "notification"
  | .hotplugEvent => "hot-plug event"

/-- What the far end sent that breaks the rules of the fabric. -/
inductive ProtocolFault
  | raggedLength (length : Nat)
  | checksumMismatch (carried computed : UInt32)
  | shortPacket (form : PacketForm) (words : Nat)
  | writeLength (declared carried : Nat)
  | emptyHeaderRead (offset : Nat)
  | chainTooLong
  | shortAdapterHeader (adapter : Nat)
  | uuidLength (expected got : Nat)
  | basicLength (expected got : Nat)
  | depthMismatch (route : Route) (reported : Nat)
  | emptySleepRead
  /-- a fault described in words -/
  | stated (detail : String)
  deriving DecidableEq, Repr

/-- The wording of a protocol fault. -/
def ProtocolFault.message : ProtocolFault → String
  | .raggedLength length => s!"packet length {length} is not a whole number of words"
  | .checksumMismatch carried computed =>
    s!"checksum mismatch: packet carries {Hex.wide 8 carried.toNat}, computed {Hex.wide 8 computed.toNat}"
  | .shortPacket form words => s!"{form.text} needs at least 3 words, got {words}"
  | .writeLength declared carried => s!"write request declares {declared} dwords but carries {carried}"
  | .emptyHeaderRead offset => s!"empty read of capability header at {Hex.short offset}"
  | .chainTooLong => s!"capability chain longer than {Limit.maxHeaders} headers"
  | .shortAdapterHeader adapter => s!"short read of adapter {adapter} header"
  | .uuidLength expected got => s!"link controller uuid: expected {expected} dwords, got {got}"
  | .basicLength expected got => s!"router basic registers: expected {expected} dwords, got {got}"
  | .depthMismatch route reported =>
    s!"router at {route.text} reports depth {reported}, route has depth {route.depth}"
  | .emptySleepRead => "empty ROUTER_CS_5 read"
  | .stated detail => detail

/-- What a caller asks for that no request can carry. -/
inductive ArgumentFault
  | adapterTooHigh (adapter : Nat)
  | offsetTooHigh (offset : Nat)
  | lengthOutside (dwords : Nat)
  | runsPastEnd (dwords offset : Nat)
  | writeTooLong (dwords : Nat)
  | writeCount (dwords carried : Nat)
  | adapterOutside (adapter max : Nat)
  | zeroTimeout
  | zeroPollInterval
  | adapterLimit
  /-- a fault described in words -/
  | stated (detail : String)
  deriving DecidableEq, Repr

/-- The wording of an argument fault. -/
def ArgumentFault.message : ArgumentFault → String
  | .adapterTooHigh adapter => s!"adapter {adapter} exceeds {Limit.maxAdapter}"
  | .offsetTooHigh offset => s!"offset {Hex.short offset} exceeds {Hex.short Limit.maxOffset}"
  | .lengthOutside dwords => s!"length of {dwords} dwords outside 1..={Limit.maxDwords}"
  | .runsPastEnd dwords offset => s!"{dwords} dwords at {Hex.short offset} run past the end of the space"
  | .writeTooLong dwords => s!"write of {dwords} dwords exceeds {Limit.maxDwords}"
  | .writeCount dwords carried => s!"write of {dwords} dwords carries {carried} data words"
  | .adapterOutside adapter max => s!"adapter {adapter} outside 1..={max}"
  | .zeroTimeout => "timeout_ms must be non-zero"
  | .zeroPollInterval => "poll_interval_ms must be non-zero"
  | .adapterLimit => s!"max_adapters must be within 1..={Limit.maxAdapters}"
  | .stated detail => detail

/-- Every way an operation can fail. -/
inductive Failure
  | notFound
  | invalidRoute (fault : Route.Fault)
  | alreadyExists
  /-- commands are outstanding where none may be -/
  | busy
  | timeout
  /-- a notification interrupted the command -/
  | asyncEvent (event : Event)
  /-- the transport has no frame to give -/
  | resourceExhausted
  | protocol (fault : ProtocolFault)
  | invalidArgument (fault : ArgumentFault)
  | suspended
  | transport (fault : TransportFault)
  /-- a text that is no settings document -/
  | malformedSettings
  deriving DecidableEq, Repr

/-- The wording of a failure. -/
def Failure.message : Failure → String
  | .notFound => "router not found"
  | .invalidRoute fault => s!"invalid route: {fault.message}"
  | .alreadyExists => "router already exists"
  | .busy => "router has outstanding commands"
  | .timeout => "command timed out"
  | .asyncEvent event => s!"invalid operation: asynchronous {event.text} event"
  | .resourceExhausted => "resources exhausted"
  | .protocol fault => s!"protocol error: {fault.message}"
  | .invalidArgument fault => s!"invalid argument: {fault.message}"
  | .suspended => "router is suspended"
  | .transport fault => fault.message
  | .malformedSettings => "malformed settings"

/-- The failure of a command for which the transport gave no frame. -/
def Failure.ofAllocation : TransportFault → Failure
  | .busy => .resourceExhausted
  | fault => .transport fault

/-- Outcomes can be compared where values and failures can. -/
instance exceptDecidableEq {ε α : Type} [DecidableEq ε] [DecidableEq α] :
    DecidableEq (Except ε α)
  | .ok a, .ok b => if h : a = b then isTrue (h ▸ rfl) else isFalse fun e => h (Except.ok.inj e)
  | .error a, .error b =>
    if h : a = b then isTrue (h ▸ rfl) else isFalse fun e => h (Except.error.inj e)
  | .ok _, .error _ => isFalse nofun
  | .error _, .ok _ => isFalse nofun

/-- The outcome of an operation. -/
abbrev Outcome (α : Type) := Except Failure α

/-- What is received for a request: words of config space, or a failure. -/
abbrev Reply := Outcome (List UInt32)

end RouterFabric
