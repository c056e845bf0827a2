/-!
# Notification events

A notification carries an event code of eight bits. The codes below are the recognized ones; a
notification with any other code interrupts nothing.

* `Event.code`, `Event.ofCode?` : the two directions, inverse to each other
-/

namespace RouterFabric

/-- A recognized event of a router. -/
inductive Event
  | connectionError
  | linkError
  | addressError
  | adapterError
  | hotplugAck
  | enumerationError
  | notUsedAdapter
  | lengthError
  | headerError
  | flowControlError
  | plugError
  | lockError
  | bandwidthChange
  deriving DecidableEq, Repr

namespace Event

/-- Every recognized event, by rising code. -/
def all : List Event :=
  [.connectionError, .linkError, .addressError, .adapterError, .hotplugAck, .enumerationError,
    .notUsedAdapter, .lengthError, .headerError, .flowControlError, .plugError, .lockError,
    .bandwidthChange]

/-- The code that stands for the event on the wire. -/
def code : Event → UInt8
  | .connectionError => 0
  | .linkError => 1
  | .addressError => 2
  | .adapterError => 4
  | .hotplugAck => 7
  | .enumerationError => 8
  | .notUsedAdapter => 9
  | .lengthError => 0xb
  | .headerError => 0xc
  | .flowControlError => 0xd
  | .plugError => 0xe
  | .lockError => 0xf
  | .bandwidthChange => 0x20

/-- The event a code stands for. -/
def ofCode? (code : UInt8) : Option Event :=
  all.find? (·.code == code)

/-- The event in words. -/
def text : Event → String
  | .connectionError => "connection error"
  | .linkError => "link error"
  | .addressError => "address error"
  | .adapterError => "adapter error"
  | .hotplugAck => "hot-plug acknowledgment"
  | .enumerationError => "enumeration error"
  | .notUsedAdapter => "adapter not in use"
  | .lengthError => "length error"
  | .headerError => "header error"
  | .flowControlError => "flow control error"
  | .plugError => "plug error"
  | .lockError => "lock error"
  | .bandwidthChange => "bandwidth change"

theorem ofCode?_code (event : Event) : ofCode? event.code = some event := by
  cases event <;> decide

theorem code_of_ofCode? {code : UInt8} {event : Event} (h : ofCode? code = some event) :
    event.code = code := by
  simpa using List.find?_some h

end Event

end RouterFabric
