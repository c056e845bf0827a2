import RouterFabric.Failure

/-!
# Settings

The six numbers that govern an engine. Durations are whole milliseconds.

* `Settings.validate` : the settings an engine can work with
* `Settings.attempts` : how often a waiting caller tries a command
* `Settings.Field` : the settings by name, for reading and writing documents
-/

namespace RouterFabric

/-- What governs an engine. -/
structure Settings where
  /-- resubmissions after an attempt that timed out -/
  retries : Nat := 3
  /-- how long an attempt may wait for its answer -/
  timeoutMs : Nat := 2000
  /-- the sleep between two looks of a polling caller -/
  pollIntervalMs : Nat := 100
  /-- the wait before a look at the sleep status -/
  sleepReadyWaitMs : Nat := 50
  /-- looks at the sleep status after the first -/
  sleepReadyAttempts : Nat := 10
  /-- the highest adapter number taken from a router -/
  maxAdapters : Nat := Limit.maxAdapters
  deriving DecidableEq, Repr

namespace Settings

/-- Refuses settings under which nothing could be answered. The first fault is reported. -/
def validate (s : Settings) : Outcome Unit :=
  if s.timeoutMs = 0 then
    .error (.invalidArgument .zeroTimeout)
  else if s.pollIntervalMs = 0 then
    .error (.invalidArgument .zeroPollInterval)
  else if s.maxAdapters = 0 ∨ Limit.maxAdapters < s.maxAdapters then
    .error (.invalidArgument .adapterLimit)
  else
    .ok ()

/-- The number of attempts of a waiting caller; it is a 32-bit number and stops at the largest. -/
def attempts (s : Settings) : Nat :=
  min (s.retries + 1) 0xffffffff

/-- The largest number of milliseconds, in place of a longer duration. -/
def longestMs : Nat := 0xffffffffffffffff

/-- The whole milliseconds in a duration. -/
def wholeMs (microseconds : Nat) : Nat :=
  min (microseconds / 1000) longestMs

/-! ## Fields -/

/-- The settings one by one. -/
inductive Field
  | retries
  | timeoutMs
  | pollIntervalMs
  | sleepReadyWaitMs
  | sleepReadyAttempts
  | maxAdapters
  deriving DecidableEq, Repr

namespace Field

/-- All fields, in the order in which a list of bare values names them. -/
def all : List Field :=
  [.retries, .timeoutMs, .pollIntervalMs, .sleepReadyWaitMs, .sleepReadyAttempts, .maxAdapters]

/-- The name of a field in a document. -/
def name : Field → String
  | .retries => "retries"
  | .timeoutMs => "timeout_ms"
  | .pollIntervalMs => "poll_interval_ms"
  | .sleepReadyWaitMs => "sleep_ready_wait_ms"
  | .sleepReadyAttempts => "sleep_ready_attempts"
  | .maxAdapters => "max_adapters"

/-- The field of a given name. -/
def ofName? (name : String) : Option Field :=
  all.find? (·.name == name)

/-- The width of a field in bits; larger values are no values of it. -/
def width : Field → Nat
  | .retries => 32
  | .timeoutMs => 64
  | .pollIntervalMs => 64
  | .sleepReadyWaitMs => 64
  | .sleepReadyAttempts => 32
  | .maxAdapters => 8

end Field

/-- The value of one field. -/
def get (s : Settings) : Field → Nat
  | .retries => s.retries
  | .timeoutMs => s.timeoutMs
  | .pollIntervalMs => s.pollIntervalMs
  | .sleepReadyWaitMs => s.sleepReadyWaitMs
  | .sleepReadyAttempts => s.sleepReadyAttempts
  | .maxAdapters => s.maxAdapters

/-- The settings with one field replaced. -/
def set (s : Settings) (field : Field) (value : Nat) : Settings :=
  match field with
  | .retries => { s with retries := value }
  | .timeoutMs => { s with timeoutMs := value }
  | .pollIntervalMs => { s with pollIntervalMs := value }
  | .sleepReadyWaitMs => { s with sleepReadyWaitMs := value }
  | .sleepReadyAttempts => { s with sleepReadyAttempts := value }
  | .maxAdapters => { s with maxAdapters := value }

theorem get_set (s : Settings) (field other : Field) (value : Nat) :
    (s.set field value).get other = if other = field then value else s.get other := by
  cases field <;> cases other <;> rfl

end Settings

end RouterFabric
