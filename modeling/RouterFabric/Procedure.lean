import RouterFabric.Capability
import RouterFabric.Command
import RouterFabric.Identity
import RouterFabric.Settings

/-!
# Procedures on a router

What a caller can have done to one router, as programs. The requests of these programs are single
transfers and the few changes to the state of the router that compound procedures need.

* `Transfer` : one read or write of config space, and its address
* `Procedure.suspend` : putting a router to sleep
* `Procedure.discover` : finding out what a newly linked router is
* `Procedure.routerCapability`, `adapterCapability`, `linkControllerUuid` : searches
-/

namespace RouterFabric

/-! ## Transfers -/

/-- One read or write of config space. -/
inductive Transfer
  | read (space : Space) (adapter offset dwords : Nat)
  | write (space : Space) (adapter offset : Nat) (data : List UInt32)
  deriving DecidableEq, Repr

namespace Transfer

def kind : Transfer → CommandKind
  | .read .. => .read
  | .write .. => .write

/-- The words a request for the transfer carries. -/
def payload : Transfer → List UInt32
  | .read .. => []
  | .write _ _ _ data => data

/-- The address of a transfer; a write is as long as its data. -/
def address : Transfer → Outcome Address
  | .read space adapter offset dwords => Address.make space adapter offset dwords
  | .write space adapter offset data =>
    if Limit.maxDwords < data.length then
      .error (.invalidArgument (.writeTooLong data.length))
    else
      Address.make space adapter offset data.length

end Transfer

/-- How a waiting caller notices that its command has ended. -/
inductive Watching
  /-- it is woken -/
  | woken
  /-- it looks at the command from time to time -/
  | polling
  deriving DecidableEq, Repr

/-- How a transfer is issued. -/
inductive Style
  /-- the caller waits, and tries again after a timeout -/
  | waiting (watching : Watching)
  /-- the caller goes on, and a callback runs when the command ends -/
  | callback (tag : Nat)
  /-- the caller awaits a future, for one attempt -/
  | future
  deriving DecidableEq, Repr

/-- What the program of a procedure asks for. -/
inductive Request
  | transfer (transfer : Transfer) (style : Style)
  | pause (ms : Nat)
  /-- mark the router as asleep -/
  | fallAsleep
  /-- give the router its adapter table and its identity -/
  | enrol (identity : Identity)
  /-- take the router out of the tree again -/
  | unlink
  deriving DecidableEq, Repr

namespace Procedure

/-- A transfer whose caller waits. -/
def transfer (t : Transfer) : Program Request (List UInt32) :=
  .request (.transfer t (.waiting .woken))

/-- A read of the router space of a router. -/
def readRouter (offset dwords : Nat) : Program Request (List UInt32) :=
  transfer (.read .router 0 offset dwords)

/-! ## Searches -/

/-- The words of a config space, one at a time. -/
def readSpace (space : Space) (adapter : Nat) (offset : Nat) : Request :=
  .transfer (.read space adapter offset 1) (.waiting .woken)

/-- The offset of a capability of a router. -/
def routerCapability (target : Capability.Target) : Program Request Nat := do
  let words ← readRouter Register.routerCs1 1
  let cs1 ← Program.ofOutcome (Capability.firstWord Register.routerCs1 words)
  let start := BasicRegisters.nextCapField.get cs1.toNat
  let header ← (Capability.find start target).mapRequests (readSpace .router 0)
  return header.offset

/-- Refuses adapters that a router, as far as it is known, does not have. -/
def checkAdapter (identity : Option Identity) (adapter : Nat) : Outcome Unit :=
  match identity with
  | none => .ok ()
  | some identity =>
    if adapter = 0 ∨ identity.maxAdapter < adapter then
      .error (.invalidArgument (.adapterOutside adapter identity.maxAdapter))
    else
      .ok ()

/-- The second word of the registers of an adapter. -/
def adapterWord (adapter : Nat) : List UInt32 → Outcome UInt32
  | _ :: word :: _ => .ok word
  | _ => .error (.protocol (.shortAdapterHeader adapter))

/-- The offset of a capability of an adapter. -/
def adapterCapability (identity : Option Identity) (adapter id : Nat) : Program Request Nat := do
  Program.ofOutcome (checkAdapter identity adapter)
  let words ← transfer (.read .adapter adapter 0 Register.adapterBasicDwords)
  let cs1 ← Program.ofOutcome (adapterWord adapter words)
  let start := CapabilityWord.nextField.get cs1.toNat
  let header ← (Capability.find start (.basic id)).mapRequests (readSpace .adapter adapter)
  return header.offset

/-- The vendor-specific id of the link controller of a router, if it is known to have one. -/
def linkController (identity : Option Identity) : Outcome Nat :=
  match identity.bind (·.flavor.linkController?) with
  | some vendor => .ok vendor
  | none => .error .notFound

/-- The unique id in the link controller of a router. -/
def linkControllerUuid (identity : Option Identity) : Program Request (List UInt32) := do
  let vendor ← Program.ofOutcome (linkController identity)
  let base ← routerCapability (.long vendor)
  let words ← readRouter (base + CapabilityWord.linkControllerUuid)
    CapabilityWord.linkControllerUuidDwords
  if words.length = CapabilityWord.linkControllerUuidDwords then
    return words
  else
    .fail (.protocol (.uuidLength CapabilityWord.linkControllerUuidDwords words.length))

/-! ## Sleep -/

/-- Looks at the sleep status after a pause, and `more` times again as long as the router is not
asleep. -/
def awaitSleep (waitMs : Nat) (more : Nat) : Program Request Unit := do
  let _ ← Program.request (.pause waitMs)
  let words ← readRouter Register.routerCs6 1
  if words.head?.any SleepControl.isReady then
    let _ ← Program.request .fallAsleep
    return ()
  else
    match more with
    | 0 => .fail .timeout
    | more + 1 => awaitSleep waitMs more

/-- The control word of a router. -/
def controlWord : List UInt32 → Outcome UInt32
  | word :: _ => .ok word
  | [] => .error (.protocol .emptySleepRead)

/-- Puts a router to sleep, unless it is asleep already. -/
def suspend (settings : Settings) (asleep : Bool) : Program Request Unit := do
  if asleep then
    return ()
  else
    let words ← readRouter Register.routerCs5 1
    let control ← Program.ofOutcome (controlWord words)
    let _ ← transfer (.write .router 0 Register.routerCs5 [SleepControl.request control])
    awaitSleep settings.sleepReadyWaitMs settings.sleepReadyAttempts

/-! ## Discovery -/

/-- The identity in the words read from a router, which must report the depth of its route. -/
def identify (settings : Settings) (route : Route) (words : List UInt32) : Outcome Identity :=
  match BasicRegisters.ofWords? words with
  | none => .error (.protocol (.basicLength Register.basicDwords words.length))
  | some basic =>
    if basic.depth = route.depth then
      .ok (Identity.ofRegisters basic settings.maxAdapters)
    else
      .error (.protocol (.depthMismatch route basic.depth))

/-- Reads the basic registers of a router and enrols it. -/
def enrol (settings : Settings) (route : Route) : Program Request Unit := do
  let words ← Program.request
    (.transfer (.read .router 0 Register.routerCs0 Register.basicDwords) (.waiting .polling))
  let identity ← Program.ofOutcome (identify settings route words)
  let _ ← Program.request (.enrol identity)
  return ()

/-- Takes a router that could not be enrolled out of the tree again. -/
def unlinkAfter (failure : Failure) : Program Request Unit := do
  let _ ← Program.request .unlink
  .fail failure

/-- Finds out what a newly linked router is; one that cannot be enrolled is unlinked again. -/
def discover (settings : Settings) (route : Route) : Program Request Unit :=
  (enrol settings route).recover unlinkAfter

end Procedure

end RouterFabric
