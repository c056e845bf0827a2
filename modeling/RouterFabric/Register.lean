import RouterFabric.BitField
import RouterFabric.Limits

/-!
# Register layouts

The registers of a router and of its adapters that the engine reads or writes: the nine basic
registers at the start of router space, the sleep registers, and the headers of capabilities.

* `BasicRegisters.ofWords?` : the identity of a router as it stands in its registers
* `BasicRegisters.packIdentity` : the register that holds most of it
* `CapabilityWord` : the layout of capability headers
* `SleepControl` : the register a router is put to sleep with
-/

namespace RouterFabric

/-! ## Offsets and sizes -/

namespace Register

def routerCs0 : Nat := 0
def routerCs1 : Nat := 1
def routerCs5 : Nat := 5
def routerCs6 : Nat := 6
def routerCs7 : Nat := 7
def routerCs8 : Nat := 8

/-- The number of basic registers. -/
def basicDwords : Nat := 9

/-- The vendor whose routers have a link controller. -/
def vendorIntel : Nat := 0x8086

def adapterCs1 : Nat := 1

/-- The number of words read to reach the first capability of an adapter. -/
def adapterBasicDwords : Nat := 2

end Register

/-! ## Basic registers -/

/-- What the basic registers of a router say. -/
structure BasicRegisters where
  vendorId : Nat
  deviceId : Nat
  /-- offset of the first capability -/
  nextCap : Nat
  upwardAdapter : Nat
  maxAdapter : Nat
  depth : Nat
  revision : Nat
  uuidLo : UInt32
  uuidHi : UInt32
  deriving DecidableEq, Repr

namespace BasicRegisters

def vendorField : BitField := ⟨0, 16⟩
def deviceField : BitField := ⟨16, 16⟩

def nextCapField : BitField := ⟨0, 8⟩
def upwardField : BitField := ⟨8, 6⟩
def maxAdapterField : BitField := ⟨14, 6⟩
def depthField : BitField := ⟨20, 3⟩
def revisionField : BitField := ⟨24, 8⟩

/-- The identity in the first nine words of router space; nothing if there are fewer. -/
def ofWords? (words : List UInt32) : Option BasicRegisters :=
  match words[Register.routerCs0]?, words[Register.routerCs1]?, words[Register.routerCs7]?,
    words[Register.routerCs8]? with
  | some cs0, some cs1, some cs7, some cs8 =>
    some {
      vendorId := vendorField.get cs0.toNat
      deviceId := deviceField.get cs0.toNat
      nextCap := nextCapField.get cs1.toNat
      upwardAdapter := upwardField.get cs1.toNat
      maxAdapter := maxAdapterField.get cs1.toNat
      depth := depthField.get cs1.toNat
      revision := revisionField.get cs1.toNat
      uuidLo := cs7
      uuidHi := cs8 }
  | _, _, _, _ => none

/-- The register that holds the first capability, the adapters, the depth and the revision. -/
def packIdentity (nextCap upward maxAdapter depth revision : Nat) : UInt32 :=
  UInt32.ofNat (nextCapField.put nextCap + upwardField.put upward +
    maxAdapterField.put maxAdapter + depthField.put depth + revisionField.put revision)

end BasicRegisters

/-! ## Capability headers -/

namespace CapabilityWord

/-- The capability id of time management. -/
def timeManagement : Nat := 3

/-- The capability id of vendor-specific blocks. -/
def vendorSpecific : Nat := 5

/-- The highest offset a short header points to. -/
def shortLimit : Nat := 0xff

/-- The highest offset a long header points to. -/
def longLimit : Nat := Limit.maxOffset

/-- The vendor-specific id of the link controller. -/
def linkController : Nat := 6

/-- Where the unique id stands inside the link controller block. -/
def linkControllerUuid : Nat := 3

/-- The number of words of the unique id. -/
def linkControllerUuidDwords : Nat := 4

def nextField : BitField := ⟨0, 8⟩
def idField : BitField := ⟨8, 8⟩
def vendorField : BitField := ⟨16, 8⟩
def lengthField : BitField := ⟨24, 8⟩

def longNextField : BitField := ⟨0, 16⟩
def longLengthField : BitField := ⟨16, 16⟩

/-- The first word of a header. -/
def pack (next id vendor length : Nat) : UInt32 :=
  UInt32.ofNat (nextField.put next + idField.put id + vendorField.put vendor +
    lengthField.put length)

/-- The second word of a long header. -/
def packLong (next length : Nat) : UInt32 :=
  UInt32.ofNat (longNextField.put next + longLengthField.put length)

end CapabilityWord

/-! ## Sleep -/

namespace SleepControl

def sleepField : BitField := ⟨0, 1⟩
def wakeOnPcieField : BitField := ⟨1, 1⟩
def wakeOnUsbField : BitField := ⟨2, 1⟩
def wakeOnDisplayField : BitField := ⟨3, 1⟩

/-- The bits of the control register that have nothing to do with sleep. -/
def otherField : BitField := ⟨4, 28⟩

/-- The bit of the status register that says the router is asleep. -/
def readyField : BitField := ⟨0, 1⟩

/-- The control word that requests sleep with wake on USB alone, all other bits kept. -/
def request (control : UInt32) : UInt32 :=
  UInt32.ofNat (otherField.keep control.toNat + sleepField.put 1 + wakeOnPcieField.put 0 +
    wakeOnUsbField.put 1 + wakeOnDisplayField.put 0)

/-- Whether a status word reports that the router is asleep. -/
def isReady (status : UInt32) : Bool :=
  readyField.get status.toNat == 1

end SleepControl

end RouterFabric
