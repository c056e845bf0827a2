import RouterFabric.Register

/-!
# Router identity

What is known of a router once it has been discovered: its basic registers, with the number of
adapters cut to what the settings allow, and the numbering its vendor-specific blocks follow.
-/

namespace RouterFabric

/-- The numbering of vendor-specific blocks. -/
inductive Flavor
  | intel
  | usb4
  deriving DecidableEq, Repr

namespace Flavor

/-- The numbering a vendor follows. -/
def ofVendor (vendorId : Nat) : Flavor :=
  if vendorId = Register.vendorIntel then .intel else .usb4

/-- The id of the link controller block, where there is one. -/
def linkController? : Flavor → Option Nat
  | .intel => some CapabilityWord.linkController
  | .usb4 => none

end Flavor

/-- The identity of a discovered router. -/
structure Identity where
  vendorId : Nat
  deviceId : Nat
  revision : Nat
  upwardAdapter : Nat
  /-- the highest adapter number, no higher than the settings allow -/
  maxAdapter : Nat
  depth : Nat
  firstCapability : Nat
  uuid : List UInt32
  flavor : Flavor
  deriving DecidableEq, Repr

/-- The identity in the basic registers, with at most `adapterLimit` as highest adapter. The two
words of the unique id are filled up to four. -/
def Identity.ofRegisters (basic : BasicRegisters) (adapterLimit : Nat) : Identity where
  vendorId := basic.vendorId
  deviceId := basic.deviceId
  revision := basic.revision
  upwardAdapter := basic.upwardAdapter
  maxAdapter := min basic.maxAdapter adapterLimit
  depth := basic.depth
  firstCapability := basic.nextCap
  uuid := [basic.uuidLo, basic.uuidHi, 0xffffffff, 0xffffffff]
  flavor := Flavor.ofVendor basic.vendorId

end RouterFabric
