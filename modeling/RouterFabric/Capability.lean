import RouterFabric.Program
import RouterFabric.Register

/-!
# Capability chains

The config spaces of routers and adapters hold capability blocks in a linked list. A block begins
with a header that names its id and the offset of the next block. Vendor-specific blocks carry a
vendor id as well, and come in two shapes: a long block has length zero in its header and a second
header word with a wider pointer.

* `Capability.Header.read` : the header at an offset, with one or two reads
* `Capability.Header.isTarget` : whether a header is the one a search is for
* `Capability.find` : the first header of a chain that is the target
-/

namespace RouterFabric.Capability

/-- What a search is for. -/
inductive Target
  /-- a block of this id that is not vendor-specific -/
  | basic (id : Nat)
  /-- a short vendor-specific block -/
  | short (vendor : Nat)
  /-- a long vendor-specific block -/
  | long (vendor : Nat)
  /-- a vendor-specific block of either shape -/
  | vendor (vendor : Nat)
  deriving DecidableEq, Repr

/-- A header, and where it was found. -/
structure Header where
  offset : Nat
  id : Nat
  vendor? : Option Nat
  /-- whether the block is a long vendor-specific one -/
  extended : Bool
  /-- the offset of the next header; zero ends the chain -/
  next : Nat
  deriving DecidableEq, Repr

/-- The first of the words read at `offset`. -/
def firstWord (offset : Nat) : List UInt32 → Outcome UInt32
  | word :: _ => .ok word
  | [] => .error (.protocol (.emptyHeaderRead offset))

/-- The word at an offset. -/
def readWord (offset : Nat) : Program Nat UInt32 := do
  let words ← Program.request offset
  Program.ofOutcome (firstWord offset words)

namespace Header

/-- The header at an offset. A vendor-specific header of length zero has a second word. -/
def read (offset : Nat) : Program Nat Header := do
  let word := (← readWord offset).toNat
  let id := CapabilityWord.idField.get word
  let next := CapabilityWord.nextField.get word
  if id = CapabilityWord.vendorSpecific then
    let vendor := CapabilityWord.vendorField.get word
    if CapabilityWord.lengthField.get word = 0 then
      let long ← readWord ((offset + 1) % 0x10000)
      return ⟨offset, id, some vendor, true, CapabilityWord.longNextField.get long.toNat⟩
    else
      return ⟨offset, id, some vendor, false, next⟩
  else
    return ⟨offset, id, none, false, next⟩

/-- The highest offset the header may point to. -/
def nextLimit (header : Header) : Nat :=
  if header.extended then CapabilityWord.longLimit else CapabilityWord.shortLimit

/-- Whether the header is what a search is for. -/
def isTarget (header : Header) : Target → Bool
  | .basic id => header.id == id && header.vendor?.isNone
  | .short vendor => header.vendor? == some vendor && !header.extended
  | .long vendor => header.vendor? == some vendor && header.extended
  | .vendor vendor => header.vendor? == some vendor

end Header

/-- Searches a chain from `offset` on, which must not lie above `limit`; at most `budget` headers
are read. -/
def search (target : Target) (budget offset limit : Nat) : Program Nat Header :=
  if offset = 0 ∨ limit < offset then
    .fail .notFound
  else
    match budget with
    | 0 => .fail (.protocol (.chainTooLong))
    | budget + 1 => do
      let header ← Header.read offset
      if header.isTarget target then
        return header
      else
        search target budget header.next header.nextLimit

/-- The first header of the chain from `start` that is the target. -/
def find (start : Nat) (target : Target) : Program Nat Header :=
  search target Limit.maxHeaders start CapabilityWord.shortLimit

end RouterFabric.Capability
