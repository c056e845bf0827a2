import RouterFabric.BitField
import RouterFabric.Failure

/-!
# Addresses in config space

Every router has four config spaces of 8192 words each. A request names a space, an adapter, the
offset of its first word and the number of words, and carries a sequence number of two bits; all
of it is packed into one word.

* `Address.make` : the addresses a request may carry, with the fault of any other
* `Address.word`, `Address.ofWord` : the packed form and back
-/

namespace RouterFabric

/-! ## Spaces and packet types -/

/-- The config spaces of a router. -/
inductive Space
  | path
  | adapter
  | router
  | counters
  deriving DecidableEq, Repr

/-- The number of a space in an address word. -/
def Space.number : Space → Nat
  | .path => 0
  | .adapter => 1
  | .router => 2
  | .counters => 3

/-- The space with a given number; two bits of it count. -/
def Space.ofNumber (n : Nat) : Space :=
  match n % 4 with
  | 0 => .path
  | 1 => .adapter
  | 2 => .router
  | _ => .counters

/-- The type a packet travels under. -/
inductive PacketType
  | read
  | write
  | notify
  | hotplug
  deriving DecidableEq, Repr

/-- The number of a packet type. -/
def PacketType.number : PacketType → Nat
  | .read => 1
  | .write => 2
  | .notify => 3
  | .hotplug => 4

/-- The packet type with a given number. -/
def PacketType.ofNumber? : Nat → Option PacketType
  | 1 => some .read
  | 2 => some .write
  | 3 => some .notify
  | 4 => some .hotplug
  | _ => none

/-! ## Addresses -/

/-- Where a request reads or writes, how much, and the sequence number it carries. -/
structure Address where
  space : Space
  adapter : Nat
  offset : Nat
  dwords : Nat
  seq : Nat
  deriving DecidableEq, Repr

namespace Address

/-- The address of `dwords` words at `offset`, refused when no packet could carry it or when it
runs past the end of the space. The first fault in this order is reported. -/
def make (space : Space) (adapter offset dwords : Nat) : Outcome Address :=
  if Limit.maxAdapter < adapter then
    .error (.invalidArgument (.adapterTooHigh adapter))
  else if Limit.maxOffset < offset then
    .error (.invalidArgument (.offsetTooHigh offset))
  else if dwords = 0 ∨ Limit.maxDwords < dwords then
    .error (.invalidArgument (.lengthOutside dwords))
  else if Limit.maxOffset + 1 < offset + dwords then
    .error (.invalidArgument (.runsPastEnd dwords offset))
  else
    .ok ⟨space, adapter, offset, dwords, 0⟩

/-- The same address under another sequence number, of which two bits count. -/
def withSeq (address : Address) (seq : Nat) : Address :=
  { address with seq := seq % 4 }

/-! ## The address word -/

def offsetField : BitField := ⟨0, 13⟩
def dwordsField : BitField := ⟨13, 6⟩
def adapterField : BitField := ⟨19, 6⟩
def spaceField : BitField := ⟨25, 2⟩
def seqField : BitField := ⟨27, 2⟩

/-- The packed address; bits beyond the width of a field are lost. -/
def word (address : Address) : UInt32 :=
  UInt32.ofNat (offsetField.put address.offset + dwordsField.put address.dwords +
    adapterField.put address.adapter + spaceField.put address.space.number +
    seqField.put address.seq)

/-- The address packed into a word; the top three bits are ignored. -/
def ofWord (word : UInt32) : Address where
  space := Space.ofNumber (spaceField.get word.toNat)
  adapter := adapterField.get word.toNat
  offset := offsetField.get word.toNat
  dwords := dwordsField.get word.toNat
  seq := seqField.get word.toNat

end Address

end RouterFabric
