/-!
# CRC-32C

The checksum of a packet is the Castagnoli CRC of its bytes, with the remainder reflected: bytes
enter at the low end, the register starts with all bits set, and all bits are inverted at the end.

* `Checksum.step` : one bit of division by the generator polynomial
* `Checksum.absorb` : one byte
* `Checksum.crc32c` : a whole byte string
-/

namespace RouterFabric.Checksum

/-- The Castagnoli polynomial, coefficients of the lower powers in the higher bits. -/
def polynomial : UInt32 := 0x82f63b78

/-- Shifts one bit out of the remainder and subtracts the polynomial if that bit was set. -/
def step (remainder : UInt32) : UInt32 :=
  if remainder &&& 1 = 1 then (remainder >>> 1) ^^^ polynomial else remainder >>> 1

/-- The remainder after `count` bits. -/
def steps : Nat → UInt32 → UInt32
  | 0, remainder => remainder
  | count + 1, remainder => steps count (step remainder)

/-- The remainder after one more byte. -/
def absorb (remainder : UInt32) (byte : UInt8) : UInt32 :=
  steps 8 (remainder ^^^ byte.toUInt32)

/-- The remainder after a byte string. -/
def remainder (start : UInt32) (bytes : List UInt8) : UInt32 :=
  bytes.foldl absorb start

/-- The checksum of a byte string. -/
def crc32c (bytes : List UInt8) : UInt32 :=
  remainder 0xffffffff bytes ^^^ 0xffffffff

theorem remainder_append (start : UInt32) (a b : List UInt8) :
    remainder start (a ++ b) = remainder (remainder start a) b :=
  List.foldl_append

end RouterFabric.Checksum
