import RouterFabric.Checksum
import RouterFabric.Failure

/-!
# Packets on the wire

A packet is a sequence of 32-bit words, most significant byte first, closed by a checksum word
over all bytes before it.

* `Packet.wordBytes`, `Packet.bytesWords` : words as bytes and back
* `Packet.toWire` : the bytes of a packet
* `Packet.ofWire` : the words of a packet, if its length and its checksum are right
-/

namespace RouterFabric.Packet

/-- The bytes of one word. -/
def wordBytes (word : UInt32) : List UInt8 :=
  [UInt8.ofNat (word.toNat >>> 24), UInt8.ofNat (word.toNat >>> 16), UInt8.ofNat (word.toNat >>> 8),
    UInt8.ofNat word.toNat]

/-- The word of four bytes. -/
def byteWord (a b c d : UInt8) : UInt32 :=
  UInt32.ofNat (a.toNat <<< 24 + b.toNat <<< 16 + c.toNat <<< 8 + d.toNat)

/-- The words of a byte string, four bytes each; an incomplete word at the end is left out. -/
def bytesWords : List UInt8 → List UInt32
  | a :: b :: c :: d :: rest => byteWord a b c d :: bytesWords rest
  | _ => []

/-- The bytes of a packet without its checksum. -/
def body (words : List UInt32) : List UInt8 :=
  words.flatMap wordBytes

/-- The bytes of a packet. -/
def toWire (words : List UInt32) : List UInt8 :=
  body words ++ wordBytes (Checksum.crc32c (body words))

/-- The words of a packet, without the checksum word. -/
def ofWire (bytes : List UInt8) : Outcome (List UInt32) :=
  if bytes.length < 2 * Limit.wordSize ∨ bytes.length % Limit.wordSize ≠ 0 then
    .error (.protocol (.raggedLength bytes.length))
  else
    let words := bytesWords bytes
    let carried := words.getLastD 0
    let computed := Checksum.crc32c (bytes.take (bytes.length - Limit.wordSize))
    if carried = computed then
      .ok words.dropLast
    else
      .error (.protocol (.checksumMismatch carried computed))

@[simp] theorem wordBytes_length (word : UInt32) : (wordBytes word).length = 4 := rfl

@[simp] theorem body_length (words : List UInt32) : (body words).length = 4 * words.length := by
  induction words with
  | nil => rfl
  | cons word rest ih => simp [body] at ih ⊢; omega

end RouterFabric.Packet
