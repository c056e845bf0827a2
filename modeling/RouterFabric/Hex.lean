/-!
# Lower-case hexadecimal text

Register offsets, words and routes are shown in base sixteen with lower-case digits, either in
as few digits as the number needs or padded with zeros to a fixed width.

* `Hex.digits` : the fewest digits, one for zero
* `Hex.padded` : at least a given number of digits
* `Hex.natural?` : reads digits of either case back
-/

namespace RouterFabric.Hex

/-- The digits of `n` in base sixteen, most significant first; zero is the single digit `0`. -/
def digits (n : Nat) : List Char :=
  Nat.toDigits 16 n

/-- The digits of `n`, filled up with leading zeros to at least `width` of them. -/
def padded (width n : Nat) : List Char :=
  (digits n).leftpad width '0'

/-- `n` in as few digits as it needs, marked as hexadecimal. -/
def short (n : Nat) : String :=
  "0x" ++ String.ofList (digits n)

/-- `n` in at least `width` digits, marked as hexadecimal. -/
def wide (width n : Nat) : String :=
  "0x" ++ String.ofList (padded width n)

/-- The value of one digit of either case. -/
def digitValue? (c : Char) : Option Nat :=
  if '0' ≤ c ∧ c ≤ '9' then some (c.toNat - '0'.toNat)
  else if 'a' ≤ c ∧ c ≤ 'f' then some (c.toNat - 'a'.toNat + 10)
  else if 'A' ≤ c ∧ c ≤ 'F' then some (c.toNat - 'A'.toNat + 10)
  else none

/-- The number that a non-empty run of digits spells. -/
def natural? : List Char → Option Nat
  | [] => none
  | cs => cs.foldlM (fun value c => (digitValue? c).map (value * 16 + ·)) 0

end RouterFabric.Hex
