import RouterFabric.Hex

/-!
# The lexical part of JSON

Readers over characters for the parts of JSON that a settings document needs: blanks, strings,
unsigned integers, and a reader that passes over any one value. A reader gives what is left of the
text, or nothing where the text is not of its form.

* `Json.string?` : a string with its escapes resolved
* `Json.unsigned?` : a number that is written as an unsigned integer
* `Json.skipValue?` : any value, checked for its form and forgotten
-/

namespace RouterFabric.Settings.Json

/-- The four characters that may stand between tokens. -/
def isBlank (c : Char) : Bool :=
  c == ' ' || c == '\t' || c == '\n' || c == '\r'

/-- The text from the first character on that is no blank. -/
def skipBlanks (cs : List Char) : List Char :=
  cs.dropWhile isBlank

/-- What follows the given character, which must stand next after blanks. -/
def token? (c : Char) (cs : List Char) : Option (List Char) :=
  match skipBlanks cs with
  | d :: rest => if d = c then some rest else none
  | [] => none

/-! ## Strings -/

/-- A piece of a string: a character as it stands, or the code of an escape. -/
inductive Piece
  | plain (c : Char)
  | coded (unit : Nat)
  deriving DecidableEq, Repr

/-- The character an escape of one letter stands for. -/
def escape? : Char → Option Char
  | '"' => some '"'
  | '\\' => some '\\'
  | '/' => some '/'
  | 'b' => some '\x08'
  | 'f' => some '\x0c'
  | 'n' => some '\n'
  | 'r' => some '\r'
  | 't' => some '\t'
  | _ => none

/-- The pieces of a string up to its closing quote, and what follows it. Control characters must
be escaped. -/
def pieces? : List Char → Option (List Piece × List Char)
  | '"' :: rest => some ([], rest)
  | '\\' :: 'u' :: a :: b :: c :: d :: rest => do
    let unit ← Hex.natural? [a, b, c, d]
    let (pieces, left) ← pieces? rest
    some (.coded unit :: pieces, left)
  | '\\' :: e :: rest => do
    let c ← escape? e
    let (pieces, left) ← pieces? rest
    some (.plain c :: pieces, left)
  | c :: rest => do
    if c.toNat < 0x20 ∨ c = '\\' then
      none
    else
      let (pieces, left) ← pieces? rest
      some (.plain c :: pieces, left)
  | [] => none

/-- Whether a code is the first half of a pair. -/
def isHighHalf (unit : Nat) : Bool :=
  0xd800 ≤ unit && unit ≤ 0xdbff

/-- Whether a code is the second half of a pair. -/
def isLowHalf (unit : Nat) : Bool :=
  0xdc00 ≤ unit && unit ≤ 0xdfff

/-- The characters that pieces stand for; the two halves of a pair must follow each other. -/
def join? : List Piece → Option (List Char)
  | [] => some []
  | .plain c :: rest => (join? rest).map (c :: ·)
  | .coded high :: .coded low :: rest =>
    if isHighHalf high then
      if isLowHalf low then
        (join? rest).map (Char.ofNat (0x10000 + (high - 0xd800) * 0x400 + (low - 0xdc00)) :: ·)
      else
        none
    else if isLowHalf high then
      none
    else
      (join? (.coded low :: rest)).map (Char.ofNat high :: ·)
  | .coded unit :: rest =>
    if isHighHalf unit || isLowHalf unit then none
    else (join? rest).map (Char.ofNat unit :: ·)

/-- The characters of a string whose opening quote has been read, and what follows it. -/
def string? (cs : List Char) : Option (List Char × List Char) := do
  let (pieces, rest) ← pieces? cs
  let content ← join? pieces
  some (content, rest)

/-! ## Numbers -/

/-- The value of a run of decimal digits. -/
def decimalValue (digits : List Char) : Nat :=
  digits.foldl (fun value c => value * 10 + (c.toNat - '0'.toNat)) 0

/-- The digits of an integer, which has no leading zero, and what follows them. -/
def integer? : List Char → Option (List Char × List Char)
  | '0' :: rest => if (rest.head?.any Char.isDigit) then none else some (['0'], rest)
  | cs =>
    match cs.takeWhile Char.isDigit with
    | [] => none
    | digits => some (digits, cs.dropWhile Char.isDigit)

/-- At least one digit. -/
def digits? (cs : List Char) : Option (List Char) :=
  match cs with
  | c :: rest => if c.isDigit then some (rest.dropWhile Char.isDigit) else none
  | [] => none

/-- The exponent of a number, if there is one. -/
def skipExponent? : List Char → Option (List Char)
  | c :: rest =>
    if c = 'e' ∨ c = 'E' then
      match rest with
      | '+' :: rest => digits? rest
      | '-' :: rest => digits? rest
      | _ => digits? rest
    else
      some (c :: rest)
  | [] => some []

/-- The fraction and the exponent of a number, as far as there are any. -/
def skipFraction? : List Char → Option (List Char)
  | '.' :: rest => (digits? rest).bind skipExponent?
  | cs => skipExponent? cs

/-- A number without a sign. -/
def skipNumber? (cs : List Char) : Option (List Char) := do
  let (_, rest) ← integer? cs
  skipFraction? rest

/-- A number with neither sign nor fraction nor exponent, and what follows it. -/
def unsigned? (cs : List Char) : Option (Nat × List Char) := do
  let (digits, rest) ← integer? cs
  if rest.head?.any (fun c => c == '.' || c == 'e' || c == 'E') then
    none
  else
    some (decimalValue digits, rest)

/-! ## Passing over a value -/

/-- What follows a given word. -/
def word? : List Char → List Char → Option (List Char)
  | [], cs => some cs
  | w :: ws, c :: cs => if w = c then word? ws cs else none
  | _ :: _, [] => none

/-- What follows a string whose opening quote has been read; the escapes are checked for their
form only. -/
def skipString? (cs : List Char) : Option (List Char) :=
  (pieces? cs).map (·.2)

mutual

/-- What follows one value; `fuel` bounds the nesting and the number of members together. -/
def skipValueWithin? : Nat → List Char → Option (List Char)
  | 0, _ => none
  | fuel + 1, cs =>
    match skipBlanks cs with
    | '"' :: rest => skipString? rest
    | 'n' :: rest => word? ['u', 'l', 'l'] rest
    | 't' :: rest => word? ['r', 'u', 'e'] rest
    | 'f' :: rest => word? ['a', 'l', 's', 'e'] rest
    | '-' :: rest => skipNumber? rest
    | '[' :: rest =>
      match skipBlanks rest with
      | ']' :: rest => some rest
      | rest => skipElements? fuel rest
    | '{' :: rest =>
      match skipBlanks rest with
      | '}' :: rest => some rest
      | rest => skipMembers? fuel rest
    | rest => skipNumber? rest

/-- What follows the elements of an array and its closing bracket. -/
def skipElements? : Nat → List Char → Option (List Char)
  | 0, _ => none
  | fuel + 1, cs => do
    let rest ← skipValueWithin? fuel cs
    match skipBlanks rest with
    | ',' :: rest => skipElements? fuel rest
    | ']' :: rest => some rest
    | _ => none

/-- What follows the members of an object and its closing brace. -/
def skipMembers? : Nat → List Char → Option (List Char)
  | 0, _ => none
  | fuel + 1, cs => do
    let rest ← token? '"' cs
    let rest ← skipString? rest
    let rest ← token? ':' rest
    let rest ← skipValueWithin? fuel rest
    match skipBlanks rest with
    | ',' :: rest => skipMembers? fuel rest
    | '}' :: rest => some rest
    | _ => none

end

/-- What follows one value. Two levels of fuel per character are enough, because each value and
each member begins with a character of its own. -/
def skipValue? (cs : List Char) : Option (List Char) :=
  skipValueWithin? (2 * cs.length + 2) cs

end RouterFabric.Settings.Json
