import RouterFabric.Settings
import RouterFabric.Settings.Json

/-!
# Settings documents

Settings are written as a JSON object with one member per field. A document may leave members out,
may hold members of other names, and may also be an array of bare values in the order of the
fields, of which a tail may be missing. Fields that are not named keep their defaults.

* `Settings.ofText` : the settings of a document, checked
* `Settings.text` : a document with every field
-/

namespace RouterFabric.Settings

/-- The value of one field, which must fit the width of the field. -/
def value? (field : Field) (cs : List Char) : Option (Nat × List Char) := do
  let (value, rest) ← Json.unsigned? (Json.skipBlanks cs)
  if value < 1 <<< field.width then some (value, rest) else none

/-- One member: a known field, which must not have been `seen`, takes its value; any other member
is passed over. -/
def member? (seen : List Field) (s : Settings) (cs : List Char) :
    Option (List Field × Settings × List Char) := do
  let rest ← Json.token? '"' cs
  let (name, rest) ← Json.string? rest
  match Field.ofName? (String.ofList name) with
  | some field =>
    if field ∈ seen then
      none
    else
      let rest ← Json.token? ':' rest
      let (value, rest) ← value? field rest
      some (field :: seen, s.set field value, rest)
  | none =>
    let rest ← Json.token? ':' rest
    let rest ← Json.skipValue? rest
    some (seen, s, rest)

/-- The members up to the closing brace; at most `fuel` of them. -/
def members? : Nat → List Field → Settings → List Char → Option (Settings × List Char)
  | 0, _, _, _ => none
  | fuel + 1, seen, s, cs => do
    let (seen, s, rest) ← member? seen s cs
    match Json.skipBlanks rest with
    | ',' :: rest => members? fuel seen s rest
    | '}' :: rest => some (s, rest)
    | _ => none

/-- The bare values of the given fields up to the closing bracket. -/
def values? : List Field → Settings → List Char → Option (Settings × List Char)
  | [], _, _ => none
  | field :: fields, s, cs => do
    let (value, rest) ← value? field cs
    let s := s.set field value
    match Json.skipBlanks rest with
    | ',' :: rest => values? fields s rest
    | ']' :: rest => some (s, rest)
    | _ => none

/-- The settings of a document, and what follows it. -/
def read? (cs : List Char) : Option (Settings × List Char) :=
  match Json.skipBlanks cs with
  | '{' :: rest =>
    match Json.skipBlanks rest with
    | '}' :: rest => some ({}, rest)
    | rest => members? rest.length [] {} rest
  | '[' :: rest =>
    match Json.skipBlanks rest with
    | ']' :: rest => some ({}, rest)
    | rest => values? Field.all {} rest
  | _ => none

/-- The settings of a text that holds one document and nothing else. -/
def parse? (text : String) : Option Settings :=
  match read? text.toList with
  | some (s, rest) => if (Json.skipBlanks rest).isEmpty then some s else none
  | none => none

/-- The settings of a document, refused unless an engine can work with them. -/
def ofText (text : String) : Outcome Settings :=
  match parse? text with
  | none => .error .malformedSettings
  | some s => s.validate.map fun _ => s

/-- One member of a document. -/
def memberText (s : Settings) (field : Field) : String :=
  "\"" ++ field.name ++ "\":" ++ toString (s.get field)

/-- A document that names every field. -/
def text (s : Settings) : String :=
  "\x7b" ++ ",".intercalate (Field.all.map s.memberText) ++ "\x7d"

end RouterFabric.Settings
