/-!
# Bit fields of a word

A field is a run of adjacent bits of a word, which is taken as a natural number. Reading a field
shifts it down and takes a remainder, writing one shifts it up, so that facts about packed words
are facts of arithmetic: a word packed from fields that do not overlap is the sum of what each
field contributes.

* `BitField.get` : the value a field has in a word
* `BitField.put` : what a value contributes to a word, cut to the width of the field
* `BitField.mask` : the bits of the field, all set
-/

namespace RouterFabric

/-- The bits `low` to `low + width - 1` of a word. -/
structure BitField where
  low : Nat
  width : Nat
  deriving DecidableEq, Repr

namespace BitField

/-- The number of values the field can have. -/
def span (field : BitField) : Nat :=
  1 <<< field.width

/-- The value the field has in `word`. -/
def get (field : BitField) (word : Nat) : Nat :=
  (word >>> field.low) % field.span

/-- The contribution of `value` to a word; bits beyond the width are lost. -/
def put (field : BitField) (value : Nat) : Nat :=
  (value % field.span) <<< field.low

/-- The word in which exactly the bits of the field are set. -/
def mask (field : BitField) : Nat :=
  field.put (field.span - 1)

/-- The field as it stands in `word`, every other bit cleared. -/
def keep (field : BitField) (word : Nat) : Nat :=
  field.put (field.get word)

theorem span_pos (field : BitField) : 0 < field.span := by
  rw [span, Nat.one_shiftLeft]
  exact Nat.two_pow_pos _

theorem get_lt (field : BitField) (word : Nat) : field.get word < field.span :=
  Nat.mod_lt _ field.span_pos

@[simp] theorem get_put (field : BitField) (value : Nat) :
    field.get (field.put value) = value % field.span := by
  simp [get, put]

end BitField

end RouterFabric
