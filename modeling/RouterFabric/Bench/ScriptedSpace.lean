import RouterFabric.Capability

/-!
# A scripted config space

A config space of words that are zero unless listed, in which reads at some offsets give nothing
and reads at others fail. Programs that read words run over it.
-/

namespace RouterFabric

/-- Words by offset, and the offsets at which reads go wrong. -/
structure ScriptedSpace where
  words : List (Nat × UInt32) := []
  empty : List Nat := []
  failing : List Nat := []
  deriving DecidableEq, Repr

namespace ScriptedSpace

/-- What a read of one word gives. -/
def read (s : ScriptedSpace) (offset : Nat) : Reply :=
  if s.failing.contains offset then
    .error .suspended
  else if s.empty.contains offset then
    .ok []
  else
    .ok [((s.words.findRev? (·.1 == offset)).map (·.2)).getD 0]

end ScriptedSpace

end RouterFabric
