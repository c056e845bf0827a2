/-!
# Limits

The bounds that the fabric sets to addresses, packets and chains.
-/

namespace RouterFabric.Limit

/-- The highest offset of a config space. -/
def maxOffset : Nat := 0x1fff

/-- The most words that fit into one packet. -/
def maxDwords : Nat := 60

/-- The highest adapter number an address can name. -/
def maxAdapter : Nat := 63

/-- No router has more adapters than this. -/
def maxAdapters : Nat := 64

/-- A chain with more headers than this is taken for a cycle. -/
def maxHeaders : Nat := 64

/-- The number of bytes in a word. -/
def wordSize : Nat := 4

end RouterFabric.Limit
