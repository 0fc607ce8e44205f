/-! # Sets of characters

A property that a standard gives to characters by their code points.

* `CharSet`: the code points where membership changes, which is the shortest form of
  a table of ranges.
-/

namespace Protobuf

/-- A set of characters.  `bounds` is ascending: the first bound is the least code point
    in the set, the second the least one above it that is not, and so on in turn. -/
structure CharSet where
  bounds : List Nat

namespace CharSet

/-- Whether a character is in a set: as many bounds enter the set up to its code point
    as leave it, or one more. -/
def contains (s : CharSet) (c : Char) : Bool :=
  (s.bounds.takeWhile (· ≤ c.toNat)).length % 2 = 1

end CharSet

end Protobuf
