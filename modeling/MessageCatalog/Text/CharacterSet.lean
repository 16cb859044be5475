/-!
# Sets of characters

A large set of characters is kept as the ascending list of code points at which
membership changes: the first opens a range, the second ends it, and so on. A code
point belongs to the set if an odd number of changes lie at or before it.
-/

namespace MessageCatalog

namespace Text

structure CharacterSet where
  changes : List Nat

def CharacterSet.contains (set : CharacterSet) (c : Char) : Bool :=
  (set.changes.takeWhile (· ≤ c.toNat)).length % 2 == 1

end Text

end MessageCatalog
