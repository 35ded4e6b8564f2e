/-!
# Ranges of characters

A class of characters is given by the inclusive ranges of its code points, in
ascending order.
-/

namespace DatasetLineage.Text

def inRanges (ranges : List (Nat × Nat)) (c : Char) : Bool :=
  ranges.any fun range => range.1 ≤ c.toNat && c.toNat ≤ range.2

end DatasetLineage.Text
