/-!
# Ranges of code points

Classes of characters as sorted lists of ranges, both ends included.
-/
namespace Lineage.Text

/-- Is the code of `c` in one of the ranges? -/
def inRanges (ranges : List (Nat × Nat)) (c : Char) : Bool :=
  ranges.any fun (low, high) => low ≤ c.toNat && c.toNat ≤ high

end Lineage.Text
