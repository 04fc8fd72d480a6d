/-! Sets of characters as increasing lists of closed ranges of code points. -/

namespace CanonicalSql

/-- Whether `n` lies in one of the ranges.  They increase and do not overlap, so the search ends at
the first range that starts above `n`. -/
def inRanges : List (Nat × Nat) → Nat → Bool
  | [], _ => false
  | (low, high) :: ranges, n => if n < low then false else n ≤ high || inRanges ranges n

@[simp] theorem inRanges_nil (n : Nat) : inRanges [] n = false := rfl

/-- A code point below the first range is in none. -/
theorem inRanges_below {low high n : Nat} {ranges : List (Nat × Nat)} (h : n < low) :
    inRanges ((low, high) :: ranges) n = false := by
  simp [inRanges, h]

end CanonicalSql
