/-!
# Sets of characters given by their boundaries

A character set is stored as the ascending list of the code points at which membership changes,
starting outside the set: `#[a, b, c, d]` stands for the code points from `a` to `b - 1` and from
`c` to `d - 1`.
-/

namespace CestWriter.Text

/-- Ascending code points at which membership in a character set changes. -/
abbrev Boundaries := Array Nat

/-- The number of boundaries in `[low, high)` that are at most `n`, added to `low`. Halves the
interval until it is empty. -/
def Boundaries.rank (table : Boundaries) (n low high : Nat) : Nat :=
  if h : low < high then
    let middle := (low + high) / 2
    if table.getD middle 0 ≤ n then rank table n (middle + 1) high
    else rank table n low middle
  else low
termination_by high - low

/-- A code point belongs to the set when an odd number of boundaries is at most it. -/
def Boundaries.holds (table : Boundaries) (n : Nat) : Bool :=
  table.rank n 0 table.size % 2 == 1

end CestWriter.Text
