/-!
# Sets of characters given as ranges of code points

A character class of Unicode is kept as the list of its maximal runs of code points. Membership
looks the code point up in that list, so a class can be compared with another by comparing lists.
-/

namespace PluginRegistry.Text

/-- A run of code points, both ends included. -/
abbrev CodeRange := Nat × Nat

/-- The runs hold the code point `n`. -/
def inRanges (ranges : List CodeRange) (n : Nat) : Bool :=
  ranges.any fun r => r.1 ≤ n && n ≤ r.2

end PluginRegistry.Text
