namespace Vtl

/-- A class of characters, written as ascending ranges of code points with both ends included. -/
structure CharClass where
  ranges : List (Nat × Nat)

namespace CharClass

def contains (chars : CharClass) (c : Char) : Bool :=
  chars.ranges.any fun (first, last) => first ≤ c.toNat && c.toNat ≤ last

theorem contains_iff {chars : CharClass} {c : Char} :
    chars.contains c = true ↔ ∃ range ∈ chars.ranges, range.1 ≤ c.toNat ∧ c.toNat ≤ range.2 := by
  simp [contains, List.any_eq_true]

end CharClass

end Vtl
