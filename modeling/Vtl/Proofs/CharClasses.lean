import Vtl.Text.Blank

namespace Vtl.CharClass

variable {b c : Char}

/-- Classes whose ranges lie apart have no character in common. -/
theorem contains_eq_false {chars others : CharClass}
    (apart : ∀ range ∈ chars.ranges, ∀ other ∈ others.ranges, range.2 < other.1 ∨ other.2 < range.1)
    (found : chars.contains c = true) : others.contains c = false := by
  obtain ⟨range, member, lower, upper⟩ := contains_iff.mp found
  rw [← Bool.not_eq_true, contains_iff]
  rintro ⟨other, known, otherLower, otherUpper⟩
  have := apart range member other known
  omega

/-- The digits as a class. -/
def digit : CharClass := ⟨[('0'.toNat, '9'.toNat)]⟩

theorem digit_contains_iff : digit.contains c = true ↔ c.isDigit = true := by
  rw [Char.isDigit_iff_toNat]
  simp [contains, digit]

/-- A character that is no blank is none of the blanks. -/
theorem ne_of_blank (isBlank : blank.contains b = true) (visible : blank.contains c = false) : b ≠ c := by
  rintro rfl
  rw [isBlank] at visible
  cases visible

theorem visible_of_isDigit (isDigit : c.isDigit = true) : blank.contains c = false :=
  contains_eq_false (by decide) (digit_contains_iff.mpr isDigit)

theorem isDigit_of_blank (isBlank : blank.contains b = true) : b.isDigit = false := by
  rw [← Bool.not_eq_true, ← digit_contains_iff, Bool.not_eq_true]
  exact contains_eq_false (by decide) isBlank

end Vtl.CharClass
