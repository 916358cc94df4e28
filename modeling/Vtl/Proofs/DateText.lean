import Vtl.Date.Text
import Vtl.Proofs.CharClasses
import Vtl.Proofs.Digits

namespace Vtl.Date

variable {cs rest : List Char}

/-- Blanks are only skipped where there are some. -/
theorem skipBlanks_cons {c : Char} (visible : CharClass.blank.contains c = false) :
    skipBlanks (c :: cs) = c :: cs := by
  rw [skipBlanks, List.dropWhile_cons, visible]
  rfl

theorem skipBlanks_padded (width n : Nat) : skipBlanks (padded width n ++ rest) = padded width n ++ rest := by
  obtain ⟨first, others, digits⟩ := List.exists_cons_of_ne_nil (padded_ne_nil width n)
  have digit : first.isDigit = true := isDigit_of_mem_padded (digits ▸ List.mem_cons_self)
  rw [digits]
  exact skipBlanks_cons (CharClass.visible_of_isDigit digit)

theorem readDigits_padded {limit : Option Nat} {width n : Nat}
    (within : ∀ most ∈ limit, (padded width n).length ≤ most)
    (ends : ∀ c ∈ rest.head?, c.isDigit = false) :
    readDigits limit (padded width n ++ rest) = some (n, rest) := by
  have run : (padded width n ++ rest).takeWhile Char.isDigit = padded width n :=
    takeWhile_isDigit_append (fun _ => isDigit_of_mem_padded) ends
  have filled := padded_ne_nil width n
  cases limit with
  | none => simp [readDigits, run, filled, digitsValue_padded]
  | some most =>
    have kept : (padded width n).take most = padded width n := List.take_of_length_le (within most rfl)
    simp [readDigits, run, kept, filled, digitsValue_padded]

theorem readHyphen_hyphen (spacing : Spacing) : readHyphen spacing ('-' :: rest) = some rest := by
  have kept : spacing.skip ('-' :: rest) = '-' :: rest := by
    cases spacing with
    | strict => rfl
    | loose => exact skipBlanks_cons (by decide)
  simp [readHyphen, kept]

/-- A year without a sign begins with a digit. -/
theorem readYear_padded (n : Nat) :
    readYear (padded 4 n ++ rest) =
      (readDigits (some 4) (padded 4 n ++ rest)).map fun (n, rest) => ((n : Int), rest) := by
  obtain ⟨first, others, digits⟩ := List.exists_cons_of_ne_nil (padded_ne_nil 4 n)
  have digit : first.isDigit = true := isDigit_of_mem_padded (digits ▸ List.mem_cons_self)
  rw [digits, List.cons_append]
  unfold readYear
  split
  · next same =>
    obtain ⟨rfl, _⟩ := List.cons.inj same
    cases digit
  · next same =>
    obtain ⟨rfl, _⟩ := List.cons.inj same
    cases digit
  · rfl

theorem readYear_yearText (year : Int) (ends : ∀ c ∈ rest.head?, c.isDigit = false) :
    readYear (skipBlanks (yearText year ++ rest)) = some (year, rest) := by
  unfold yearText
  split
  · next plain =>
    have short := (@Nat.length_toDigits_le_iff 10 year.toNat 4 (by decide) (by decide)).mpr (by omega)
    have four : (padded 4 year.toNat).length = 4 := length_padded short
    have value : (year.toNat : Int) = year := Int.toNat_of_nonneg plain.1
    rw [skipBlanks_padded, readYear_padded, readDigits_padded (by simp [four]) ends]
    exact congrArg (fun year => some (year, rest)) value
  · split
    · have value : -(year.natAbs : Int) = year := by omega
      rw [List.cons_append, skipBlanks_cons (by decide), readYear, readDigits_padded (by simp) ends]
      exact congrArg (fun year => some (year, rest)) value
    · have value : (year.natAbs : Int) = year := by omega
      rw [List.cons_append, skipBlanks_cons (by decide), readYear, readDigits_padded (by simp) ends]
      exact congrArg (fun year => some (year, rest)) value

theorem readDigits_two {n : Nat} (bound : n < 100) (ends : ∀ c ∈ rest.head?, c.isDigit = false) :
    readDigits (some 2) (skipBlanks (padded 2 n ++ rest)) = some (n, rest) := by
  have short := (@Nat.length_toDigits_le_iff 10 n 2 (by decide) (by decide)).mpr bound
  have two : (padded 2 n).length = 2 := length_padded short
  rw [skipBlanks_padded, readDigits_padded (by simp [two]) ends]

theorem daysInMonth_le (year : Int) (month : Nat) : daysInMonth year month ≤ 31 := by
  unfold daysInMonth
  split
  · split <;> decide
  all_goals decide

theorem skip_nil (spacing : Spacing) : spacing.skip [] = [] := by
  cases spacing <;> rfl

/-- A date is read back from its text, whatever the spacing. -/
theorem read_text (spacing : Spacing) (date : Date) : read spacing date.text = some date := by
  obtain ⟨year, month, day, onCalendar⟩ := date
  obtain ⟨_, ⟨_, lastMonth⟩, _, lastDay⟩ := id onCalendar
  have monthBound : month < 100 := by omega
  have dayBound : day < 100 := by
    have := daysInMonth_le year month
    omega
  have hyphen : ∀ cs : List Char, ∀ c ∈ ('-' :: cs).head?, c.isDigit = false := by simp
  have whole : (Date.mk year month day onCalendar).chars =
      yearText year ++ '-' :: (padded 2 month ++ '-' :: (padded 2 day ++ [])) := by
    simp [chars]
  have made : ofParts? year month day = some ⟨year, month, day, onCalendar⟩ := dif_pos onCalendar
  rw [read, text, String.toList_ofList, whole, readChars, readYear_yearText year (hyphen _)]
  simp only [Option.bind_eq_bind, Option.bind_some, readHyphen_hyphen, readDigits_two monthBound (hyphen _),
    readDigits_two dayBound (by simp : ∀ c ∈ ([] : List Char).head?, c.isDigit = false), skip_nil,
    List.isEmpty_nil, if_true, made]

end Vtl.Date
