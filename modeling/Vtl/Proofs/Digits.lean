import Mathlib.Data.List.TakeWhile
import Vtl.Text.Digits

namespace Vtl

theorem digitsValue_toDigits (n : Nat) : digitsValue (Nat.toDigits 10 n) = n := Nat.ofDigitChars_ten_toDigits

theorem isDigit_of_mem_toDigits {n : Nat} {c : Char} (member : c ∈ Nat.toDigits 10 n) : c.isDigit = true :=
  Nat.isDigit_of_mem_toDigits (by decide) (by decide) member

/-- Only zero is written with a zero in front. -/
theorem toDigits_of_head?_zero {n : Nat} (leading : (Nat.toDigits 10 n).head? = some '0') :
    Nat.toDigits 10 n = ['0'] := by
  induction n using Nat.strong_induction_on with
  | _ n ih =>
    rw [Nat.toDigits_eq_if (by decide)] at leading ⊢
    split at leading
    · next small =>
      rw [if_pos small]
      exact congrArg (fun c => [c]) (Option.some.inj leading)
    · next large =>
      obtain ⟨first, rest, front⟩ := List.exists_cons_of_ne_nil (@Nat.toDigits_ne_nil (n / 10) 10)
      have shorter := ih (n / 10) (by omega) (by rw [front] at leading ⊢; exact leading)
      have value := digitsValue_toDigits (n / 10)
      rw [shorter] at value
      have zero : n / 10 = 0 := value.symm
      omega

theorem digitsValue_padded (width n : Nat) : digitsValue (padded width n) = n := by
  have value := @Nat.ofDigitChars_append 10 (List.replicate (width - (Nat.toDigits 10 n).length) '0')
    (Nat.toDigits 10 n) 0
  rw [Nat.ofDigitChars_replicate_zero, Nat.mul_zero, Nat.ofDigitChars_ten_toDigits] at value
  exact value

theorem isDigit_of_mem_padded {width n : Nat} {c : Char} (member : c ∈ padded width n) : c.isDigit = true := by
  rcases List.mem_append.mp member with zero | digit
  · rw [List.eq_of_mem_replicate zero]
    decide
  · exact isDigit_of_mem_toDigits digit

theorem padded_ne_nil (width n : Nat) : padded width n ≠ [] :=
  List.append_ne_nil_of_right_ne_nil _ Nat.toDigits_ne_nil

theorem length_padded {width n : Nat} (short : (Nat.toDigits 10 n).length ≤ width) :
    (padded width n).length = width := by
  rw [padded, List.length_append, List.length_replicate]
  omega

theorem toList_toString (n : Int) :
    (toString n).toList = if 0 ≤ n then Nat.toDigits 10 n.natAbs else '-' :: Nat.toDigits 10 n.natAbs := by
  rw [Int.toString_eq_repr, Int.repr_eq_if]
  split
  · next nonneg =>
    have size : n.toNat = n.natAbs := by omega
    rw [size, Nat.repr_eq_ofList_toDigits, String.toList_ofList]
  · next negative =>
    have size : (-n).toNat = n.natAbs := by omega
    simp [size, Nat.repr_eq_ofList_toDigits]

/-- A run of digits ends where no digit follows. -/
theorem takeWhile_isDigit_append {ds rest : List Char} (digits : ∀ c ∈ ds, c.isDigit = true)
    (ends : ∀ c ∈ rest.head?, c.isDigit = false) : (ds ++ rest).takeWhile Char.isDigit = ds := by
  rw [List.takeWhile_append_of_pos digits]
  cases rest with
  | nil => exact List.append_nil ds
  | cons c rest => rw [List.takeWhile_cons_of_neg (by simp [ends c rfl]), List.append_nil]

end Vtl
