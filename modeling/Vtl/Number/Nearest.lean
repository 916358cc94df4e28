import Vtl.Number.Basic

namespace Vtl

/-- A quotient of natural numbers rounded to the nearest one, a half going to the even neighbour. -/
def roundHalfEven (num den : Nat) : Nat :=
  let whole := num / den
  match compare (2 * (num % den)) den with
  | .lt => whole
  | .gt => whole + 1
  | .eq => if whole % 2 = 0 then whole else whole + 1

/-- Of the two whole numbers around a quotient the nearer one is taken, and the even one if both are equally
near. -/
theorem roundHalfEven_cases (num den : Nat) :
    (roundHalfEven num den = num / den ∧ 2 * (num % den) ≤ den ∧
      (2 * (num % den) = den → num / den % 2 = 0)) ∨
    (roundHalfEven num den = num / den + 1 ∧ den ≤ 2 * (num % den) ∧
      (2 * (num % den) = den → num / den % 2 = 1)) := by
  unfold roundHalfEven
  dsimp only
  split
  · next below =>
    have less := Nat.compare_eq_lt.mp below
    exact .inl ⟨rfl, by omega, by omega⟩
  · next above =>
    have more := Nat.compare_eq_gt.mp above
    exact .inr ⟨rfl, by omega, by omega⟩
  · next half =>
    have same := Nat.compare_eq_eq.mp half
    split
    · next even => exact .inl ⟨rfl, by omega, fun _ => even⟩
    · next odd => exact .inr ⟨rfl, by omega, fun _ => by omega⟩

namespace Number

/-- The fraction `num / den` divided by `2 ^ power`. -/
def scaleDown (power : Int) (num den : Nat) : Nat × Nat :=
  (num * Nat.pow 2 (-power).toNat, den * Nat.pow 2 power.toNat)

/-- The greatest power of two that `num / den` reaches. -/
def binaryOrder (num den : Nat) : Int :=
  let guess : Int := (num.log2 : Int) - den.log2
  let (a, b) := scaleDown guess num den
  if b ≤ a then guess else guess - 1

/-- The magnitude of the number nearest to the fraction `num / den`. A significand rounded up to
`2 ^ 53` carries into the exponent field by itself, and what passes the finite range is infinite. -/
def nearest (num den : Nat) : Nat :=
  if num = 0 then 0
  else
    let order := binaryOrder num den
    let power := if order < -1022 then -1074 else order - 52
    let (a, b) := scaleDown power num den
    min ((power + 1074).toNat * exponentBit + roundHalfEven a b) infinite

/-- The number nearest to `mantissa · 10 ^ power`. -/
def ofDecimal (negative : Bool) (mantissa : Nat) (power : Int) : Number :=
  ofMagnitude negative (nearest (mantissa * Nat.pow 10 power.toNat) (Nat.pow 10 (-power).toNat))

def ofNat (n : Nat) : Number := ofMagnitude false (nearest n 1)

def ofInt (i : Int) : Number := ofMagnitude (i < 0) (nearest i.natAbs 1)

end Number

end Vtl
