import Vtl.Number.Basic

namespace Vtl

/-- A decimal `digits · 10 ^ power`. -/
structure Decimal where
  digits : Nat
  power : Int
deriving DecidableEq

/-- Which of two equally near decimals is taken. -/
inductive Tie where
  | up
  | even

/-- How many decimal digits a number is written with; none for zero. -/
def decimalLength (n : Nat) : Nat := if n = 0 then 0 else (Nat.toDigits 10 n).length

/-- The power of ten of the leading digit of the fraction `num / den`. -/
def decimalOrder (num den : Nat) : Int :=
  if den ≤ num then (decimalLength (num / den) : Int) - 1
  else -(decimalLength ((den + num - 1) / num - 1) : Int)

/-- Drops up to `count` zeros from the end of a decimal. -/
def Decimal.trim : Nat → Decimal → Decimal
  | 0, d => d
  | count + 1, d => if d.digits ≠ 0 ∧ d.digits % 10 = 0 then trim count ⟨d.digits / 10, d.power + 1⟩ else d

namespace Number

/-- The reals that round to one number, in quarters of `2 ^ power`. -/
structure Basin where
  low : Nat
  mid : Nat
  high : Nat
  power : Int
  closed : Bool

/-- The basin of a finite nonzero number. Below a power of two the next number is nearer, so the
basin is narrower there. -/
def basin (x : Number) : Basin :=
  let m := x.significand
  let narrow := m = exponentBit ∧ -1074 < x.exponent
  { low := 4 * m - (if narrow then 1 else 2)
    mid := 4 * m
    high := 4 * m + 2
    power := x.exponent - 2
    closed := m % 2 = 0 }

/-- A decimal with its last digit at `10 ^ grid` that lies in the basin, the nearer of the two
neighbours of the number itself. -/
def Basin.onGrid (b : Basin) (tie : Tie) (grid : Int) : Option Decimal :=
  let up := Nat.pow 2 b.power.toNat * Nat.pow 10 (-grid).toNat
  let down := Nat.pow 2 (-b.power).toNat * Nat.pow 10 grid.toNat
  let inside (d : Nat) : Bool :=
    if b.closed then b.low * up ≤ d * down && d * down ≤ b.high * up
    else b.low * up < d * down && d * down < b.high * up
  let below := b.mid * up / down
  let above := below + 1
  let pick : Option Nat :=
    match inside below, inside above with
    | false, false => none
    | true, false => some below
    | false, true => some above
    | true, true =>
      match compare (b.mid * up - below * down) (above * down - b.mid * up), tie with
      | .lt, _ => some below
      | .gt, _ => some above
      | .eq, .up => some above
      | .eq, .even => some (if below % 2 = 0 then below else above)
  pick.map fun d => ⟨d, grid⟩

/-- The first of `count` grids, each ten times finer than the one before, that has a hit. -/
def Basin.search (b : Basin) (tie : Tie) (grid : Int) : Nat → Option Decimal
  | 0 => none
  | count + 1 => (b.onGrid tie grid).or (search b tie (grid - 1) count)

/-- The decimal with the fewest digits that reads back as the finite number `x`, its sign left out.
Seventeen digits always suffice. -/
def shortest (tie : Tie) (x : Number) : Decimal :=
  if x.isZero then ⟨0, 0⟩
  else
    let b := x.basin
    let order := decimalOrder (b.mid * Nat.pow 2 b.power.toNat) (Nat.pow 2 (-b.power).toNat)
    ((b.search tie order 17).getD ⟨0, 0⟩).trim 17

end Number

end Vtl
