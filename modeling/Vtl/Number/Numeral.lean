import Vtl.Number.Nearest
import Vtl.Text.Digits

namespace Vtl

/-- A written number: decimal digits before and behind the point, and an exponent of ten. -/
structure Numeral where
  negative : Bool
  whole : List Char
  fraction : List Char
  exponent : Option Int
deriving DecidableEq

namespace Numeral

/-- Whether the number is written as an integer, with neither point nor exponent. -/
def isInteger (n : Numeral) : Bool := n.fraction.isEmpty && n.exponent.isNone

/-- The characters of a numeral. An exponent always shows its sign. -/
def chars (n : Numeral) : List Char :=
  (if n.negative then ['-'] else []) ++ n.whole
    ++ (if n.fraction.isEmpty then [] else '.' :: n.fraction)
    ++ match n.exponent with
      | none => []
      | some e => 'e' :: (if e < 0 then '-' else '+') :: Nat.toDigits 10 e.natAbs

/-- The number nearest to what is written. -/
def nearest (n : Numeral) : Number :=
  .ofDecimal n.negative (digitsValue (n.whole ++ n.fraction))
    (n.exponent.getD 0 - n.fraction.length)

def ofInt (i : Int) : Numeral := ⟨i < 0, Nat.toDigits 10 i.natAbs, [], none⟩

/-- The digits behind `n` that still fit into 64 bits together with it, and how many do not. -/
def gather (n : Nat) : List Char → Nat × Nat
  | [] => (n, 0)
  | c :: cs =>
    let longer := 10 * n + (c.toNat - '0'.toNat)
    if longer < 2 * integerLimit then gather longer cs else (n, cs.length + 1)

/-- Divides by `10 ^ power` in steps that are numbers themselves. -/
def scaleDown (x : Number) (power : Nat) : Number :=
  if power ≤ 308 then x.div (.ofDecimal false 1 power)
  else if x.isZero then x
  else scaleDown (x.div (.ofDecimal false 1 308)) (power - 308)
termination_by power

/-- The number that a JSON numeral stands for: its leading digits, as far as they fit into 64 bits,
as a number, which is then multiplied or divided by a power of ten. Each step rounds on its own, so
the result may miss the nearest number by a little. A result out of range is none. -/
def scaled? (n : Numeral) : Option Number :=
  let (leading, dropped) := gather 0 n.whole
  let (digits, unread) := gather leading n.fraction
  let power := n.exponent.getD 0 + dropped - (n.fraction.length - unread : Nat)
  let start := Number.ofNat digits
  let magnitude? :=
    if power < 0 then some (scaleDown start power.natAbs)
    else if power ≤ 308 then
      let x := start.mul (.ofDecimal false 1 power)
      if x.isFinite then some x else none
    else if start.isZero then some start
    else none
  magnitude?.map fun x => if n.negative then x.neg else x

/-- The integer that a numeral writes, if it is written as one and has 64 bits. Minus zero is no
integer. -/
def toInt64? (n : Numeral) : Option Int64 :=
  let value := digitsValue n.whole
  if !n.isInteger then none
  else if n.negative then
    if 0 < value ∧ value ≤ integerLimit then some (Int64.ofInt (-(value : Int))) else none
  else if value < integerLimit then some (Int64.ofNat value) else none

end Numeral

end Vtl
