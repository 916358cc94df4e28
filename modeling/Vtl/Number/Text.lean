import Vtl.Number.Numeral
import Vtl.Number.Shortest

namespace Vtl

namespace Decimal

def digitText (d : Decimal) : List Char := Nat.toDigits 10 d.digits

/-- The power of ten of the leading digit. -/
def order (d : Decimal) : Int := d.digitText.length - 1 + d.power

/-- A decimal written without exponent: `1200`, `0.5`, `3.25`. -/
def positional (negative : Bool) (d : Decimal) : Numeral :=
  let ds := d.digitText
  let places := (-d.power).toNat
  if 0 ≤ d.power then ⟨negative, ds ++ List.replicate d.power.toNat '0', [], none⟩
  else if places < ds.length then
    ⟨negative, ds.take (ds.length - places), ds.drop (ds.length - places), none⟩
  else ⟨negative, ['0'], List.replicate (places - ds.length) '0' ++ ds, none⟩

/-- A decimal written with one digit before the point and an exponent. -/
def scientific (negative : Bool) (d : Decimal) : Numeral :=
  ⟨negative, d.digitText.take 1, d.digitText.drop 1, some d.order⟩

end Decimal

namespace Number

/-- The text of a number: the fewest digits that read back, never an exponent, and of two equally
near decimals the greater. -/
def text (x : Number) : String :=
  if x.isNaN then "NaN"
  else if x.isFinite then String.ofList ((x.shortest .up).positional x.negative).chars
  else if x.negative then "-inf"
  else "inf"

/-- The numeral of a finite number in a JSON document: a fraction always shows, and leading digits
outside `10 ^ -5` to `10 ^ 15` take an exponent. Of two equally near decimals the even one is taken.
Other numbers have no numeral. -/
def toNumeral? (x : Number) : Option Numeral :=
  if x.isFinite then
    let d := x.shortest .even
    if -5 ≤ d.order ∧ d.order ≤ 15 then
      let plain := d.positional x.negative
      some (if plain.fraction.isEmpty then { plain with fraction := ['0'] } else plain)
    else some (d.scientific x.negative)
  else none

end Number

end Vtl
