namespace Vtl

/-- The least natural number that is too great for an integer of 64 bits. -/
def integerLimit : Nat := 0x8000000000000000

/-- A number written with at least `width` digits. -/
def padded (width n : Nat) : List Char :=
  let ds := Nat.toDigits 10 n
  List.replicate (width - ds.length) '0' ++ ds

/-- The number that a run of decimal digits writes. -/
def digitsValue (ds : List Char) : Nat :=
  ds.foldl (fun n c => 10 * n + (c.toNat - '0'.toNat)) 0

end Vtl
