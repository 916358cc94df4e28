import Vtl.Text.Digits

namespace Vtl

/-- A binary64 floating-point number. It is kept as its bits, so that two NaNs with different
payloads are different numbers here, whatever the hardware makes of them. -/
structure Number where
  bits : UInt64
deriving DecidableEq

namespace Number

/-- The value of the bit that holds the sign. -/
def signBit : Nat := 0x8000000000000000

/-- The value of the lowest bit above the significand. -/
def exponentBit : Nat := 0x0010000000000000

/-- The bits below the sign. Finite numbers come first in ascending order, then infinity, then the
NaNs. -/
def magnitude (x : Number) : Nat := x.bits.toNat % signBit

def negative (x : Number) : Bool := signBit ≤ x.bits.toNat

def infinite : Nat := 0x7ff0000000000000

def isNaN (x : Number) : Bool := infinite < x.magnitude

def isFinite (x : Number) : Bool := x.magnitude < infinite

def isZero (x : Number) : Bool := x.magnitude == 0

def ofMagnitude (negative : Bool) (magnitude : Nat) : Number :=
  ⟨UInt64.ofNat (if negative then signBit + magnitude else magnitude)⟩

theorem magnitude_ofMagnitude {negative : Bool} {m : Nat} (bound : m < signBit) :
    (ofMagnitude negative m).magnitude = m := by
  simp only [signBit] at bound
  cases negative <;> simp [magnitude, ofMagnitude, signBit] <;> omega

theorem negative_ofMagnitude {negative : Bool} {m : Nat} (bound : m < signBit) :
    (ofMagnitude negative m).negative = negative := by
  simp only [signBit] at bound
  cases negative <;> simp [Number.negative, ofMagnitude, signBit] <;> omega

/-- A number is its sign and its magnitude. -/
theorem eq_of_magnitude {x y : Number} (sign : x.negative = y.negative)
    (magnitude : x.magnitude = y.magnitude) : x = y := by
  obtain ⟨first⟩ := x
  obtain ⟨second⟩ := y
  have firstBound := first.toNat_lt
  have secondBound := second.toNat_lt
  have above : signBit ≤ first.toNat ↔ signBit ≤ second.toNat := decide_eq_decide.mp sign
  simp only [Number.magnitude, signBit] at above magnitude
  exact congrArg Number.mk (UInt64.toNat_inj.mp (by omega))

/-- The whole number `m` of a finite `x = ± m · 2 ^ q`. -/
def significand (x : Number) : Nat :=
  if x.magnitude < exponentBit then x.magnitude else exponentBit + x.magnitude % exponentBit

/-- The power `q` of a finite `x = ± m · 2 ^ q`. -/
def exponent (x : Number) : Int :=
  if x.magnitude < exponentBit then -1074 else (x.magnitude / exponentBit : Nat) - 1075

def toFloat (x : Number) : Float := Float.ofBits x.bits

def ofFloat (f : Float) : Number := ⟨f.toBits⟩

/-- The NaN that stands for a result no operand explains, such as zero divided by zero. -/
def undefined : Number := ⟨0xfff8000000000000⟩

def quiet (x : Number) : Number := ⟨x.bits ||| 0x0008000000000000⟩

/-- Carries out a floating-point operation: the first NaN among the operands is handed on. -/
def combine (operation : Float → Float → Float) (x y : Number) : Number :=
  if x.isNaN then x.quiet
  else if y.isNaN then y.quiet
  else
    let result := ofFloat (operation x.toFloat y.toFloat)
    if result.isNaN then undefined else result

def add : Number → Number → Number := combine (· + ·)

def sub : Number → Number → Number := combine (· - ·)

def mul : Number → Number → Number := combine (· * ·)

def div : Number → Number → Number := combine (· / ·)

def neg (x : Number) : Number := ⟨x.bits ^^^ 0x8000000000000000⟩

/-- The place of a number on the line of all numbers that are not NaN; both zeros share one. -/
def rank (x : Number) : Int := if x.negative then -(x.magnitude : Int) else x.magnitude

/-- The order of two numbers, unless one of them is NaN. -/
def order? (x y : Number) : Option Ordering :=
  if x.isNaN || y.isNaN then none else some (compare x.rank y.rank)

/-- Numeric equality: zeros of either sign agree, and a NaN equals nothing. -/
def equals (x y : Number) : Bool := !x.isNaN && !y.isNaN && x.rank == y.rank

/-- The integer nearest to `x` in the direction of zero, held within 64 bits; zero for NaN. -/
def truncate (x : Number) : Int64 :=
  if x.isNaN then 0
  else
    let whole := x.significand * Nat.pow 2 x.exponent.toNat / Nat.pow 2 (-x.exponent).toNat
    if x.negative then Int64.ofInt (-(min whole integerLimit : Nat))
    else Int64.ofNat (min whole (integerLimit - 1))

end Number

end Vtl
