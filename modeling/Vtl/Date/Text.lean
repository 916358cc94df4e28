import Vtl.Date.Basic
import Vtl.Text.Blank
import Vtl.Text.Digits

namespace Vtl

namespace Date

/-- A year takes four digits or more, and a sign outside 0 to 9999. -/
def yearText (year : Int) : List Char :=
  if 0 ≤ year ∧ year ≤ 9999 then padded 4 year.toNat
  else (if year < 0 then '-' else '+') :: padded 4 year.natAbs

def chars (date : Date) : List Char :=
  yearText date.year ++ '-' :: padded 2 date.month ++ '-' :: padded 2 date.day

def text (date : Date) : String := String.ofList date.chars

/-- Whether blanks may also stand before a hyphen and at the end of a written date. Before a number
they always may. -/
inductive Spacing where
  | strict
  | loose

def skipBlanks (cs : List Char) : List Char := cs.dropWhile CharClass.blank.contains

/-- The digits at the head of a text, at most as many as the limit says, and what follows them. -/
def readDigits (limit : Option Nat) (cs : List Char) : Option (Nat × List Char) :=
  let run := cs.takeWhile Char.isDigit
  let ds := match limit with
    | some most => run.take most
    | none => run
  if ds.isEmpty then none else some (digitsValue ds, cs.drop ds.length)

/-- A year has up to four digits, or a sign and any number of them. -/
def readYear : List Char → Option (Int × List Char)
  | '-' :: cs => (readDigits none cs).map fun (n, rest) => (-(n : Int), rest)
  | '+' :: cs => (readDigits none cs).map fun (n, rest) => ((n : Int), rest)
  | cs => (readDigits (some 4) cs).map fun (n, rest) => ((n : Int), rest)

def Spacing.skip : Spacing → List Char → List Char
  | .strict, cs => cs
  | .loose, cs => skipBlanks cs

def readHyphen (spacing : Spacing) (cs : List Char) : Option (List Char) :=
  match spacing.skip cs with
  | '-' :: rest => some rest
  | _ => none

/-- Reads year, month and day with hyphens between them, one or two digits for month and day. -/
def readChars (spacing : Spacing) (cs : List Char) : Option Date := do
  let (year, rest) ← readYear (skipBlanks cs)
  let rest ← readHyphen spacing rest
  let (month, rest) ← readDigits (some 2) (skipBlanks rest)
  let rest ← readHyphen spacing rest
  let (day, rest) ← readDigits (some 2) (skipBlanks rest)
  if (spacing.skip rest).isEmpty then ofParts? year month day else none

def read (spacing : Spacing) (text : String) : Option Date := readChars spacing text.toList

end Date

end Vtl
