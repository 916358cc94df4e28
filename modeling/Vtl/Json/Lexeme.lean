import Vtl.Json.Basic

namespace Vtl

namespace Json

inductive Lexeme where
  | openBracket
  | closeBracket
  | openBrace
  | closeBrace
  | comma
  | colon
  | null
  | boolean (value : Bool)
  | number (numeral : Numeral)
  /-- A string with the text it stands for, if it stands for one. -/
  | string (text : Option (List Char))
deriving DecidableEq

namespace Lexeme

def hexValue? (c : Char) : Option Nat :=
  if c.isDigit then some (c.toNat - '0'.toNat)
  else if 'a' ≤ c ∧ c ≤ 'f' then some (c.toNat - 'a'.toNat + 10)
  else if 'A' ≤ c ∧ c ≤ 'F' then some (c.toNat - 'A'.toNat + 10)
  else none

/-- What a letter behind a backslash stands for. -/
def unescape? : Char → Option Char
  | '"' => some '"'
  | '\\' => some '\\'
  | '/' => some '/'
  | 'b' => some '\x08'
  | 'f' => some '\x0c'
  | 'n' => some '\n'
  | 'r' => some '\r'
  | 't' => some '\t'
  | _ => none

/-- A part of a string: a character, or an escaped unit of sixteen bits. -/
inductive Piece where
  | char (c : Char)
  | unit (code : Nat)

def isHighHalf (code : Nat) : Bool := 0xD800 ≤ code && code < 0xDC00

def isLowHalf (code : Nat) : Bool := 0xDC00 ≤ code && code < 0xE000

/-- The text that the parts of a string stand for. A code point beyond sixteen bits is escaped in two
halves, the high one first, and a half on its own stands for nothing. -/
def textOf : List Piece → Option (List Char)
  | [] => some []
  | .char c :: pieces => (textOf pieces).map (c :: ·)
  | .unit high :: .unit low :: pieces =>
    if isHighHalf high then
      if isLowHalf low then
        (textOf pieces).map (Char.ofNat (0x10000 + (high - 0xD800) * 0x400 + (low - 0xDC00)) :: ·)
      else none
    else if isLowHalf high then none
    else (textOf (.unit low :: pieces)).map (Char.ofNat high :: ·)
  | .unit code :: pieces =>
    if isHighHalf code || isLowHalf code then none else (textOf pieces).map (Char.ofNat code :: ·)

/-- Where a reader stands inside a string. -/
inductive Inside where
  | plain
  | escape
  | hex (due code : Nat)

/-- The parts of a string whose opening quote was passed, and what follows its closing quote. -/
def stringBody : Inside → List Char → Option (List Piece × List Char)
  | _, [] => none
  | .plain, c :: cs =>
    if c = '"' then some ([], cs)
    else if c = '\\' then stringBody .escape cs
    else if c.toNat < 0x20 then none
    else (stringBody .plain cs).map fun (pieces, rest) => (.char c :: pieces, rest)
  | .escape, c :: cs =>
    if c = 'u' then stringBody (.hex 4 0) cs
    else
      match unescape? c with
      | some meant => (stringBody .plain cs).map fun (pieces, rest) => (.char meant :: pieces, rest)
      | none => none
  | .hex due code, c :: cs =>
    match hexValue? c with
    | none => none
    | some digit =>
      if 1 < due then stringBody (.hex (due - 1) (16 * code + digit)) cs
      else
        (stringBody .plain cs).map fun (pieces, rest) => (.unit (16 * code + digit) :: pieces, rest)

/-- The digits behind a point, none if there is no point. A point needs a digit behind it. -/
def fraction : List Char → Option (List Char × List Char)
  | '.' :: cs =>
    let ds := cs.takeWhile Char.isDigit
    if ds.isEmpty then none else some (ds, cs.drop ds.length)
  | cs => some ([], cs)

/-- The exponent at the head of a text, if there is one. It needs a digit. -/
def exponent : List Char → Option (Option Int × List Char)
  | c :: cs =>
    if c = 'e' ∨ c = 'E' then
      let signed := match cs with
        | '+' :: rest => (false, rest)
        | '-' :: rest => (true, rest)
        | rest => (false, rest)
      let ds := signed.2.takeWhile Char.isDigit
      let value : Int := digitsValue ds
      if ds.isEmpty then none
      else some (some (if signed.1 then -value else value), signed.2.drop ds.length)
    else some (none, c :: cs)
  | [] => some (none, [])

/-- The numeral at the head of a text, its sign already passed. Only zero begins with a zero. -/
def numeral (negative : Bool) (cs : List Char) : Option (Numeral × List Char) := do
  let whole := cs.takeWhile Char.isDigit
  if whole.isEmpty || (whole.head? == some '0' && 1 < whole.length) then none
  else
    let (fraction, rest) ← fraction (cs.drop whole.length)
    let (exponent, rest) ← exponent rest
    some (⟨negative, whole, fraction, exponent⟩, rest)

/-- The lexeme at the head of a text that begins with `c`, and what follows it. -/
def read (c : Char) (cs : List Char) : Option (Lexeme × List Char) :=
  match c, cs with
  | '[', cs => some (.openBracket, cs)
  | ']', cs => some (.closeBracket, cs)
  | '{', cs => some (.openBrace, cs)
  | '}', cs => some (.closeBrace, cs)
  | ',', cs => some (.comma, cs)
  | ':', cs => some (.colon, cs)
  | 'n', 'u' :: 'l' :: 'l' :: cs => some (.null, cs)
  | 't', 'r' :: 'u' :: 'e' :: cs => some (.boolean true, cs)
  | 'f', 'a' :: 'l' :: 's' :: 'e' :: cs => some (.boolean false, cs)
  | '"', cs => (stringBody .plain cs).map fun (pieces, rest) => (.string (textOf pieces), rest)
  | '-', cs => (numeral true cs).map fun (n, rest) => (.number n, rest)
  | c, cs => (numeral false (c :: cs)).map fun (n, rest) => (.number n, rest)

theorem stringBody_length {inside : Inside} {cs rest : List Char} {pieces : List Piece}
    (read : stringBody inside cs = some (pieces, rest)) : rest.length < cs.length := by
  fun_induction stringBody inside cs generalizing pieces rest <;> grind [Option.map_eq_some_iff]

theorem fraction_length {cs ds rest : List Char} (read : fraction cs = some (ds, rest)) :
    rest.length ≤ cs.length := by
  unfold fraction at read
  split at read <;> grind

theorem exponent_length {cs rest : List Char} {e : Option Int}
    (read : exponent cs = some (e, rest)) : rest.length ≤ cs.length := by
  unfold exponent at read
  split at read
  · split at read
    · split at read <;> grind
    · grind
  · grind

theorem numeral_length {negative : Bool} {cs rest : List Char} {n : Numeral}
    (read : numeral negative cs = some (n, rest)) : rest.length < cs.length := by
  unfold numeral at read
  simp only at read
  split at read
  · cases read
  · next filled =>
    simp only [Bool.or_eq_true, not_or, List.isEmpty_iff] at filled
    have whole : (cs.takeWhile Char.isDigit).length ≤ cs.length := (List.takeWhile_sublist _).length_le
    have some_digit := List.length_pos_iff.mpr filled.1
    simp only [Option.bind_eq_bind, Option.bind_eq_some_iff, Prod.exists] at read
    obtain ⟨ds, middle, atFraction, e, last, atExponent, done⟩ := read
    have first := fraction_length atFraction
    have second := exponent_length atExponent
    simp only [List.length_drop] at first
    cases done
    omega

theorem read_length {c : Char} {cs rest : List Char} {lexeme : Lexeme}
    (read : read c cs = some (lexeme, rest)) : rest.length ≤ cs.length := by
  unfold Lexeme.read at read
  split at read <;> grind [Option.map_eq_some_iff, → stringBody_length, → numeral_length]

end Lexeme

def isBlank (c : Char) : Bool := c == ' ' || c == '\n' || c == '\t' || c == '\r'

/-- The lexemes of a text, blanks between them left out. -/
def lexemes (cs : List Char) : Option (List Lexeme) :=
  match cs with
  | [] => some []
  | c :: cs =>
    if isBlank c then lexemes cs
    else
      match _read : Lexeme.read c cs with
      | none => none
      | some (lexeme, rest) => (lexemes rest).map (lexeme :: ·)
termination_by cs.length
decreasing_by
  · simp
  · have := Lexeme.read_length _read
    simp only [List.length_cons]
    omega

end Json

end Vtl
