import Vtl.SyntaxError
import Vtl.Text.Alphabetic
import Vtl.Text.Numeric

namespace Vtl

/-- What stands at the head of a text: a kind of token, the text it stands for, and the number of
characters it takes. -/
structure Lexeme where
  kind : Token.Kind
  text : List Char
  length : Nat

namespace Lexeme

/-- The operators and delimiters. A symbol that begins another one stands after it. -/
def symbols : List (List Char × Token.Kind) :=
  [(['|', '|'], .concat), (['<', '='], .lessEqual), (['<', '>'], .notEqual),
    (['>', '='], .greaterEqual), ([':', '='], .assign), (['+'], .plus), (['-'], .minus),
    (['*'], .times), (['/'], .over), (['='], .equal), (['<'], .less), (['>'], .greater),
    (['('], .leftParen), ([')'], .rightParen), ([';'], .semicolon)]

def isNameStart (c : Char) : Bool := CharClass.alphabetic.contains c || c == '_'

def isNamePart (c : Char) : Bool :=
  CharClass.alphabetic.contains c || CharClass.numeric.contains c || c == '_'

/-- The contents of a string constant whose opening quote was passed, and the characters up to and
with its closing quote. A quote written twice is part of the contents. -/
def stringBody : List Char → Option (List Char × Nat)
  | [] => none
  | '"' :: '"' :: cs => (stringBody cs).map fun (text, count) => ('"' :: text, count + 2)
  | '"' :: _ => some ([], 1)
  | c :: cs => (stringBody cs).map fun (text, count) => (c :: text, count + 1)

/-- A name or a reserved word, from a first character that may start one. -/
def word (cs : List Char) : Lexeme :=
  let name := cs.takeWhile isNamePart
  ⟨(Token.Kind.keyword? name).getD .identifier, name, name.length⟩

/-- An integer constant, or a number constant if a point and a digit follow. -/
def numeral (cs : List Char) : Lexeme :=
  let whole := cs.takeWhile Char.isDigit
  match cs.drop whole.length with
  | '.' :: rest =>
    let fraction := rest.takeWhile Char.isDigit
    if fraction.isEmpty then ⟨.integerConstant, whole, whole.length⟩
    else ⟨.numberConstant, whole ++ '.' :: fraction, whole.length + 1 + fraction.length⟩
  | _ => ⟨.integerConstant, whole, whole.length⟩

/-- The lexeme at the head of a text that has no symbol there. A failure tells how many characters
were read before it showed. -/
def readOther (c : Char) (cs : List Char) : Except (SyntaxError.Cause × Nat) Lexeme :=
  if c = '|' then .error (.loneBar, 1)
  else if c = ':' then .error (.loneColon, 1)
  else if c = '"' then
    match stringBody cs with
    | some (text, count) => .ok ⟨.stringConstant, text, count + 1⟩
    | none => .error (.openString, cs.length + 1)
  else if c = '\'' then
    let name := cs.takeWhile (· != '\'')
    if name.length < cs.length then .ok ⟨.identifier, name, name.length + 2⟩
    else .error (.openName, cs.length + 1)
  else if isNameStart c then .ok (word (c :: cs))
  else if c.isDigit then .ok (numeral (c :: cs))
  else .error (.strayCharacter c, 0)

def read (c : Char) (cs : List Char) : Except (SyntaxError.Cause × Nat) Lexeme :=
  match symbols.find? fun symbol => symbol.1.isPrefixOf (c :: cs) with
  | some (spelling, kind) => .ok ⟨kind, spelling, spelling.length⟩
  | none => readOther c cs

theorem isNamePart_of_isNameStart {c : Char} (start : isNameStart c = true) :
    isNamePart c = true := by
  simp only [isNameStart, isNamePart, Bool.or_eq_true] at start ⊢
  rcases start with letter | underscore
  · exact .inl (.inl letter)
  · exact .inr underscore

theorem numeral_length_pos {c : Char} (digit : c.isDigit = true) (cs : List Char) :
    0 < (numeral (c :: cs)).length := by
  have whole : 0 < ((c :: cs).takeWhile Char.isDigit).length := by simp [digit]
  unfold numeral
  simp only
  split
  · split
    · exact whole
    · simp only; omega
  · exact whole

theorem keyword?_ne_endOfInput (word : List Char) :
    Token.Kind.keyword? word ≠ some .endOfInput := by
  simp only [Token.Kind.keyword?, ne_eq, Option.map_eq_some_iff, not_exists, not_and]
  intro entry found
  have member := List.mem_of_find?_eq_some found
  simp only [Token.Kind.keywords, List.mem_cons, List.not_mem_nil, or_false] at member
  rcases member with h | h | h | h | h | h | h <;> subst h <;> simp

/-- A lexeme takes at least one character and is never the end of the input. -/
theorem read_progress {c : Char} {cs : List Char} {lexeme : Lexeme}
    (read : read c cs = .ok lexeme) : 0 < lexeme.length ∧ lexeme.kind ≠ .endOfInput := by
  unfold Lexeme.read at read
  split at read
  · next spelling kind found =>
    cases read
    have member := List.mem_of_find?_eq_some found
    simp only [symbols, List.mem_cons, Prod.mk.injEq, List.not_mem_nil, or_false] at member
    rcases member with h | h | h | h | h | h | h | h | h | h | h | h | h | h | h <;>
      obtain ⟨rfl, rfl⟩ := h <;> simp
  · unfold readOther at read
    split at read
    · cases read
    split at read
    · cases read
    split at read
    · split at read
      · cases read; simp
      · cases read
    split at read
    · simp only at read
      split at read
      · cases read; simp
      · cases read
    split at read
    · next start =>
      cases read
      refine ⟨by simp [word, isNamePart_of_isNameStart start], ?_⟩
      have other := keyword?_ne_endOfInput ((c :: cs).takeWhile isNamePart)
      simp only [word]
      cases h : Token.Kind.keyword? ((c :: cs).takeWhile isNamePart) with
      | none => simp
      | some kind => rw [h] at other; simpa using other
    split at read
    · next digit =>
      cases read
      refine ⟨numeral_length_pos digit cs, ?_⟩
      unfold numeral
      simp only
      split
      · split <;> simp
      · simp
    · cases read

end Lexeme

end Vtl
