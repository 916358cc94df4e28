import Vtl.Json.Lexeme

namespace Vtl

namespace Json

/-- The members of an object, the last first, unless one of them has a name that stands for no text. -/
abbrev Members := Option (List (String × Json))

/-- Adds a member that has just been read. -/
def Members.add (members : Members) (name : Option (List Char)) (value : Json) : Members :=
  match members, name with
  | some members, some name => some ((String.ofList name, value) :: members)
  | _, _ => none

def Members.close : Members → Json
  | some members => .object members.reverse
  | none => .unreadable

def ofText : Option (List Char) → Json
  | some text => .string (String.ofList text)
  | none => .unreadable

/-- An array or object that has begun, with what it already holds, the last first. -/
inductive Frame where
  | array (items : List Json)
  | object (members : Members) (name : Option (List Char))

mutual

/-- Reads on where a value is due. -/
def readValue (frames : List Frame) : List Lexeme → Option Json
  | .openBracket :: .closeBracket :: rest => readAfter frames (.array []) rest
  | .openBracket :: rest => readValue (.array [] :: frames) rest
  | .openBrace :: .closeBrace :: rest => readAfter frames (.object []) rest
  | .openBrace :: .string name :: .colon :: rest =>
    readValue (.object (some []) name :: frames) rest
  | .null :: rest => readAfter frames .null rest
  | .boolean value :: rest => readAfter frames (.boolean value) rest
  | .number numeral :: rest => readAfter frames (.number numeral) rest
  | .string text :: rest => readAfter frames (ofText text) rest
  | _ => none

/-- Reads on behind a value. -/
def readAfter (frames : List Frame) (value : Json) (lexemes : List Lexeme) : Option Json :=
  match frames, lexemes with
  | [], [] => some value
  | .array items :: outer, .comma :: rest => readValue (.array (value :: items) :: outer) rest
  | .array items :: outer, .closeBracket :: rest =>
    readAfter outer (.array (value :: items).reverse) rest
  | .object members name :: outer, .comma :: .string next :: .colon :: rest =>
    readValue (.object (members.add name value) next :: outer) rest
  | .object members name :: outer, .closeBrace :: rest =>
    readAfter outer (members.add name value).close rest
  | _, _ => none

end

/-- The document that a text writes, if it writes one. -/
def parse? (text : String) : Option Json := do
  let lexemes ← lexemes text.toList
  readValue [] lexemes

end Json

end Vtl
