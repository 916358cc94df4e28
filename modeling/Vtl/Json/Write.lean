import Vtl.Json.Basic

namespace Vtl

namespace Json

/-- A character inside a string. Quotes, backslashes and control characters are escaped. -/
def escape (c : Char) : List Char :=
  if c = '"' then ['\\', '"']
  else if c = '\\' then ['\\', '\\']
  else if c = '\n' then ['\\', 'n']
  else if c = '\t' then ['\\', 't']
  else if c = '\r' then ['\\', 'r']
  else if c = '\x08' then ['\\', 'b']
  else if c = '\x0c' then ['\\', 'f']
  else if c.toNat < 0x20 then ['\\', 'u', '0', '0', (c.toNat / 16).digitChar, (c.toNat % 16).digitChar]
  else [c]

def quote (text : String) : List Char := '"' :: text.toList.flatMap escape ++ ['"']

/-- A string that stands for no text, as it has half of a code point only. -/
def loneHalf : List Char := ['"', '\\', 'u', 'd', '8', '0', '0', '"']

mutual

/-- A document on one line without blanks. -/
def compact : Json → List Char
  | .null => ['n', 'u', 'l', 'l']
  | .boolean true => ['t', 'r', 'u', 'e']
  | .boolean false => ['f', 'a', 'l', 's', 'e']
  | .number n => n.chars
  | .string text => quote text
  | .array [] => ['[', ']']
  | .array (item :: items) => '[' :: item.compact ++ compactItems items
  | .object [] => ['{', '}']
  | .object ((name, value) :: members) =>
    '{' :: quote name ++ ':' :: value.compact ++ compactMembers members
  | .unreadable => loneHalf

/-- The items behind the first one, with the bracket that closes them. -/
def compactItems : List Json → List Char
  | [] => [']']
  | item :: items => ',' :: item.compact ++ compactItems items

/-- The members behind the first one, with the brace that closes them. -/
def compactMembers : List (String × Json) → List Char
  | [] => ['}']
  | (name, value) :: members =>
    ',' :: quote name ++ ':' :: value.compact ++ compactMembers members

end

/-- A new line with the blanks that begin it. -/
def newLine (indent : Nat) : List Char := '\n' :: List.replicate indent ' '

mutual

/-- A document with each item and member on a line of its own, two blanks further in than what holds
it. -/
def pretty (indent : Nat) : Json → List Char
  | .array (item :: items) =>
    '[' :: newLine (indent + 2) ++ item.pretty (indent + 2) ++ prettyItems indent items
  | .object ((name, value) :: members) =>
    '{' :: newLine (indent + 2) ++ quote name ++ ':' :: ' ' :: value.pretty (indent + 2)
      ++ prettyMembers indent members
  | json => json.compact

def prettyItems (indent : Nat) : List Json → List Char
  | [] => newLine indent ++ [']']
  | item :: items =>
    ',' :: newLine (indent + 2) ++ item.pretty (indent + 2) ++ prettyItems indent items

def prettyMembers (indent : Nat) : List (String × Json) → List Char
  | [] => newLine indent ++ ['}']
  | (name, value) :: members =>
    ',' :: newLine (indent + 2) ++ quote name ++ ':' :: ' ' :: value.pretty (indent + 2)
      ++ prettyMembers indent members

end

end Json

end Vtl
