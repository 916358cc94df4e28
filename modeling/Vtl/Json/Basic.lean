import Vtl.Entries
import Vtl.Number.Numeral

namespace Vtl

/-- A JSON document, numbers as they are written and members in the order in which they stand. -/
inductive Json where
  | null
  | boolean (value : Bool)
  | number (numeral : Numeral)
  | string (text : String)
  | array (items : List Json)
  | object (members : List (String × Json))
  /-- A string that stands for no text, or an object with such a name. Both are well written, but can
  only be passed over. -/
  | unreadable

namespace Json

mutual

/-- How deeply arrays and objects are nested. -/
def depth : Json → Nat
  | .array items => itemsDepth items + 1
  | .object members => membersDepth members + 1
  | _ => 0

def itemsDepth : List Json → Nat
  | [] => 0
  | item :: items => max item.depth (itemsDepth items)

def membersDepth : List (String × Json) → Nat
  | [] => 0
  | (_, value) :: members => max value.depth (membersDepth members)

end

mutual

/-- Whether every string of a document stands for a text and every number is within the range of
numbers. -/
def readable : Json → Bool
  | .number n => n.scaled?.isSome
  | .array items => itemsReadable items
  | .object members => membersReadable members
  | .unreadable => false
  | _ => true

def itemsReadable : List Json → Bool
  | [] => true
  | item :: items => item.readable && itemsReadable items

def membersReadable : List (String × Json) → Bool
  | [] => true
  | (_, value) :: members => value.readable && membersReadable members

end

mutual

/-- A document in which the names of each object are distinct and ascending. Of members with one name
the last one counts. -/
def canonical : Json → Json
  | .array items => .array (canonicalItems items)
  | .object members => .object (Entries.ofList (canonicalMembers members))
  | json => json

def canonicalItems : List Json → List Json
  | [] => []
  | item :: items => item.canonical :: canonicalItems items

def canonicalMembers : List (String × Json) → List (String × Json)
  | [] => []
  | (name, value) :: members => (name, value.canonical) :: canonicalMembers members

end

/-- The name that a document picks from a list of choices, and what it holds for it: a string picks
a choice that holds nothing, an object with one member a choice that holds its value. -/
def choice? : Json → Option (String × Option Json)
  | .string name => some (name, none)
  | .object [(name, value)] => some (name, some value)
  | _ => none

/-- The name of a choice that holds nothing. It may also be written as holding null. -/
def bareChoice? (json : Json) : Option String :=
  match json.choice? with
  | some (name, none) | some (name, some .null) => some name
  | _ => none

end Json

end Vtl
