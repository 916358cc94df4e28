import Vtl.Column
import Vtl.Json.Basic

namespace Vtl

namespace Column

def toJson (column : Column) : Json :=
  .object [("name", .string column.name), ("role", .string column.role.text),
    ("type", .string column.type.text)]

/-- The column with a name, a role and a type that are given as documents. -/
def ofFields? (name role type : Json) : Option Column := do
  let .string name := name | none
  let role ← role.bareChoice?.bind Role.ofText?
  let type ← type.bareChoice?.bind ValueType.ofText?
  some ⟨name, role, type⟩

/-- The values of all members with a name. -/
def fieldValues (members : List (String × Json)) (name : String) : List Json :=
  (members.filter fun member => member.1 = name).map Prod.snd

/-- A column is an object with a name, a role and a type, each given once, or the list of the three.
Other members do not matter. -/
def ofJson? : Json → Option Column
  | .array [name, role, type] => ofFields? name role type
  | .object members =>
    match fieldValues members "name", fieldValues members "role", fieldValues members "type" with
    | [name], [role], [type] => ofFields? name role type
    | _, _, _ => none
  | _ => none

/-- How deeply the parts of a column that count are nested. -/
def depthOf : Json → Nat
  | .object members =>
    Json.membersDepth (members.filter fun member => member.1 ∈ ["name", "role", "type"]) + 1
  | json => json.depth

def listDepthOf : Json → Nat
  | .array items => items.foldr (fun item deepest => max (depthOf item) deepest) 0 + 1
  | json => json.depth

def listOfJson? : Json → Option (List Column)
  | .array items => items.mapM ofJson?
  | _ => none

end Column

end Vtl
