import Vtl.Date.Text
import Vtl.Json.Column
import Vtl.Json.Read
import Vtl.Json.Write
import Vtl.Number.Text
import Vtl.Value.Basic

namespace Vtl

namespace Value

mutual

/-- The document of a value: an object that names its kind. A number without numeral is null there. -/
def toJson : Value → Json
  | .null => .string "Null"
  | .integer i => .object [("Integer", .number (.ofInt i.toInt))]
  | .number n =>
    .object [("Number", match n.toNumeral? with
      | some numeral => .number numeral
      | none => .null)]
  | .string s => .object [("String", .string s)]
  | .boolean b => .object [("Boolean", .boolean b)]
  | .date d => .object [("Date", .string d.text)]
  | .duration p => .object [("Duration", .string p)]
  | .dataset ⟨columns, rows⟩ =>
    .object [("Dataset", .object
      [("columns", .array (columns.map Column.toJson)), ("rows", .array (rowsToJson rows))])]

def rowsToJson : List (List (String × Value)) → List Json
  | [] => []
  | row :: rows => .object (cellsToJson row) :: rowsToJson rows

def cellsToJson : List (String × Value) → List (String × Json)
  | [] => []
  | (name, value) :: cells => (name, value.toJson) :: cellsToJson cells

end

/-- The value of a kind that holds a single scalar. -/
def ofScalar? : String → Json → Option Value
  | "Null", .null => some .null
  | "Integer", .number n => n.toInt64?.map .integer
  | "Number", .number n => n.scaled?.map .number
  | "String", .string s => some (.string s)
  | "Boolean", .boolean b => some (.boolean b)
  | "Date", .string s => (Date.read .loose s).map .date
  | "Duration", .string s => some (.duration s)
  | _, _ => none

/-- A dataset from the documents that were given for its columns and its rows, each of them once. -/
def ofParts? : List (Option (List Column)) → List (Option (List Row)) → Option Value
  | [some columns], [some rows] => some (.dataset ⟨columns, rows⟩)
  | _, _ => none

mutual

/-- Reads the document of a value. -/
def ofJson? : Json → Option Value
  | .string kind => if kind = "Null" then some .null else none
  | .object [(kind, .object members)] =>
    if kind = "Dataset" then ofParts? (columnsIn members) (rowsIn members) else none
  | .object [(kind, .array [columns, .array rows])] =>
    if kind = "Dataset" then ofParts? [Column.listOfJson? columns] [rowsOf? rows] else none
  | .object [(kind, scalar)] => ofScalar? kind scalar
  | _ => none

/-- What the members called `columns` hold. -/
def columnsIn : List (String × Json) → List (Option (List Column))
  | [] => []
  | (name, json) :: members =>
    if name = "columns" then Column.listOfJson? json :: columnsIn members else columnsIn members

/-- What the members called `rows` hold. -/
def rowsIn : List (String × Json) → List (Option (List Row))
  | [] => []
  | (name, .array rows) :: members =>
    if name = "rows" then rowsOf? rows :: rowsIn members else rowsIn members
  | (name, _) :: members => if name = "rows" then none :: rowsIn members else rowsIn members

def rowsOf? : List Json → Option (List Row)
  | [] => some []
  | .object cells :: rows => do
    let row ← cellsOf? cells
    let rest ← rowsOf? rows
    some (Entries.ofList row :: rest)
  | _ :: _ => none

def cellsOf? : List (String × Json) → Option (List (String × Value))
  | [] => some []
  | (name, json) :: cells => do
    let value ← ofJson? json
    let rest ← cellsOf? cells
    some ((name, value) :: rest)

end

mutual

/-- How deeply the parts of a document that count for its value are nested. -/
def depthOf : Json → Nat
  | .object [(_, .object members)] => partsDepth members + 2
  | .object [(_, .array [columns, .array rows])] =>
    max (Column.listDepthOf columns) (rowsDepth rows + 1) + 2
  | json => json.depth

/-- Of the members of a dataset only `columns` and `rows` count. -/
def partsDepth : List (String × Json) → Nat
  | [] => 0
  | (name, .array items) :: members =>
    let own := if name = "columns" then Column.listDepthOf (.array items)
      else if name = "rows" then rowsDepth items + 1
      else 0
    max own (partsDepth members)
  | _ :: members => partsDepth members

def rowsDepth : List Json → Nat
  | [] => 0
  | .object cells :: rows => max (cellsDepth cells + 1) (rowsDepth rows)
  | _ :: rows => rowsDepth rows

def cellsDepth : List (String × Json) → Nat
  | [] => 0
  | (_, value) :: cells => max (depthOf value) (cellsDepth cells)

end

/-- The text that a value is stored as. -/
def jsonText (value : Value) : String := String.ofList value.toJson.compact

/-- Reads a stored value. A document is refused if what counts of it is nested deeper than 127 levels.
Members that do not count are passed over, however deep they are. -/
def ofJsonText? (text : String) : Option Value := do
  let json ← Json.parse? text
  if depthOf json ≤ 127 then ofJson? json else none

end Value

end Vtl
