import Vtl.Date.Text
import Vtl.Json.Column
import Vtl.Json.Read
import Vtl.Value.Basic

namespace Vtl

/-- Why a document is no value. -/
inductive ValueFault where
  | array
  | unrecognized
  | columns
  | rowShape
  | cell (column : String) (cause : ValueFault)
  | date (text : String)

/-- The causes of a fault, the outermost first. Faults inside a document or a date are not told apart
any further. -/
def ValueFault.causes : ValueFault → List String
  | .array => ["Arrays are not valid values"]
  | .unrecognized => ["Unrecognized object value; expected date, duration or dataset"]
  | .columns => ["Invalid dataset columns", "<json>"]
  | .rowShape => ["Dataset rows must be JSON objects"]
  | .cell column cause => s!"Invalid cell in column '{column}'" :: cause.causes
  | .date text => [s!"Invalid date '{text}'", "<date>"]

/-- Why a text gives no bindings. -/
inductive LoadFault where
  | noDocument
  | noObject
  | binding (name : String) (cause : ValueFault)

def LoadFault.causes : LoadFault → List String
  | .noDocument => ["Failed to parse bindings JSON", "<json>"]
  | .noObject => ["Bindings must be a JSON object"]
  | .binding name cause => s!"Invalid value for binding '{name}'" :: cause.causes

namespace Bindings

/-- Reads a cell as a column of some type holds it. -/
abbrev CellReader := ValueType → Except ValueFault Value

def loadDate (text : String) : Except ValueFault Value :=
  match Date.read .strict text with
  | some date => .ok (.date date)
  | none => .error (.date text)

/-- An integer declared as a number becomes one, and a numeral that is no integer always is one. -/
def loadNumber (numeral : Numeral) (declared : Option ValueType) : Value :=
  match numeral.toInt64? with
  | some i => if declared = some .number then .number (.ofInt i.toInt) else .integer i
  | none => .number (numeral.scaled?.getD (.ofNat 0))

/-- A string declared as a date or a duration becomes one. -/
def loadString (text : String) (declared : Option ValueType) : Except ValueFault Value :=
  match declared with
  | some .date => loadDate text
  | some .duration => .ok (.duration text)
  | _ => .ok (.string text)

/-- A row with a cell for each column, null where the document has none. Cells that no column names
are left out. -/
def loadRow (columns : List Column) (cells : Entries CellReader) : Except ValueFault Row :=
  columns.foldlM
    (fun row column =>
      match cells.value? column.name with
      | none => .ok (row.put column.name .null)
      | some cell =>
        match cell column.type with
        | .ok value => .ok (row.put column.name value)
        | .error cause => .error (.cell column.name cause))
    []

/-- A dataset, given its columns and, for each row, the readers of its cells if it is an object. -/
def loadDataset (columns : Json) (rows : List (Option (Entries CellReader))) :
    Except ValueFault Value :=
  match Column.listOfJson? columns with
  | none => .error .columns
  | some columns => do
    let rows ← rows.mapM fun row =>
      match row with
      | some cells => loadRow columns cells
      | none => .error .rowShape
    pure (.dataset ⟨columns, rows⟩)

/-- An object is a date, a duration or a dataset, the first of them whose members it has. -/
def loadObject (members : Entries Json)
    (rows : Entries (Option (List (Option (Entries CellReader))))) : Except ValueFault Value :=
  match members.value? "date", members.value? "duration" with
  | some (.string text), _ => loadDate text
  | _, some (.string indicator) => .ok (.duration indicator)
  | _, _ =>
    match members.value? "columns", rows.value? "rows" with
    | some columns, some (some rows) => loadDataset columns rows
    | _, _ => .error .unrecognized

mutual

/-- The value of a document, given the type that is declared for it, if any. -/
def loadValue : Json → Option ValueType → Except ValueFault Value
  | .null, _ => .ok .null
  | .boolean b, _ => .ok (.boolean b)
  | .number numeral, declared => .ok (loadNumber numeral declared)
  | .string text, declared => loadString text declared
  | .array _, _ => .error .array
  | .object members, _ => loadObject members (rowReaders members)
  | .unreadable, _ => .error .unrecognized

/-- The rows that each member of an object would give, if it is an array. -/
def rowReaders : List (String × Json) → List (String × Option (List (Option (Entries CellReader))))
  | [] => []
  | (name, .array items) :: members => (name, some (itemReaders items)) :: rowReaders members
  | (name, _) :: members => (name, none) :: rowReaders members

def itemReaders : List Json → List (Option (Entries CellReader))
  | [] => []
  | .object cells :: items => some (cellReaders cells) :: itemReaders items
  | _ :: items => none :: itemReaders items

def cellReaders : List (String × Json) → Entries CellReader
  | [] => []
  | (name, json) :: cells => (name, fun type => loadValue json (some type)) :: cellReaders cells

end

/-- The bindings that an object gives. Members come in the order of their names, so the fault of the
least name wins. -/
def loadMembers (members : Entries Json) : Except LoadFault Bindings :=
  members.foldlM
    (fun bindings (name, json) =>
      match loadValue json none with
      | .ok value => .ok (bindings.put name value)
      | .error cause => .error (.binding name cause))
    ([] : Bindings)

/-- Reads bindings from the text of a JSON object. A document is refused if it is nested deeper than
127 levels, has a number out of range or a string that stands for no text. -/
def load (text : String) : Except LoadFault Bindings :=
  match Json.parse? text with
  | none => .error .noDocument
  | some json =>
    if json.depth ≤ 127 && json.readable then
      match json.canonical with
      | .object members => loadMembers members
      | _ => .error .noObject
    else .error .noDocument

end Bindings

end Vtl
