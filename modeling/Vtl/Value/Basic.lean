import Vtl.Column
import Vtl.Date.Basic
import Vtl.Entries
import Vtl.Number.Nearest

namespace Vtl

/-- Rows of cells under a list of columns. A row may lack a cell, and it may hold cells that no
column names. -/
structure Table (α : Type) where
  columns : List Column
  rows : List (List (String × α))

inductive Value where
  | null
  | integer (value : Int64)
  | number (value : Number)
  | string (text : String)
  | boolean (value : Bool)
  | date (value : Date)
  /-- A period indicator, such as `M` for a month. -/
  | duration (indicator : String)
  | dataset (data : Table Value)

abbrev Row := Entries Value

abbrev Dataset := Table Value

/-- What the names of an expression stand for. -/
abbrev Bindings := Entries Value

namespace Value

def type : Value → ValueType
  | .null => .null
  | .integer _ => .integer
  | .number _ => .number
  | .string _ => .string
  | .boolean _ => .boolean
  | .date _ => .date
  | .duration _ => .duration
  | .dataset _ => .dataset

def isNull : Value → Bool
  | .null => true
  | _ => false

/-- Whether a variable declared with a type may hold the value: null always, and an integer also
where a number is declared. -/
def fits (value : Value) (type : ValueType) : Bool :=
  value.type = .null || value.type = type || (value.type = .integer && type = .number)

def toNumber? : Value → Option Number
  | .integer i => some (.ofInt i.toInt)
  | .number n => some n
  | .date d => some (.ofInt d.dayNumber)
  | _ => none

/-- A date as the integer that stands for it in arithmetic; other values as they are. -/
def dayCount : Value → Value
  | .date d => .integer (Int64.ofInt d.dayNumber)
  | value => value

mutual

/-- Equality of values, numbers being compared by value: no NaN equals itself, and zeros of either
sign agree. -/
def equals : Value → Value → Bool
  | .null, .null => true
  | .integer a, .integer b => a == b
  | .number a, .number b => a.equals b
  | .string a, .string b => a == b
  | .boolean a, .boolean b => a == b
  | .date a, .date b => a == b
  | .duration a, .duration b => a == b
  | .dataset ⟨columns, rows⟩, .dataset other => columns == other.columns && rowsEqual rows other.rows
  | _, _ => false

def rowsEqual : List (List (String × Value)) → List (List (String × Value)) → Bool
  | [], [] => true
  | row :: rows, other :: others => cellsEqual row other && rowsEqual rows others
  | _, _ => false

def cellsEqual : List (String × Value) → List (String × Value) → Bool
  | [], [] => true
  | (name, value) :: cells, (other, otherValue) :: others =>
    name == other && value.equals otherValue && cellsEqual cells others
  | _, _ => false

end

end Value

/-- The cell of a row under a name, null where the row has none. -/
def Row.cell (row : Row) (name : String) : Value := (row.value? name).getD .null

namespace Dataset

def empty (columns : List Column) : Dataset := ⟨columns, []⟩

/-- Appends the row of the given cells; of cells with one name the last one counts. -/
def push (data : Dataset) (cells : List (String × Value)) : Dataset :=
  { data with rows := data.rows ++ [Entries.ofList cells] }

def column? (data : Dataset) (name : String) : Option Column :=
  data.columns.find? fun column => column.name = name

def identifiers (data : Dataset) : List Column :=
  data.columns.filter fun column => column.role = .identifier

/-- The first row that holds exactly `key` under the identifiers. A missing cell holds nothing, not
even null. -/
def findRow? (data : Dataset) (key : List Value) : Option Row :=
  let names := data.identifiers.map Column.name
  data.rows.find? fun row =>
    names.length == key.length &&
      (names.zip key).all fun (name, value) => (row.value? name).any fun cell => cell.equals value

end Dataset

end Vtl
