import Vtl.Date.Text
import Vtl.Number.Text
import Vtl.Value.Basic

namespace Vtl

namespace Value

mutual

/-- The text of a value. A dataset is a line of column names and a line for each row, tabs between
the cells, and nothing where a cell is missing. -/
def text : Value → String
  | .null => "null"
  | .integer i => toString i.toInt
  | .number n => n.text
  | .string s => s
  | .boolean b => if b then "true" else "false"
  | .date d => d.text
  | .duration p => p
  | .dataset ⟨columns, rows⟩ =>
    let names := columns.map Column.name
    "\n".intercalate ("\t".intercalate names :: rowTexts names rows)

def rowTexts (names : List String) : List (List (String × Value)) → List String
  | [] => []
  | row :: rows =>
    let cells := cellTexts row
    "\t".intercalate (names.map fun name => (cells.value? name).getD "") :: rowTexts names rows

def cellTexts : List (String × Value) → Entries String
  | [] => []
  | (name, value) :: cells => (name, value.text) :: cellTexts cells

end

end Value

def Dataset.text (data : Dataset) : String := (Value.dataset data).text

end Vtl
