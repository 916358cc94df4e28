import Vtl.Proofs.Loading
import Vtl.Proofs.StoredValues

namespace Vtl

/-- A way into nested datasets, from each to one of its cells: the place of the row and the name of the
cell. -/
abbrev CellPath := List (Nat × String)

/-- What stands at the end of a way into nested datasets. -/
def Value.at? : Value → CellPath → Option Value
  | value, [] => some value
  | .dataset data, (index, name) :: path =>
    data.rows[index]?.bind fun row => (Entries.value? row name).bind fun cell => cell.at? path
  | _, _ :: _ => none

namespace Json

def member? (name : String) : Json → Option Json
  | .object members => Entries.value? members name
  | _ => none

def item? (index : Nat) : Json → Option Json
  | .array items => items[index]?
  | _ => none

/-- The document at the end of a way into nested datasets. -/
def at? : Json → CellPath → Option Json
  | json, [] => some json
  | json, (index, name) :: path =>
    (json.member? "rows").bind fun rows => (rows.item? index).bind fun row =>
      (row.member? name).bind fun cell => cell.at? path

theorem canonicalMembers_names (members : List (String × Json)) :
    (canonicalMembers members).map Prod.fst = members.map Prod.fst := by
  induction members with
  | nil => rfl
  | cons member members ih => rw [canonicalMembers, List.map_cons, List.map_cons, ih]

/-- Of members with one name the last one stays, so that no name is lost. -/
theorem mem_names_canonical {json : Json} {members : Entries Json} (canonical : json.canonical = .object members) :
    ∃ written, json = .object written ∧ ∀ name, name ∈ members.map Prod.fst ↔ name ∈ written.map Prod.fst := by
  cases json <;> cases canonical
  next written =>
  refine ⟨written, rfl, fun name => ?_⟩
  rw [Entries.mem_names_ofList, canonicalMembers_names]

end Json

namespace Bindings

section Cells

variable {json : Json} {value : Value} {type : ValueType}

/-- No cell is read as an integer under a column of numbers, or as a string under one of dates or
durations. -/
theorem loadValue_coerces (loaded : loadValue json (some type) = .ok value) :
    (type = .number → value.type ≠ .integer) ∧ (type = .date ∨ type = .duration → value.type ≠ .string) := by
  cases json with
  | null | boolean =>
    cases loaded
    simp [Value.type]
  | number numeral =>
    cases loaded
    unfold loadNumber
    cases numeral.toInt64? with
    | none => simp [Value.type]
    | some i => by_cases number : type = .number <;> simp [Value.type, number]
  | string text =>
    have read : loadString text (some type) = .ok value := loaded
    by_cases date : type = .date
    · subst date
      simp [loadDate_type read]
    · have kept : value = if type = .duration then .duration text else .string text := by
        cases type <;> simp_all [loadString]
      by_cases duration : type = .duration <;> simp_all [Value.type]
  | array | unreadable => cases loaded
  | object members =>
    have typeOf := loadObject_type loaded
    rcases tag?_cases members with tag | tag | tag <;> simp [typeOf, tag]

end Cells

section Rows

variable {columns : List Column} {cells : Entries Json} {row : Row}

/-- What a column holds for the cells of an object: null if there is none of its name. -/
def CellOf (cells : Entries Json) (column : Column) (value : Value) : Prop :=
  match cells.value? column.name with
  | none => value = .null
  | some json => loadValue json (some column.type) = .ok value

theorem readCell_eq_ok {column : Column} {value : Value} :
    readCell (cellReaders cells) column = .ok value ↔ CellOf cells column value := by
  rw [readCell, value?_cellReaders, CellOf]
  cases cells.value? column.name with
  | none => simp [eq_comm]
  | some json => exact mapError_eq_ok

/-- A row that has a cell for each of its columns and no other, as the columns hold the cells of an
object. -/
structure RowOf (columns : List Column) (cells : Entries Json) (row : Row) : Prop where
  sorted : row.Sorted
  names : ∀ name, name ∈ row.map Prod.fst ↔ name ∈ columns.map Column.name
  cell : ∀ name value, row.value? name = some value →
    ∃ column ∈ columns, column.name = name ∧ CellOf cells column value
  coerced : (columns.map Column.name).Nodup → ∀ column ∈ columns,
    (column.type = .number → (row.cell column.name).type ≠ .integer) ∧
      (column.type = .date ∨ column.type = .duration → (row.cell column.name).type ≠ .string)

theorem putCells_sorted {read : Column → Except ValueFault Value} {start : Row} (sorted : start.Sorted)
    (run : putCells read columns start = .ok row) : row.Sorted := by
  induction columns generalizing start with
  | nil =>
    cases run
    exact sorted
  | cons column columns ih =>
    rw [putCells, List.foldlM_cons] at run
    obtain ⟨next, first, rest⟩ := bind_eq_ok.mp run
    obtain ⟨value, _, whole⟩ := bind_eq_ok.mp first
    cases whole
    exact ih (sorted.put _ _) rest

theorem loadRow_rowOf (loaded : loadRow columns (cellReaders cells) = .ok row) : RowOf columns cells row := by
  rw [loadRow_eq] at loaded
  have found (name : String) := value?_putCells_name loaded name
  have empty : Entries.Sorted ([] : Row) := .nil
  refine ⟨putCells_sorted empty loaded, fun name => ?_, fun name value held => ?_, fun distinct column member => ?_⟩
  · have here := found name
    rw [Entries.mem_names_iff]
    split at here
    · next named =>
      obtain ⟨_, _, _, value, _, held⟩ := here
      exact ⟨fun _ => named, fun _ => ⟨value, held⟩⟩
    · next other =>
      rw [here]
      simp [other]
  · have here := found name
    split at here
    · obtain ⟨column, member, named, own, made, same⟩ := here
      obtain rfl : own = value := Option.some.inj (same.symm.trans held)
      exact ⟨column, member, named, readCell_eq_ok.mp made⟩
    · rw [here] at held
      cases held
  · obtain ⟨value, made, held⟩ := value?_putCells distinct loaded member
    have cell := readCell_eq_ok.mp made
    rw [Row.cell, held, Option.getD_some]
    rw [CellOf] at cell
    split at cell
    · simp [cell, Value.type]
    · exact loadValue_coerces cell

end Rows

/-- A dataset that was read from the members of an object, row by row in their order. -/
structure TableOf (fields : Entries Json) (data : Dataset) : Prop where
  columns : (fields.value? "columns").bind Column.listOfJson? = some data.columns
  rows : ∃ items, fields.value? "rows" = some (.array items) ∧
    List.Forall₂ (fun item row => ∃ cells, item = .object cells ∧ RowOf data.columns cells row) items data.rows

theorem DatasetOf.tableOf {fields : Entries Json} {items : List Json} {data : Dataset}
    (datasetOf : DatasetOf fields items data) : TableOf fields data := by
  refine ⟨datasetOf.columns, items, datasetOf.array, datasetOf.rows.imp ?_⟩
  rintro item row ⟨cells, same, loaded⟩
  exact ⟨cells, same, loadRow_rowOf loaded⟩

/-- What a row holds under a name is null or was read from the document at its place. -/
theorem DatasetOf.exists_cell {fields : Entries Json} {items : List Json} {data : Dataset} {index : Nat}
    {row : Row} {name : String} {value : Value} (datasetOf : DatasetOf fields items data)
    (atIndex : data.rows[index]? = some row) (held : row.value? name = some value) :
    value = .null ∨ ∃ item cell type, items[index]? = some item ∧ item.member? name = some cell ∧
      loadValue cell (some type) = .ok value := by
  obtain ⟨inRows, rfl⟩ := List.getElem?_eq_some_iff.mp atIndex
  have inItems : index < items.length := by
    rw [datasetOf.rows.length_eq]
    exact inRows
  obtain ⟨cells, same, loaded⟩ := datasetOf.rows.get inItems inRows
  obtain ⟨column, _, rfl, cell⟩ := (loadRow_rowOf loaded).cell name value held
  rw [CellOf] at cell
  split at cell
  · exact .inl cell
  · next document found =>
    have atItem : items[index]? = some (.object cells) := by
      rw [List.getElem?_eq_getElem inItems]
      exact congrArg some same
    exact .inr ⟨.object cells, document, column.type, atItem, found, cell⟩

/-- Every dataset in a value that was read from a document was read from the document that stands at its
place. -/
theorem loadValue_at? {json : Json} {declared : Option ValueType} {value : Value} {path : CellPath} {data : Dataset}
    (loaded : loadValue json declared = .ok value) (held : value.at? path = some (.dataset data)) :
    ∃ fields, json.at? path = some (.object fields) ∧ TableOf fields data := by
  induction path generalizing json declared value with
  | nil =>
    cases held
    obtain ⟨fields, items, rfl, datasetOf⟩ := loadValue_dataset loaded
    exact ⟨fields, rfl, datasetOf.tableOf⟩
  | cons step path ih =>
    obtain ⟨index, name⟩ := step
    cases value with
    | null | integer | number | string | boolean | date | duration => cases held
    | dataset outer =>
      obtain ⟨fields, items, rfl, datasetOf⟩ := loadValue_dataset loaded
      obtain ⟨row, atIndex, inRow⟩ := Option.bind_eq_some_iff.mp held
      obtain ⟨cell, found, inCell⟩ := Option.bind_eq_some_iff.mp inRow
      rcases datasetOf.exists_cell atIndex found with rfl | ⟨item, document, type, atItem, member, read⟩
      · -- Null has nothing in it, neither at once nor further down.
        cases path <;> cases inCell
      · obtain ⟨inner, reached, tableOf⟩ := ih read inCell
        refine ⟨inner, ?_, tableOf⟩
        have rows : Json.member? "rows" (.object fields) = some (.array items) := datasetOf.array
        have atRow : Json.item? index (.array items) = some item := atItem
        rw [Json.at?, rows, Option.bind_some, atRow, Option.bind_some, member, Option.bind_some, reached]

/-- While members are bound one after the other, the names of all of them are added. -/
theorem foldlM_bindMember_names {members : Entries Json} {start bindings : Bindings} (sorted : start.Sorted)
    (run : members.foldlM bindMember start = .ok bindings) :
    bindings.Sorted ∧
      ∀ name, name ∈ bindings.map Prod.fst ↔ name ∈ members.map Prod.fst ∨ name ∈ start.map Prod.fst := by
  induction members generalizing start with
  | nil =>
    cases run
    simp [sorted]
  | cons member members ih =>
    rw [List.foldlM_cons] at run
    obtain ⟨next, first, rest⟩ := bind_eq_ok.mp run
    unfold bindMember at first
    split at first
    · cases first
      obtain ⟨ordered, names⟩ := ih (sorted.put _ _) rest
      refine ⟨ordered, fun name => ?_⟩
      rw [names, Entries.mem_names_put, List.map_cons, List.mem_cons]
      tauto
    · cases first

/-- Loaded rows are as their columns want them. The names of the bindings are those of the object. Each
dataset, also inside of others, was read from the document at its place: its rows keep the order they have
there, and each has exactly the names of the columns, with null where the document has no cell. Where the
columns have distinct names, no integer stands under a column of numbers and no string under one of dates or
durations. -/
theorem load_normalizes {text : String} {bindings : Bindings} (loaded : load text = .ok bindings) :
    ∃ members, Json.parse? text = some (.object members) ∧ bindings.Sorted ∧
      (∀ name, name ∈ bindings.map Prod.fst ↔ name ∈ members.map Prod.fst) ∧
      ∀ name value path data, bindings.value? name = some value → value.at? path = some (.dataset data) →
        ∃ document fields, (Json.object members).canonical.member? name = some document ∧
          document.at? path = some (.object fields) ∧ TableOf fields data := by
  unfold load at loaded
  split at loaded
  · cases loaded
  next json parsed =>
  split at loaded
  · split at loaded
    · next members canonical =>
      obtain ⟨written, rfl, sameNames⟩ := Json.mem_names_canonical canonical
      have empty : Entries.Sorted ([] : Bindings) := .nil
      obtain ⟨sorted, names⟩ := foldlM_bindMember_names empty loaded
      refine ⟨written, parsed, sorted, fun name => ?_, fun name value path data bound held => ?_⟩
      · rw [names, ← sameNames]
        simp
      · obtain ⟨document, found, read⟩ := loadMembers_value? (canonical_sorted canonical) loaded bound
        obtain ⟨fields, reached, tableOf⟩ := loadValue_at? read held
        rw [canonical]
        exact ⟨document, fields, found, reached, tableOf⟩
    · cases loaded
  · cases loaded

/-- A dataset in a cell of another one, a cell that no column names, a cell that is missing and a name that is
given twice. -/
def nestedText : String :=
  "\x7b\"b\":1,\"ds\":\x7b\"columns\":[[\"m\",\"MEASURE\",\"NUMBER\"],[\"d\",\"ATTRIBUTE\",\"DATE\"]]," ++
    "\"rows\":[\x7b\"x\":true,\"m\":1\x7d,\x7b\"d\":\"2020-02-29\",\"m\":\x7b\"columns\":" ++
    "[[\"p\",\"MEASURE\",\"DURATION\"]],\"rows\":[\x7b\"p\":\"M\"\x7d,\x7b\x7d]\x7d\x7d]\x7d,\"b\":null\x7d"

def innerData : Dataset := ⟨[⟨"p", .measure, .duration⟩], [[("p", .duration "M")], [("p", .null)]]⟩

def outerData : Dataset :=
  ⟨[⟨"m", .measure, .number⟩, ⟨"d", .attribute, .date⟩],
    [[("d", .null), ("m", .number (.ofInt 1))],
      [("d", .date ⟨2020, 2, 29, by decide⟩), ("m", .dataset innerData)]]⟩

def innerFields : Entries Json :=
  [("columns", .array [.array [.string "p", .string "MEASURE", .string "DURATION"]]),
    ("rows", .array [.object [("p", .string "M")], .object []])]

def nestedMembers : Entries Json :=
  [("b", .number (.ofInt 1)),
    ("ds", .object
      [("columns", .array [.array [.string "m", .string "MEASURE", .string "NUMBER"],
          .array [.string "d", .string "ATTRIBUTE", .string "DATE"]]),
        ("rows", .array [.object [("x", .boolean true), ("m", .number (.ofInt 1))],
          .object [("d", .string "2020-02-29"), ("m", .object innerFields)]])]),
    ("b", .null)]

theorem parse?_nestedText : Json.parse? nestedText = some (.object nestedMembers) := by
  have written : nestedText = String.ofList (Json.object nestedMembers).compact := by decide +kernel
  have proper : (Json.object nestedMembers).Proper := by
    simp [nestedMembers, innerFields, Json.Proper, Json.ProperMembers, Json.ProperItems, Numeral.ofInt_proper]
  rw [written, Json.parse?_compact proper]

theorem load_nestedText : load nestedText = .ok [("b", .null), ("ds", .dataset outerData)] := by
  rw [load, parse?_nestedText]
  rfl

theorem load_normalizes_nested :
    load nestedText = .ok [("b", .null), ("ds", .dataset outerData)] ∧
      (Value.dataset outerData).at? [(1, "m")] = some (.dataset innerData) ∧
      Json.parse? nestedText = some (.object nestedMembers) ∧
      (∀ name, name ∈ ["b", "ds"] ↔ name ∈ nestedMembers.map Prod.fst) ∧ TableOf innerFields innerData := by
  obtain ⟨members, parsed, _, names, tables⟩ := load_normalizes load_nestedText
  have same : nestedMembers = members := Json.object.inj (Option.some.inj (parse?_nestedText.symm.trans parsed))
  subst same
  obtain ⟨document, fields, found, reached, tableOf⟩ :=
    tables "ds" (.dataset outerData) [(1, "m")] innerData rfl rfl
  have sameFields : some (Json.object innerFields) = some (.object fields) := by
    rw [← reached]
    cases found
    rfl
  cases sameFields
  exact ⟨load_nestedText, rfl, parsed, names, tableOf⟩

end Bindings

end Vtl
