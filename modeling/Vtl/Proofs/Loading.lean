import Mathlib.Data.List.Nodup
import Vtl.Bindings.Load
import Vtl.Proofs.Merge
import Vtl.Proofs.Operators

namespace Vtl

namespace Json

def isString : Json → Bool
  | .string _ => true
  | _ => false

/-- The type of the scalar that the members of an object stand for, unless it is to be a dataset. -/
def tag? (members : Entries Json) : Option ValueType :=
  if (members.value? "date").any isString then some .date
  else if (members.value? "duration").any isString then some .duration
  else none

theorem any_isString_iff {document : Option Json} :
    document.any isString = true ↔ ∃ text, document = some (.string text) := by
  cases document with
  | none => simp
  | some json => cases json <;> simp [isString]

/-- Whether a document, once it is accepted in a column of some type, stands for a scalar that fits the
column. -/
def suits : Json → ValueType → Bool
  | .null, _ => true
  | .boolean _, type => type = .boolean
  | .number numeral, type => type = .number || (type = .integer && numeral.toInt64?.isSome)
  | .string _, type => type = .string || type = .date || type = .duration
  | .object members, type => tag? members = some type
  | .array _, _ | .unreadable, _ => false

end Json

/-- What a cell of a column should hold: a scalar that fits the type of the column. -/
def Value.SoundFor (value : Value) (type : ValueType) : Prop :=
  value.type ≠ .dataset ∧ value.fits type = true

namespace Bindings

section Cells

variable {json : Json} {value : Value} {type : ValueType}

theorem loadDate_type {text : String} (loaded : loadDate text = .ok value) : value.type = .date := by
  unfold loadDate at loaded
  split at loaded
  · cases loaded
    rfl
  · cases loaded

theorem loadNumber_soundFor (numeral : Numeral) :
    (loadNumber numeral (some type)).SoundFor type ↔ (Json.number numeral).suits type = true := by
  unfold loadNumber
  cases read : numeral.toInt64? with
  | none => cases type <;> simp [Value.SoundFor, Value.fits, Value.type, Json.suits, read]
  | some i => cases type <;> simp [Value.SoundFor, Value.fits, Value.type, Json.suits, read]

theorem loadString_soundFor {text : String} (loaded : loadString text (some type) = .ok value) :
    value.SoundFor type ↔ (Json.string text).suits type = true := by
  by_cases date : type = .date
  · subst date
    simp [Value.SoundFor, Value.fits, Json.suits, loadDate_type loaded]
  · have kept : value = if type = .duration then .duration text else .string text := by
      cases type <;> simp_all [loadString]
    cases type <;> simp_all [Value.SoundFor, Value.fits, Value.type, Json.suits]

theorem loadDataset_type {columns : Json} {rows : List (Option (Entries CellReader))}
    (loaded : loadDataset columns rows = .ok value) : value.type = .dataset := by
  unfold loadDataset at loaded
  split at loaded
  · cases loaded
  · obtain ⟨rows, _, whole⟩ := bind_eq_ok.mp loaded
    cases whole
    rfl

theorem loadObject_type {members : Entries Json}
    {rows : Entries (Option (List (Option (Entries CellReader))))}
    (loaded : loadObject members rows = .ok value) :
    value.type = (Json.tag? members).getD .dataset := by
  unfold loadObject at loaded
  unfold Json.tag?
  split at loaded
  · next date =>
    rw [if_pos (Json.any_isString_iff.mpr ⟨_, date⟩)]
    exact loadDate_type loaded
  · next duration noDate =>
    cases loaded
    rw [if_neg fun date => (Json.any_isString_iff.mp date).elim noDate,
      if_pos (Json.any_isString_iff.mpr ⟨_, duration⟩)]
    rfl
  · next noDate noDuration =>
    rw [if_neg fun date => (Json.any_isString_iff.mp date).elim noDate,
      if_neg fun duration => (Json.any_isString_iff.mp duration).elim noDuration]
    split at loaded
    · exact loadDataset_type loaded
    · cases loaded

theorem tag?_cases (members : Entries Json) :
    Json.tag? members = some .date ∨ Json.tag? members = some .duration ∨ Json.tag? members = none := by
  unfold Json.tag?
  split
  · exact Or.inl rfl
  · split <;> simp

theorem loadObject_soundFor {members : Entries Json}
    {rows : Entries (Option (List (Option (Entries CellReader))))}
    (loaded : loadObject members rows = .ok value) :
    value.SoundFor type ↔ (Json.object members).suits type = true := by
  have typeOf := loadObject_type loaded
  rcases tag?_cases members with tag | tag | tag <;>
    simp [Value.SoundFor, Value.fits, Json.suits, typeOf, tag]

/-- A cell that was read for a column is as it should be if its document suits the column, and not
otherwise. -/
theorem loadValue_soundFor (loaded : loadValue json (some type) = .ok value) :
    value.SoundFor type ↔ json.suits type = true := by
  cases json with
  | null =>
    cases loaded
    simp [Value.SoundFor, Value.fits, Value.type, Json.suits]
  | boolean b =>
    cases loaded
    simp [Value.SoundFor, Value.fits, Value.type, Json.suits, eq_comm]
  | number numeral =>
    cases loaded
    exact loadNumber_soundFor numeral
  | string text => exact loadString_soundFor loaded
  | array items => cases loaded
  | object members => exact loadObject_soundFor loaded
  | unreadable => cases loaded

end Cells

theorem value?_cellReaders (cells : Entries Json) (name : String) :
    (cellReaders cells).value? name =
      (cells.value? name).map fun json type => loadValue json (some type) := by
  induction cells with
  | nil => rfl
  | cons cell cells ih =>
    obtain ⟨other, json⟩ := cell
    rw [cellReaders, Entries.value?_cons, Entries.value?_cons, ih]
    split <;> rfl

theorem value?_rowReaders {members : Entries Json} {name : String}
    {rows : List (Option (Entries CellReader))}
    (found : Entries.value? (rowReaders members) name = some (some rows)) :
    ∃ items, members.value? name = some (.array items) ∧ rows = itemReaders items := by
  induction members with
  | nil => cases found
  | cons member members ih =>
    obtain ⟨other, json⟩ := member
    by_cases hit : name = other
    · cases json <;> simp_all [rowReaders]
    · cases json <;> simp_all [rowReaders]

section Rows

variable {columns : List Column} {row start : Row}

/-- Puts a cell for each column into a row, in order, up to the first one that cannot be read. -/
def putCells (read : Column → Except ValueFault Value) (columns : List Column) (start : Row) :
    Except ValueFault Row :=
  columns.foldlM (fun row column => do pure (row.put column.name (← read column))) start

/-- The cell that a row gets for a column, null where the document has none. -/
def readCell (cells : Entries CellReader) (column : Column) : Except ValueFault Value :=
  match cells.value? column.name with
  | none => .ok .null
  | some cell => (cell column.type).mapError (.cell column.name)

theorem loadRow_eq (cells : Entries CellReader) :
    loadRow columns cells = putCells (readCell cells) columns [] := by
  unfold loadRow putCells
  congr
  funext row column
  unfold readCell
  cases cells.value? column.name with
  | none => rfl
  | some cell =>
    dsimp only
    cases cell column.type <;> rfl

/-- A name of a column has the cell of a column of that name, and every other name what it had before. -/
theorem value?_putCells_name {read : Column → Except ValueFault Value}
    (run : putCells read columns start = .ok row) (name : String) :
    if name ∈ columns.map Column.name then
      ∃ column ∈ columns, column.name = name ∧ ∃ value, read column = .ok value ∧ row.value? name = some value
    else row.value? name = start.value? name := by
  induction columns generalizing start with
  | nil =>
    cases run
    rfl
  | cons column columns ih =>
    rw [putCells, List.foldlM_cons] at run
    obtain ⟨next, first, rest⟩ := bind_eq_ok.mp run
    obtain ⟨value, made, whole⟩ := bind_eq_ok.mp first
    cases whole
    have behind := ih rest
    rw [List.map_cons]
    by_cases later : name ∈ columns.map Column.name
    · rw [if_pos later] at behind
      rw [if_pos (List.mem_cons_of_mem _ later)]
      obtain ⟨other, member, found⟩ := behind
      exact ⟨other, List.mem_cons_of_mem _ member, found⟩
    rw [if_neg later] at behind
    by_cases own : name = column.name
    · subst own
      rw [if_pos List.mem_cons_self]
      exact ⟨column, List.mem_cons_self, rfl, value, made, by rw [behind, Entries.value?_put_self]⟩
    · rw [if_neg (by simp [own, later]), behind, Entries.value?_put_of_ne _ _ own]

/-- Where columns have distinct names, each of them gets its own cell. -/
theorem value?_putCells {read : Column → Except ValueFault Value}
    (distinct : (columns.map Column.name).Nodup) (run : putCells read columns start = .ok row)
    {column : Column} (member : column ∈ columns) :
    ∃ value, read column = .ok value ∧ row.value? column.name = some value := by
  have found := value?_putCells_name run column.name
  rw [if_pos (List.mem_map_of_mem member)] at found
  obtain ⟨other, known, sameName, cell⟩ := found
  have same : other = column := List.inj_on_of_nodup_map distinct known member sameName
  exact same ▸ cell

/-- The cells of a row that was read from an object. -/
theorem loadRow_cell {cells : Entries Json} (distinct : (columns.map Column.name).Nodup)
    (loaded : loadRow columns (cellReaders cells) = .ok row) {column : Column} (member : column ∈ columns) :
    match cells.value? column.name with
    | none => row.cell column.name = .null
    | some json => loadValue json (some column.type) = .ok (row.cell column.name) := by
  rw [loadRow_eq] at loaded
  obtain ⟨value, made, found⟩ := value?_putCells distinct loaded member
  rw [readCell, value?_cellReaders] at made
  rw [Row.cell, found, Option.getD_some]
  cases cell : cells.value? column.name with
  | none =>
    rw [cell] at made
    exact (Except.ok.inj made).symm
  | some json =>
    rw [cell] at made
    exact mapError_eq_ok.mp made

/-- Each row is read from the object that stands at its place. -/
theorem rows_eq_ok {items : List Json} {rows : List Row}
    (loaded : (itemReaders items).mapM (fun row =>
      match row with
      | some cells => loadRow columns cells
      | none => .error .rowShape) = .ok rows) :
    List.Forall₂
      (fun item row => ∃ cells, item = .object cells ∧ loadRow columns (cellReaders cells) = .ok row)
      items rows := by
  induction items generalizing rows with
  | nil =>
    cases loaded
    exact .nil
  | cons item items ih =>
    cases item with
    | object cells =>
      rw [itemReaders, mapM_eq_ok, List.forall₂_cons_left_iff] at loaded
      obtain ⟨row, others, first, later, rfl⟩ := loaded
      exact .cons ⟨cells, rfl, first⟩ (ih (mapM_eq_ok.mpr later))
    | null | boolean | number | string | array | unreadable =>
      rw [itemReaders, mapM_eq_ok, List.forall₂_cons_left_iff] at loaded
      · obtain ⟨row, others, first, later, rfl⟩ := loaded
        cases first
      · simp

end Rows

/-- The members of an object that a dataset was read from, and its items, one for each row. -/
structure DatasetOf (members : Entries Json) (items : List Json) (data : Dataset) : Prop where
  columns : (members.value? "columns").bind Column.listOfJson? = some data.columns
  array : members.value? "rows" = some (.array items)
  rows : List.Forall₂
    (fun item row => ∃ cells, item = .object cells ∧ loadRow data.columns (cellReaders cells) = .ok row)
    items data.rows

theorem loadObject_dataset {members : Entries Json} {data : Dataset}
    (loaded : loadObject members (rowReaders members) = .ok (.dataset data)) :
    ∃ items, DatasetOf members items data := by
  unfold loadObject at loaded
  split at loaded
  · cases loadDate_type loaded
  · cases loaded
  split at loaded
  · next columns rows columnsFound rowsFound =>
    obtain ⟨items, array, rfl⟩ := value?_rowReaders rowsFound
    unfold loadDataset at loaded
    split at loaded
    · cases loaded
    · next read =>
      obtain ⟨rows, made, whole⟩ := bind_eq_ok.mp loaded
      cases whole
      exact ⟨items, by rw [columnsFound, Option.bind_some, read], array, rows_eq_ok made⟩
  · cases loaded

/-- Only an object with columns and rows is read as a dataset. -/
theorem loadValue_dataset {json : Json} {declared : Option ValueType} {data : Dataset}
    (loaded : loadValue json declared = .ok (.dataset data)) :
    ∃ members items, json = .object members ∧ DatasetOf members items data := by
  cases json with
  | object members =>
    obtain ⟨items, datasetOf⟩ := loadObject_dataset loaded
    exact ⟨members, items, rfl, datasetOf⟩
  | string text =>
    unfold loadValue loadString at loaded
    split at loaded
    · cases loadDate_type loaded
    · cases loaded
    · cases loaded
  | number numeral =>
    have scalar := Except.ok.inj loaded
    unfold loadNumber at scalar
    split at scalar
    · split at scalar <;> cases scalar
    · cases scalar
  | null | boolean | array | unreadable => cases loaded

/-- Binds what one member of an object stands for. -/
def bindMember (bindings : Bindings) (member : String × Json) : Except LoadFault Bindings :=
  match loadValue member.2 none with
  | .ok value => .ok (bindings.put member.1 value)
  | .error cause => .error (.binding member.1 cause)

/-- While members are bound one after the other, a name gets its value from a member that is still to
come, or had it before. -/
theorem foldlM_bindMember_value? {members : Entries Json} {start bindings : Bindings} {name : String}
    {value : Value} (sorted : members.Sorted) (run : members.foldlM bindMember start = .ok bindings)
    (bound : bindings.value? name = some value) :
    (∃ json, members.value? name = some json ∧ loadValue json none = .ok value) ∨
      members.value? name = none ∧ start.value? name = some value := by
  induction members generalizing start with
  | nil =>
    cases run
    exact Or.inr ⟨rfl, bound⟩
  | cons member members ih =>
    obtain ⟨other, json⟩ := member
    rw [List.foldlM_cons] at run
    obtain ⟨next, first, rest⟩ := bind_eq_ok.mp run
    unfold bindMember at first
    split at first
    · next own read =>
      cases first
      rw [Entries.value?_cons]
      rcases ih (List.pairwise_cons.mp sorted).2 rest with ⟨found, later, made⟩ | ⟨absent, before⟩
      · have differ : name ≠ other := by
          rintro rfl
          rw [sorted.value?_tail] at later
          cases later
        exact Or.inl ⟨found, by rw [if_neg differ, later], made⟩
      · rw [Entries.value?_put] at before
        split at before
        · next same =>
          cases before
          exact Or.inl ⟨json, if_pos same, read⟩
        · next differ => exact Or.inr ⟨by rw [if_neg differ, absent], before⟩
    · cases first

/-- A bound value is read from the member of its name. -/
theorem loadMembers_value? {members : Entries Json} {bindings : Bindings} (sorted : members.Sorted)
    (loaded : loadMembers members = .ok bindings) {name : String} {value : Value}
    (bound : bindings.value? name = some value) :
    ∃ json, members.value? name = some json ∧ loadValue json none = .ok value := by
  have run : members.foldlM bindMember [] = .ok bindings := loaded
  rcases foldlM_bindMember_value? sorted run bound with found | ⟨_, before⟩
  · exact found
  · cases before

theorem canonical_sorted {json : Json} {members : List (String × Json)}
    (canonical : json.canonical = .object members) : Entries.Sorted members := by
  cases json <;> cases canonical
  exact Entries.Sorted.ofList _

/-- Which cells of loaded datasets are as they should be. Each bound dataset was read from the member of
its name, row by row, and where its columns have distinct names, a cell holds a scalar that fits its
column if there is no document for it or one that suits the column, and not otherwise. -/
theorem load_sound_cells_iff {text : String} {bindings : Bindings} (loaded : load text = .ok bindings)
    {name : String} {data : Dataset} (bound : bindings.value? name = some (.dataset data))
    (distinct : (data.columns.map Column.name).Nodup) :
    ∃ json members fields items, Json.parse? text = some json ∧ json.canonical = .object members ∧
      Entries.value? members name = some (.object fields) ∧ DatasetOf fields items data ∧
      List.Forall₂ (fun item (row : Row) => ∃ cells, item = .object cells ∧ ∀ column ∈ data.columns,
        ((row.cell column.name).SoundFor column.type ↔
          ∀ cell, Entries.value? cells column.name = some cell → cell.suits column.type = true))
        items data.rows := by
  unfold load at loaded
  split at loaded
  · cases loaded
  next json parsed =>
  split at loaded
  · split at loaded
    · next members canonical =>
      obtain ⟨document, found, read⟩ := loadMembers_value? (canonical_sorted canonical) loaded bound
      obtain ⟨fields, items, rfl, datasetOf⟩ := loadValue_dataset read
      refine ⟨json, members, fields, items, parsed, canonical, found, datasetOf, ?_⟩
      refine datasetOf.rows.imp ?_
      rintro item row ⟨cells, rfl, made⟩
      refine ⟨cells, rfl, ?_⟩
      intro column member
      have cell := loadRow_cell distinct made member
      cases written : Entries.value? cells column.name with
      | none =>
        rw [written] at cell
        simp [cell, Value.SoundFor, Value.fits, Value.type]
      | some document =>
        rw [written] at cell
        rw [loadValue_soundFor cell]
        simp
    · cases loaded
  · cases loaded

/-- A dataset with an integer measure, under which stand an integer, a boolean and a dataset. -/
def mixedText : String :=
  "\x7b\"ds\":\x7b\"columns\":[\x7b\"name\":\"m\",\"role\":\"MEASURE\",\"type\":\"INTEGER\"\x7d]," ++
    "\"rows\":[\x7b\"m\":1\x7d,\x7b\"m\":true\x7d,\x7b\"m\":\x7b\"columns\":[],\"rows\":[]\x7d\x7d]\x7d\x7d"

def mixedData : Dataset :=
  ⟨[⟨"m", .measure, .integer⟩],
    [[("m", .integer 1)], [("m", .boolean true)], [("m", .dataset ⟨[], []⟩)]]⟩

open Json.Lexeme in
theorem lexemes_mixedText : Json.lexemes mixedText.toList =
    some [openBrace, string (some "ds".toList), colon, openBrace, string (some "columns".toList), colon,
      openBracket, openBrace, string (some "name".toList), colon, string (some "m".toList), comma,
      string (some "role".toList), colon, string (some "MEASURE".toList), comma,
      string (some "type".toList), colon, string (some "INTEGER".toList), closeBrace, closeBracket, comma,
      string (some "rows".toList), colon, openBracket,
      openBrace, string (some "m".toList), colon, number ⟨false, ['1'], [], none⟩, closeBrace, comma,
      openBrace, string (some "m".toList), colon, boolean true, closeBrace, comma,
      openBrace, string (some "m".toList), colon, openBrace, string (some "columns".toList), colon,
      openBracket, closeBracket, comma, string (some "rows".toList), colon, openBracket, closeBracket,
      closeBrace, closeBrace, closeBracket, closeBrace, closeBrace] := by
  decide +kernel

theorem load_mixedText : load mixedText = .ok [("ds", .dataset mixedData)] := by
  have parsed : Json.parse? mixedText = some (.object [("ds", .object
      [("columns", .array [Column.toJson ⟨"m", .measure, .integer⟩]),
        ("rows", .array [.object [("m", .number ⟨false, ['1'], [], none⟩)], .object [("m", .boolean true)],
          .object [("m", .object [("columns", .array []), ("rows", .array [])])]])])]) := by
    rw [Json.parse?, lexemes_mixedText]
    rfl
  rw [load, parsed]
  rfl

theorem load_sound_cells_iff_mixedText :
    ∃ fields items, DatasetOf fields items mixedData ∧
      List.Forall₂ (fun item (row : Row) => ∃ cells, item = .object cells ∧
        ∀ column ∈ mixedData.columns, ((row.cell column.name).SoundFor column.type ↔
          ∀ cell, Entries.value? cells column.name = some cell → cell.suits column.type = true))
        items mixedData.rows := by
  obtain ⟨_, _, fields, items, _, _, _, datasetOf, cells⟩ :=
    @load_sound_cells_iff _ _ load_mixedText "ds" mixedData rfl (by decide)
  exact ⟨fields, items, datasetOf, cells⟩

/-- The loader takes a boolean and a dataset for cells of an integer measure. -/
theorem load_accepts_unsound_cells :
    load mixedText = .ok [("ds", .dataset mixedData)] ∧
      (∃ row : Row, row ∈ mixedData.rows ∧ (row.cell "m").fits .integer = false) ∧
      ∃ row : Row, row ∈ mixedData.rows ∧ (row.cell "m").type = .dataset := by
  refine ⟨load_mixedText, ⟨[("m", .boolean true)], ?_, rfl⟩, ⟨[("m", .dataset ⟨[], []⟩)], ?_, rfl⟩⟩
  · simp [mixedData]
  · simp [mixedData]

end Bindings

end Vtl
