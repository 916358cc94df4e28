import Vtl.Proofs.DateText
import Vtl.Proofs.JsonText
import Vtl.Value.Json

namespace Vtl

namespace Numeral

theorem ofInt_proper (i : Int) : (Numeral.ofInt i).Proper where
  filled := Nat.toDigits_ne_nil
  digits _ := isDigit_of_mem_toDigits
  leading := toDigits_of_head?_zero
  fractionDigits := by simp [ofInt]

/-- Every integer of 64 bits is read back from its numeral. -/
theorem toInt64?_ofInt (i : Int64) : (Numeral.ofInt i.toInt).toInt64? = some i := by
  have lower := i.le_toInt
  have upper := i.toInt_lt
  have value : digitsValue (Nat.toDigits 10 i.toInt.natAbs) = i.toInt.natAbs := digitsValue_toDigits _
  by_cases negative : i.toInt < 0
  · have bounds : 0 < i.toInt.natAbs ∧ i.toInt.natAbs ≤ integerLimit := by
      simp only [integerLimit]
      omega
    have same : -(i.toInt.natAbs : Int) = i.toInt := by omega
    simp only [toInt64?, ofInt, isInteger, value, negative, bounds, same, Int64.ofInt_toInt]
    rfl
  · have bound : i.toInt.natAbs < integerLimit := by
      simp only [integerLimit]
      omega
    have same : (i.toInt.natAbs : Int) = i.toInt := by omega
    simp only [toInt64?, ofInt, isInteger, value, negative, bound, ← Int64.ofInt_eq_ofNat, same,
      Int64.ofInt_toInt]
    rfl

end Numeral

theorem Role.ofText?_text (role : Role) : Role.ofText? role.text = some role := by
  cases role <;> rfl

theorem ValueType.ofText?_text (type : ValueType) : ValueType.ofText? type.text = some type := by
  cases type <;> rfl

namespace Column

theorem ofJson?_toJson (column : Column) : ofJson? column.toJson = some column := by
  have fields : ofJson? column.toJson =
      ofFields? (.string column.name) (.string column.role.text) (.string column.type.text) := rfl
  rw [fields, ofFields?]
  simp only [Json.bareChoice?, Json.choice?, Option.bind_some, Role.ofText?_text, ValueType.ofText?_text]
  rfl

theorem listOfJson?_toJson (columns : List Column) :
    listOfJson? (.array (columns.map toJson)) = some columns := by
  rw [listOfJson?]
  induction columns with
  | nil => rfl
  | cons column columns ih => simp [List.mapM_cons, ofJson?_toJson, ih]

theorem listDepthOf_toJson (columns : List Column) : listDepthOf (.array (columns.map toJson)) ≤ 2 := by
  have own (column : Column) : depthOf column.toJson = 1 := rfl
  rw [listDepthOf]
  refine Nat.succ_le_succ ?_
  induction columns with
  | nil => exact Nat.zero_le 1
  | cons column columns ih =>
    rw [List.map_cons, List.foldr_cons, own]
    exact Nat.max_le.mpr ⟨Nat.le_refl 1, ih⟩

theorem properItems_toJson (columns : List Column) : Json.ProperItems (columns.map toJson) := by
  induction columns with
  | nil => trivial
  | cons column columns ih => exact ⟨⟨trivial, trivial, trivial, trivial⟩, ih⟩

end Column

namespace Value

/-- Scalars other than numbers. -/
def IsExact (value : Value) : Prop := value.type ≠ .number ∧ value.type ≠ .dataset

/-- A document that can be written out and from which a value is read back, with a bound for its depth. -/
structure StoredAs (value : Value) (depth : Nat) (json : Json) : Prop where
  proper : json.Proper
  shallow : depthOf json ≤ depth
  read : ofJson? json = some value

theorem IsExact.storedAs {value : Value} (exact : value.IsExact) : value.StoredAs 1 value.toJson := by
  cases value with
  | null => exact ⟨trivial, Nat.zero_le 1, rfl⟩
  | integer i =>
    have read : ofJson? (toJson (.integer i)) = (Numeral.ofInt i.toInt).toInt64?.map .integer := rfl
    refine ⟨⟨Numeral.ofInt_proper _, trivial⟩, Nat.le_refl 1, ?_⟩
    rw [read, Numeral.toInt64?_ofInt, Option.map_some]
  | number n => exact (exact.1 rfl).elim
  | string s => exact ⟨⟨trivial, trivial⟩, Nat.le_refl 1, rfl⟩
  | boolean b => exact ⟨⟨trivial, trivial⟩, Nat.le_refl 1, rfl⟩
  | date d =>
    have read : ofJson? (toJson (.date d)) = (Date.read .loose d.text).map .date := rfl
    refine ⟨⟨trivial, trivial⟩, Nat.le_refl 1, ?_⟩
    rw [read, Date.read_text, Option.map_some]
  | duration p => exact ⟨⟨trivial, trivial⟩, Nat.le_refl 1, rfl⟩
  | dataset data => exact (exact.2 rfl).elim

theorem cells_stored {row : Row} (exact : ∀ cell ∈ row, cell.2.IsExact) :
    Json.ProperMembers (cellsToJson row) ∧ cellsDepth (cellsToJson row) ≤ 1 ∧
      cellsOf? (cellsToJson row) = some row := by
  induction row with
  | nil => exact ⟨trivial, Nat.zero_le 1, rfl⟩
  | cons cell row ih =>
    obtain ⟨here, later⟩ := List.forall_mem_cons.mp exact
    obtain ⟨proper, shallow, read⟩ := here.storedAs
    obtain ⟨properRest, shallowRest, readRest⟩ := ih later
    refine ⟨⟨proper, properRest⟩, ?_, ?_⟩
    · rw [cellsToJson, cellsDepth]
      exact Nat.max_le.mpr ⟨shallow, shallowRest⟩
    · rw [cellsToJson, cellsOf?, read, readRest]
      rfl

theorem rows_stored {rows : List Row} (sorted : ∀ row ∈ rows, row.Sorted)
    (exact : ∀ row ∈ rows, ∀ cell ∈ row, cell.2.IsExact) :
    Json.ProperItems (rowsToJson rows) ∧ rowsDepth (rowsToJson rows) ≤ 2 ∧
      rowsOf? (rowsToJson rows) = some rows := by
  induction rows with
  | nil => exact ⟨trivial, Nat.zero_le 2, rfl⟩
  | cons row rows ih =>
    obtain ⟨sortedHere, sortedLater⟩ := List.forall_mem_cons.mp sorted
    obtain ⟨exactHere, exactLater⟩ := List.forall_mem_cons.mp exact
    obtain ⟨proper, shallow, read⟩ := cells_stored exactHere
    obtain ⟨properRest, shallowRest, readRest⟩ := ih sortedLater exactLater
    refine ⟨⟨proper, properRest⟩, ?_, ?_⟩
    · rw [rowsToJson, rowsDepth]
      exact Nat.max_le.mpr ⟨Nat.succ_le_succ shallow, shallowRest⟩
    · rw [rowsToJson, rowsOf?, read, readRest]
      exact congrArg (fun row => some (row :: rows)) sortedHere.ofList_eq

/-- The values that are stored without loss: scalars other than numbers, and datasets with such cells.
The names in a row ascend. -/
inductive Storable : Value → Prop
  | scalar {value : Value} (exact : value.IsExact) : Storable value
  | dataset {data : Dataset} (sorted : ∀ row ∈ data.rows, Entries.Sorted row)
      (exact : ∀ row ∈ data.rows, ∀ cell ∈ row, cell.2.IsExact) : Storable (.dataset data)

theorem Storable.storedAs {value : Value} (storable : value.Storable) : value.StoredAs 5 value.toJson := by
  cases storable with
  | scalar exact =>
    obtain ⟨proper, shallow, read⟩ := exact.storedAs
    exact ⟨proper, Nat.le_trans shallow (by decide), read⟩
  | @dataset data sorted exact =>
    obtain ⟨columns, rows⟩ := data
    obtain ⟨proper, shallow, read⟩ := rows_stored sorted exact
    refine ⟨⟨⟨Column.properItems_toJson columns, proper, trivial⟩, trivial⟩, ?_, ?_⟩
    · have parts : depthOf (toJson (.dataset ⟨columns, rows⟩)) =
          max (Column.listDepthOf (.array (columns.map Column.toJson)))
            (rowsDepth (rowsToJson rows) + 1) + 2 := by
        simp [toJson, depthOf, partsDepth]
      have columnsShallow := Column.listDepthOf_toJson columns
      dsimp only at shallow
      omega
    · simp [toJson, ofJson?, columnsIn, rowsIn, Column.listOfJson?_toJson, read, ofParts?]

/-- Values are stored without loss. Any scalar but a number, and any dataset of such scalars, is read back
from its text as it was. -/
theorem jsonText_lossless {value : Value} (storable : value.Storable) :
    ofJsonText? value.jsonText = some value := by
  obtain ⟨proper, shallow, read⟩ := storable.storedAs
  have bound : depthOf value.toJson ≤ 127 := Nat.le_trans shallow (by decide)
  rw [ofJsonText?, jsonText, Json.parse?_compact proper, Option.bind_eq_bind, Option.bind_some,
    if_pos bound, read]

/-- A dataset with the least integer, a date before year zero, escaped characters and an empty row. -/
def edgeCases : Dataset where
  columns := [⟨"\"k\n\x01", .identifier, .date⟩, ⟨"é", .measure, .integer⟩, ⟨"é", .attribute, .null⟩]
  rows := [[("", .string "\\/\x7f😀"), ("\"k\n\x01", .date ⟨-1, 12, 31, by decide⟩),
    ("é", .integer (-0x8000000000000000))], []]

theorem jsonText_lossless_edgeCases :
    ofJsonText? (Value.dataset edgeCases).jsonText = some (.dataset edgeCases) := by
  have sorted : ∀ row ∈ edgeCases.rows, Entries.Sorted row := by
    unfold Entries.Sorted
    decide
  have exact : ∀ row ∈ edgeCases.rows, ∀ cell ∈ row, cell.2.IsExact := by
    unfold IsExact
    decide
  exact jsonText_lossless (.dataset sorted exact)

end Value

end Vtl
