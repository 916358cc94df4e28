import Vtl.Proofs.TypeSoundness

namespace Vtl

/-- Each cell, a missing one being null, fits the type of its column. -/
def Dataset.Conforming (data : Dataset) : Prop :=
  ∀ column ∈ data.columns, ∀ row : Row, row ∈ data.rows → (row.cell column.name).fits column.type = true

/-- Bindings that keep what declarations promise: each declared name is bound to a value of its type,
datasets have the declared identifiers and measures, and their cells fit their columns. -/
structure Bindings.Fitting (bindings : Bindings) (declarations : Declarations) : Prop where
  bound : ∀ name type, declarations.value? name = some type →
    ∃ value, bindings.value? name = some value ∧ value.fits type.valueType = true
  schemas : ∀ name columns data, declarations.value? name = some (.dataset columns) →
    bindings.value? name = some (.dataset data) →
    ∀ column ∈ columns, column.role = .identifier ∨ column.role = .measure → column ∈ data.columns
  conforming : ∀ name data, bindings.value? name = some (.dataset data) → Dataset.Conforming data

theorem mem_common_measures {left right : List Column} {measure : Column} :
    measure ∈ (CommonColumns.between left right).measures ↔
      measure ∈ left ∧ measure ∈ right ∧ measure.role = .measure := by
  simp only [CommonColumns.between, List.mem_filter, decide_eq_true_eq, and_assoc]

theorem Value.measure_of_fits {value : Value} {type : ValueType} (fits : value.fits type = true)
    (measure : type ∈ ValueType.measures) : value.type ∈ ValueType.measures := by
  rcases Value.fits_iff.mp fits with (rfl | same) | ⟨integer, _⟩
  · decide
  · exact same ▸ measure
  · rw [integer]
    decide

/-- A cell of a merged row is combined, taken from the left, or missing. -/
theorem JoinSpec.Merged.cell {ε : Type} {spec : JoinSpec} {combine : Value → Value → Except ε Value}
    {left right row : Row} (merged : spec.Merged combine left right row) (name : String) :
    (name ∈ spec.measures.map Column.name ∧
        combine (left.cell name) (right.cell name) = .ok (row.cell name)) ∨
      row.cell name = left.cell name ∨ row.cell name = .null := by
  by_cases measure : name ∈ spec.measures.map Column.name
  · obtain ⟨column, member, rfl⟩ := List.mem_map.mp measure
    exact Or.inl ⟨measure, merged.measures column member⟩
  by_cases identifier : name ∈ spec.identifiers.map Column.name
  · obtain ⟨column, member, rfl⟩ := List.mem_map.mp identifier
    exact Or.inr (Or.inl (merged.identifiers column member measure))
  · have absent : name ∉ row.map Prod.fst := by
      rw [merged.names, outputColumns, List.map_append, List.mem_append, not_or]
      exact ⟨identifier, measure⟩
    rw [Entries.mem_names_iff, not_exists] at absent
    have none : row.value? name = none := Option.eq_none_iff_forall_ne_some.mpr absent
    exact Or.inr (Or.inr (by rw [Row.cell, none, Option.getD_none]))

/-- Arithmetic may be done on the cells under each numeric measure of a schema, although the dataset
may lack the column, or have it with another type. -/
def Dataset.Computable (data : Dataset) (columns : List Column) : Prop :=
  ∀ column ∈ columns, column.role = .measure → column.type ∈ ValueType.measures →
    ∀ row : Row, row ∈ data.rows → (row.cell column.name).type ∈ ValueType.measures

namespace Expr

/-- What a join does to its measures it does to cells that can be computed with. -/
theorem join_measure_cells {op : ArithmeticOp} {spec : JoinSpec} {leftColumns rightColumns : List Column}
    {left right : Dataset} {leftRow rightRow : Row} {name : String}
    (measures : spec.measures =
      (CommonColumns.between leftColumns rightColumns).measures.map op.measureOf)
    (numeric : ∀ measure ∈ (CommonColumns.between leftColumns rightColumns).measures,
      measure.type ∈ ValueType.measures)
    (leftCells : left.Computable leftColumns) (rightCells : right.Computable rightColumns)
    (inLeft : leftRow ∈ left.rows) (inRight : rightRow ∈ right.rows)
    (known : name ∈ spec.measures.map Column.name) :
    ∃ result, op.apply (leftRow.cell name) (rightRow.cell name) = .ok result ∧
      result.type ∈ ValueType.measures := by
  rw [measures, List.map_map] at known
  obtain ⟨measure, member, rfl⟩ := List.mem_map.mp known
  obtain ⟨ofLeft, ofRight, role⟩ := mem_common_measures.mp member
  exact ArithmeticOp.apply_measures (leftCells measure ofLeft role (numeric measure member) _ inLeft)
    (rightCells measure ofRight role (numeric measure member) _ inRight)

namespace WellTyped

variable {scope : Scope} {e : Expr} {bindings : Bindings}

/-- Datasets keep cells that can be computed with along joins. Such a cell of a joined row was
combined from two such cells or is a cell of the left row, and the static schema is the left one. -/
theorem computable (typed : e.WellTyped scope) (fitting : bindings.Fitting scope.declarations)
    {data : Dataset} {columns : List Column} (run : e.resolve bindings = .ok (.dataset data))
    (schema : e.type = .dataset columns) : data.Computable columns := by
  induction typed generalizing data columns with
  | constant literal => cases schema
  | @«variable» name type declared =>
    cases schema
    intro column member role numeric row inRows
    have found := Bindings.value?_of_resolve_dataset run
    have present := fitting.schemas name _ data declared found column member (Or.inr role)
    exact Value.measure_of_fits (fitting.conforming name data found column present row inRows) numeric
  | unary => cases schema
  | arithmetic => cases schema
  | concatenation => cases schema
  | comparison => cases schema
  | boolean => cases schema
  | @join op spec left right leftColumns rightColumns _ _ leftSchema rightSchema _ _ measures numeric
      leftIh rightIh =>
    cases schema
    obtain ⟨l, leftRun, run⟩ := bind_eq_ok.mp run
    obtain ⟨r, rightRun, run⟩ := bind_eq_ok.mp run
    rcases JoinSpec.apply_ok run with ⟨null, _⟩ | ⟨leftData, rightData, joined, rfl, rfl, same, made⟩
    · cases null
    cases same
    have leftCells := leftIh leftRun leftSchema
    have rightCells := rightIh rightRun rightSchema
    intro column member role numericColumn row inRows
    obtain ⟨leftRow, inLeft, rightRow, inRight, merged⟩ := (Dataset.joinBy_ok made).2 row inRows
    rcases (JoinSpec.merge_merged merged).cell column.name with ⟨known, combined⟩ | kept | missing
    · obtain ⟨result, applied, isMeasure⟩ :=
        join_measure_cells measures numeric leftCells rightCells inLeft inRight known
      exact Except.ok.inj (applied.symm.trans combined) ▸ isMeasure
    · rw [kept]
      exact leftCells column member role numericColumn leftRow inLeft
    · rw [missing]
      decide

theorem no_fault (typed : e.WellTyped scope) (fitting : bindings.Fitting scope.declarations)
    (error : ResolveError) : ¬e.Fault bindings error := by
  intro fault
  cases typed with
  | constant | unary | arithmetic | concatenation | comparison | boolean => cases fault
  | @«variable» name type declared =>
    obtain ⟨value, found, fits⟩ := fitting.bound name type declared
    cases fault with
    | unbound missing =>
      rw [found] at missing
      cases missing
    | wrongType bound unfit =>
      rw [found] at bound
      cases bound
      rw [fits] at unfit
      cases unfit
    | @missingColumn columns _ _ data column bound promised role missing =>
      have kept : column.role = .identifier ∨ column.role = .measure := by
        cases of : column.role with
        | identifier => exact Or.inl rfl
        | measure => exact Or.inr rfl
        | «attribute» => exact absurd of role
      exact missing (fitting.schemas name columns data declared bound column promised kept)
  | join leftTyped rightTyped leftSchema rightSchema _ _ measures numeric =>
    cases fault with
    | cells leftValue rightValue inLeft inRight known unfit =>
      have leftCells := leftTyped.computable fitting leftValue leftSchema
      have rightCells := rightTyped.computable fitting rightValue rightSchema
      obtain ⟨result, applied, _⟩ := join_measure_cells measures numeric leftCells rightCells
        inLeft inRight (List.mem_map_of_mem known)
      cases applied.symm.trans unfit

end WellTyped

/-- Under bindings that keep what the declarations promise, what compiles has a value. -/
theorem resolve_progress {scope : Scope} {tree : Tree} {e : Expr}
    (compiled : tree.compile scope = .ok e) {bindings : Bindings}
    (fitting : bindings.Fitting scope.declarations) : ∃ value, e.resolve bindings = .ok value := by
  have typed := Tree.compile_wellTyped compiled
  cases run : e.resolve bindings with
  | ok value => exact ⟨value, rfl⟩
  | error error =>
    obtain ⟨node, inside, _, fault⟩ := typed.exists_fault run
    exact ((typed.within inside).no_fault fitting error fault).elim

/-- `(ds / ds) + ds`, in which the quotients are numbers beside the integers of `ds`. -/
def nested : Tree :=
  .binary ⟨"(ds / ds) + ds", ⟨0, 14, 1, 1⟩⟩ .sum
    (.parens ⟨"(ds / ds)", ⟨0, 9, 1, 1⟩⟩
      (.binary ⟨"ds / ds", ⟨1, 8, 1, 2⟩⟩ .product (.variable ⟨"ds", ⟨1, 3, 1, 2⟩⟩ "ds")
        ⟨.over, "/", ⟨4, 5, 1, 5⟩⟩ (.variable ⟨"ds", ⟨6, 8, 1, 7⟩⟩ "ds")))
    ⟨.plus, "+", ⟨10, 11, 1, 11⟩⟩ (.variable ⟨"ds", ⟨12, 14, 1, 13⟩⟩ "ds")

def pairRows : Dataset :=
  ⟨pairColumns, [[("id", .integer 1), ("m", .integer 6)], [("id", .integer 2)]]⟩

theorem resolve_progress_nested :
    Bindings.Fitting [("ds", .dataset pairRows)] pairScope.declarations ∧
      ∃ e, nested.compile pairScope = .ok e ∧ ∃ value, e.resolve [("ds", .dataset pairRows)] = .ok value := by
  have fitting : Bindings.Fitting [("ds", .dataset pairRows)] pairScope.declarations := by
    refine ⟨?_, ?_, ?_⟩
    · simp [pairScope, Value.fits, Value.type, StaticType.valueType]
    · intro name columns data declared bound column member _
      have ds : name = "ds" := by by_contra other; simp [other] at bound
      subst ds
      cases declared
      cases bound
      exact member
    · simp [Dataset.Conforming, pairRows, pairColumns, Row.cell, Value.fits, Value.type]
  exact ⟨fitting, _, rfl, @resolve_progress pairScope nested _ rfl _ fitting⟩

end Expr

end Vtl
