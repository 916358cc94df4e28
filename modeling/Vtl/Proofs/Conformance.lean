import Vtl.Proofs.DatasetOrigin
import Vtl.Proofs.Progress

namespace Vtl

/-- No name stands for two different columns among the identifiers and measures of a schema. -/
def UniqueNames (columns : List Column) : Prop :=
  ∀ first ∈ columns, ∀ second ∈ columns, first.role ≠ .attribute → second.role ≠ .attribute →
    first.name = second.name → first = second

/-- What joins make of the cells under a measure of some declared type: they still fit it, or they are
day counts in place of dates, or numbers if a quotient was taken on the way. -/
def Value.Derived (value : Value) (type : ValueType) (divided : Prop) : Prop :=
  value.fits type = true ∨ (type = .date ∧ value.type = .integer) ∨ (divided ∧ value.type = .number)

namespace Value.Derived

variable {value : Value} {type : ValueType} {divided : Prop}

theorem of_null : Value.Derived .null type divided := Or.inl rfl

theorem mono {other : Prop} (derived : value.Derived type divided) (weaker : divided → other) :
    value.Derived type other := by
  rcases derived with fits | days | ⟨quotient, number⟩
  · exact Or.inl fits
  · exact Or.inr (Or.inl days)
  · exact Or.inr (Or.inr ⟨weaker quotient, number⟩)

theorem mem_measures (derived : value.Derived type divided) (numeric : type ∈ ValueType.measures) :
    value.type ∈ ValueType.measures := by
  rcases derived with fits | ⟨_, integer⟩ | ⟨_, number⟩
  · exact Value.measure_of_fits fits numeric
  · rw [integer]
    decide
  · rw [number]
    decide

/-- A number is declared as one, or comes from a quotient. -/
theorem of_number (derived : value.Derived type divided) (number : value.type = .number) :
    type = .number ∨ divided := by
  rcases derived with fits | ⟨_, integer⟩ | ⟨quotient, _⟩
  · rcases Value.fits_iff.mp fits with (rfl | same) | ⟨integer, _⟩
    · cases number
    · exact Or.inl (same.symm.trans number)
    · rw [number] at integer
      cases integer
  · rw [number] at integer
    cases integer
  · exact Or.inr quotient

/-- Nothing but null and numbers is made of nulls. -/
theorem of_null_type (derived : value.Derived .null divided) (known : value ≠ .null) :
    value.type = .number := by
  rcases derived with fits | ⟨date, _⟩ | ⟨_, number⟩
  · rcases Value.fits_iff.mp fits with (null | null) | ⟨_, promoted⟩
    · exact (known null).elim
    · exact (known (Value.eq_null_of_type null)).elim
    · cases promoted
  · cases date
  · exact number

end Value.Derived

namespace ArithmeticOp

variable {op : ArithmeticOp} {left right value : Value} {type : ValueType} {leftDivided rightDivided : Prop}

theorem resultType_of_ne_div (other : op ≠ .div) (types : List ValueType) :
    op.resultType types = ValueType.ofOperands types :=
  if_neg other

/-- The type of a sum, difference or product of two known quantities is integer or number, and a number
only beside another number. -/
theorem ofOperands_cases {first second : ValueType} (firstMeasure : first ∈ ValueType.measures)
    (secondMeasure : second ∈ ValueType.measures) (firstKnown : first ≠ .null)
    (secondKnown : second ≠ .null) :
    ValueType.ofOperands [first, second] = .integer ∧ ¬(first = .number ∧ second = .number) ∨
      ValueType.ofOperands [first, second] = .number ∧ (first = .number ∨ second = .number) := by
  simp only [ValueType.measures, List.mem_cons, List.not_mem_nil, or_false] at firstMeasure secondMeasure
  rcases firstMeasure with rfl | rfl | rfl | rfl <;> rcases secondMeasure with rfl | rfl | rfl | rfl <;>
    simp_all [ValueType.ofOperands]

/-- What an operator gives on two cells of one measure: null, a quotient, an integer that only nulls
could not have given, or a number that was declared as one or comes from a quotient. -/
theorem apply_derived_cases (numeric : type ∈ ValueType.measures) (ofLeft : left.Derived type leftDivided)
    (ofRight : right.Derived type rightDivided) (run : op.apply left right = .ok value) :
    value = .null ∨ (op = .div ∧ value.type = .number) ∨
      (op ≠ .div ∧ type ≠ .null ∧ value.type = .integer) ∨
      (op ≠ .div ∧ (type = .number ∨ leftDivided ∨ rightDivided) ∧ value.type = .number) := by
  by_cases leftNull : left = .null
  · rw [leftNull, apply_null_left] at run
    exact Or.inl (Except.ok.inj run).symm
  by_cases rightNull : right = .null
  · rw [rightNull, apply_null_right] at run
    exact Or.inl (Except.ok.inj run).symm
  have leftMeasure := ofLeft.mem_measures numeric
  have rightMeasure := ofRight.mem_measures numeric
  obtain ⟨result, applied, typeOf⟩ := @apply_known op _ _ leftNull rightNull leftMeasure rightMeasure
  obtain rfl := Except.ok.inj (applied.symm.trans run)
  by_cases quotient : op = .div
  · subst quotient
    exact Or.inr (Or.inl ⟨rfl, typeOf⟩)
  rw [resultType_of_ne_div quotient] at typeOf
  have leftKnown : left.type ≠ .null := fun null => leftNull (Value.eq_null_of_type null)
  have rightKnown : right.type ≠ .null := fun null => rightNull (Value.eq_null_of_type null)
  rcases ofOperands_cases leftMeasure rightMeasure leftKnown rightKnown with ⟨integer, others⟩ | ⟨number, one⟩
  · refine Or.inr (Or.inr (Or.inl ⟨quotient, ?_, typeOf.trans integer⟩))
    rintro rfl
    exact others ⟨ofLeft.of_null_type leftNull, ofRight.of_null_type rightNull⟩
  · refine Or.inr (Or.inr (Or.inr ⟨quotient, ?_, typeOf.trans number⟩))
    rcases one with leftNumber | rightNumber
    · exact (ofLeft.of_number leftNumber).imp_right Or.inl
    · exact (ofRight.of_number rightNumber).imp_right Or.inr

/-- Joining keeps what is known of the cells under a declared measure. -/
theorem apply_derived (numeric : type ∈ ValueType.measures) (ofLeft : left.Derived type leftDivided)
    (ofRight : right.Derived type rightDivided) (run : op.apply left right = .ok value) :
    value.Derived type (op = .div ∨ leftDivided ∨ rightDivided) := by
  rcases apply_derived_cases numeric ofLeft ofRight run with
    rfl | ⟨quotient, number⟩ | ⟨_, known, integer⟩ | ⟨_, origin, number⟩
  · exact .of_null
  · exact Or.inr (Or.inr ⟨Or.inl quotient, number⟩)
  · simp only [ValueType.measures, List.mem_cons, List.not_mem_nil, or_false] at numeric
    rcases numeric with rfl | rfl | rfl | rfl
    · exact Or.inl (Value.fits_iff.mpr (Or.inl (Or.inr integer)))
    · exact Or.inl (Value.fits_iff.mpr (Or.inr ⟨integer, rfl⟩))
    · exact (known rfl).elim
    · exact Or.inr (Or.inl ⟨rfl, integer⟩)
  · rcases origin with rfl | divided
    · exact Or.inl (Value.fits_iff.mpr (Or.inl (Or.inr number)))
    · exact Or.inr (Or.inr ⟨Or.inr divided, number⟩)

/-- A joined cell fits the type that the join gives its measure, unless it is a number from a quotient
below under a measure that is declared as an integer. -/
theorem apply_fits (numeric : type ∈ ValueType.measures) (ofLeft : left.Derived type leftDivided)
    (ofRight : right.Derived type rightDivided) (run : op.apply left right = .ok value) :
    value.fits (op.resultType [type, type]) = true ∨
      (op ≠ .div ∧ (leftDivided ∨ rightDivided)) ∧ op.resultType [type, type] = .integer ∧
        value.type = .number := by
  have integerOrNumber : op.resultType [type, type] = .integer ∨ op.resultType [type, type] = .number := by
    unfold resultType ValueType.ofOperands
    grind
  rcases apply_derived_cases numeric ofLeft ofRight run with
    rfl | ⟨rfl, number⟩ | ⟨_, _, integer⟩ | ⟨other, origin, number⟩
  · exact Or.inl rfl
  · exact Or.inl (Value.fits_iff.mpr (Or.inl (Or.inr number)))
  · left
    rcases integerOrNumber with result | result
    · exact Value.fits_iff.mpr (Or.inl (Or.inr (integer.trans result.symm)))
    · exact Value.fits_iff.mpr (Or.inr ⟨integer, result⟩)
  · rcases integerOrNumber with result | result
    · right
      refine ⟨⟨other, origin.resolve_left ?_⟩, result, number⟩
      rintro rfl
      rw [resultType_of_ne_div other] at result
      cases result
    · exact Or.inl (Value.fits_iff.mpr (Or.inl (Or.inr (number.trans result.symm))))

end ArithmeticOp

/-- What is known of the cells of a dataset under the columns of a static schema, although the dataset
may lack some of them. -/
structure Dataset.Holds (data : Dataset) (columns : List Column) (divided : Prop) : Prop where
  identifiers : ∀ column ∈ columns, column.role = .identifier →
    ∀ row : Row, row ∈ data.rows → (row.cell column.name).fits column.type = true
  measures : ∀ column ∈ columns, column.role = .measure → column.type ∈ ValueType.measures →
    ∀ row : Row, row ∈ data.rows → (row.cell column.name).Derived column.type divided

namespace Expr

/-- A quotient of two datasets is taken in the expression. -/
def Divides (e : Expr) : Prop :=
  ∃ type spec left right, (Expr.join type .div spec left right).Within e

/-- The expression adds, subtracts or multiplies datasets one of which comes from a quotient. -/
def OverQuotient : Expr → Prop
  | .join _ op _ left right => op ≠ .div ∧ (left.Divides ∨ right.Divides)
  | _ => False

theorem Divides.of_operand {e operand : Expr} (member : operand ∈ e.operands) (divides : operand.Divides) :
    e.Divides := by
  obtain ⟨type, spec, left, right, inside⟩ := divides
  exact ⟨type, spec, left, right, .part member inside⟩

theorem divides_join {type : StaticType} {op : ArithmeticOp} {spec : JoinSpec} {left right : Expr}
    (origin : op = .div ∨ left.Divides ∨ right.Divides) : (Expr.join type op spec left right).Divides := by
  rcases origin with rfl | divides | divides
  · exact ⟨type, spec, left, right, .whole⟩
  · exact divides.of_operand (by simp [operands])
  · exact divides.of_operand (by simp [operands])

namespace Yields

variable {scope : Scope} {bindings : Bindings} {e : Expr} {data : Dataset} {columns : List Column}

/-- A static schema is one that was declared. -/
theorem uniqueNames (yields : e.Yields scope bindings data)
    (unique : ∀ name columns, scope.declarations.value? name = some (.dataset columns) → UniqueNames columns)
    (schema : e.type = .dataset columns) : UniqueNames columns := by
  induction yields generalizing columns with
  | «variable» declared =>
    cases schema
    exact unique _ _ declared
  | join _ _ leftSchema _ _ _ _ _ _ leftIh =>
    cases schema
    exact leftIh leftSchema

end Yields

end Expr

/-- A joined cell under a measure of the left schema is combined from two cells of that measure, or it
is a cell of the left row or null. -/
theorem JoinSpec.Merged.measure_cell {op : ArithmeticOp} {spec : JoinSpec}
    {leftColumns rightColumns : List Column} {left right row : Row} {column : Column}
    (merged : spec.Merged op.apply left right row) (unique : UniqueNames leftColumns)
    (measures : spec.measures = (CommonColumns.between leftColumns rightColumns).measures.map op.measureOf)
    (member : column ∈ leftColumns) (role : column.role ≠ .attribute) :
    (column ∈ (CommonColumns.between leftColumns rightColumns).measures ∧
        op.apply (left.cell column.name) (right.cell column.name) = .ok (row.cell column.name)) ∨
      row.cell column.name = left.cell column.name ∨ row.cell column.name = .null := by
  rcases merged.cell column.name with ⟨known, combined⟩ | others
  · rw [measures, List.map_map] at known
    obtain ⟨measure, common, sameName⟩ := List.mem_map.mp known
    obtain ⟨ofLeft, _, isMeasure⟩ := mem_common_measures.mp common
    have same : measure = column := by
      refine unique measure ofLeft column member ?_ role sameName
      rw [isMeasure]
      decide
    exact Or.inl ⟨same ▸ common, combined⟩
  · exact Or.inr others

namespace Expr

variable {scope : Scope} {bindings : Bindings} {e : Expr} {data : Dataset} {columns : List Column}

/-- What is known of the cells of two datasets is known of those of their join. -/
theorem Yields.holds (yields : e.Yields scope bindings data)
    (unique : ∀ name columns, scope.declarations.value? name = some (.dataset columns) → UniqueNames columns)
    (conforming : ∀ name data, bindings.value? name = some (.dataset data) → Dataset.Conforming data)
    (schema : e.type = .dataset columns) : data.Holds columns e.Divides := by
  induction yields generalizing columns with
  | @«variable» name type data declared bound complete =>
    cases schema
    have present := complete columns rfl
    refine ⟨?_, ?_⟩
    · intro column member role row inRows
      exact conforming name data bound column (present column member (by simp [role])) row inRows
    · intro column member role _ row inRows
      exact Or.inl (conforming name data bound column (present column member (by simp [role])) row inRows)
  | @join op spec left right leftColumns rightColumns leftData rightData data leftYields _ leftSchema
      rightSchema _ _ measures numeric joined leftIh rightIh =>
    cases schema
    have leftHolds := leftIh leftSchema
    have rightHolds := rightIh rightSchema
    have uniqueLeft := leftYields.uniqueNames unique leftSchema
    refine ⟨?_, ?_⟩
    · intro column member role row inRows
      obtain ⟨leftRow, inLeft, rightRow, _, made⟩ := (Dataset.joinBy_ok joined).2 row inRows
      rcases (JoinSpec.merge_merged made).measure_cell uniqueLeft measures member (by simp [role]) with
        ⟨common, _⟩ | kept | missing
      · have isMeasure := (mem_common_measures.mp common).2.2
        rw [role] at isMeasure
        cases isMeasure
      · rw [kept]
        exact leftHolds.identifiers column member role leftRow inLeft
      · rw [missing]
        rfl
    · intro column member role numericColumn row inRows
      obtain ⟨leftRow, inLeft, rightRow, inRight, made⟩ := (Dataset.joinBy_ok joined).2 row inRows
      rcases (JoinSpec.merge_merged made).measure_cell uniqueLeft measures member (by simp [role]) with
        ⟨common, combined⟩ | kept | missing
      · have ofRight := (mem_common_measures.mp common).2.1
        have leftCell := leftHolds.measures column member role numericColumn leftRow inLeft
        have rightCell := rightHolds.measures column ofRight role numericColumn rightRow inRight
        exact (ArithmeticOp.apply_derived numericColumn leftCell rightCell combined).mono divides_join
      · rw [kept]
        have leftCell := leftHolds.measures column member role numericColumn leftRow inLeft
        exact leftCell.mono fun divides => divides_join (Or.inr (Or.inl divides))
      · rw [missing]
        exact .of_null

/-- Each cell of a resolved dataset fits its column, or it is a number under an integer measure of a
join over a quotient. -/
theorem Yields.cell_fits (yields : e.Yields scope bindings data)
    (unique : ∀ name columns, scope.declarations.value? name = some (.dataset columns) → UniqueNames columns)
    (conforming : ∀ name data, bindings.value? name = some (.dataset data) → Dataset.Conforming data)
    {column : Column} (member : column ∈ data.columns) {row : Row} (inRows : row ∈ data.rows) :
    (row.cell column.name).fits column.type = true ∨
      e.OverQuotient ∧ column.role = .measure ∧ column.type = .integer ∧
        (row.cell column.name).type = .number := by
  have whole := yields
  cases yields with
  | @«variable» name _ data _ bound => exact Or.inl (conforming name data bound column member row inRows)
  | @join op spec left right leftColumns rightColumns leftData rightData data leftYields rightYields leftSchema
      rightSchema _ identifiers measures numeric joined =>
    obtain ⟨outputs, rows⟩ := Dataset.joinBy_ok joined
    rw [outputs, JoinSpec.outputColumns, identifiers, measures, List.mem_append] at member
    rcases member with identifier | result
    · obtain ⟨ofLeft, _, role⟩ := mem_common_identifiers.mp identifier
      exact Or.inl ((whole.holds unique conforming rfl).identifiers column ofLeft role row inRows)
    · obtain ⟨measure, common, rfl⟩ := List.mem_map.mp result
      obtain ⟨ofLeft, ofRight, role⟩ := mem_common_measures.mp common
      obtain ⟨leftRow, inLeft, rightRow, inRight, made⟩ := rows row inRows
      have combined := (JoinSpec.merge_merged made).measures (op.measureOf measure) (measures ▸ result)
      have numericMeasure := numeric measure common
      have leftCell := (leftYields.holds unique conforming leftSchema).measures measure ofLeft role
        numericMeasure leftRow inLeft
      have rightCell := (rightYields.holds unique conforming rightSchema).measures measure ofRight role
        numericMeasure rightRow inRight
      rcases ArithmeticOp.apply_fits numericMeasure leftCell rightCell combined with
        fits | ⟨mixed, integer, number⟩
      · exact Or.inl fits
      · exact Or.inr ⟨mixed, role, integer, number⟩

/-- Datasets that are resolved from conforming ones. Unless a sum, difference or product is taken over a
quotient, the result conforms to its own columns. In any case the only cells that do not fit are
numbers under integer measures: a join types its measures by the declared schema of its operands,
which a quotient inside them does not change. -/
theorem resolve_conforms_unless_over_quotient {scope : Scope} {tree : Tree} {e : Expr}
    (compiled : tree.compile scope = .ok e)
    (unique : ∀ name columns, scope.declarations.value? name = some (.dataset columns) → UniqueNames columns)
    {bindings : Bindings}
    (conforming : ∀ name data, bindings.value? name = some (.dataset data) → Dataset.Conforming data)
    {data : Dataset} (run : e.resolve bindings = .ok (.dataset data)) :
    (¬e.OverQuotient → data.Conforming) ∧
      ∀ column ∈ data.columns, ∀ row : Row, row ∈ data.rows →
        (row.cell column.name).fits column.type = false →
        column.role = .measure ∧ column.type = .integer ∧ (row.cell column.name).type = .number := by
  have yields := (Tree.compile_wellTyped compiled).yields run
  refine ⟨?_, ?_⟩
  · intro plain column member row inRows
    exact (yields.cell_fits unique conforming member inRows).resolve_right fun mixed => plain mixed.1
  · intro column member row inRows unfit
    rcases yields.cell_fits unique conforming member inRows with fits | ⟨_, found⟩
    · rw [fits] at unfit
      cases unfit
    · exact found

theorem pairRows_conforming : Dataset.Conforming pairRows := by
  simp [Dataset.Conforming, pairRows, pairColumns, Row.cell, Value.fits, Value.type]

/-- What `(ds / ds) + ds` makes of `pairRows`: the columns are as they were, and a number stands under
the integer measure. -/
def mixedRows : Dataset :=
  ⟨pairColumns, [[("id", .integer 1), ("m", .number (((Number.ofInt 6).div (.ofInt 6)).add (.ofInt 6)))],
    [("id", .integer 2), ("m", .null)]]⟩

theorem exists_resolve_nested : ∃ e, nested.compile pairScope = .ok e ∧ e.OverQuotient ∧
    e.resolve [("ds", .dataset pairRows)] = .ok (.dataset mixedRows) :=
  ⟨_, rfl, ⟨by decide, Or.inl ⟨_, _, _, _, .whole⟩⟩, rfl⟩

theorem quotient_sum_not_conforming :
    Dataset.Conforming pairRows ∧ pairScope.declarations.value? "ds" = some (.dataset pairRows.columns) ∧
      ∃ e data, nested.compile pairScope = .ok e ∧
        e.resolve [("ds", .dataset pairRows)] = .ok (.dataset data) ∧ ¬Dataset.Conforming data := by
  obtain ⟨e, compiled, _, run⟩ := exists_resolve_nested
  refine ⟨pairRows_conforming, rfl, e, mixedRows, compiled, run, ?_⟩
  intro conforming
  have fits := conforming ⟨"m", .measure, .integer⟩ (by simp [mixedRows, pairColumns]) _ List.mem_cons_self
  cases fits

theorem resolve_conforms_unless_over_quotient_nested :
    ∃ e, nested.compile pairScope = .ok e ∧ e.OverQuotient ∧
      e.resolve [("ds", .dataset pairRows)] = .ok (.dataset mixedRows) ∧
      ∀ column ∈ mixedRows.columns, ∀ row : Row, row ∈ mixedRows.rows →
        (row.cell column.name).fits column.type = false →
        column.role = .measure ∧ column.type = .integer ∧ (row.cell column.name).type = .number := by
  obtain ⟨e, compiled, mixed, run⟩ := exists_resolve_nested
  refine ⟨e, compiled, mixed, run, (resolve_conforms_unless_over_quotient compiled ?_ ?_ run).2⟩
  · intro name columns declared
    have ds : name = "ds" := by by_contra other; simp [pairScope, other] at declared
    subst ds
    cases declared
    simp [UniqueNames, pairColumns]
  · intro name data bound
    have ds : name = "ds" := by by_contra other; simp [other] at bound
    subst ds
    cases bound
    exact pairRows_conforming

end Expr

end Vtl
