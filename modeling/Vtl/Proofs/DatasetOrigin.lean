import Vtl.Proofs.Routing

namespace Vtl

/-- A variable that has a dataset as value has one with every identifier and measure that it was
declared with. -/
theorem Bindings.mem_columns_of_resolve {bindings : Bindings} {name : String} {declared : ValueType}
    {columns : List Column} {data : Dataset} {column : Column}
    (run : bindings.resolve (.dataset columns) name declared = .ok (.dataset data))
    (member : column ∈ columns) (role : column.role ≠ .attribute) : column ∈ data.columns := by
  have bound := value?_of_resolve_dataset run
  unfold Bindings.resolve at run
  simp only [bound] at run
  split at run
  · cases run
  split at run
  · cases run
  next complete =>
  have kept := List.find?_eq_none.mp complete column member
  by_contra missing
  exact kept (by simp [role, missing])

namespace Expr

/-- How an expression comes to have a dataset as value: it is a variable that a dataset is bound to, or
a join of two such expressions. No other operation gives a dataset. -/
inductive Yields (scope : Scope) (bindings : Bindings) : Expr → Dataset → Prop
  | variable {name : String} {type : StaticType} {data : Dataset}
      (declared : scope.declarations.value? name = some type)
      (bound : bindings.value? name = some (.dataset data))
      (complete : ∀ columns, type = .dataset columns →
        ∀ column ∈ columns, column.role ≠ .attribute → column ∈ data.columns) :
      Yields scope bindings (.variable type name type.valueType) data
  | join {op : ArithmeticOp} {spec : JoinSpec} {left right : Expr} {leftColumns rightColumns : List Column}
      {leftData rightData data : Dataset} (leftYields : left.Yields scope bindings leftData)
      (rightYields : right.Yields scope bindings rightData)
      (leftSchema : left.type = .dataset leftColumns) (rightSchema : right.type = .dataset rightColumns)
      (policy : spec.policy = scope.policy)
      (identifiers : spec.identifiers = (CommonColumns.between leftColumns rightColumns).identifiers)
      (measures : spec.measures =
        (CommonColumns.between leftColumns rightColumns).measures.map op.measureOf)
      (numeric : ∀ measure ∈ (CommonColumns.between leftColumns rightColumns).measures,
        measure.type ∈ ValueType.measures)
      (joined : Dataset.join leftData rightData spec op.apply = .ok data) :
      Yields scope bindings (.join (.dataset leftColumns) op spec left right) data

namespace WellTyped

variable {scope : Scope} {bindings : Bindings} {e : Expr} {data : Dataset}

theorem valueType_of_dataset (typed : e.WellTyped scope)
    (run : e.resolve bindings = .ok (.dataset data)) : e.valueType = .dataset := by
  rcases typed.resolve_isOf run with null | same
  · cases null
  · exact same.symm

/-- A well-typed expression has a dataset as value only from variables and joins. -/
theorem yields (typed : e.WellTyped scope) (run : e.resolve bindings = .ok (.dataset data)) :
    e.Yields scope bindings data := by
  have isDataset := typed.valueType_of_dataset run
  induction typed generalizing data with
  | constant literal => cases literal <;> cases isDataset
  | «variable» declared =>
    refine .variable declared (Bindings.value?_of_resolve_dataset run) ?_
    rintro columns rfl column member role
    exact Bindings.mem_columns_of_resolve run member role
  | @unary op operand _ _ _ =>
    have other : (if op = .not then ValueType.boolean else .ofOperands [operand.valueType]) ≠ .dataset := by
      split
      · simp
      · exact ofOperands_ne_dataset _
    exact (other isDataset).elim
  | arithmetic => exact (ArithmeticOp.resultType_ne_dataset _ isDataset).elim
  | concatenation | comparison | boolean => cases isDataset
  | join _ _ leftSchema rightSchema policy identifiers measures numeric leftIh rightIh =>
    obtain ⟨l, leftRun, run⟩ := bind_eq_ok.mp run
    obtain ⟨r, rightRun, run⟩ := bind_eq_ok.mp run
    rcases JoinSpec.apply_ok run with ⟨null, _⟩ | ⟨leftData, rightData, joined, rfl, rfl, same, made⟩
    · cases null
    cases same
    have leftYields := leftIh leftRun (valueType_of_schema leftSchema)
    have rightYields := rightIh rightRun (valueType_of_schema rightSchema)
    exact .join leftYields rightYields leftSchema rightSchema policy identifiers measures numeric made

end WellTyped

end Expr

end Vtl
