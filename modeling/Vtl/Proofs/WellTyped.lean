import Vtl.Expr.Compile
import Vtl.Proofs.Except

namespace Vtl

/-- The measure that an operator makes of one that both sides of a join have. -/
def ArithmeticOp.measureOf (op : ArithmeticOp) (measure : Column) : Column :=
  { measure with type := op.resultType [measure.type, measure.type] }

namespace Expr

/-- The expressions whose parts fit together under some declarations. The type of each node is
determined by the node and the types of its operands. -/
inductive WellTyped (scope : Scope) : Expr → Prop
  | constant (literal : Literal) :
      WellTyped scope (.constant (.scalar literal.value.type) literal.value)
  | variable {name : String} {type : StaticType} (declared : scope.declarations.value? name = some type) :
      WellTyped scope (.variable type name type.valueType)
  | unary {op : UnaryOp} {operand : Expr} (typed : operand.WellTyped scope)
      (accepted : operand.valueType ∈ op.accepted) :
      WellTyped scope (.unary
        (.scalar (if op = .not then .boolean else .ofOperands [operand.valueType])) op operand)
  | arithmetic {op : ArithmeticOp} {left right : Expr}
      (leftTyped : left.WellTyped scope) (rightTyped : right.WellTyped scope)
      (leftAccepted : left.valueType ∈ (BinaryOp.arithmetic op).accepted)
      (rightAccepted : right.valueType ∈ (BinaryOp.arithmetic op).accepted)
      (nullBesideLeft : left.valueType = .dataset → right.valueType = .null)
      (nullBesideRight : right.valueType = .dataset → left.valueType = .null) :
      WellTyped scope
        (.arithmetic (.scalar (op.resultType [left.valueType, right.valueType])) op left right)
  | concatenation {left right : Expr}
      (leftTyped : left.WellTyped scope) (rightTyped : right.WellTyped scope)
      (leftAccepted : left.valueType ∈ BinaryOp.concat.accepted)
      (rightAccepted : right.valueType ∈ BinaryOp.concat.accepted) :
      WellTyped scope (.concatenation (.scalar .string) left right)
  | comparison {op : ComparisonOp} {left right : Expr}
      (leftTyped : left.WellTyped scope) (rightTyped : right.WellTyped scope)
      (leftAccepted : left.valueType ∈ (BinaryOp.comparison op).accepted)
      (rightAccepted : right.valueType ∈ (BinaryOp.comparison op).accepted)
      (comparable : left.valueType.comparable right.valueType = true) :
      WellTyped scope (.comparison (.scalar .boolean) op left right)
  | boolean {op : BooleanOp} {left right : Expr}
      (leftTyped : left.WellTyped scope) (rightTyped : right.WellTyped scope)
      (leftAccepted : left.valueType ∈ (BinaryOp.boolean op).accepted)
      (rightAccepted : right.valueType ∈ (BinaryOp.boolean op).accepted) :
      WellTyped scope (.boolean (.scalar .boolean) op left right)
  | join {op : ArithmeticOp} {spec : JoinSpec} {left right : Expr} {leftColumns rightColumns : List Column}
      (leftTyped : left.WellTyped scope) (rightTyped : right.WellTyped scope)
      (leftSchema : left.type = .dataset leftColumns) (rightSchema : right.type = .dataset rightColumns)
      (policy : spec.policy = scope.policy)
      (identifiers : spec.identifiers = (CommonColumns.between leftColumns rightColumns).identifiers)
      (measures : spec.measures =
        (CommonColumns.between leftColumns rightColumns).measures.map op.measureOf)
      (numeric : ∀ measure ∈ (CommonColumns.between leftColumns rightColumns).measures,
        measure.type ∈ ValueType.measures) :
      WellTyped scope (.join (.dataset leftColumns) op spec left right)

variable {scope : Scope} {left right e : Expr}

theorem checkOperand_eq_ok {node : Tree} {operand : Expr} {accepted : List ValueType} {done : Unit} :
    checkOperand node operand accepted = .ok done ↔ operand.valueType ∈ accepted := by
  unfold checkOperand
  split
  · next within => exact iff_of_true rfl within
  · next outside => exact iff_of_false (by simp) outside

theorem columns?_eq_some {columns : List Column} : e.columns? = some columns ↔ e.type = .dataset columns := by
  unfold columns? StaticType.columns?
  cases e.type <;> simp

theorem valueType_of_schema {columns : List Column} (schema : e.type = .dataset columns) :
    e.valueType = .dataset := by
  rw [valueType, schema]
  rfl

theorem joinMeasure_eq_ok {op : ArithmeticOp} {opToken : Token} {measure result : Column}
    (made : joinMeasure op opToken measure = .ok result) :
    measure.type ∈ ValueType.measures ∧ result = op.measureOf measure := by
  unfold joinMeasure at made
  split at made
  · next within => exact ⟨within, (Except.ok.inj made).symm⟩
  · cases made

theorem mapM_joinMeasure_eq_ok {op : ArithmeticOp} {opToken : Token} {measures results : List Column}
    (made : measures.mapM (joinMeasure op opToken) = .ok results) :
    results = measures.map op.measureOf ∧ ∀ measure ∈ measures, measure.type ∈ ValueType.measures := by
  induction mapM_eq_ok.mp made with
  | nil => exact ⟨rfl, List.forall_mem_nil _⟩
  | cons first rest ih =>
    obtain ⟨same, numeric⟩ := ih (mapM_eq_ok.mpr rest)
    obtain ⟨headNumeric, headSame⟩ := joinMeasure_eq_ok first
    exact ⟨by rw [List.map_cons, headSame, same], List.forall_mem_cons.mpr ⟨headNumeric, numeric⟩⟩

theorem joinDatasets_wellTyped {mark : Mark} {op : ArithmeticOp} {opToken : Token}
    (leftTyped : left.WellTyped scope) (rightTyped : right.WellTyped scope)
    (made : joinDatasets scope.policy mark op opToken left right = .ok e) : e.WellTyped scope := by
  unfold joinDatasets at made
  split at made
  · next leftColumns rightColumns leftSchema rightSchema =>
    dsimp only at made
    split at made
    · obtain ⟨measures, run, whole⟩ := bind_eq_ok.mp made
      obtain ⟨same, numeric⟩ := mapM_joinMeasure_eq_ok run
      cases whole
      exact .join leftTyped rightTyped (columns?_eq_some.mp leftSchema)
        (columns?_eq_some.mp rightSchema) rfl rfl same numeric
    · cases made
  · cases made

theorem arithmeticOf_wellTyped {mark : Mark} {op : ArithmeticOp} {opToken : Token}
    {leftNode rightNode : Tree} (leftTyped : left.WellTyped scope) (rightTyped : right.WellTyped scope)
    (leftAccepted : left.valueType ∈ (BinaryOp.arithmetic op).accepted)
    (rightAccepted : right.valueType ∈ (BinaryOp.arithmetic op).accepted)
    (made : arithmeticOf scope.policy mark op opToken leftNode rightNode left right = .ok e) :
    e.WellTyped scope := by
  have scalar (beside : left.valueType = .dataset → right.valueType = .null)
      (besides : right.valueType = .dataset → left.valueType = .null) :=
    WellTyped.arithmetic leftTyped rightTyped leftAccepted rightAccepted beside besides
  unfold arithmeticOf at made
  split at made
  · exact joinDatasets_wellTyped leftTyped rightTyped made
  · next isDataset isNull =>
    cases made
    exact scalar (fun _ => isNull) (fun other => by rw [isNull] at other; cases other)
  · next isNull isDataset =>
    cases made
    exact scalar (fun other => by rw [isNull] at other; cases other) (fun _ => isNull)
  · cases made
  · cases made
  · next leftScalar rightScalar _ _ _ =>
    cases made
    exact scalar (fun isDataset => (leftScalar isDataset).elim) (fun isDataset => (rightScalar isDataset).elim)

theorem ofOperands_wellTyped {mark : Mark} {op : BinaryOp} {opToken : Token} {leftNode rightNode : Tree}
    (leftTyped : left.WellTyped scope) (rightTyped : right.WellTyped scope)
    (made : ofOperands scope.policy mark op opToken leftNode rightNode left right = .ok e) :
    e.WellTyped scope := by
  obtain ⟨_, leftChecked, made⟩ := bind_eq_ok.mp made
  obtain ⟨_, rightChecked, made⟩ := bind_eq_ok.mp made
  have leftAccepted := checkOperand_eq_ok.mp leftChecked
  have rightAccepted := checkOperand_eq_ok.mp rightChecked
  cases op with
  | arithmetic op => exact arithmeticOf_wellTyped leftTyped rightTyped leftAccepted rightAccepted made
  | concat =>
    cases made
    exact .concatenation leftTyped rightTyped leftAccepted rightAccepted
  | comparison op =>
    dsimp only at made
    split at made
    · next comparable =>
      cases made
      exact .comparison leftTyped rightTyped leftAccepted rightAccepted comparable
    · cases made
  | boolean op =>
    cases made
    exact .boolean leftTyped rightTyped leftAccepted rightAccepted

theorem ofOperand_wellTyped {op : UnaryOp} {node : Tree} {operand : Expr}
    (typed : operand.WellTyped scope) (made : ofOperand op node operand = .ok e) :
    e.WellTyped scope := by
  obtain ⟨_, checked, made⟩ := bind_eq_ok.mp made
  cases made
  exact .unary typed (checkOperand_eq_ok.mp checked)

theorem ofVariable_wellTyped {mark : Mark} {name : String}
    (made : ofVariable scope.declarations mark name = .ok e) : e.WellTyped scope := by
  unfold ofVariable at made
  split at made
  · cases made
  · next type declared =>
    cases made
    exact .variable declared

end Expr

/-- What compiles is well typed. -/
theorem Tree.compile_wellTyped {scope : Scope} {tree : Tree} {e : Expr}
    (compiled : tree.compile scope = .ok e) : e.WellTyped scope := by
  induction tree generalizing e with
  | parens mark inner ih => exact ih compiled
  | unary mark op operand ih =>
    unfold Tree.compile Expr.ofUnary at compiled
    split at compiled
    · cases compiled
    · obtain ⟨inner, operandCompiled, made⟩ := bind_eq_ok.mp compiled
      exact Expr.ofOperand_wellTyped (ih operandCompiled) made
  | binary mark production left op right leftIh rightIh =>
    unfold Tree.compile Expr.ofBinary at compiled
    split at compiled
    · cases compiled
    · obtain ⟨l, leftCompiled, made⟩ := bind_eq_ok.mp compiled
      obtain ⟨r, rightCompiled, made⟩ := bind_eq_ok.mp made
      exact Expr.ofOperands_wellTyped (leftIh leftCompiled) (rightIh rightCompiled) made
  | «variable» mark name => exact Expr.ofVariable_wellTyped compiled
  | constant mark literal =>
    cases compiled
    exact .constant literal

end Vtl
