import Vtl.Proofs.Grammar
import Vtl.Proofs.TypeSoundness

namespace Vtl

namespace Expr

/-- The operator that an expression of two operands was made with. -/
def binaryOp? : Expr → Option BinaryOp
  | .arithmetic _ op .. | .join _ op .. => some (.arithmetic op)
  | .concatenation .. => some .concat
  | .comparison _ op .. => some (.comparison op)
  | .boolean _ op .. => some (.boolean op)
  | .constant .. | .variable .. | .unary .. => none

variable {scope : Scope} {left right e : Expr}

theorem WellTyped.accepted {op : BinaryOp} {operand : Expr} (typed : e.WellTyped scope)
    (made : e.binaryOp? = some op) (member : operand ∈ e.operands) : operand.valueType ∈ op.accepted := by
  cases typed with
  | constant | «variable» | unary => cases made
  | arithmetic _ _ leftAccepted rightAccepted | concatenation _ _ leftAccepted rightAccepted
  | comparison _ _ leftAccepted rightAccepted | boolean _ _ leftAccepted rightAccepted =>
    cases made
    simp only [operands, List.mem_cons, List.not_mem_nil, or_false] at member
    rcases member with rfl | rfl
    · exact leftAccepted
    · exact rightAccepted
  | join _ _ leftSchema rightSchema =>
    cases made
    simp only [operands, List.mem_cons, List.not_mem_nil, or_false] at member
    rcases member with rfl | rfl
    · simp [BinaryOp.accepted, valueType_of_schema leftSchema]
    · simp [BinaryOp.accepted, valueType_of_schema rightSchema]

theorem arithmeticOf_eq_scalar {policy : KeyPolicy} {mark : Mark} {op : ArithmeticOp} {opToken : Token}
    {leftNode rightNode : Tree} (nullBesideLeft : left.valueType = .dataset → right.valueType = .null)
    (nullBesideRight : right.valueType = .dataset → left.valueType = .null) :
    arithmeticOf policy mark op opToken leftNode rightNode left right =
      .ok (.arithmetic (.scalar (op.resultType [left.valueType, right.valueType])) op left right) := by
  unfold arithmeticOf
  split
  · next leftDataset rightDataset =>
    have isNull := nullBesideLeft leftDataset
    rw [rightDataset] at isNull
    cases isNull
  · rfl
  · rfl
  · next leftDataset _ known => exact (known (nullBesideLeft leftDataset)).elim
  · next rightDataset _ known => exact (known (nullBesideRight rightDataset)).elim
  · rfl

theorem mapM_joinMeasure {op : ArithmeticOp} {opToken : Token} {measures : List Column}
    (numeric : ∀ measure ∈ measures, measure.type ∈ ValueType.measures) :
    measures.mapM (joinMeasure op opToken) = .ok (measures.map op.measureOf) := by
  rw [mapM_eq_ok, List.forall₂_map_right_iff, List.forall₂_same]
  intro measure member
  rw [joinMeasure, if_pos (numeric measure member)]
  rfl

theorem arithmeticOf_eq_join {policy : KeyPolicy} {mark : Mark} {op : ArithmeticOp} {opToken : Token}
    {leftNode rightNode : Tree} {spec : JoinSpec} {leftColumns rightColumns : List Column}
    (leftSchema : left.type = .dataset leftColumns) (rightSchema : right.type = .dataset rightColumns)
    (samePolicy : spec.policy = policy)
    (identifiers : spec.identifiers = (CommonColumns.between leftColumns rightColumns).identifiers)
    (measures : spec.measures = (CommonColumns.between leftColumns rightColumns).measures.map op.measureOf)
    (numeric : ∀ measure ∈ (CommonColumns.between leftColumns rightColumns).measures,
      measure.type ∈ ValueType.measures) :
    arithmeticOf policy mark op opToken leftNode rightNode left right =
      .ok (.join (.dataset leftColumns) op spec left right) := by
  obtain ⟨specIdentifiers, specMeasures, specPolicy, keyed⟩ := spec
  dsimp only at samePolicy identifiers measures
  subst samePolicy identifiers measures
  rw [arithmeticOf, valueType_of_schema leftSchema, valueType_of_schema rightSchema]
  dsimp only
  rw [joinDatasets, columns?_eq_some.mpr leftSchema, columns?_eq_some.mpr rightSchema]
  dsimp only
  rw [dif_pos keyed, mapM_joinMeasure numeric]
  rfl

theorem ofOperands_of_wellTyped {mark : Mark} {op : BinaryOp} {opToken : Token} {leftNode rightNode : Tree}
    (typed : e.WellTyped scope) (made : e.binaryOp? = some op) (parts : e.operands = [left, right]) :
    ofOperands scope.policy mark op opToken leftNode rightNode left right = .ok e := by
  have leftAccepted : left.valueType ∈ op.accepted := typed.accepted made (by simp [parts])
  have rightAccepted : right.valueType ∈ op.accepted := typed.accepted made (by simp [parts])
  refine bind_eq_ok.mpr ⟨(), checkOperand_eq_ok.mpr leftAccepted, ?_⟩
  refine bind_eq_ok.mpr ⟨(), checkOperand_eq_ok.mpr rightAccepted, ?_⟩
  cases typed with
  | constant | «variable» | unary => cases made
  | arithmetic _ _ _ _ besideLeft besideRight =>
    cases made
    cases parts
    exact arithmeticOf_eq_scalar besideLeft besideRight
  | concatenation | boolean =>
    cases made
    cases parts
    rfl
  | comparison _ _ _ _ comparable =>
    cases made
    cases parts
    exact if_pos comparable
  | join _ _ leftSchema rightSchema samePolicy identifiers measures numeric =>
    cases made
    cases parts
    exact arithmeticOf_eq_join leftSchema rightSchema samePolicy identifiers measures numeric

theorem binaryOp?_of_ofOperands {policy : KeyPolicy} {mark : Mark} {op : BinaryOp} {opToken : Token}
    {leftNode rightNode : Tree}
    (made : ofOperands policy mark op opToken leftNode rightNode left right = .ok e) :
    e.binaryOp? = some op ∧ e.operands = [left, right] := by
  obtain ⟨_, _, made⟩ := bind_eq_ok.mp made
  obtain ⟨_, _, made⟩ := bind_eq_ok.mp made
  cases op with
  | concat | boolean op =>
    cases made
    exact ⟨rfl, rfl⟩
  | comparison op =>
    dsimp only at made
    split at made
    · cases made
      exact ⟨rfl, rfl⟩
    · cases made
  | arithmetic op =>
    dsimp only [arithmeticOf] at made
    split at made
    · unfold joinDatasets at made
      split at made
      · dsimp only at made
        split at made
        · obtain ⟨measures, _, made⟩ := bind_eq_ok.mp made
          cases made
          exact ⟨rfl, rfl⟩
        · cases made
      · cases made
    all_goals cases made
    all_goals exact ⟨rfl, rfl⟩

end Expr

namespace Tree

variable {scope : Scope} {e : Expr}

/-- An expression of two operands compiles to a well-typed one with the operator and the operands that
its own compile to. Texts and places play no part. -/
theorem compile_binary_eq_ok {mark : Mark} {production : Production} {left right : Tree} {op : Token} :
    (Tree.binary mark production left op right).compile scope = .ok e ↔
      ∃ operator l r, (Family.ofBinary production op.kind).binary? op.kind = some operator ∧
        left.compile scope = .ok l ∧ right.compile scope = .ok r ∧
        e.WellTyped scope ∧ e.binaryOp? = some operator ∧ e.operands = [l, r] := by
  constructor
  · intro compiled
    have typed := compile_wellTyped compiled
    unfold compile Expr.ofBinary at compiled
    split at compiled
    · cases compiled
    · next operator found =>
      obtain ⟨l, leftCompiled, made⟩ := bind_eq_ok.mp compiled
      obtain ⟨r, rightCompiled, made⟩ := bind_eq_ok.mp made
      exact ⟨operator, l, r, found, leftCompiled, rightCompiled, typed, Expr.binaryOp?_of_ofOperands made⟩
  · rintro ⟨operator, l, r, found, leftCompiled, rightCompiled, typed, made, parts⟩
    rw [compile, Expr.ofBinary, found, leftCompiled, rightCompiled]
    exact Expr.ofOperands_of_wellTyped typed made parts

theorem compile_unary_eq_ok {mark : Mark} {op : Token} {operand : Tree} :
    (Tree.unary mark op operand).compile scope = .ok e ↔
      ∃ operator inner, (Family.ofUnary op.kind).unary? op.kind = some operator ∧
        operand.compile scope = .ok inner ∧ inner.valueType ∈ operator.accepted ∧
        e = .unary (.scalar (if operator = .not then .boolean else .ofOperands [inner.valueType])) operator
          inner := by
  constructor
  · intro compiled
    unfold compile Expr.ofUnary at compiled
    split at compiled
    · cases compiled
    · next operator found =>
      obtain ⟨inner, operandCompiled, made⟩ := bind_eq_ok.mp compiled
      obtain ⟨_, checked, made⟩ := bind_eq_ok.mp made
      cases made
      exact ⟨operator, inner, found, operandCompiled, Expr.checkOperand_eq_ok.mp checked, rfl⟩
  · rintro ⟨operator, inner, found, operandCompiled, accepted, rfl⟩
    rw [compile, Expr.ofUnary, found, operandCompiled]
    refine bind_eq_ok.mpr ⟨inner, rfl, bind_eq_ok.mpr ⟨(), ?_, rfl⟩⟩
    exact Expr.checkOperand_eq_ok.mpr accepted

theorem compile_variable_eq_ok {mark : Mark} {name : String} :
    (Tree.variable mark name).compile scope = .ok e ↔
      ∃ type, scope.declarations.value? name = some type ∧ e = .variable type name type.valueType := by
  rw [compile, Expr.ofVariable]
  cases scope.declarations.value? name with
  | none => simp
  | some type => simp [eq_comm]

/-- What an expression compiles to depends on its shape only. -/
theorem compile_of_shape_eq {tree other : Tree} (same : tree.shape = other.shape)
    (compiled : tree.compile scope = .ok e) : other.compile scope = .ok e := by
  induction tree generalizing other e with
  | parens mark inner ih =>
    cases other <;> simp only [shape, Shape.parens.injEq, reduceCtorEq] at same
    have inside := ih same compiled
    exact inside
  | unary mark op operand ih =>
    cases other <;> simp only [shape, Shape.unary.injEq, reduceCtorEq] at same
    obtain ⟨operator, inner, found, operandCompiled, typed⟩ := compile_unary_eq_ok.mp compiled
    rw [same.1] at found
    exact compile_unary_eq_ok.mpr ⟨operator, inner, found, ih same.2 operandCompiled, typed⟩
  | binary mark production left op right leftIh rightIh =>
    cases other <;> simp only [shape, Shape.binary.injEq, reduceCtorEq] at same
    obtain ⟨rfl, leftSame, opSame, rightSame⟩ := same
    obtain ⟨operator, l, r, found, leftCompiled, rightCompiled, typed⟩ := compile_binary_eq_ok.mp compiled
    rw [opSame] at found
    exact compile_binary_eq_ok.mpr
      ⟨operator, l, r, found, leftIh leftSame leftCompiled, rightIh rightSame rightCompiled, typed⟩
  | «variable» mark name =>
    cases other <;> simp only [shape, Shape.variable.injEq, reduceCtorEq] at same
    subst same
    exact compile_variable_eq_ok.mpr (compile_variable_eq_ok.mp compiled)
  | constant mark literal =>
    cases other <;> simp only [shape, Shape.constant.injEq, reduceCtorEq] at same
    subst same
    exact compiled

end Tree

end Vtl
