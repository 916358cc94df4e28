import Vtl.Proofs.Routing

namespace Vtl

/-- A column of a schema that the other schema has too, as a measure of a type without arithmetic. -/
def Column.Unfit (other : List Column) (column : Column) : Prop :=
  column ∈ other ∧ column.role = .measure ∧ column.type ∉ ValueType.measures

/-- The first unfit column in the order of the left schema. -/
def FirstUnfit (left right : List Column) (column : Column) : Prop :=
  ∃ before after, left = before ++ column :: after ∧ column.Unfit right ∧
    ∀ earlier ∈ before, ¬earlier.Unfit right

theorem identifiers_eq_nil_iff {left right : List Column} :
    (CommonColumns.between left right).identifiers = [] ↔
      ∀ column ∈ left, column.role = .identifier → column ∉ right := by
  simp only [List.eq_nil_iff_forall_not_mem, mem_common_identifiers]
  grind

namespace Expr

/-- What an operator objects to in its two operands, and the fault that it reports: an operand of a type
that it does not take, the left one first; a scalar beside a dataset; datasets without an identifier or
with an unfit measure in common; and scalars that do not compare. -/
inductive Clash (mark : Mark) (opToken : Token) (leftNode rightNode : Tree) (left right : Expr) :
    BinaryOp → CompileError → Prop
  | left {op : BinaryOp} (refused : left.valueType ∉ op.accepted) :
      Clash mark opToken leftNode rightNode left right op
        (.typeMismatch leftNode.mark op.accepted left.valueType)
  | right {op : BinaryOp} (accepted : left.valueType ∈ op.accepted) (refused : right.valueType ∉ op.accepted) :
      Clash mark opToken leftNode rightNode left right op
        (.typeMismatch rightNode.mark op.accepted right.valueType)
  | scalarRight {op : ArithmeticOp} (dataset : left.valueType = .dataset)
      (accepted : right.valueType ∈ (BinaryOp.arithmetic op).accepted) (scalar : right.valueType ≠ .dataset)
      (known : right.valueType ≠ .null) :
      Clash mark opToken leftNode rightNode left right (.arithmetic op)
        (.typeMismatch rightNode.mark [.dataset] right.valueType)
  | scalarLeft {op : ArithmeticOp} (dataset : right.valueType = .dataset)
      (accepted : left.valueType ∈ (BinaryOp.arithmetic op).accepted) (scalar : left.valueType ≠ .dataset)
      (known : left.valueType ≠ .null) :
      Clash mark opToken leftNode rightNode left right (.arithmetic op)
        (.typeMismatch leftNode.mark [.dataset] left.valueType)
  | unkeyed {op : ArithmeticOp} {leftColumns rightColumns : List Column}
      (leftSchema : left.type = .dataset leftColumns) (rightSchema : right.type = .dataset rightColumns)
      (apart : ∀ column ∈ leftColumns, column.role = .identifier → column ∉ rightColumns) :
      Clash mark opToken leftNode rightNode left right (.arithmetic op) (.noCommonIdentifiers op mark.span)
  | measure {op : ArithmeticOp} {leftColumns rightColumns : List Column} {key measure : Column}
      (leftSchema : left.type = .dataset leftColumns) (rightSchema : right.type = .dataset rightColumns)
      (inLeft : key ∈ leftColumns) (inRight : key ∈ rightColumns) (role : key.role = .identifier)
      (first : FirstUnfit leftColumns rightColumns measure) :
      Clash mark opToken leftNode rightNode left right (.arithmetic op)
        (.operatorType op.text s!"{measure.name} {measure.type.text}"
          s!"{measure.name} {measure.type.text}" opToken.span)
  | incomparable {op : ComparisonOp} (leftAccepted : left.valueType ∈ (BinaryOp.comparison op).accepted)
      (rightAccepted : right.valueType ∈ (BinaryOp.comparison op).accepted)
      (apart : left.valueType.comparable right.valueType = false) :
      Clash mark opToken leftNode rightNode left right (.comparison op)
        (.operatorType opToken.text left.valueType.text right.valueType.text opToken.span)

variable {policy : KeyPolicy} {mark : Mark} {opToken : Token} {leftNode rightNode : Tree} {left right : Expr}
  {e : CompileError}

theorem checkOperand_eq_error {node : Tree} {operand : Expr} {accepted : List ValueType} :
    checkOperand node operand accepted = .error e ↔
      operand.valueType ∉ accepted ∧ e = .typeMismatch node.mark accepted operand.valueType := by
  unfold checkOperand
  split
  · next within => simp [within]
  · next outside => simp [outside, eq_comm]

theorem joinMeasure_eq_error {op : ArithmeticOp} {measure : Column} :
    joinMeasure op opToken measure = .error e ↔ measure.type ∉ ValueType.measures ∧
      e = .operatorType op.text s!"{measure.name} {measure.type.text}"
        s!"{measure.name} {measure.type.text}" opToken.span := by
  unfold joinMeasure
  split
  · next within => simp [within]
  · next outside => simp [outside, eq_comm]

theorem joinMeasures_eq_error {op : ArithmeticOp} {leftColumns rightColumns : List Column} :
    (CommonColumns.between leftColumns rightColumns).measures.mapM (joinMeasure op opToken) = .error e ↔
      ∃ measure, FirstUnfit leftColumns rightColumns measure ∧
        e = .operatorType op.text s!"{measure.name} {measure.type.text}"
          s!"{measure.name} {measure.type.text}" opToken.span := by
  have passes (column : Column) : (∃ result, joinMeasure op opToken column = .ok result) ↔
      column.type ∈ ValueType.measures := by
    unfold joinMeasure
    split <;> simp_all
  -- The common measures are a selection from the left schema, so the first to fail is the first unfit there.
  simp only [CommonColumns.between, List.filter_filter, mapM_filter_eq_error, joinMeasure_eq_error, passes,
    Bool.and_eq_true, decide_eq_true_eq]
  constructor
  · rintro ⟨before, measure, after, split, ⟨role, common⟩, ⟨unfit, rfl⟩, earlier⟩
    refine ⟨measure, ⟨before, after, split, ⟨common, role, unfit⟩, ?_⟩, rfl⟩
    rintro column member ⟨inRight, isMeasure, refused⟩
    exact refused (earlier column member ⟨isMeasure, inRight⟩)
  · rintro ⟨measure, ⟨before, after, split, ⟨common, role, unfit⟩, earlier⟩, rfl⟩
    refine ⟨before, measure, after, split, ⟨role, common⟩, ⟨unfit, rfl⟩, ?_⟩
    rintro column member ⟨isMeasure, inRight⟩
    by_contra refused
    exact earlier column member ⟨inRight, isMeasure, refused⟩

theorem joinDatasets_eq_error {op : ArithmeticOp} {leftColumns rightColumns : List Column}
    (leftSchema : left.type = .dataset leftColumns) (rightSchema : right.type = .dataset rightColumns) :
    joinDatasets policy mark op opToken left right = .error e ↔
      ((CommonColumns.between leftColumns rightColumns).identifiers = [] ∧
        e = .noCommonIdentifiers op mark.span) ∨
      ((CommonColumns.between leftColumns rightColumns).identifiers ≠ [] ∧
        ∃ measure, FirstUnfit leftColumns rightColumns measure ∧
          e = .operatorType op.text s!"{measure.name} {measure.type.text}"
            s!"{measure.name} {measure.type.text}" opToken.span) := by
  rw [joinDatasets, columns?_eq_some.mpr leftSchema, columns?_eq_some.mpr rightSchema]
  dsimp only
  split
  · next keyed =>
    rw [bind_eq_error, joinMeasures_eq_error]
    simp [keyed, pure, Except.pure]
  · next unkeyed =>
    have none := not_not.mp unkeyed
    simp [none, eq_comm]

theorem exists_schema (schema : left.type ≠ .scalar .dataset) (isDataset : left.valueType = .dataset) :
    ∃ columns, left.type = .dataset columns := by
  obtain ⟨columns, known⟩ := exists_columns schema isDataset
  exact ⟨columns, columns?_eq_some.mp known⟩

theorem arithmeticOf_clash {op : ArithmeticOp} (leftSchema : left.type ≠ .scalar .dataset)
    (rightSchema : right.type ≠ .scalar .dataset)
    (leftAccepted : left.valueType ∈ (BinaryOp.arithmetic op).accepted)
    (rightAccepted : right.valueType ∈ (BinaryOp.arithmetic op).accepted)
    (failed : arithmeticOf policy mark op opToken leftNode rightNode left right = .error e) :
    Clash mark opToken leftNode rightNode left right (.arithmetic op) e := by
  unfold arithmeticOf at failed
  dsimp only at failed
  split at failed
  · next leftDataset rightDataset =>
    obtain ⟨leftColumns, ofLeft⟩ := exists_schema leftSchema leftDataset
    obtain ⟨rightColumns, ofRight⟩ := exists_schema rightSchema rightDataset
    rcases (joinDatasets_eq_error ofLeft ofRight).mp failed with ⟨none, rfl⟩ | ⟨some, measure, first, rfl⟩
    · exact .unkeyed ofLeft ofRight (identifiers_eq_nil_iff.mp none)
    · obtain ⟨key, member⟩ := List.exists_mem_of_ne_nil _ some
      obtain ⟨inLeft, inRight, role⟩ := mem_common_identifiers.mp member
      exact .measure ofLeft ofRight inLeft inRight role first
  · cases failed
  · cases failed
  · next leftDataset notDataset notNull =>
    cases failed
    exact .scalarRight leftDataset rightAccepted notDataset notNull
  · next rightDataset notDataset notNull =>
    cases failed
    exact .scalarLeft rightDataset leftAccepted notDataset notNull
  · cases failed

theorem ofOperands_clash {op : BinaryOp} (leftSchema : left.type ≠ .scalar .dataset)
    (rightSchema : right.type ≠ .scalar .dataset)
    (failed : ofOperands policy mark op opToken leftNode rightNode left right = .error e) :
    Clash mark opToken leftNode rightNode left right op e := by
  rcases bind_eq_error.mp failed with checked | ⟨_, checked, failed⟩
  · obtain ⟨refused, rfl⟩ := checkOperand_eq_error.mp checked
    exact .left refused
  have leftAccepted := checkOperand_eq_ok.mp checked
  rcases bind_eq_error.mp failed with checked | ⟨_, checked, failed⟩
  · obtain ⟨refused, rfl⟩ := checkOperand_eq_error.mp checked
    exact .right leftAccepted refused
  have rightAccepted := checkOperand_eq_ok.mp checked
  cases op with
  | arithmetic op => exact arithmeticOf_clash leftSchema rightSchema leftAccepted rightAccepted failed
  | concat | boolean => cases failed
  | comparison op =>
    dsimp only at failed
    split at failed
    · cases failed
    · next apart =>
      cases failed
      exact .incomparable leftAccepted rightAccepted (Bool.not_eq_true _ ▸ apart)

theorem ofOperands_arithmetic {op : ArithmeticOp}
    (leftAccepted : left.valueType ∈ (BinaryOp.arithmetic op).accepted)
    (rightAccepted : right.valueType ∈ (BinaryOp.arithmetic op).accepted) :
    ofOperands policy mark (.arithmetic op) opToken leftNode rightNode left right =
      arithmeticOf policy mark op opToken leftNode rightNode left right := by
  simp only [ofOperands, checkOperand, if_pos leftAccepted, if_pos rightAccepted]
  rfl

theorem dataset_accepted {op : ArithmeticOp} (isDataset : left.valueType = .dataset) :
    left.valueType ∈ (BinaryOp.arithmetic op).accepted := by
  simp [isDataset, BinaryOp.accepted]

theorem ofOperands_datasets {op : ArithmeticOp} {leftColumns rightColumns : List Column}
    (leftSchema : left.type = .dataset leftColumns) (rightSchema : right.type = .dataset rightColumns) :
    ofOperands policy mark (.arithmetic op) opToken leftNode rightNode left right =
      joinDatasets policy mark op opToken left right := by
  have leftDataset := valueType_of_schema leftSchema
  have rightDataset := valueType_of_schema rightSchema
  rw [ofOperands_arithmetic (dataset_accepted leftDataset) (dataset_accepted rightDataset), arithmeticOf,
    leftDataset, rightDataset]

theorem Clash.ofOperands {op : BinaryOp} (clash : Clash mark opToken leftNode rightNode left right op e) :
    ofOperands policy mark op opToken leftNode rightNode left right = .error e := by
  cases clash with
  | left refused => exact bind_eq_error.mpr (Or.inl (checkOperand_eq_error.mpr ⟨refused, rfl⟩))
  | right accepted refused =>
    refine bind_eq_error.mpr (Or.inr ⟨(), checkOperand_eq_ok.mpr accepted, ?_⟩)
    exact bind_eq_error.mpr (Or.inl (checkOperand_eq_error.mpr ⟨refused, rfl⟩))
  | scalarRight isDataset accepted scalar known =>
    rw [ofOperands_arithmetic (dataset_accepted isDataset) accepted, arithmeticOf, isDataset]
    split <;> simp_all
  | scalarLeft isDataset accepted scalar known =>
    rw [ofOperands_arithmetic accepted (dataset_accepted isDataset), arithmeticOf, isDataset]
    split <;> simp_all
  | unkeyed leftSchema rightSchema apart =>
    rw [ofOperands_datasets leftSchema rightSchema, joinDatasets_eq_error leftSchema rightSchema]
    exact Or.inl ⟨identifiers_eq_nil_iff.mpr apart, rfl⟩
  | measure leftSchema rightSchema inLeft inRight role first =>
    have keyed := List.ne_nil_of_mem (mem_common_identifiers.mpr ⟨inLeft, inRight, role⟩)
    rw [ofOperands_datasets leftSchema rightSchema, joinDatasets_eq_error leftSchema rightSchema]
    exact Or.inr ⟨keyed, _, first, rfl⟩
  | incomparable leftAccepted rightAccepted apart =>
    refine bind_eq_error.mpr (Or.inr ⟨(), checkOperand_eq_ok.mpr leftAccepted, ?_⟩)
    refine bind_eq_error.mpr (Or.inr ⟨(), checkOperand_eq_ok.mpr rightAccepted, ?_⟩)
    exact if_neg (Bool.eq_false_iff.mp apart)

end Expr

namespace Tree

def operands : Tree → List Tree
  | .parens _ inner => [inner]
  | .unary _ _ operand => [operand]
  | .binary _ _ left _ right => [left, right]
  | .variable .. | .constant .. => []

/-- The nodes of a tree in the order of evaluation: left operand, right operand, the node itself. -/
def postorder : Tree → List Tree
  | .parens mark inner => inner.postorder ++ [.parens mark inner]
  | .unary mark op operand => operand.postorder ++ [.unary mark op operand]
  | .binary mark production left op right =>
    left.postorder ++ (right.postorder ++ [.binary mark production left op right])
  | .variable mark name => [.variable mark name]
  | .constant mark value => [.constant mark value]

/-- What a node itself is at fault for, where all of its operands compile. Parentheses and constants are
never at fault. -/
inductive Fault (scope : Scope) : Tree → CompileError → Prop
  | unknown {mark : Mark} {name : String} (undeclared : scope.declarations.value? name = none) :
      Fault scope (.variable mark name) (.unknownVariable name mark.span)
  | operand {mark : Mark} {op : Token} {operand : Tree} {operator : UnaryOp} {inner : Expr}
      (found : (Family.ofUnary op.kind).unary? op.kind = some operator)
      (compiled : operand.compile scope = .ok inner) (refused : inner.valueType ∉ operator.accepted) :
      Fault scope (.unary mark op operand) (.typeMismatch operand.mark operator.accepted inner.valueType)
  | operands {mark : Mark} {production : Production} {left right : Tree} {op : Token} {operator : BinaryOp}
      {l r : Expr} {e : CompileError}
      (found : (Family.ofBinary production op.kind).binary? op.kind = some operator)
      (leftCompiled : left.compile scope = .ok l) (rightCompiled : right.compile scope = .ok r)
      (clash : Expr.Clash mark op left right l r operator e) :
      Fault scope (.binary mark production left op right) e

variable {scope : Scope} {tree node : Tree} {level : Nat} {e : CompileError}

theorem mem_postorder : node ∈ tree.postorder ↔ node ∈ tree.nodes := by
  induction tree with
  | parens mark inner ih | unary mark op inner ih =>
    rw [postorder, nodes, List.mem_append, List.mem_singleton, List.mem_cons, ih, or_comm]
  | binary mark production left op right leftIh rightIh =>
    simp only [postorder, nodes, List.mem_append, List.mem_cons, List.not_mem_nil, or_false, leftIh, rightIh]
    grind
  | «variable» | constant => rfl

theorem wellFormed_of_mem_nodes (wellFormed : tree.shape.HasLevel level) (part : node ∈ tree.nodes) :
    ∃ own, node.shape.HasLevel own := by
  induction tree generalizing level with
  | parens mark inner ih =>
    rcases List.mem_cons.mp part with rfl | below
    · exact ⟨level, wellFormed⟩
    · cases wellFormed with
      | parens innerLevel => exact ih innerLevel below
  | unary mark op operand ih =>
    rcases List.mem_cons.mp part with rfl | below
    · exact ⟨level, wellFormed⟩
    · cases wellFormed with
      | unary kind operandLevel tight => exact ih operandLevel below
  | binary mark production left op right leftIh rightIh =>
    rcases List.mem_cons.mp part with rfl | below
    · exact ⟨level, wellFormed⟩
    · cases wellFormed with
      | binary kind ofLeft leftTight ofRight rightTight =>
        rcases List.mem_append.mp below with inLeft | inRight
        · exact leftIh ofLeft inLeft
        · exact rightIh ofRight inRight
  | «variable» | constant =>
    obtain rfl := List.mem_singleton.mp part
    exact ⟨level, wellFormed⟩

theorem compile_unary_of_found {mark : Mark} {op : Token} {operand : Tree} {operator : UnaryOp}
    (found : (Family.ofUnary op.kind).unary? op.kind = some operator) :
    (Tree.unary mark op operand).compile scope =
      operand.compile scope >>= Expr.ofOperand operator operand := by
  rw [compile, Expr.ofUnary, found]

theorem compile_binary_of_found {mark : Mark} {production : Production} {left right : Tree} {op : Token}
    {operator : BinaryOp} (found : (Family.ofBinary production op.kind).binary? op.kind = some operator) :
    (Tree.binary mark production left op right).compile scope =
      left.compile scope >>= fun l => right.compile scope >>= fun r =>
        Expr.ofOperands scope.policy mark operator op left right l r := by
  rw [compile, Expr.ofBinary, found]

theorem ofOperand_eq_error {operator : UnaryOp} {operand : Tree} {inner : Expr} :
    Expr.ofOperand operator operand inner = .error e ↔ inner.valueType ∉ operator.accepted ∧
      e = .typeMismatch operand.mark operator.accepted inner.valueType := by
  rw [Expr.ofOperand, bind_eq_error, Expr.checkOperand_eq_error]
  simp [pure, Except.pure]

/-- A node is at fault exactly where it does not compile although all of its operands do. -/
theorem fault_iff (schemas : scope.declarations.HaveSchemas) (wellFormed : node.shape.HasLevel level) :
    node.Fault scope e ↔ node.compile scope = .error e ∧
      ∀ operand ∈ node.operands, ∃ inner, operand.compile scope = .ok inner := by
  cases node with
  | parens mark inner =>
    refine iff_of_false (fun fault => by cases fault) ?_
    rintro ⟨failed, operands⟩
    obtain ⟨e, compiled⟩ := operands inner List.mem_cons_self
    rw [compile, compiled] at failed
    cases failed
  | constant mark literal =>
    refine iff_of_false (fun fault => by cases fault) ?_
    rintro ⟨failed, _⟩
    cases failed
  | «variable» mark name =>
    rw [operands, compile, Expr.ofVariable, and_iff_left (List.forall_mem_nil _)]
    constructor
    · rintro ⟨undeclared⟩
      rw [undeclared]
    · intro failed
      split at failed
      · next undeclared =>
        cases failed
        exact .unknown undeclared
      · cases failed
  | unary mark op operand =>
    cases wellFormed with
    | unary kind operandLevel tight =>
      obtain ⟨operator, found⟩ := Family.ofUnary_unary? kind
      rw [operands, List.forall_mem_singleton, compile_unary_of_found found]
      constructor
      · intro fault
        cases fault with
        | operand known compiled refused =>
          obtain rfl := Option.some.inj (known.symm.trans found)
          exact ⟨bind_eq_error.mpr (Or.inr ⟨_, compiled, ofOperand_eq_error.mpr ⟨refused, rfl⟩⟩), _, compiled⟩
      · rintro ⟨failed, inner, compiled⟩
        rw [compiled] at failed
        obtain ⟨refused, rfl⟩ := ofOperand_eq_error.mp failed
        exact .operand found compiled refused
  | binary mark production left op right =>
    cases wellFormed with
    | binary kind ofLeft leftTight ofRight rightTight =>
      obtain ⟨operator, found⟩ := Family.ofBinary_binary? (binary?_eq_some_iff.mpr ⟨kind, rfl⟩)
      rw [operands, List.forall_mem_cons, List.forall_mem_singleton, compile_binary_of_found found]
      constructor
      · intro fault
        cases fault with
        | operands known leftCompiled rightCompiled clash =>
          obtain rfl := Option.some.inj (known.symm.trans found)
          refine ⟨?_, ⟨_, leftCompiled⟩, _, rightCompiled⟩
          rw [leftCompiled, rightCompiled]
          exact clash.ofOperands
      · rintro ⟨failed, ⟨l, leftCompiled⟩, r, rightCompiled⟩
        rw [leftCompiled, rightCompiled] at failed
        -- Operands that are datasets have schemas, so a join asks for none in vain.
        exact .operands found leftCompiled rightCompiled (Expr.ofOperands_clash
          ((compile_wellTyped leftCompiled).type_ne_bare schemas)
          ((compile_wellTyped rightCompiled).type_ne_bare schemas) failed)

/-- The first node of a list that is at fault, and what it is at fault for. -/
def FirstFault (scope : Scope) (nodes : List Tree) (e : CompileError) : Prop :=
  ∃ before node after, nodes = before ++ node :: after ∧ node.Fault scope e ∧
    ∀ earlier ∈ before, ∀ other, ¬earlier.Fault scope other

theorem firstFault_cons {nodes : List Tree} : FirstFault scope (node :: nodes) e ↔
    node.Fault scope e ∨ (∀ other, ¬node.Fault scope other) ∧ FirstFault scope nodes e := by
  constructor
  · rintro ⟨before, found, after, split, fault, clean⟩
    cases before with
    | nil =>
      cases split
      exact Or.inl fault
    | cons first before =>
      cases split
      obtain ⟨ofFirst, clean⟩ := List.forall_mem_cons.mp clean
      exact Or.inr ⟨ofFirst, before, found, after, rfl, fault, clean⟩
  · rintro (fault | ⟨clean, before, found, after, rfl, fault, earlier⟩)
    · exact ⟨[], node, nodes, rfl, fault, List.forall_mem_nil _⟩
    · exact ⟨node :: before, found, after, rfl, fault, List.forall_mem_cons.mpr ⟨clean, earlier⟩⟩

theorem not_firstFault_nil : ¬FirstFault scope [] e := by
  rintro ⟨before, node, after, split, _⟩
  simp at split

theorem exists_firstFault_iff {nodes : List Tree} :
    (∃ e, FirstFault scope nodes e) ↔ ∃ node ∈ nodes, ∃ e, node.Fault scope e := by
  induction nodes with
  | nil => simp [not_firstFault_nil]
  | cons node nodes ih =>
    simp only [firstFault_cons, exists_or, exists_and_left, ih, List.exists_mem_cons_iff, ← not_exists]
    tauto

theorem firstFault_append {front rest : List Tree} : FirstFault scope (front ++ rest) e ↔
    FirstFault scope front e ∨ (¬∃ other, FirstFault scope front other) ∧ FirstFault scope rest e := by
  induction front with
  | nil => simp [not_firstFault_nil]
  | cons node front ih =>
    simp only [List.cons_append, firstFault_cons, ih, exists_or, exists_and_left, ← not_exists]
    tauto

theorem firstFault_singleton : FirstFault scope [node] e ↔ node.Fault scope e := by
  simp only [firstFault_cons, not_firstFault_nil, and_false, or_false]

/-- The first fault in the order of evaluation is the one that compiling reports: an operand's faults come
before those of its node, and both operands are compiled before the node looks at either. -/
theorem compile_eq_error_iff (schemas : scope.declarations.HaveSchemas) (wellFormed : tree.shape.HasLevel level) :
    tree.compile scope = .error e ↔ FirstFault scope tree.postorder e := by
  induction tree generalizing level e with
  | parens mark inner ih =>
    have own := fault_iff (e := e) schemas wellFormed
    cases wellFormed with
    | parens innerLevel =>
      simp only [postorder, firstFault_append, firstFault_singleton, own, ← ih innerLevel, operands,
        List.forall_mem_singleton, compile]
      cases inner.compile scope <;> simp
  | unary mark op operand ih =>
    have own := fault_iff (e := e) schemas wellFormed
    cases wellFormed with
    | unary kind operandLevel tight =>
      obtain ⟨operator, found⟩ := Family.ofUnary_unary? kind
      simp only [postorder, firstFault_append, firstFault_singleton, own, ← ih operandLevel, operands,
        List.forall_mem_singleton, compile_unary_of_found found]
      cases operand.compile scope <;> simp [bind, Except.bind]
  | binary mark production left op right leftIh rightIh =>
    have own := fault_iff (e := e) schemas wellFormed
    cases wellFormed with
    | binary kind ofLeft leftTight ofRight rightTight =>
      obtain ⟨operator, found⟩ := Family.ofBinary_binary? (binary?_eq_some_iff.mpr ⟨kind, rfl⟩)
      simp only [postorder, firstFault_append, firstFault_singleton, own, ← leftIh ofLeft, ← rightIh ofRight,
        operands, List.forall_mem_cons, compile_binary_of_found found]
      cases left.compile scope <;> cases right.compile scope <;> simp [bind, Except.bind]
  | «variable» | constant =>
    rw [postorder, firstFault_singleton, fault_iff schemas wellFormed, operands,
      and_iff_left (List.forall_mem_nil _)]

/-- Compiling fails exactly where some node is at fault on its own, although all of its operands compile,
and the error is that of the first such node in the order of evaluation. -/
theorem compile_error_first_fault {source : String} (parsed : tree.ParsedFrom source)
    (schemas : scope.declarations.HaveSchemas) :
    (∀ node ∈ tree.nodes, ∀ e, node.Fault scope e ↔ node.compile scope = .error e ∧
      ∀ operand ∈ node.operands, ∃ inner, operand.compile scope = .ok inner) ∧
    ((∃ e, tree.compile scope = .error e) ↔ ∃ node ∈ tree.nodes, ∃ e, node.Fault scope e) ∧
    ∀ e, tree.compile scope = .error e ↔ ∃ before node after, tree.postorder = before ++ node :: after ∧
      node.Fault scope e ∧ ∀ earlier ∈ before, ∀ other, ¬earlier.Fault scope other := by
  obtain ⟨level, wellFormed⟩ := parsed.wellFormed
  refine ⟨?_, ?_, fun e => compile_eq_error_iff schemas wellFormed⟩
  · intro node part e
    obtain ⟨own, nodeFormed⟩ := wellFormed_of_mem_nodes wellFormed part
    exact fault_iff schemas nodeFormed
  · simp only [compile_eq_error_iff schemas wellFormed, exists_firstFault_iff, mem_postorder]

/-- A text less a name that nothing declares: neither side of the difference is right. -/
def textLessUnknown : Tree :=
  .binary ⟨"\"a\" - x", ⟨0, 7, 1, 1⟩⟩ .sum (.constant ⟨"\"a\"", ⟨0, 3, 1, 1⟩⟩ (.string "a"))
    ⟨.minus, "-", ⟨4, 5, 1, 5⟩⟩ (.variable ⟨"x", ⟨6, 7, 1, 7⟩⟩ "x")

theorem compile_error_first_fault_textLessUnknown :
    textLessUnknown.ParsedFrom "\"a\" - x" ∧ Expr.pairScope.declarations.HaveSchemas ∧
      textLessUnknown.compile Expr.pairScope = .error (.unknownVariable "x" ⟨6, 7, 1, 7⟩) ∧
      ∃ node ∈ textLessUnknown.nodes, ∃ e, node.Fault Expr.pairScope e := by
  have parsed : textLessUnknown.ParsedFrom "\"a\" - x" := .expression (by decide +kernel)
  have schemas : Expr.pairScope.declarations.HaveSchemas := by
    intro name
    simp [Expr.pairScope]
  exact ⟨parsed, schemas, rfl, (compile_error_first_fault parsed schemas).2.1.mp ⟨_, rfl⟩⟩

end Tree

end Vtl
