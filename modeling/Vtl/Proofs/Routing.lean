import Vtl.Proofs.Statements
import Vtl.Proofs.TypeSoundness

namespace Vtl

/-- Every dataset is declared with its schema. -/
def Declarations.HaveSchemas (declarations : Declarations) : Prop :=
  ∀ name, declarations.value? name ≠ some (.scalar .dataset)

namespace StaticType

theorem ofValue_ne_bare (value : Value) : ofValue value ≠ .scalar .dataset := by
  cases value <;> simp [ofValue, Value.type]

theorem isSome_columns?_iff {type : StaticType} (schema : type ≠ .scalar .dataset) :
    type.columns?.isSome = true ↔ type.valueType = .dataset := by
  cases type with
  | scalar type =>
    have bare : type ≠ .dataset := fun same => schema (congrArg scalar same)
    simp [columns?, valueType, bare]
  | dataset columns => simp [columns?, valueType]

end StaticType

theorem Declarations.infer_haveSchemas (bindings : Bindings) : (infer bindings).HaveSchemas := by
  intro name
  rw [infer, Entries.value?_mapValues]
  intro declared
  obtain ⟨value, _, bare⟩ := Option.map_eq_some_iff.mp declared
  exact StaticType.ofValue_ne_bare value bare

theorem mem_common_identifiers {left right : List Column} {column : Column} :
    column ∈ (CommonColumns.between left right).identifiers ↔
      column ∈ left ∧ column ∈ right ∧ column.role = .identifier := by
  simp only [CommonColumns.between, List.mem_filter, decide_eq_true_eq, and_assoc]

/-- Compiling ends in no fault that is not the source's. -/
def NoDefect {α : Type} (result : Except CompileError α) : Prop :=
  ∀ defect, result ≠ .error (.internal defect)

theorem NoDefect.ok {α : Type} (value : α) : NoDefect (.ok value) :=
  fun _ failed => by cases failed

theorem NoDefect.error {α : Type} {e : CompileError} (ordinary : ∀ defect, e ≠ .internal defect) :
    NoDefect (.error e : Except CompileError α) :=
  fun defect failed => ordinary defect (Except.error.inj failed)

theorem NoDefect.bind {α β : Type} {result : Except CompileError α} {next : α → Except CompileError β}
    (first : NoDefect result) (rest : ∀ value, result = .ok value → NoDefect (next value)) :
    NoDefect (result >>= next) := by
  intro defect failed
  rcases bind_eq_error.mp failed with here | ⟨value, made, later⟩
  · exact first defect here
  · exact rest value made defect later

theorem ArithmeticOp.resultType_ne_dataset {op : ArithmeticOp} (types : List ValueType) :
    op.resultType types ≠ .dataset := by
  intro same
  have numeric := @resultType_mem_measures op types
  rw [same] at numeric
  exact absurd numeric (by decide)

theorem ofOperands_ne_dataset (types : List ValueType) : ValueType.ofOperands types ≠ .dataset :=
  @ArithmeticOp.resultType_ne_dataset .add types

namespace Expr

variable {scope : Scope} {e left right : Expr}

theorem WellTyped.type_ne_bare (typed : e.WellTyped scope) (schemas : scope.declarations.HaveSchemas) :
    e.type ≠ .scalar .dataset := by
  cases typed with
  | constant literal => cases literal <;> simp [type, Literal.value, Value.type]
  | «variable» declared =>
    rintro rfl
    exact schemas _ declared
  | @unary op operand =>
    intro bare
    have same := StaticType.scalar.inj bare
    split at same
    · cases same
    · exact ofOperands_ne_dataset _ same
  | arithmetic => exact fun bare => ArithmeticOp.resultType_ne_dataset _ (StaticType.scalar.inj bare)
  | concatenation | comparison | boolean => simp [type]
  | join => simp [type]

theorem checkOperand_noDefect (node : Tree) (operand : Expr) (accepted : List ValueType) :
    NoDefect (checkOperand node operand accepted) := by
  unfold checkOperand
  split
  · exact .ok ()
  · exact .error (by simp)

theorem joinMeasures_noDefect (op : ArithmeticOp) (opToken : Token) (measures : List Column) :
    NoDefect (measures.mapM (joinMeasure op opToken)) := by
  intro defect failed
  obtain ⟨measure, _, failed⟩ := mem_of_mapM_eq_error failed
  unfold joinMeasure at failed
  split at failed
  · cases failed
  · cases failed

theorem exists_columns (schema : e.type ≠ .scalar .dataset) (isDataset : e.valueType = .dataset) :
    ∃ columns, e.columns? = some columns :=
  Option.isSome_iff_exists.mp ((StaticType.isSome_columns?_iff schema).mpr isDataset)

theorem joinDatasets_noDefect {policy : KeyPolicy} {mark : Mark} {op : ArithmeticOp} {opToken : Token}
    (leftSchema : left.type ≠ .scalar .dataset) (rightSchema : right.type ≠ .scalar .dataset)
    (leftDataset : left.valueType = .dataset) (rightDataset : right.valueType = .dataset) :
    NoDefect (joinDatasets policy mark op opToken left right) := by
  unfold joinDatasets
  split
  · dsimp only
    split
    · exact (joinMeasures_noDefect _ _ _).bind fun _ _ => .ok _
    · exact .error (by simp)
  · next missing =>
    obtain ⟨leftColumns, ofLeft⟩ := exists_columns leftSchema leftDataset
    obtain ⟨rightColumns, ofRight⟩ := exists_columns rightSchema rightDataset
    exact (missing leftColumns rightColumns ofLeft ofRight).elim

theorem arithmeticOf_noDefect {policy : KeyPolicy} {mark : Mark} {op : ArithmeticOp} {opToken : Token}
    {leftNode rightNode : Tree} (leftSchema : left.type ≠ .scalar .dataset)
    (rightSchema : right.type ≠ .scalar .dataset) :
    NoDefect (arithmeticOf policy mark op opToken leftNode rightNode left right) := by
  unfold arithmeticOf
  dsimp only
  split
  · next leftDataset rightDataset =>
    exact joinDatasets_noDefect leftSchema rightSchema leftDataset rightDataset
  all_goals first | exact .ok _ | exact .error (by simp)

theorem ofOperands_noDefect {policy : KeyPolicy} {mark : Mark} {op : BinaryOp} {opToken : Token}
    {leftNode rightNode : Tree} (leftSchema : left.type ≠ .scalar .dataset)
    (rightSchema : right.type ≠ .scalar .dataset) :
    NoDefect (ofOperands policy mark op opToken leftNode rightNode left right) := by
  unfold ofOperands
  refine (checkOperand_noDefect _ _ _).bind fun _ _ => (checkOperand_noDefect _ _ _).bind fun _ _ => ?_
  cases op with
  | arithmetic op => exact arithmeticOf_noDefect leftSchema rightSchema
  | concat => exact .ok _
  | comparison op =>
    dsimp only
    split
    · exact .ok _
    · exact .error (by simp)
  | boolean op => exact .ok _

end Expr

namespace Family

theorem ofBinary_binary? {kind : Token.Kind} {production : Production} {level : Nat}
    (isBinary : kind.binary? = some (production, level)) :
    ∃ op, (ofBinary production kind).binary? kind = some op := by
  cases kind <;> cases isBinary <;> exact ⟨_, rfl⟩

theorem ofUnary_unary? {kind : Token.Kind} (member : kind ∈ unaryOperators) :
    ∃ op, (ofUnary kind).unary? kind = some op := by
  simp only [unaryOperators, List.mem_cons, List.not_mem_nil, or_false] at member
  rcases member with rfl | rfl | rfl <;> exact ⟨_, rfl⟩

theorem ofBinary_admits (production : Production) (kind : Token.Kind) :
    (ofBinary production kind).admits production = true := by
  cases production with
  | sum =>
    by_cases concat : kind = .concat <;> simp [ofBinary, concat, admits]
  | product | comparison | boolean => rfl

end Family

namespace Tree

/-- The rules that a node is routed to admit its shape. -/
theorem compile_binary_routed (scope : Scope) (mark : Mark) (production : Production) (left right : Tree)
    (op : Token) : (Tree.binary mark production left op right).compile scope =
      compileBinary scope (.ofBinary production op.kind) (.binary mark production left op right) := by
  rw [compileBinary, if_pos (Family.ofBinary_admits production op.kind), compile]

theorem compile_noDefect {scope : Scope} {tree : Tree} {level : Nat}
    (schemas : scope.declarations.HaveSchemas) (wellFormed : tree.shape.HasLevel level) :
    NoDefect (tree.compile scope) := by
  induction tree generalizing level with
  | parens mark inner ih =>
    cases wellFormed with
    | parens innerLevel => exact ih innerLevel
  | unary mark op operand ih =>
    cases wellFormed with
    | unary kind operandLevel tight =>
      obtain ⟨operator, found⟩ := Family.ofUnary_unary? kind
      rw [compile, Expr.ofUnary, found]
      refine (ih operandLevel).bind fun inner _ => ?_
      exact (Expr.checkOperand_noDefect _ _ _).bind fun _ _ => .ok _
  | binary mark production left op right leftIh rightIh =>
    cases wellFormed with
    | binary kind leftLevel leftTight rightLevel rightTight =>
      obtain ⟨operator, found⟩ := Family.ofBinary_binary? (binary?_eq_some_iff.mpr ⟨kind, rfl⟩)
      rw [compile, Expr.ofBinary, found]
      refine (leftIh leftLevel).bind fun l leftCompiled => (rightIh rightLevel).bind fun r rightCompiled => ?_
      -- Only a join asks for schemas, and an operand that is a dataset has one.
      exact Expr.ofOperands_noDefect ((compile_wellTyped leftCompiled).type_ne_bare schemas)
        ((compile_wellTyped rightCompiled).type_ne_bare schemas)
  | «variable» mark name =>
    rw [compile, Expr.ofVariable]
    split
    · exact .error (by simp)
    · exact .ok _
  | constant mark literal => exact .ok _

/-- An expression that a source text has, alone or in one of its statements. -/
inductive ParsedFrom (source : String) : Tree → Prop
  | expression {tree : Tree} (parsed : Tree.parse source = .ok tree) : ParsedFrom source tree
  | statement {program : Program} {statement : Statement} (parsed : Program.parse source = .ok program)
      (member : statement ∈ program) : ParsedFrom source statement.expression

theorem ParsedFrom.wellFormed {source : String} {tree : Tree} (parsed : tree.ParsedFrom source) :
    ∃ level, tree.shape.HasLevel level := by
  cases parsed with
  | expression parsed =>
    obtain ⟨tokens, _, whole⟩ := bind_eq_ok.mp parsed
    exact (derives_of_read (readWhole_eq_ok_iff.mp whole)).2
  | @statement program statement parsed member =>
    obtain ⟨tokens, _, reads⟩ := Program.parse_eq_ok.mp parsed
    have levels : ∀ statement ∈ program, ∃ level, statement.expression.shape.HasLevel level :=
      ((List.forall₂_and_left _ _).mp (reads.flip.imp fun statement segment read =>
        ⟨(derives_of_read (Program.Segment.reads_iff.mp read).1).2, read⟩)).1
    exact levels statement member

/-- Compiling what was parsed finds no fault that is not the source's: each operator is routed to rules
that have it and that admit its shape. What compiles has a schema exactly where it is a dataset, and a
join matches rows by identifiers that both of its operands have. -/
theorem compile_never_internal {source : String} {tree : Tree} (parsed : tree.ParsedFrom source)
    {scope : Scope} (schemas : scope.declarations.HaveSchemas) :
    (∀ defect, tree.compile scope ≠ .error (.internal defect)) ∧
    (∀ e, tree.compile scope = .ok e → ∀ node : Expr, node.Within e →
      (node.columns?.isSome = true ↔ node.valueType = .dataset) ∧
      ∀ type op spec left right, node = .join type op spec left right →
        spec.identifiers ≠ [] ∧ ∃ leftColumns rightColumns, left.columns? = some leftColumns ∧
          right.columns? = some rightColumns ∧
          ∀ column ∈ spec.identifiers, column ∈ leftColumns ∧ column ∈ rightColumns) ∧
    (∀ mark production left op right, (Tree.binary mark production left op right).compile scope =
      compileBinary scope (.ofBinary production op.kind) (.binary mark production left op right)) ∧
    (∀ mark op operand, (Tree.unary mark op operand).compile scope =
      compileUnary scope (.ofUnary op.kind) (.unary mark op operand)) ∧
    ∀ bindings, (Declarations.infer bindings).HaveSchemas := by
  obtain ⟨level, wellFormed⟩ := parsed.wellFormed
  refine ⟨compile_noDefect schemas wellFormed, ?_, ?_, fun _ _ _ => rfl, Declarations.infer_haveSchemas⟩
  · intro e compiled node inside
    have typed := (compile_wellTyped compiled).within inside
    refine ⟨StaticType.isSome_columns?_iff (typed.type_ne_bare schemas), ?_⟩
    rintro type op spec left right rfl
    cases typed with
    | @join _ _ _ _ leftColumns rightColumns _ _ leftSchema rightSchema _ identifiers =>
      refine ⟨spec.keyed, leftColumns, rightColumns, Expr.columns?_eq_some.mpr leftSchema,
        Expr.columns?_eq_some.mpr rightSchema, ?_⟩
      intro column member
      rw [identifiers, mem_common_identifiers] at member
      exact ⟨member.1, member.2.1⟩
  · intro mark production left op right
    exact compile_binary_routed scope mark production left right op

theorem compile_never_internal_doubled :
    Expr.doubled.ParsedFrom "ds + ds" ∧ Expr.pairScope.declarations.HaveSchemas ∧
      ∃ type op spec left right,
        Expr.doubled.compile Expr.pairScope = .ok (.join type op spec left right) ∧ spec.identifiers ≠ [] := by
  have parsed : Expr.doubled.ParsedFrom "ds + ds" := .expression (by decide +kernel)
  have schemas : Expr.pairScope.declarations.HaveSchemas := by
    intro name
    simp [Expr.pairScope]
  refine ⟨parsed, schemas, _, _, _, _, _, rfl, ?_⟩
  exact (((compile_never_internal parsed schemas).2.1 _ rfl _ .whole).2 _ _ _ _ _ rfl).1

end Tree

end Vtl
