import Vtl.Proofs.Inference
import Vtl.Proofs.Loosening

namespace Vtl

/-- The shape with another one, in parentheses, in place of each variable of some name. -/
def Shape.substitute (shape : Shape) (name : String) (replacement : Shape) : Shape :=
  match shape with
  | .parens inner => .parens (inner.substitute name replacement)
  | .unary op operand => .unary op (operand.substitute name replacement)
  | .binary production left op right =>
    .binary production (left.substitute name replacement) op (right.substitute name replacement)
  | .variable other => if other = name then .parens replacement else .variable other
  | .constant value => .constant value

/-- A value may have either type, and only the type of a null is looser than it was. -/
def Value.Retypes (value : Value) (type other : StaticType) : Prop :=
  type = other ∨
    value = .null ∧ type.valueType ≠ .dataset ∧ type.valueType.Loosens other.valueType

namespace Value.Retypes

variable {value : Value} {type other : StaticType}

theorem loosens (retypes : value.Retypes type other) : type.valueType.Loosens other.valueType := by
  rcases retypes with rfl | ⟨_, _, loosens⟩
  · exact .same _
  · exact loosens

theorem schema (retypes : value.Retypes type other) {columns : List Column}
    (known : type = .dataset columns) : other = .dataset columns := by
  rcases retypes with rfl | ⟨_, scalar, _⟩
  · exact known
  · rw [known] at scalar
    exact (scalar rfl).elim

end Value.Retypes

theorem StaticType.eq_of_valueType {type other : StaticType} (same : type.valueType = other.valueType)
    (scalar : type.valueType ≠ .dataset) : type = other := by
  cases type with
  | dataset => exact (scalar rfl).elim
  | scalar =>
    cases other with
    | dataset => exact (scalar same).elim
    | scalar => exact congrArg StaticType.scalar same

/-- A name for a scalar has the type of the value at hand. -/
theorem Expr.WellTyped.retypes_ofValue {scope : Scope} {bindings : Bindings} {e : Expr} {value : Value}
    (typed : e.WellTyped scope) (scalar : e.valueType ≠ .dataset) (run : e.resolve bindings = .ok value) :
    value.Retypes e.type (.ofValue value) := by
  rcases typed.resolve_isOf run with rfl | same
  · exact Or.inr ⟨rfl, scalar, .unknown⟩
  · refine Or.inl (StaticType.eq_of_valueType ?_ scalar)
    rw [StaticType.valueType_ofValue]
    exact same.symm

/-- An expression in place of another one, under bindings of its own: it has the same value, and a type
that is looser at most where the value is null. -/
structure Expr.StandsFor (other : Expr) (policy : KeyPolicy) (bindings : Bindings) (e : Expr)
    (value : Value) : Prop where
  typed : other.WellTyped (bindings.scope policy)
  run : other.resolve bindings = .ok value
  retypes : value.Retypes e.type other.type

namespace Expr

variable {policy : KeyPolicy} {bindings newBindings : Bindings} {e left right newLeft newRight : Expr}
  {l r value : Value}

theorem exists_operand_values (parts : e.operands = [left, right]) (run : e.resolve bindings = .ok value) :
    ∃ l r, left.resolve bindings = .ok l ∧ right.resolve bindings = .ok r := by
  cases e with
  | constant | «variable» | unary => cases parts
  | arithmetic | concatenation | comparison | boolean | join =>
    cases parts
    obtain ⟨l, leftRun, run⟩ := bind_eq_ok.mp run
    obtain ⟨r, rightRun, _⟩ := bind_eq_ok.mp run
    exact ⟨l, r, leftRun, rightRun⟩

theorem retypes_arithmetic {op : ArithmeticOp} (run : op.apply l r = .ok value)
    (leftRetypes : l.Retypes left.type newLeft.type) (rightRetypes : r.Retypes right.type newRight.type) :
    value.Retypes (.scalar (op.resultType [left.valueType, right.valueType]))
      (.scalar (op.resultType [newLeft.valueType, newRight.valueType])) := by
  have loosens :=
    ValueType.Loosens.resultType op (.cons leftRetypes.loosens (.cons rightRetypes.loosens .nil))
  have scalar := @ArithmeticOp.resultType_ne_dataset op [left.valueType, right.valueType]
  -- A null on either side is the value of the whole.
  rcases leftRetypes with leftSame | ⟨rfl, _⟩
  · rcases rightRetypes with rightSame | ⟨rfl, _⟩
    · left
      rw [valueType, valueType, leftSame, rightSame, valueType, valueType]
    · rw [ArithmeticOp.apply_null_right] at run
      exact Or.inr ⟨(Except.ok.inj run).symm, scalar, loosens⟩
  · rw [ArithmeticOp.apply_null_left] at run
    exact Or.inr ⟨(Except.ok.inj run).symm, scalar, loosens⟩

/-- An operator may be applied to what stands for its operands, and what it makes of them stands for
what it made of the operands. -/
theorem WellTyped.exists_standsFor (typed : e.WellTyped (bindings.scope policy))
    (parts : e.operands = [left, right]) (run : e.resolve bindings = .ok value)
    (leftRun : left.resolve bindings = .ok l) (rightRun : right.resolve bindings = .ok r)
    (ofLeft : newLeft.StandsFor policy newBindings left l)
    (ofRight : newRight.StandsFor policy newBindings right r) :
    ∃ new : Expr, new.StandsFor policy newBindings e value ∧ new.binaryOp? = e.binaryOp? ∧
      new.operands = [newLeft, newRight] := by
  have leftLoosens := ofLeft.retypes.loosens
  have rightLoosens := ofRight.retypes.loosens
  have sameRun (operation : Value → Value → Except ResolveError Value) :
      (do operation (← newLeft.resolve newBindings) (← newRight.resolve newBindings)) =
        (do operation (← left.resolve bindings) (← right.resolve bindings)) := by
    rw [leftRun, rightRun, ofLeft.run, ofRight.run]
  cases typed with
  | constant | «variable» | unary => cases parts
  | @arithmetic op _ _ _ _ leftAccepted rightAccepted besideLeft besideRight =>
    cases parts
    have applied : op.apply l r = .ok value := by
      rw [resolve, leftRun, rightRun] at run
      exact run
    refine ⟨_, ⟨.arithmetic ofLeft.typed ofRight.typed (leftLoosens.mem_accepted leftAccepted)
      (rightLoosens.mem_accepted rightAccepted) ?_ ?_, (sameRun _).trans run,
      retypes_arithmetic applied ofLeft.retypes ofRight.retypes⟩, rfl, rfl⟩
    · exact fun isDataset => rightLoosens.eq_null (besideLeft (leftLoosens.eq_dataset isDataset))
    · exact fun isDataset => leftLoosens.eq_null (besideRight (rightLoosens.eq_dataset isDataset))
  | concatenation _ _ leftAccepted rightAccepted =>
    cases parts
    exact ⟨_, ⟨.concatenation ofLeft.typed ofRight.typed (leftLoosens.mem_accepted leftAccepted)
      (rightLoosens.mem_accepted rightAccepted), (sameRun _).trans run, Or.inl rfl⟩, rfl, rfl⟩
  | comparison _ _ leftAccepted rightAccepted comparable =>
    cases parts
    exact ⟨_, ⟨.comparison ofLeft.typed ofRight.typed (leftLoosens.mem_accepted leftAccepted)
      (rightLoosens.mem_accepted rightAccepted) (leftLoosens.comparable rightLoosens comparable),
      (sameRun _).trans run, Or.inl rfl⟩, rfl, rfl⟩
  | boolean _ _ leftAccepted rightAccepted =>
    cases parts
    exact ⟨_, ⟨.boolean ofLeft.typed ofRight.typed (leftLoosens.mem_accepted leftAccepted)
      (rightLoosens.mem_accepted rightAccepted), (sameRun _).trans run, Or.inl rfl⟩, rfl, rfl⟩
  | join _ _ leftSchema rightSchema samePolicy identifiers measures numeric =>
    cases parts
    -- Datasets keep their schemas, so that the rows are joined as before.
    exact ⟨_, ⟨.join ofLeft.typed ofRight.typed (ofLeft.retypes.schema leftSchema)
      (ofRight.retypes.schema rightSchema) samePolicy identifiers measures numeric,
      (sameRun _).trans run, Or.inl rfl⟩, rfl, rfl⟩

theorem retypes_unary {op : UnaryOp} (run : op.apply l = .ok value)
    (retypes : l.Retypes left.type newLeft.type) :
    value.Retypes (.scalar (if op = .not then .boolean else .ofOperands [left.valueType]))
      (.scalar (if op = .not then .boolean else .ofOperands [newLeft.valueType])) := by
  split
  · exact Or.inl rfl
  · have loosens := ValueType.Loosens.ofOperands (.cons retypes.loosens .nil)
    rcases retypes with same | ⟨rfl, _⟩
    · rw [valueType, valueType, same]
      exact Or.inl rfl
    · have isNull : value = .null := by cases op <;> exact (Except.ok.inj run).symm
      exact Or.inr ⟨isNull, ofOperands_ne_dataset _, loosens⟩

end Expr

namespace Tree

variable {bindings : Bindings} {policy : KeyPolicy} {name : String} {w : Value} {named : Expr}

/-- A name stands for the scalar that it was given to, for a null under the type of null. -/
theorem compile_name (mark : Mark) (name : String) (typed : named.WellTyped (bindings.scope policy))
    (scalar : named.valueType ≠ .dataset) (run : named.resolve bindings = .ok w) :
    ∃ new, (Tree.variable mark name).compile (Bindings.scope (bindings.put name w) policy) = .ok new ∧
      new.StandsFor policy (bindings.put name w) named w := by
  have declared : (Declarations.infer (bindings.put name w)).value? name = some (.ofValue w) :=
    Declarations.value?_infer.mpr ⟨w, Entries.value?_put_self .., rfl⟩
  obtain ⟨value, bound, resolved⟩ := Bindings.resolve_of_inferred declared
  rw [Entries.value?_put_self] at bound
  cases bound
  exact ⟨_, compile_variable_eq_ok.mpr ⟨_, declared, rfl⟩, .variable declared, resolved,
    typed.retypes_ofValue scalar run⟩

theorem compile_other_name {mark : Mark} {other : String} {e : Expr} {value : Value} (w : Value)
    (differ : other ≠ name) (compiled : (Tree.variable mark other).compile (bindings.scope policy) = .ok e)
    (run : e.resolve bindings = .ok value) :
    ∃ new, (Tree.variable mark other).compile (Bindings.scope (bindings.put name w) policy) = .ok new ∧
      new.StandsFor policy (bindings.put name w) e value := by
  obtain ⟨type, declared, rfl⟩ := compile_variable_eq_ok.mp compiled
  obtain ⟨bound, found, ofBound⟩ := Declarations.value?_infer.mp declared
  have kept := Entries.value?_put_of_ne bindings w differ
  have newDeclared : (Declarations.infer (bindings.put name w)).value? other = some type :=
    Declarations.value?_infer.mpr ⟨bound, kept.trans found, ofBound⟩
  exact ⟨_, compile_variable_eq_ok.mpr ⟨type, newDeclared, rfl⟩, .variable newDeclared,
    (Bindings.resolve_congr kept _ _).trans run, Or.inl rfl⟩

/-- What an expression with a name compiles to stands for what it compiles to with the part that was
named. -/
theorem compile_standsFor {replacement tree whole : Tree} {e : Expr} {value : Value}
    (compiledName : replacement.compile (bindings.scope policy) = .ok named)
    (scalar : named.valueType ≠ .dataset) (runName : named.resolve bindings = .ok w)
    (inlined : whole.shape = tree.shape.substitute name replacement.shape)
    (compiled : whole.compile (bindings.scope policy) = .ok e) (run : e.resolve bindings = .ok value) :
    ∃ new, tree.compile (Bindings.scope (bindings.put name w) policy) = .ok new ∧
      new.StandsFor policy (bindings.put name w) e value := by
  induction tree generalizing whole e value with
  | parens mark inner ih =>
    cases whole <;> simp only [shape, Shape.substitute, Shape.parens.injEq, reduceCtorEq] at inlined
    exact ih inlined compiled run
  | unary mark op operand ih =>
    cases whole <;> simp only [shape, Shape.substitute, Shape.unary.injEq, reduceCtorEq] at inlined
    obtain ⟨sameOp, inlined⟩ := inlined
    obtain ⟨operator, inner, found, operandCompiled, accepted, rfl⟩ := compile_unary_eq_ok.mp compiled
    obtain ⟨l, operandRun, applied⟩ := bind_eq_ok.mp run
    obtain ⟨new, newCompiled, stands⟩ := ih inlined operandCompiled operandRun
    have newAccepted := stands.retypes.loosens.mem_accepted_unary accepted
    rw [sameOp] at found
    refine ⟨_, compile_unary_eq_ok.mpr ⟨operator, new, found, newCompiled, newAccepted, rfl⟩,
      .unary stands.typed newAccepted, ?_, Expr.retypes_unary applied stands.retypes⟩
    rw [Expr.resolve, stands.run]
    exact applied
  | binary mark production left op right leftIh rightIh =>
    cases whole <;> simp only [shape, Shape.substitute, Shape.binary.injEq, reduceCtorEq] at inlined
    obtain ⟨rfl, leftInlined, sameOp, rightInlined⟩ := inlined
    obtain ⟨operator, l, r, found, leftCompiled, rightCompiled, typed, made, parts⟩ :=
      compile_binary_eq_ok.mp compiled
    obtain ⟨leftValue, rightValue, leftRun, rightRun⟩ := Expr.exists_operand_values parts run
    obtain ⟨newLeft, newLeftCompiled, ofLeft⟩ := leftIh leftInlined leftCompiled leftRun
    obtain ⟨newRight, newRightCompiled, ofRight⟩ := rightIh rightInlined rightCompiled rightRun
    obtain ⟨new, stands, sameOperator, newParts⟩ :=
      typed.exists_standsFor parts run leftRun rightRun ofLeft ofRight
    rw [sameOp] at found
    exact ⟨new, compile_binary_eq_ok.mpr ⟨operator, newLeft, newRight, found, newLeftCompiled,
      newRightCompiled, stands.typed, sameOperator.trans made, newParts⟩, stands⟩
  | «variable» mark other =>
    rw [shape, Shape.substitute] at inlined
    split at inlined
    · next same =>
      subst same
      -- The part compiles as it did on its own, wherever it stands in the whole.
      have again : replacement.compile (bindings.scope policy) = .ok e :=
        @compile_of_shape_eq _ _ _ (.parens mark replacement) inlined compiled
      rw [compiledName] at again
      cases again
      rw [runName] at run
      cases run
      exact compile_name mark other (compile_wellTyped compiledName) scalar runName
    · next differ => exact compile_other_name w differ (compile_of_shape_eq inlined compiled) run
  | constant mark literal =>
    have same : (Tree.constant mark literal).compile (bindings.scope policy) = .ok e :=
      compile_of_shape_eq inlined compiled
    cases same
    exact ⟨_, rfl, .constant literal, run, Or.inl rfl⟩

end Tree

/-- Naming a scalar part of an expression changes no result: a statement that gives the part a name, and
then the expression with the name for the part, have the values of the part and of the expression. This
is so although the name has the type of the value that the part has, which for a null is that of null. -/
theorem Session.named_scalar_same_value {session : Session} {name : String} {part tree whole : Tree}
    {e : Expr} {w value : Value} (compiled : part.compile (session.bindings.scope session.policy) = .ok e)
    (scalar : e.valueType ≠ .dataset) (partRun : e.resolve session.bindings = .ok w)
    (inlined : whole.shape = tree.shape.substitute name part.shape)
    (wholeRun : session.bindings.run session.policy whole = .ok value) :
    (∀ first second, Program.run session.policy [⟨some name, part, first⟩, ⟨none, tree, second⟩]
      session.bindings = (.ok [.assigned name w, .evaluated value], session.bindings.put name w)) ∧
    (∀ source first second,
      Program.parse source = .ok [⟨some name, part, first⟩, ⟨none, tree, second⟩] →
      session.execute source = (.ok [.assigned name w, .evaluated value], session.bind name w)) ∧
    ∀ assignment source span, Program.parse assignment = .ok [⟨some name, part, span⟩] →
      Tree.parse source = .ok tree →
      session.execute assignment = (.ok [.assigned name w], session.bind name w) ∧
        (session.bind name w).evaluate source = .ok value := by
  have named : session.bindings.run session.policy part = .ok w :=
    Bindings.run_eq_ok.mpr ⟨e, compiled, partRun⟩
  obtain ⟨inlinedExpr, wholeCompiled, wholeResolved⟩ := Bindings.run_eq_ok.mp wholeRun
  obtain ⟨new, newCompiled, stands⟩ :=
    Tree.compile_standsFor compiled scalar partRun inlined wholeCompiled wholeResolved
  have later : Bindings.run (session.bindings.put name w) session.policy tree = .ok value :=
    Bindings.run_eq_ok.mpr ⟨new, newCompiled, stands.run⟩
  have both (first second : Span) :
      Program.Runs session.policy session.bindings [⟨some name, part, first⟩, ⟨none, tree, second⟩]
        [w, value] (session.bindings.put name w) := .cons named (.cons later .nil)
  refine ⟨fun first second => (both first second).run_eq, ?_, ?_⟩
  · intro source first second parsed
    rw [execute_of_parse parsed, (both first second).run_eq]
    rfl
  · intro assignment source span parsed parsedTree
    have alone : Program.Runs session.policy session.bindings [⟨some name, part, span⟩] [w]
        (session.bindings.put name w) := .cons named .nil
    refine ⟨?_, ?_⟩
    · rw [execute_of_parse parsed, alone.run_eq]
      rfl
    · rw [evaluate, Bindings.evaluate, parsedTree]
      exact later

/-- `d + -n` in `x := d + -n; x * 2` -/
def shiftedDay : Tree :=
  .binary ⟨"d + -n", ⟨5, 11, 1, 6⟩⟩ .sum (.variable ⟨"d", ⟨5, 6, 1, 6⟩⟩ "d") ⟨.plus, "+", ⟨7, 8, 1, 8⟩⟩
    (.unary ⟨"-n", ⟨9, 11, 1, 10⟩⟩ ⟨.minus, "-", ⟨9, 10, 1, 10⟩⟩ (.variable ⟨"n", ⟨10, 11, 1, 11⟩⟩ "n"))

/-- `x * 2` in `x := d + -n; x * 2` -/
def namedTwice : Tree :=
  .binary ⟨"x * 2", ⟨13, 18, 1, 14⟩⟩ .product (.variable ⟨"x", ⟨13, 14, 1, 14⟩⟩ "x")
    ⟨.times, "*", ⟨15, 16, 1, 16⟩⟩ (.constant ⟨"2", ⟨17, 18, 1, 18⟩⟩ (.integer 2))

/-- `(d + -n) * 2` -/
def shiftedTwice : Tree :=
  .binary ⟨"(d + -n) * 2", ⟨0, 12, 1, 1⟩⟩ .product
    (.parens ⟨"(d + -n)", ⟨0, 8, 1, 1⟩⟩
      (.binary ⟨"d + -n", ⟨1, 7, 1, 2⟩⟩ .sum (.variable ⟨"d", ⟨1, 2, 1, 2⟩⟩ "d") ⟨.plus, "+", ⟨3, 4, 1, 4⟩⟩
        (.unary ⟨"-n", ⟨5, 7, 1, 6⟩⟩ ⟨.minus, "-", ⟨5, 6, 1, 6⟩⟩ (.variable ⟨"n", ⟨6, 7, 1, 7⟩⟩ "n"))))
    ⟨.times, "*", ⟨9, 10, 1, 10⟩⟩ (.constant ⟨"2", ⟨11, 12, 1, 12⟩⟩ (.integer 2))

/-- A day shifted by an unknown number is an integer that happens to be null. -/
def shiftSession : Session := ⟨[("d", .date ⟨2024, 2, 29, by decide⟩), ("n", .null)], .typed⟩

theorem Session.named_scalar_same_value_shiftedDay :
    (∃ e, shiftedDay.compile (shiftSession.bindings.scope .typed) = .ok e ∧ e.valueType = .integer) ∧
      Tree.parse "(d + -n) * 2" = .ok shiftedTwice ∧
      shiftSession.bindings.run .typed shiftedTwice = .ok .null ∧
      shiftSession.execute "x := d + -n; x * 2" =
        (.ok [.assigned "x" .null, .evaluated .null], shiftSession.bind "x" .null) := by
  refine ⟨⟨_, rfl, rfl⟩, by decide +kernel, rfl, ?_⟩
  have parsed : Program.parse "x := d + -n; x * 2" =
      .ok [⟨some "x", shiftedDay, ⟨0, 11, 1, 1⟩⟩, ⟨none, namedTwice, ⟨13, 18, 1, 14⟩⟩] := by decide +kernel
  exact (@named_scalar_same_value shiftSession "x" shiftedDay namedTwice shiftedTwice _ _ _ rfl
    (by decide) rfl rfl rfl).2.1 _ _ _ parsed

end Vtl
