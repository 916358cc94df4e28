import Vtl.Proofs.TypingRules

namespace Vtl

namespace ValueType

/-- What may become of the type of a null: nothing is known of it any more, or an integer counts as a
number. -/
inductive Loosens : ValueType → ValueType → Prop
  | same (type : ValueType) : Loosens type type
  | unknown {type : ValueType} : Loosens type .null
  | widened : Loosens .integer .number

theorem ofOperands_eq_integer_iff {types : List ValueType} :
    ofOperands types = .integer ↔ .null ∉ types ∧ (.date ∈ types ∨ .number ∉ types) := by
  by_cases unknown : .null ∈ types <;> by_cases dated : .date ∈ types <;>
    by_cases fraction : .number ∈ types <;> simp [ofOperands, unknown, dated, fraction]

theorem ofOperands_eq_number_or (types : List ValueType) :
    ofOperands types = .number ∨ ofOperands types = .integer := by
  by_cases unknown : .null ∈ types <;> by_cases dated : .date ∈ types <;>
    by_cases fraction : .number ∈ types <;> simp [ofOperands, unknown, dated, fraction]

namespace Loosens

variable {type looser leftType leftLooser rightType rightLooser : ValueType} {types loosers : List ValueType}

theorem cases (loosens : type.Loosens looser) :
    looser = type ∨ looser = .null ∨ type = .integer ∧ looser = .number := by
  cases loosens with
  | same => exact Or.inl rfl
  | unknown => exact Or.inr (Or.inl rfl)
  | widened => exact Or.inr (Or.inr ⟨rfl, rfl⟩)

theorem eq_null (loosens : type.Loosens looser) (isNull : type = .null) : looser = .null := by
  cases loosens with
  | same => exact isNull
  | unknown => rfl
  | widened => cases isNull

theorem eq_dataset (loosens : type.Loosens looser) (isDataset : looser = .dataset) : type = .dataset := by
  cases loosens with
  | same => exact isDataset
  | unknown | widened => cases isDataset

/-- Each operator that takes integers takes numbers as well, and each one takes null. -/
theorem mem_accepted (loosens : type.Loosens looser) {op : BinaryOp} (accepted : type ∈ op.accepted) :
    looser ∈ op.accepted := by
  cases loosens with
  | same => exact accepted
  | unknown => cases op <;> simp [BinaryOp.accepted, scalars]
  | widened => cases op <;> simp_all [BinaryOp.accepted, scalars]

theorem mem_accepted_unary (loosens : type.Loosens looser) {op : UnaryOp} (accepted : type ∈ op.accepted) :
    looser ∈ op.accepted := by
  cases loosens with
  | same => exact accepted
  | unknown => cases op <;> decide
  | widened => cases op <;> simp_all [UnaryOp.accepted]

theorem comparable (left : leftType.Loosens leftLooser) (right : rightType.Loosens rightLooser)
    (before : leftType.comparable rightType = true) : leftLooser.comparable rightLooser = true := by
  cases left with
  | unknown => simp [ValueType.comparable]
  | same =>
    cases right with
    | same => exact before
    | unknown => simp [ValueType.comparable]
    | widened => cases leftType <;> simp_all [ValueType.comparable, isNumeric]
  | widened =>
    cases right with
    | same => cases rightType <;> simp_all [ValueType.comparable, isNumeric]
    | unknown => simp [ValueType.comparable]
    | widened => exact before

/-- As long as no null comes in, no date does, and no number goes. -/
theorem of_known (loosens : List.Forall₂ Loosens types loosers) (known : .null ∉ loosers) :
    .null ∉ types ∧ (.date ∈ loosers → .date ∈ types) ∧ (.number ∉ loosers → .number ∉ types) := by
  induction loosens with
  | nil => simp
  | cons first rest ih =>
    obtain ⟨headKnown, tailKnown⟩ := not_or.mp (List.mem_cons.not.mp known)
    obtain ⟨nulls, dates, numbers⟩ := ih tailKnown
    cases first with
    | unknown => exact (headKnown rfl).elim
    | same => simp_all [or_imp]
    | widened => simp_all

theorem ofOperands (loosens : List.Forall₂ Loosens types loosers) :
    (ValueType.ofOperands types).Loosens (ValueType.ofOperands loosers) := by
  rcases ofOperands_eq_number_or loosers with number | integer
  · rw [number]
    rcases ofOperands_eq_number_or types with same | integer
    · rw [same]
      exact .same _
    · rw [integer]
      exact .widened
  · obtain ⟨known, dated⟩ := ofOperands_eq_integer_iff.mp integer
    obtain ⟨nulls, dates, numbers⟩ := of_known loosens known
    have before := ofOperands_eq_integer_iff.mpr ⟨nulls, dated.imp dates numbers⟩
    rw [integer, before]
    exact .same _

theorem resultType (op : ArithmeticOp) (loosens : List.Forall₂ Loosens types loosers) :
    (op.resultType types).Loosens (op.resultType loosers) := by
  unfold ArithmeticOp.resultType
  split
  · exact .same _
  · exact ofOperands loosens

end Loosens

end ValueType

/-- A scalar type becomes looser, and a schema stays as it is. -/
inductive StaticType.Loosens : StaticType → StaticType → Prop
  | scalar {type looser : ValueType} (loosens : type.Loosens looser) : Loosens (.scalar type) (.scalar looser)
  | dataset (columns : List Column) : Loosens (.dataset columns) (.dataset columns)

namespace StaticType.Loosens

variable {type looser : StaticType}

theorem refl (type : StaticType) : Loosens type type := by
  cases type with
  | scalar type => exact .scalar (.same type)
  | dataset columns => exact .dataset columns

theorem valueType (loosens : type.Loosens looser) : type.valueType.Loosens looser.valueType := by
  cases loosens with
  | scalar loosens => exact loosens
  | dataset => exact .same _

theorem schema {columns : List Column} (loosens : type.Loosens looser) (known : type = .dataset columns) :
    looser = .dataset columns := by
  cases loosens with
  | scalar => cases known
  | dataset => exact known

theorem columns?_eq (loosens : type.Loosens looser) : looser.columns? = type.columns? := by
  cases loosens with
  | scalar | dataset => rfl

end StaticType.Loosens

/-- An operator that may be applied to two operands may be applied to operands of looser types, and what
it makes of them has a looser type at most. -/
theorem Expr.WellTyped.exists_looser {scope newScope : Scope} {e left right newLeft newRight : Expr}
    (typed : e.WellTyped scope) (parts : e.operands = [left, right])
    (leftTyped : newLeft.WellTyped newScope) (rightTyped : newRight.WellTyped newScope)
    (leftLoosens : left.type.Loosens newLeft.type) (rightLoosens : right.type.Loosens newRight.type)
    (samePolicy : newScope.policy = scope.policy) :
    ∃ new : Expr, new.WellTyped newScope ∧ new.binaryOp? = e.binaryOp? ∧ new.operands = [newLeft, newRight] ∧
      e.type.Loosens new.type := by
  have ofLeft : left.valueType.Loosens newLeft.valueType := leftLoosens.valueType
  have ofRight : right.valueType.Loosens newRight.valueType := rightLoosens.valueType
  cases typed with
  | constant | «variable» | unary => cases parts
  | @arithmetic op _ _ _ _ leftAccepted rightAccepted besideLeft besideRight =>
    cases parts
    have result := ValueType.Loosens.resultType op (.cons ofLeft (.cons ofRight .nil))
    refine ⟨_, .arithmetic leftTyped rightTyped (ofLeft.mem_accepted leftAccepted)
      (ofRight.mem_accepted rightAccepted) ?_ ?_, rfl, rfl, .scalar result⟩
    · exact fun isDataset => ofRight.eq_null (besideLeft (ofLeft.eq_dataset isDataset))
    · exact fun isDataset => ofLeft.eq_null (besideRight (ofRight.eq_dataset isDataset))
  | concatenation _ _ leftAccepted rightAccepted =>
    cases parts
    exact ⟨_, .concatenation leftTyped rightTyped (ofLeft.mem_accepted leftAccepted)
      (ofRight.mem_accepted rightAccepted), rfl, rfl, .refl _⟩
  | comparison _ _ leftAccepted rightAccepted comparable =>
    cases parts
    exact ⟨_, .comparison leftTyped rightTyped (ofLeft.mem_accepted leftAccepted)
      (ofRight.mem_accepted rightAccepted) (ofLeft.comparable ofRight comparable), rfl, rfl, .refl _⟩
  | boolean _ _ leftAccepted rightAccepted =>
    cases parts
    exact ⟨_, .boolean leftTyped rightTyped (ofLeft.mem_accepted leftAccepted)
      (ofRight.mem_accepted rightAccepted), rfl, rfl, .refl _⟩
  | join _ _ leftSchema rightSchema policy identifiers measures numeric =>
    cases parts
    exact ⟨_, .join leftTyped rightTyped (leftLoosens.schema leftSchema) (rightLoosens.schema rightSchema)
      (policy.trans samePolicy.symm) identifiers measures numeric, rfl, rfl, .refl _⟩

/-- Some of the names that were declared as scalars are declared as null, and nothing else differs. -/
def Declarations.NulledBy (declarations other : Declarations) : Prop :=
  ∀ name, other.value? name = declarations.value? name ∨
    ∃ type, declarations.value? name = some (.scalar type) ∧ other.value? name = some (.scalar .null)

theorem Declarations.NulledBy.exists_looser {declarations other : Declarations} {name : String}
    {type : StaticType} (nulled : declarations.NulledBy other) (declared : declarations.value? name = some type) :
    ∃ looser, other.value? name = some looser ∧ type.Loosens looser := by
  rcases nulled name with same | ⟨old, before, after⟩
  · exact ⟨type, same.trans declared, .refl type⟩
  · rw [before] at declared
    cases declared
    exact ⟨.scalar .null, after, .scalar .unknown⟩

namespace Tree

variable {tree : Tree} {declarations nulled : Declarations} {policy : KeyPolicy} {e : Expr}

theorem compile_loosens (nulls : declarations.NulledBy nulled)
    (compiled : tree.compile ⟨declarations, policy⟩ = .ok e) :
    ∃ new, tree.compile ⟨nulled, policy⟩ = .ok new ∧ e.type.Loosens new.type := by
  induction tree generalizing e with
  | parens mark inner ih => exact ih compiled
  | unary mark op operand ih =>
    obtain ⟨operator, inner, found, operandCompiled, accepted, rfl⟩ := compile_unary_eq_ok.mp compiled
    obtain ⟨new, newCompiled, loosens⟩ := ih operandCompiled
    have newAccepted := loosens.valueType.mem_accepted_unary accepted
    refine ⟨_, compile_unary_eq_ok.mpr ⟨operator, new, found, newCompiled, newAccepted, rfl⟩, .scalar ?_⟩
    split
    · exact .same _
    · exact .ofOperands (.cons loosens.valueType .nil)
  | binary mark production left op right leftIh rightIh =>
    obtain ⟨operator, l, r, found, leftCompiled, rightCompiled, typed, made, parts⟩ :=
      compile_binary_eq_ok.mp compiled
    obtain ⟨newLeft, newLeftCompiled, leftLoosens⟩ := leftIh leftCompiled
    obtain ⟨newRight, newRightCompiled, rightLoosens⟩ := rightIh rightCompiled
    obtain ⟨new, newTyped, sameOperator, newParts, loosens⟩ := typed.exists_looser parts
      (compile_wellTyped newLeftCompiled) (compile_wellTyped newRightCompiled) leftLoosens rightLoosens rfl
    exact ⟨new, compile_binary_eq_ok.mpr ⟨operator, newLeft, newRight, found, newLeftCompiled,
      newRightCompiled, newTyped, sameOperator.trans made, newParts⟩, loosens⟩
  | «variable» mark name =>
    obtain ⟨type, declared, rfl⟩ := compile_variable_eq_ok.mp compiled
    obtain ⟨looser, newDeclared, loosens⟩ := nulls.exists_looser declared
    exact ⟨_, compile_variable_eq_ok.mpr ⟨looser, newDeclared, rfl⟩, loosens⟩
  | constant mark literal =>
    cases compiled
    exact ⟨_, rfl, .refl _⟩

/-- Null stands for any scalar: what compiles still does so if some of its scalars are declared as null.
Its type stays, or it becomes null or, from integer, number. A schema stays as it is. -/
theorem compile_with_nulls (nulls : declarations.NulledBy nulled)
    (compiled : tree.compile ⟨declarations, policy⟩ = .ok e) :
    ∃ new, tree.compile ⟨nulled, policy⟩ = .ok new ∧
      (new.valueType = e.valueType ∨ new.valueType = .null ∨
        e.valueType = .integer ∧ new.valueType = .number) ∧
      new.columns? = e.columns? := by
  obtain ⟨new, newCompiled, loosens⟩ := compile_loosens nulls compiled
  exact ⟨new, newCompiled, loosens.valueType.cases, loosens.columns?_eq⟩

/-- `(d - n) * 2` -/
def doubledDays : Tree :=
  .binary ⟨"(d - n) * 2", ⟨0, 11, 1, 1⟩⟩ .product
    (.parens ⟨"(d - n)", ⟨0, 7, 1, 1⟩⟩
      (.binary ⟨"d - n", ⟨1, 6, 1, 2⟩⟩ .sum (.variable ⟨"d", ⟨1, 2, 1, 2⟩⟩ "d") ⟨.minus, "-", ⟨3, 4, 1, 4⟩⟩
        (.variable ⟨"n", ⟨5, 6, 1, 6⟩⟩ "n")))
    ⟨.times, "*", ⟨8, 9, 1, 9⟩⟩ (.constant ⟨"2", ⟨10, 11, 1, 11⟩⟩ (.integer 2))

/-- With a date that is declared as null the days are a number, and no longer an integer. -/
theorem compile_with_nulls_doubledDays :
    Declarations.NulledBy [("d", .scalar .date), ("n", .scalar .number)]
        [("d", .scalar .null), ("n", .scalar .number)] ∧
      (∃ e, doubledDays.compile ⟨[("d", .scalar .date), ("n", .scalar .number)], .typed⟩ = .ok e ∧
        e.valueType = .integer) ∧
      ∃ new, doubledDays.compile ⟨[("d", .scalar .null), ("n", .scalar .number)], .typed⟩ = .ok new ∧
        new.valueType = .number := by
  have nulls : Declarations.NulledBy [("d", .scalar .date), ("n", .scalar .number)]
      [("d", .scalar .null), ("n", .scalar .number)] := by
    intro name
    by_cases day : name = "d"
    · subst day
      exact Or.inr ⟨.date, rfl, rfl⟩
    · left
      simp only [Entries.value?_cons, if_neg day]
  obtain ⟨new, compiled, _⟩ := @compile_with_nulls doubledDays _ _ .typed _ nulls rfl
  refine ⟨nulls, ⟨_, rfl, rfl⟩, new, compiled, ?_⟩
  cases compiled
  rfl

end Tree

end Vtl
