import Vtl.Proofs.NullFilling

namespace Vtl

/-- An operation that is null for null operands and for no others. -/
structure NullExact (operation : Value → Value → Except ResolveError Value) : Prop extends
    Strict operation where
  origin : ∀ {left right}, operation left right = .ok .null → left = .null ∨ right = .null

theorem NullExact.eq_null_iff {operation : Value → Value → Except ResolveError Value} {left right value : Value}
    (nulls : NullExact operation) (run : operation left right = .ok value) :
    value = .null ↔ left = .null ∨ right = .null := by
  constructor
  · rintro rfl
    exact nulls.origin run
  · rintro (rfl | rfl)
    · rw [nulls.left] at run
      exact (Except.ok.inj run).symm
    · rw [nulls.right] at run
      exact (Except.ok.inj run).symm

/-- Arithmetic between known values gives an integer or a number. An overflow, a division by zero and a
NaN are numbers, too. -/
theorem ArithmeticOp.apply_nullExact (op : ArithmeticOp) : NullExact op.apply := by
  refine ⟨op.apply_strict, ?_⟩
  intro left right run
  unfold ArithmeticOp.apply at run
  split at run
  · next null => simpa only [Bool.or_eq_true, Value.isNull_iff] using null
  split at run
  · cases run
  split at run
  · dsimp only at run
    split at run <;> cases run
  · cases run

/-- A comparison of known values is true or false, also where they have no order. -/
theorem ComparisonOp.apply_nullExact (op : ComparisonOp) : NullExact op.apply := by
  refine ⟨op.apply_strict, ?_⟩
  intro left right run
  unfold ComparisonOp.apply at run
  split at run
  · next null => simpa only [Bool.or_eq_true, Value.isNull_iff] using null
  split at run <;> cases run

theorem concatenate_nullExact : NullExact concatenate := by
  refine ⟨concatenate_strict, ?_⟩
  intro left right run
  unfold concatenate at run
  split at run
  · exact Or.inl rfl
  · exact Or.inr rfl
  · cases run
  · cases run

/-- Two datasets that share no key are joined to a dataset without rows, not to null. -/
theorem JoinSpec.apply_nullExact (spec : JoinSpec) (op : ArithmeticOp) : NullExact (spec.apply op) := by
  refine ⟨spec.apply_strict op, ?_⟩
  intro left right run
  rcases JoinSpec.apply_ok run with ⟨_, null⟩ | ⟨_, _, _, _, _, known, _⟩
  · exact null
  · cases known

theorem UnaryOp.apply_eq_null_iff {op : UnaryOp} {operand value : Value} (run : op.apply operand = .ok value) :
    value = .null ↔ operand = .null := by
  cases operand <;> cases op <;> cases run <;> simp

theorem Bindings.resolve_eq_null_iff {bindings : Bindings} {type : StaticType} {name : String}
    {declared : ValueType} {value : Value} (run : bindings.resolve type name declared = .ok value) :
    value = .null ↔ bindings.value? name = some .null := by
  obtain ⟨bound, found, _, ⟨rfl, _⟩ | ⟨i, rfl, _, rfl⟩⟩ := Bindings.resolve_eq_ok run
  · rw [found, Option.some.injEq]
  · simp [found]

namespace Expr

/-- Whether `and`, `or` or `xor` occurs in an expression. -/
def hasConnective : Expr → Bool
  | .constant .. | .variable .. => false
  | .unary _ _ operand => operand.hasConnective
  | .arithmetic _ _ left right | .concatenation _ left right | .comparison _ _ left right
  | .join _ _ _ left right => left.hasConnective || right.hasConnective
  | .boolean .. => true

/-- A leaf that is null: the literal of that name, or a variable that null is bound to. -/
inductive NullLeaf (bindings : Bindings) : Expr → Prop
  | literal {type : StaticType} : NullLeaf bindings (.constant type .null)
  | variable {type : StaticType} {name : String} {declared : ValueType}
      (bound : bindings.value? name = some .null) : NullLeaf bindings (.variable type name declared)

variable {bindings : Bindings} {e operand left right : Expr} {value : Value}

/-- An expression with a value has operands with values. -/
theorem exists_operand_value (member : operand ∈ e.operands) (run : e.resolve bindings = .ok value) :
    ∃ inner, operand.resolve bindings = .ok inner := by
  cases e with
  | constant | «variable» => cases member
  | unary =>
    obtain ⟨inner, operandRun, _⟩ := bind_eq_ok.mp run
    obtain rfl := List.mem_singleton.mp member
    exact ⟨inner, operandRun⟩
  | arithmetic | concatenation | comparison | boolean | join =>
    obtain ⟨l, leftRun, run⟩ := bind_eq_ok.mp run
    obtain ⟨r, rightRun, _⟩ := bind_eq_ok.mp run
    simp only [operands, List.mem_cons, List.not_mem_nil, or_false] at member
    rcases member with rfl | rfl
    · exact ⟨l, leftRun⟩
    · exact ⟨r, rightRun⟩

theorem eq_null_iff_of_nullExact {operation : Value → Value → Except ResolveError Value}
    (nulls : NullExact operation)
    (run : (do operation (← left.resolve bindings) (← right.resolve bindings)) = .ok value) :
    value = .null ↔ ∃ operand ∈ [left, right], operand.resolve bindings = .ok .null := by
  obtain ⟨l, leftRun, run⟩ := bind_eq_ok.mp run
  obtain ⟨r, rightRun, run⟩ := bind_eq_ok.mp run
  rw [nulls.eq_null_iff run]
  simp [leftRun, rightRun]

theorem hasConnective_operand (member : operand ∈ e.operands) (plain : e.hasConnective = false) :
    operand.hasConnective = false := by
  cases e with
  | constant | «variable» => cases member
  | unary =>
    obtain rfl := List.mem_singleton.mp member
    exact plain
  | boolean => cases plain
  | arithmetic | concatenation | comparison | join =>
    rw [hasConnective, Bool.or_eq_false_iff] at plain
    simp only [operands, List.mem_cons, List.not_mem_nil, or_false] at member
    rcases member with rfl | rfl
    · exact plain.1
    · exact plain.2

/-- A node that is no connective is null if it is a null leaf or one of its operands is null. -/
theorem eq_null_iff_operand (plain : e.hasConnective = false) (run : e.resolve bindings = .ok value) :
    value = .null ↔ e.NullLeaf bindings ∨ ∃ operand ∈ e.operands, operand.resolve bindings = .ok .null := by
  -- Only constants and variables are leaves, so that elsewhere the operands alone decide.
  cases e with
  | constant type constant =>
    cases run
    constructor
    · rintro rfl
      exact Or.inl .literal
    · rintro (leaf | ⟨_, member, _⟩)
      · cases leaf
        rfl
      · cases member
  | «variable» type name declared =>
    rw [Bindings.resolve_eq_null_iff run]
    constructor
    · exact fun bound => Or.inl (.variable bound)
    · rintro (leaf | ⟨_, member, _⟩)
      · cases leaf with
        | «variable» bound => exact bound
      · cases member
  | unary _ op operand =>
    obtain ⟨known, operandRun, applied⟩ := bind_eq_ok.mp run
    rw [UnaryOp.apply_eq_null_iff applied]
    refine Iff.trans ?_ (or_iff_right ?_).symm
    · simp [operands, operandRun]
    · rintro ⟨⟩
  | arithmetic _ op =>
    refine (eq_null_iff_of_nullExact op.apply_nullExact run).trans (or_iff_right ?_).symm
    rintro ⟨⟩
  | concatenation =>
    refine (eq_null_iff_of_nullExact concatenate_nullExact run).trans (or_iff_right ?_).symm
    rintro ⟨⟩
  | comparison _ op =>
    refine (eq_null_iff_of_nullExact op.apply_nullExact run).trans (or_iff_right ?_).symm
    rintro ⟨⟩
  | boolean => cases plain
  | join _ op spec =>
    refine (eq_null_iff_of_nullExact (spec.apply_nullExact op) run).trans (or_iff_right ?_).symm
    rintro ⟨⟩

/-- Without `and`, `or` and `xor` an expression is null exactly if one of its leaves is. No other operator
makes a null of known values, and none hides one. -/
theorem null_iff_null_leaf (plain : e.hasConnective = false) (run : e.resolve bindings = .ok value) :
    value = .null ↔ ∃ leaf : Expr, leaf.Within e ∧ leaf.NullLeaf bindings := by
  induction e using induct_operands generalizing value with
  | step e ih =>
    have below {operand : Expr} (member : operand ∈ e.operands) {inner : Value}
        (operandRun : operand.resolve bindings = .ok inner) :=
      ih operand member (hasConnective_operand member plain) operandRun
    rw [eq_null_iff_operand plain run]
    constructor
    · rintro (leaf | ⟨operand, member, operandRun⟩)
      · exact ⟨e, .whole, leaf⟩
      · obtain ⟨leaf, inside, null⟩ := (below member operandRun).mp rfl
        exact ⟨leaf, .part member inside, null⟩
    · rintro ⟨leaf, inside, null⟩
      cases inside with
      | whole => exact Or.inl null
      | @part _ operand member inside =>
        obtain ⟨inner, operandRun⟩ := exists_operand_value member run
        have isNull := (below member operandRun).mpr ⟨leaf, inside, null⟩
        exact Or.inr ⟨operand, member, isNull ▸ operandRun⟩

/-- The expression `x / 0 <> -n`. -/
def zeroQuotient : Expr :=
  .comparison (.scalar .boolean) .ne
    (.arithmetic (.scalar .number) .div (.variable (.scalar .integer) "x" .integer)
      (.constant (.scalar .integer) (.integer 0)))
    (.unary (.scalar .integer) .minus (.variable (.scalar .integer) "n" .integer))

/-- NaN is a known value, and no null comes of it. -/
theorem null_iff_null_leaf_zeroQuotient :
    zeroQuotient.hasConnective = false ∧
      zeroQuotient.resolve [("n", .integer 2), ("x", .integer 0)] = .ok (.boolean true) ∧
      (¬∃ leaf : Expr, leaf.Within zeroQuotient ∧ leaf.NullLeaf [("n", .integer 2), ("x", .integer 0)]) ∧
      zeroQuotient.resolve [("n", .null), ("x", .integer 0)] = .ok .null ∧
      ∃ leaf : Expr, leaf.Within zeroQuotient ∧ leaf.NullLeaf [("n", .null), ("x", .integer 0)] := by
  have known : zeroQuotient.resolve [("n", .integer 2), ("x", .integer 0)] = .ok (.boolean true) := rfl
  have null : zeroQuotient.resolve [("n", .null), ("x", .integer 0)] = .ok .null := rfl
  refine ⟨rfl, known, fun leaf => ?_, null, (null_iff_null_leaf rfl null).mp rfl⟩
  have isNull := (null_iff_null_leaf rfl known).mpr leaf
  cases isNull

end Expr

end Vtl
