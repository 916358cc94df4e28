import Vtl.Proofs.TypeSoundness

namespace Vtl

/-- The other value is the same one, or stands where the value was null. -/
def Value.FilledBy (value other : Value) : Prop := value = .null ∨ other = value

/-- Some of the names that were bound to null are bound to other values, and nothing else differs. -/
def Bindings.FilledBy (bindings other : Bindings) : Prop :=
  ∀ name, other.value? name = bindings.value? name ∨
    bindings.value? name = some .null ∧ ∃ value, other.value? name = some value

/-- An operation that is null as soon as one of its operands is. -/
structure Strict (operation : Value → Value → Except ResolveError Value) : Prop where
  left : ∀ right, operation .null right = .ok .null
  right : ∀ left, operation left .null = .ok .null

/-- Filling in operands never changes a result that is known. -/
def Stable (operation : Value → Value → Except ResolveError Value) : Prop :=
  ∀ {left right newLeft newRight value newValue : Value}, left.FilledBy newLeft → right.FilledBy newRight →
    operation left right = .ok value → operation newLeft newRight = .ok newValue → value.FilledBy newValue

theorem Strict.stable {operation : Value → Value → Except ResolveError Value} (strict : Strict operation) :
    Stable operation := by
  intro left right newLeft newRight value newValue leftFilled rightFilled run newRun
  rcases leftFilled with rfl | rfl
  · rw [strict.left] at run
    exact Or.inl (Except.ok.inj run).symm
  rcases rightFilled with rfl | rfl
  · rw [strict.right] at run
    exact Or.inl (Except.ok.inj run).symm
  · exact Or.inr (Except.ok.inj (newRun.symm.trans run))

theorem ArithmeticOp.apply_strict (op : ArithmeticOp) : Strict op.apply :=
  ⟨fun _ => apply_null_left, fun _ => apply_null_right⟩

theorem ComparisonOp.apply_strict (op : ComparisonOp) : Strict op.apply := by
  refine ⟨fun _ => rfl, fun left => ?_⟩
  cases left <;> rfl

theorem concatenate_strict : Strict concatenate := by
  refine ⟨fun _ => rfl, fun left => ?_⟩
  cases left <;> rfl

theorem JoinSpec.apply_strict (spec : JoinSpec) (op : ArithmeticOp) : Strict (spec.apply op) := by
  refine ⟨fun _ => rfl, fun left => ?_⟩
  cases left <;> rfl

theorem UnaryOp.apply_filledBy {op : UnaryOp} {operand newOperand value newValue : Value}
    (filled : operand.FilledBy newOperand) (run : op.apply operand = .ok value)
    (newRun : op.apply newOperand = .ok newValue) : value.FilledBy newValue := by
  rcases filled with rfl | rfl
  · cases op <;> exact Or.inl (Except.ok.inj run).symm
  · exact Or.inr (Except.ok.inj (newRun.symm.trans run))

namespace BooleanOp

/-- A connective that one side settles is settled whatever the other side turns out to be. -/
theorem kleene_settled {op : BooleanOp} {a b newA newB : Option Bool} {truth : Bool}
    (left : a = none ∨ newA = a) (right : b = none ∨ newB = b) (settled : op.kleene a b = some truth) :
    op.kleene newA newB = some truth := by
  rcases left with rfl | rfl
  · -- With the left side unknown only the right side can have settled it.
    rcases right with rfl | rfl
    · cases op <;> cases settled
    · rcases newB with _ | _ | _ <;> cases op <;> cases settled <;> rcases newA with _ | _ | _ <;> rfl
  · rcases right with rfl | rfl
    · rcases newA with _ | _ | _ <;> cases op <;> cases settled <;> rcases newB with _ | _ | _ <;> rfl
    · exact settled

theorem truth?_filledBy {value newValue : Value} {a b : Option Bool} (filled : value.FilledBy newValue)
    (truth : value.truth? = some a) (newTruth : newValue.truth? = some b) : a = none ∨ b = a := by
  rcases filled with rfl | rfl
  · exact Or.inl (Option.some.inj truth).symm
  · exact Or.inr (Option.some.inj (newTruth.symm.trans truth))

theorem apply_eq_ok {op : BooleanOp} {left right value : Value} (run : op.apply left right = .ok value) :
    ∃ a b, left.truth? = some a ∧ right.truth? = some b ∧
      value = (match op.kleene a b with
        | some truth => .boolean truth
        | none => .null) := by
  unfold apply at run
  split at run
  · next a b leftTruth rightTruth => exact ⟨a, b, leftTruth, rightTruth, (Except.ok.inj run).symm⟩
  · cases run

theorem apply_stable (op : BooleanOp) : Stable op.apply := by
  intro left right newLeft newRight value newValue leftFilled rightFilled run newRun
  obtain ⟨a, b, leftTruth, rightTruth, rfl⟩ := apply_eq_ok run
  obtain ⟨newA, newB, newLeftTruth, newRightTruth, rfl⟩ := apply_eq_ok newRun
  cases settled : op.kleene a b with
  | none => exact Or.inl rfl
  | some truth =>
    have kept := kleene_settled (truth?_filledBy leftFilled leftTruth newLeftTruth)
      (truth?_filledBy rightFilled rightTruth newRightTruth) settled
    rw [kept]
    exact Or.inr rfl

end BooleanOp

theorem Bindings.FilledBy.resolve {bindings other : Bindings} {type : StaticType} {name : String}
    {declared : ValueType} {value newValue : Value} (filled : bindings.FilledBy other)
    (run : bindings.resolve type name declared = .ok value)
    (newRun : other.resolve type name declared = .ok newValue) : value.FilledBy newValue := by
  rcases filled name with same | ⟨null, _⟩
  · rw [Bindings.resolve_congr same, run] at newRun
    exact Or.inr (Except.ok.inj newRun).symm
  · obtain ⟨bound, found, _, ⟨rfl, _⟩ | ⟨i, rfl, _⟩⟩ := Bindings.resolve_eq_ok run
    · rw [null] at found
      exact Or.inl (Option.some.inj found).symm
    · rw [null] at found
      cases found

namespace Expr

variable {bindings other : Bindings} {left right : Expr} {value newValue : Value}

theorem filledBy_of_stable {operation : Value → Value → Except ResolveError Value} (stable : Stable operation)
    (ofLeft : ∀ {value newValue}, left.resolve bindings = .ok value → left.resolve other = .ok newValue →
      value.FilledBy newValue)
    (ofRight : ∀ {value newValue}, right.resolve bindings = .ok value → right.resolve other = .ok newValue →
      value.FilledBy newValue)
    (run : (do operation (← left.resolve bindings) (← right.resolve bindings)) = .ok value)
    (newRun : (do operation (← left.resolve other) (← right.resolve other)) = .ok newValue) :
    value.FilledBy newValue := by
  obtain ⟨l, leftRun, run⟩ := bind_eq_ok.mp run
  obtain ⟨r, rightRun, run⟩ := bind_eq_ok.mp run
  obtain ⟨newL, newLeftRun, newRun⟩ := bind_eq_ok.mp newRun
  obtain ⟨newR, newRightRun, newRun⟩ := bind_eq_ok.mp newRun
  exact stable (ofLeft leftRun newLeftRun) (ofRight rightRun newRightRun) run newRun

theorem resolve_filledBy {e : Expr} (filled : bindings.FilledBy other) (run : e.resolve bindings = .ok value)
    (newRun : e.resolve other = .ok newValue) : value.FilledBy newValue := by
  induction e generalizing value newValue with
  | constant =>
    cases run
    cases newRun
    exact Or.inr rfl
  | «variable» => exact filled.resolve run newRun
  | unary _ op operand ih =>
    obtain ⟨inner, operandRun, run⟩ := bind_eq_ok.mp run
    obtain ⟨newInner, newOperandRun, newRun⟩ := bind_eq_ok.mp newRun
    exact UnaryOp.apply_filledBy (ih operandRun newOperandRun) run newRun
  | arithmetic _ op _ _ leftIh rightIh =>
    exact filledBy_of_stable op.apply_strict.stable leftIh rightIh run newRun
  | concatenation _ _ _ leftIh rightIh =>
    exact filledBy_of_stable concatenate_strict.stable leftIh rightIh run newRun
  | comparison _ op _ _ leftIh rightIh =>
    exact filledBy_of_stable op.apply_strict.stable leftIh rightIh run newRun
  | boolean _ op _ _ leftIh rightIh => exact filledBy_of_stable op.apply_stable leftIh rightIh run newRun
  | join _ op spec _ _ leftIh rightIh =>
    exact filledBy_of_stable (spec.apply_strict op).stable leftIh rightIh run newRun

/-- A value that is known with some names bound to null stays the same whatever these names are bound to,
as long as there still is one. -/
theorem known_value_kept {e : Expr} {filled : Bindings} (fills : bindings.FilledBy filled)
    (run : e.resolve bindings = .ok value) (known : value ≠ .null) (newRun : e.resolve filled = .ok newValue) :
    newValue = value :=
  (resolve_filledBy fills run newRun).resolve_left known

/-- The expression `(p and q) or x < 3`. -/
def halfSettled : Expr :=
  .boolean (.scalar .boolean) .or
    (.boolean (.scalar .boolean) .and (.variable (.scalar .boolean) "p" .boolean)
      (.variable (.scalar .boolean) "q" .boolean))
    (.comparison (.scalar .boolean) .lt (.variable (.scalar .integer) "x" .integer)
      (.constant (.scalar .integer) (.integer 3)))

/-- The conjunction is false although one side of it is null, and the comparison is true. -/
theorem known_value_kept_halfSettled :
    halfSettled.resolve [("p", .null), ("q", .boolean false), ("x", .integer 1)] = .ok (.boolean true) ∧
      ∃ newValue, halfSettled.resolve [("p", .boolean true), ("q", .boolean false), ("x", .integer 1)] =
        .ok newValue ∧ newValue = .boolean true := by
  have fills : Bindings.FilledBy [("p", .null), ("q", .boolean false), ("x", .integer 1)]
      [("p", .boolean true), ("q", .boolean false), ("x", .integer 1)] := by
    intro name
    by_cases filled : name = "p"
    · subst filled
      exact Or.inr ⟨rfl, _, rfl⟩
    · left
      simp only [Entries.value?_cons, if_neg filled]
  have run : halfSettled.resolve [("p", .null), ("q", .boolean false), ("x", .integer 1)] =
      .ok (.boolean true) := rfl
  exact ⟨run, _, rfl, known_value_kept fills run (by simp) rfl⟩

end Expr

end Vtl
