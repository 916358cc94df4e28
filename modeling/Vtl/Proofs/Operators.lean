import Vtl.Operator.Apply
import Vtl.Typing

namespace Vtl

namespace Value

/-- An expression of some static type may have this value: null is of every type. -/
def IsOf (value : Value) (type : ValueType) : Prop := value = .null ∨ value.type = type

theorem null_isOf (type : ValueType) : IsOf .null type := Or.inl rfl

theorem eq_null_of_type {value : Value} (null : value.type = .null) : value = .null := by
  cases value with
  | null => rfl
  | _ => cases null

theorem exists_integer {value : Value} (integer : value.type = .integer) : ∃ i, value = .integer i := by
  cases value with
  | integer i => exact ⟨i, rfl⟩
  | _ => cases integer

theorem exists_dataset {value : Value} (dataset : value.type = .dataset) : ∃ data, value = .dataset data := by
  cases value with
  | dataset data => exact ⟨data, rfl⟩
  | _ => cases dataset

/-- A value may be bound to a variable of its own type, and an integer also to a number. -/
theorem fits_iff {value : Value} {type : ValueType} :
    value.fits type = true ↔ value.IsOf type ∨ value.type = .integer ∧ type = .number := by
  simp only [fits, Bool.or_eq_true, Bool.and_eq_true, decide_eq_true_eq]
  constructor
  · rintro ((null | same) | promoted)
    · exact Or.inl (Or.inl (eq_null_of_type null))
    · exact Or.inl (Or.inr same)
    · exact Or.inr promoted
  · rintro ((rfl | same) | promoted)
    · exact Or.inl (Or.inl rfl)
    · exact Or.inl (Or.inr same)
    · exact Or.inr promoted

theorem exists_truth {value : Value} {type : ValueType} {op : BooleanOp} (fits : value.IsOf type)
    (accepted : type ∈ (BinaryOp.boolean op).accepted) : ∃ truth, value.truth? = some truth := by
  rcases fits with rfl | rfl
  · exact ⟨none, rfl⟩
  cases value with
  | null => exact ⟨none, rfl⟩
  | boolean b => exact ⟨some b, rfl⟩
  | integer | number | string | date | duration | dataset => simp [Value.type, BinaryOp.accepted] at accepted

theorem eq_null_or_string {value : Value} {type : ValueType} (fits : value.IsOf type)
    (accepted : type ∈ BinaryOp.concat.accepted) : value = .null ∨ ∃ text, value = .string text := by
  rcases fits with rfl | rfl
  · exact Or.inl rfl
  cases value with
  | null => exact Or.inl rfl
  | string text => exact Or.inr ⟨text, rfl⟩
  | integer | number | boolean | date | duration | dataset =>
    simp [Value.type, BinaryOp.accepted] at accepted

theorem isNull_iff {value : Value} : value.isNull = true ↔ value = .null := by
  cases value <;> simp [isNull]

end Value

/-- An operation that never fails on values of the types of its operands, and gives one of its own
type. -/
def Total (operation : Value → Value → Except ResolveError Value)
    (leftType rightType type : ValueType) : Prop :=
  ∀ {left right : Value}, left.IsOf leftType → right.IsOf rightType →
    ∃ result, operation left right = .ok result ∧ result.IsOf type

namespace ArithmeticOp

variable {op : ArithmeticOp} {left right : Value}

theorem apply_null_left : op.apply .null right = .ok .null := rfl

theorem apply_null_right : op.apply left .null = .ok .null := by
  cases left <;> rfl

/-- Between quantities that are known an operator has a value, of the type that the lattice gives. -/
theorem apply_known (leftKnown : left ≠ .null) (rightKnown : right ≠ .null)
    (leftMeasure : left.type ∈ ValueType.measures) (rightMeasure : right.type ∈ ValueType.measures) :
    ∃ result, op.apply left right = .ok result ∧ result.type = op.resultType [left.type, right.type] := by
  cases left with
  | null => exact absurd rfl leftKnown
  | string | boolean | duration | dataset => simp [Value.type, ValueType.measures] at leftMeasure
  | integer | number | date =>
    cases right with
    | null => exact absurd rfl rightKnown
    | string | boolean | duration | dataset => simp [Value.type, ValueType.measures] at rightMeasure
    | integer | number | date => cases op <;> exact ⟨_, rfl, rfl⟩

theorem resultType_mem_measures (types : List ValueType) : op.resultType types ∈ ValueType.measures := by
  have number : ValueType.number ∈ ValueType.measures := by decide
  have integer : ValueType.integer ∈ ValueType.measures := by decide
  unfold resultType ValueType.ofOperands
  split
  · exact number
  split
  · exact number
  split
  · exact integer
  split
  · exact number
  · exact integer

/-- Arithmetic on measure cells never fails, and gives a cell that arithmetic may go on with. -/
theorem apply_measures (leftMeasure : left.type ∈ ValueType.measures)
    (rightMeasure : right.type ∈ ValueType.measures) :
    ∃ result, op.apply left right = .ok result ∧ result.type ∈ ValueType.measures := by
  by_cases leftNull : left = .null
  · subst leftNull
    exact ⟨.null, apply_null_left, by decide⟩
  by_cases rightNull : right = .null
  · subst rightNull
    exact ⟨.null, apply_null_right, by decide⟩
  obtain ⟨result, run, type⟩ := @apply_known op _ _ leftNull rightNull leftMeasure rightMeasure
  exact ⟨result, run, type ▸ resultType_mem_measures _⟩

theorem mem_measures_of_accepted {type : ValueType} (accepted : type ∈ (BinaryOp.arithmetic op).accepted)
    (scalar : type ≠ .dataset) : type ∈ ValueType.measures := by
  simp only [BinaryOp.accepted, List.mem_cons, List.not_mem_nil, or_false] at accepted
  rcases accepted with rfl | rfl | isDataset | rfl | rfl
  case inr.inr.inl => exact absurd isDataset scalar
  all_goals decide

theorem apply_total {leftType rightType : ValueType}
    (leftAccepted : leftType ∈ (BinaryOp.arithmetic op).accepted)
    (rightAccepted : rightType ∈ (BinaryOp.arithmetic op).accepted)
    (nullBesideLeft : leftType = .dataset → rightType = .null)
    (nullBesideRight : rightType = .dataset → leftType = .null) :
    Total op.apply leftType rightType (op.resultType [leftType, rightType]) := by
  intro left right leftFits rightFits
  by_cases leftNull : left = .null
  · subst leftNull
    exact ⟨.null, apply_null_left, Value.null_isOf _⟩
  by_cases rightNull : right = .null
  · subst rightNull
    exact ⟨.null, apply_null_right, Value.null_isOf _⟩
  have leftSame := leftFits.resolve_left leftNull
  have rightSame := rightFits.resolve_left rightNull
  subst leftSame rightSame
  -- A dataset takes part only beside an operand of type null, which has no value but null.
  have leftScalar : left.type ≠ .dataset := fun isDataset =>
    rightNull (Value.eq_null_of_type (nullBesideLeft isDataset))
  have rightScalar : right.type ≠ .dataset := fun isDataset =>
    leftNull (Value.eq_null_of_type (nullBesideRight isDataset))
  have leftMeasure := mem_measures_of_accepted leftAccepted leftScalar
  have rightMeasure := mem_measures_of_accepted rightAccepted rightScalar
  obtain ⟨result, run, type⟩ := @apply_known op _ _ leftNull rightNull leftMeasure rightMeasure
  exact ⟨result, run, Or.inr type⟩

theorem apply_error {e : ResolveError} (run : op.apply left right = .error e) :
    e = .operands (.arithmetic op) left.type right.type := by
  unfold apply at run
  split at run
  · cases run
  · split at run
    · cases run
    · split at run
      · cases run
      · cases run
        rfl

end ArithmeticOp

theorem UnaryOp.apply_isOf {op : UnaryOp} {value : Value} {type : ValueType} (fits : value.IsOf type)
    (accepted : type ∈ op.accepted) :
    ∃ result, op.apply value = .ok result ∧
      result.IsOf (if op = .not then .boolean else .ofOperands [type]) := by
  rcases fits with rfl | rfl
  · exact ⟨.null, by cases op <;> rfl, Value.null_isOf _⟩
  cases op with
  | plus | minus =>
    cases value with
    | null => exact ⟨.null, rfl, Value.null_isOf _⟩
    | integer | number => exact ⟨_, rfl, Or.inr rfl⟩
    | string | boolean | date | duration | dataset => simp [Value.type, UnaryOp.accepted] at accepted
  | not =>
    cases value with
    | null => exact ⟨.null, rfl, Value.null_isOf _⟩
    | boolean => exact ⟨_, rfl, Or.inr rfl⟩
    | integer | number | string | date | duration | dataset =>
      simp [Value.type, UnaryOp.accepted] at accepted

theorem BooleanOp.apply_total {op : BooleanOp} {leftType rightType : ValueType}
    (leftAccepted : leftType ∈ (BinaryOp.boolean op).accepted)
    (rightAccepted : rightType ∈ (BinaryOp.boolean op).accepted) :
    Total op.apply leftType rightType .boolean := by
  intro left right leftFits rightFits
  obtain ⟨a, leftTruth⟩ := Value.exists_truth leftFits leftAccepted
  obtain ⟨b, rightTruth⟩ := Value.exists_truth rightFits rightAccepted
  simp only [BooleanOp.apply, leftTruth, rightTruth]
  cases op.kleene a b with
  | none => exact ⟨.null, rfl, Value.null_isOf _⟩
  | some known => exact ⟨.boolean known, rfl, Or.inr rfl⟩

theorem Value.order?_of_comparable {left right : Value} (leftKnown : left ≠ .null)
    (rightKnown : right ≠ .null) (scalar : left.type ∈ ValueType.scalars)
    (comparable : left.type.comparable right.type = true) : ∃ order, left.order? right = some order := by
  cases left with
  | null => exact absurd rfl leftKnown
  | dataset => simp [Value.type, ValueType.scalars] at scalar
  | integer | number | string | boolean | date | duration =>
    cases right <;> simp_all [Value.type, ValueType.comparable, ValueType.isNumeric, Value.order?]

theorem ComparisonOp.apply_total {op : ComparisonOp} {leftType rightType : ValueType}
    (leftAccepted : leftType ∈ (BinaryOp.comparison op).accepted)
    (comparable : leftType.comparable rightType = true) :
    Total op.apply leftType rightType .boolean := by
  intro left right leftFits rightFits
  unfold ComparisonOp.apply
  split
  · exact ⟨.null, rfl, Value.null_isOf _⟩
  · next known =>
    rw [Bool.or_eq_true, Value.isNull_iff, Value.isNull_iff, not_or] at known
    have leftSame := leftFits.resolve_left known.1
    have rightSame := rightFits.resolve_left known.2
    subst leftSame rightSame
    obtain ⟨order, compared⟩ := Value.order?_of_comparable known.1 known.2 leftAccepted comparable
    rw [compared]
    cases order with
    | none => exact ⟨_, rfl, Or.inr rfl⟩
    | some order => exact ⟨_, rfl, Or.inr rfl⟩

theorem concatenate_total {leftType rightType : ValueType}
    (leftAccepted : leftType ∈ BinaryOp.concat.accepted)
    (rightAccepted : rightType ∈ BinaryOp.concat.accepted) :
    Total concatenate leftType rightType .string := by
  intro left right leftFits rightFits
  rcases Value.eq_null_or_string leftFits leftAccepted with rfl | ⟨a, rfl⟩
  · exact ⟨.null, rfl, Value.null_isOf _⟩
  rcases Value.eq_null_or_string rightFits rightAccepted with rfl | ⟨b, rfl⟩
  · exact ⟨.null, rfl, Value.null_isOf _⟩
  · exact ⟨.string (a ++ b), rfl, Or.inr rfl⟩

end Vtl
