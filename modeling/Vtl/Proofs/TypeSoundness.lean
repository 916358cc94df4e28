import Vtl.Expr.Resolve
import Vtl.Proofs.HashJoin
import Vtl.Proofs.Operators
import Vtl.Proofs.WellTyped

namespace Vtl

namespace Expr

def operands : Expr → List Expr
  | .constant .. | .variable .. => []
  | .unary _ _ operand => [operand]
  | .arithmetic _ _ left right | .concatenation _ left right | .comparison _ _ left right
  | .boolean _ _ left right | .join _ _ _ left right => [left, right]

theorem induct_operands {motive : Expr → Prop}
    (step : ∀ e, (∀ operand ∈ e.operands, motive operand) → motive e) (e : Expr) : motive e := by
  have both {left right : Expr} (ofLeft : motive left) (ofRight : motive right) :
      ∀ operand ∈ [left, right], motive operand := by
    rw [List.forall_mem_cons, List.forall_mem_singleton]
    exact ⟨ofLeft, ofRight⟩
  induction e with
  | constant | «variable» => exact step _ (List.forall_mem_nil _)
  | unary _ _ _ ih => exact step _ (List.forall_mem_singleton.mpr ih)
  | arithmetic _ _ _ _ leftIh rightIh => exact step _ (both leftIh rightIh)
  | concatenation _ _ _ leftIh rightIh => exact step _ (both leftIh rightIh)
  | comparison _ _ _ _ leftIh rightIh => exact step _ (both leftIh rightIh)
  | boolean _ _ _ _ leftIh rightIh => exact step _ (both leftIh rightIh)
  | join _ _ _ _ _ leftIh rightIh => exact step _ (both leftIh rightIh)

/-- An expression itself, or a part of one of its operands. -/
inductive Within (node : Expr) : Expr → Prop
  | whole : Within node node
  | part {e operand : Expr} (member : operand ∈ e.operands) (inside : Within node operand) : Within node e

/-- The errors that a node raises by itself: a variable whose value does not fit, or a join that meets
two measure cells of kinds that its operator does not combine. No other node raises any. -/
inductive Fault (bindings : Bindings) : Expr → ResolveError → Prop
  | unbound {type : StaticType} {name : String} {declared : ValueType}
      (missing : bindings.value? name = none) :
      Fault bindings (.variable type name declared) (.unbound name)
  | wrongType {type : StaticType} {name : String} {declared : ValueType} {value : Value}
      (bound : bindings.value? name = some value) (unfit : value.fits declared = false) :
      Fault bindings (.variable type name declared) (.wrongType name declared value.type)
  | missingColumn {columns : List Column} {name : String} {declared : ValueType} {data : Dataset}
      {column : Column} (bound : bindings.value? name = some (.dataset data))
      (promised : column ∈ columns) (role : column.role ≠ .attribute) (missing : column ∉ data.columns) :
      Fault bindings (.variable (.dataset columns) name declared) (.missingColumn name column)
  | cells {type : StaticType} {op : ArithmeticOp} {spec : JoinSpec} {l r : Expr} {left right : Dataset}
      {leftRow rightRow : Row} {measure : Column} {e : ResolveError}
      (leftValue : l.resolve bindings = .ok (.dataset left))
      (rightValue : r.resolve bindings = .ok (.dataset right))
      (inLeft : leftRow ∈ left.rows) (inRight : rightRow ∈ right.rows) (known : measure ∈ spec.measures)
      (unfit : op.apply (leftRow.cell measure.name) (rightRow.cell measure.name) = .error e) :
      Fault bindings (.join type op spec l r) (.operands (.arithmetic op)
        (leftRow.cell measure.name).type (rightRow.cell measure.name).type)

end Expr

namespace Bindings

variable {bindings : Bindings} {type : StaticType} {name : String} {value : Value}

theorem resolve_congr {other : Bindings} (same : other.value? name = bindings.value? name)
    (type : StaticType) (declared : ValueType) :
    other.resolve type name declared = bindings.resolve type name declared := by
  rw [resolve, resolve, same]

/-- A variable has the value that is bound to it, or for an integer declared as a number that number. -/
theorem resolve_eq_ok {declared : ValueType} (run : bindings.resolve type name declared = .ok value) :
    ∃ bound, bindings.value? name = some bound ∧ bound.fits declared = true ∧
      ((value = bound ∧ ¬(bound.type = .integer ∧ declared = .number)) ∨
        ∃ i, bound = .integer i ∧ declared = .number ∧ value = .number (.ofInt i.toInt)) := by
  unfold Bindings.resolve at run
  split at run
  · cases run
  next bound found =>
  split at run
  · cases run
  next accepted =>
  refine ⟨bound, found, by simpa using accepted, ?_⟩
  split at run
  · split at run
    · cases run
    · cases run
      exact Or.inl ⟨rfl, fun promoted => by cases promoted.1⟩
  · next _ _ i =>
    cases run
    by_cases number : declared = .number
    · rw [if_pos number]
      exact Or.inr ⟨i, rfl, number, rfl⟩
    · rw [if_neg number]
      exact Or.inl ⟨rfl, fun promoted => number promoted.2⟩
  · next noInteger _ =>
    cases run
    refine Or.inl ⟨rfl, fun promoted => ?_⟩
    obtain ⟨i, rfl⟩ := Value.exists_integer promoted.1
    exact noInteger i rfl

theorem resolve_isOf (run : bindings.resolve type name type.valueType = .ok value) :
    value.IsOf type.valueType := by
  obtain ⟨bound, _, fits, ⟨rfl, kept⟩ | ⟨i, _, number, rfl⟩⟩ := resolve_eq_ok run
  · exact (Value.fits_iff.mp fits).resolve_right kept
  · exact Or.inr number.symm

/-- Resolving a variable changes no dataset. -/
theorem value?_of_resolve_dataset {declared : ValueType} {data : Dataset}
    (run : bindings.resolve type name declared = .ok (.dataset data)) :
    bindings.value? name = some (.dataset data) := by
  obtain ⟨bound, found, _, ⟨rfl, _⟩ | ⟨i, _, _, promoted⟩⟩ := resolve_eq_ok run
  · exact found
  · cases promoted

theorem resolve_fault {declared : ValueType} {e : ResolveError}
    (run : bindings.resolve type name declared = .error e) :
    Expr.Fault bindings (.variable type name declared) e := by
  unfold Bindings.resolve at run
  split at run
  · next missing =>
    cases run
    exact .unbound missing
  next bound found =>
  split at run
  · next unfit =>
    cases run
    exact .wrongType found (by simpa using unfit)
  split at run
  · next data columns =>
    split at run
    · next column missing =>
      cases run
      have absent := List.find?_some missing
      simp only [decide_not, Bool.and_eq_true, Bool.not_eq_true', decide_eq_false_iff_not] at absent
      exact .missingColumn found (List.mem_of_find?_eq_some missing) absent.1 absent.2
    · cases run
  · cases run
  · cases run

end Bindings

/-- A join has null for an operand and as value, or it joins two datasets. -/
theorem JoinSpec.apply_ok {spec : JoinSpec} {op : ArithmeticOp} {l r value : Value}
    (run : spec.apply op l r = .ok value) :
    (value = .null ∧ (l = .null ∨ r = .null)) ∨
      ∃ left right data, l = .dataset left ∧ r = .dataset right ∧ value = .dataset data ∧
        Dataset.join left right spec op.apply = .ok data := by
  unfold JoinSpec.apply at run
  split at run
  · cases run
    exact Or.inl ⟨rfl, Or.inl rfl⟩
  · cases run
    exact Or.inl ⟨rfl, Or.inr rfl⟩
  · next left right =>
    cases joined : Dataset.join left right spec op.apply with
    | error e => rw [joined] at run; cases run
    | ok data =>
      rw [joined] at run
      cases run
      exact Or.inr ⟨left, right, data, rfl, rfl, rfl, joined⟩
  · cases run

/-- A join of two datasets fails only where two of their measure cells cannot be combined. -/
theorem JoinSpec.apply_fault {spec : JoinSpec} {op : ArithmeticOp} {bindings : Bindings}
    {type : StaticType} {l r : Expr} {left right : Value} {e : ResolveError}
    (leftValue : l.resolve bindings = .ok left) (rightValue : r.resolve bindings = .ok right)
    (leftIsOf : left.IsOf .dataset) (rightIsOf : right.IsOf .dataset)
    (run : spec.apply op left right = .error e) : Expr.Fault bindings (.join type op spec l r) e := by
  unfold JoinSpec.apply at run
  split at run
  · cases run
  · cases run
  · next data other =>
    cases joined : Dataset.join data other spec op.apply with
    | ok result => rw [joined] at run; cases run
    | error fault =>
      rw [joined] at run
      cases run
      obtain ⟨leftRow, inLeft, rightRow, inRight, failed⟩ := Dataset.joinBy_error joined
      obtain ⟨before, measure, after, split, _, unfit⟩ := JoinSpec.merge_eq_error.mp failed
      have known : measure ∈ spec.measures := by simp [split]
      rw [ArithmeticOp.apply_error unfit]
      exact .cells leftValue rightValue inLeft inRight known unfit
  · next leftKnown rightKnown notBoth =>
    obtain ⟨data, rfl⟩ := Value.exists_dataset (leftIsOf.resolve_left leftKnown)
    obtain ⟨other, rfl⟩ := Value.exists_dataset (rightIsOf.resolve_left rightKnown)
    exact (notBoth data other rfl rfl).elim

namespace Expr

variable {bindings : Bindings}

section Binary

variable {left right : Expr} {operation : Value → Value → Except ResolveError Value} {type : ValueType}

theorem isOf_of_total (total : Total operation left.valueType right.valueType type)
    (leftIsOf : ∀ {value}, left.resolve bindings = .ok value → value.IsOf left.valueType)
    (rightIsOf : ∀ {value}, right.resolve bindings = .ok value → value.IsOf right.valueType)
    {value : Value}
    (run : (do operation (← left.resolve bindings) (← right.resolve bindings)) = .ok value) :
    value.IsOf type := by
  obtain ⟨l, leftRun, run⟩ := bind_eq_ok.mp run
  obtain ⟨r, rightRun, run⟩ := bind_eq_ok.mp run
  obtain ⟨result, applied, isOf⟩ := total (leftIsOf leftRun) (rightIsOf rightRun)
  exact Except.ok.inj (applied.symm.trans run) ▸ isOf

/-- An operation that never fails on the types of its operands only hands on their errors. -/
theorem error_of_total (total : Total operation left.valueType right.valueType type)
    (leftIsOf : ∀ {value}, left.resolve bindings = .ok value → value.IsOf left.valueType)
    (rightIsOf : ∀ {value}, right.resolve bindings = .ok value → value.IsOf right.valueType)
    {e : ResolveError}
    (run : (do operation (← left.resolve bindings) (← right.resolve bindings)) = .error e) :
    ∃ operand ∈ [left, right], operand.resolve bindings = .error e := by
  rcases bind_eq_error.mp run with failed | ⟨l, leftRun, run⟩
  · exact ⟨left, by simp, failed⟩
  rcases bind_eq_error.mp run with failed | ⟨r, rightRun, run⟩
  · exact ⟨right, by simp, failed⟩
  obtain ⟨result, applied, _⟩ := total (leftIsOf leftRun) (rightIsOf rightRun)
  cases applied.symm.trans run

end Binary

namespace WellTyped

variable {scope : Scope} {e node : Expr}

/-- A value of a well-typed expression is null or has its static type. -/
theorem resolve_isOf (typed : e.WellTyped scope) {value : Value}
    (run : e.resolve bindings = .ok value) : value.IsOf e.valueType := by
  induction typed generalizing value with
  | constant literal =>
    cases run
    exact Or.inr rfl
  | «variable» declared => exact Bindings.resolve_isOf run
  | unary _ accepted ih =>
    obtain ⟨inner, operandRun, run⟩ := bind_eq_ok.mp run
    obtain ⟨result, applied, isOf⟩ := UnaryOp.apply_isOf (ih operandRun) accepted
    exact Except.ok.inj (applied.symm.trans run) ▸ isOf
  | arithmetic _ _ leftAccepted rightAccepted besideLeft besideRight leftIh rightIh =>
    exact isOf_of_total (ArithmeticOp.apply_total leftAccepted rightAccepted besideLeft besideRight)
      leftIh rightIh run
  | concatenation _ _ leftAccepted rightAccepted leftIh rightIh =>
    exact isOf_of_total (concatenate_total leftAccepted rightAccepted) leftIh rightIh run
  | comparison _ _ leftAccepted _ comparable leftIh rightIh =>
    exact isOf_of_total (ComparisonOp.apply_total leftAccepted comparable) leftIh rightIh run
  | boolean _ _ leftAccepted rightAccepted leftIh rightIh =>
    exact isOf_of_total (BooleanOp.apply_total leftAccepted rightAccepted) leftIh rightIh run
  | join =>
    obtain ⟨l, _, run⟩ := bind_eq_ok.mp run
    obtain ⟨r, _, run⟩ := bind_eq_ok.mp run
    rcases JoinSpec.apply_ok run with ⟨rfl, _⟩ | ⟨_, _, data, _, _, rfl, _⟩
    · exact Value.null_isOf _
    · exact Or.inr rfl

/-- A node of a well-typed expression fails by a fault of its own or hands on that of an operand. -/
theorem fault_or_operand (typed : e.WellTyped scope) {error : ResolveError}
    (run : e.resolve bindings = .error error) :
    e.Fault bindings error ∨ ∃ operand ∈ e.operands, operand.resolve bindings = .error error := by
  cases typed with
  | constant literal => cases run
  | «variable» declared => exact Or.inl (Bindings.resolve_fault run)
  | @unary op operand typed accepted =>
    right
    rcases bind_eq_error.mp run with failed | ⟨inner, operandRun, run⟩
    · exact ⟨operand, by simp [operands], failed⟩
    · obtain ⟨result, applied, _⟩ := UnaryOp.apply_isOf (typed.resolve_isOf operandRun) accepted
      cases applied.symm.trans run
  | arithmetic leftTyped rightTyped leftAccepted rightAccepted besideLeft besideRight =>
    exact Or.inr (error_of_total
      (ArithmeticOp.apply_total leftAccepted rightAccepted besideLeft besideRight)
      leftTyped.resolve_isOf rightTyped.resolve_isOf run)
  | concatenation leftTyped rightTyped leftAccepted rightAccepted =>
    exact Or.inr (error_of_total (concatenate_total leftAccepted rightAccepted)
      leftTyped.resolve_isOf rightTyped.resolve_isOf run)
  | comparison leftTyped rightTyped leftAccepted _ comparable =>
    exact Or.inr (error_of_total (ComparisonOp.apply_total leftAccepted comparable)
      leftTyped.resolve_isOf rightTyped.resolve_isOf run)
  | boolean leftTyped rightTyped leftAccepted rightAccepted =>
    exact Or.inr (error_of_total (BooleanOp.apply_total leftAccepted rightAccepted)
      leftTyped.resolve_isOf rightTyped.resolve_isOf run)
  | @join op spec left right _ _ leftTyped rightTyped leftSchema rightSchema =>
    rcases bind_eq_error.mp run with failed | ⟨l, leftRun, run⟩
    · exact Or.inr ⟨left, by simp [operands], failed⟩
    rcases bind_eq_error.mp run with failed | ⟨r, rightRun, run⟩
    · exact Or.inr ⟨right, by simp [operands], failed⟩
    have leftIsOf := leftTyped.resolve_isOf leftRun
    have rightIsOf := rightTyped.resolve_isOf rightRun
    rw [valueType_of_schema leftSchema] at leftIsOf
    rw [valueType_of_schema rightSchema] at rightIsOf
    exact Or.inl (JoinSpec.apply_fault leftRun rightRun leftIsOf rightIsOf run)

theorem operand (typed : e.WellTyped scope) (member : node ∈ e.operands) : node.WellTyped scope := by
  cases typed <;> simp only [operands, List.mem_cons, List.not_mem_nil, or_false] at member
  case unary => rwa [member]
  all_goals rcases member with rfl | rfl <;> assumption

theorem within (typed : e.WellTyped scope) (part : node.Within e) : node.WellTyped scope := by
  induction part with
  | whole => exact typed
  | part member _ ih => exact ih (typed.operand member)

/-- An error of a well-typed expression is the fault of one of its nodes. -/
theorem exists_fault (typed : e.WellTyped scope) {error : ResolveError}
    (run : e.resolve bindings = .error error) :
    ∃ node : Expr, node.Within e ∧ node.resolve bindings = .error error ∧ node.Fault bindings error := by
  induction e using induct_operands with
  | step e ih =>
    rcases typed.fault_or_operand run with fault | ⟨operand, member, failed⟩
    · exact ⟨e, .whole, run, fault⟩
    · obtain ⟨node, inside, nodeRun, fault⟩ := ih operand member (typed.operand member) failed
      exact ⟨node, .part member inside, nodeRun, fault⟩

end WellTyped

/-- Resolving what compiled, whatever is bound: a value is null or of the static type, and an error is
the fault of a variable or of two measure cells in a join. A node of another kind only hands on the
errors of its operands. -/
theorem resolve_type_sound {scope : Scope} {tree : Tree} {e : Expr}
    (compiled : tree.compile scope = .ok e) (bindings : Bindings) :
    (∀ value, e.resolve bindings = .ok value → value = .null ∨ value.type = e.valueType) ∧
      (∀ error, e.resolve bindings = .error error →
        ∃ node : Expr, node.Within e ∧ node.resolve bindings = .error error ∧ node.Fault bindings error) ∧
      (∀ (node : Expr) (error : ResolveError), node.Within e → node.resolve bindings = .error error →
        node.Fault bindings error ∨ ∃ operand ∈ node.operands, operand.resolve bindings = .error error) ∧
      (∀ op type, e.resolve bindings ≠ .error (.operand op type)) ∧
      (∀ op left right, e.resolve bindings ≠ .error (.notDatasets op left right)) := by
  have typed := Tree.compile_wellTyped compiled
  refine ⟨fun value run => typed.resolve_isOf run, fun error run => typed.exists_fault run,
    fun node error inside run => (typed.within inside).fault_or_operand run, ?_, ?_⟩
  · intro op type run
    obtain ⟨node, _, _, fault⟩ := typed.exists_fault run
    cases fault
  · intro op left right run
    obtain ⟨node, _, _, fault⟩ := typed.exists_fault run
    cases fault

/-- `ds + ds` -/
def doubled : Tree :=
  .binary ⟨"ds + ds", ⟨0, 7, 1, 1⟩⟩ .sum (.variable ⟨"ds", ⟨0, 2, 1, 1⟩⟩ "ds")
    ⟨.plus, "+", ⟨3, 4, 1, 4⟩⟩ (.variable ⟨"ds", ⟨5, 7, 1, 6⟩⟩ "ds")

def pairColumns : List Column := [⟨"id", .identifier, .integer⟩, ⟨"m", .measure, .integer⟩]

def pairScope : Scope := ⟨[("ds", .dataset pairColumns)], .typed⟩

/-- A measure that is declared as an integer may hold a string nevertheless. -/
def misfitBindings : Bindings :=
  [("ds", .dataset ⟨pairColumns, [[("id", .integer 1), ("m", .string "x")]]⟩)]

theorem resolve_type_sound_doubled :
    ∃ e, doubled.compile pairScope = .ok e ∧
      e.resolve misfitBindings = .error (.operands (.arithmetic .add) .string .string) ∧
      ∃ node : Expr, node.Within e ∧
        node.Fault misfitBindings (.operands (.arithmetic .add) .string .string) := by
  refine ⟨_, rfl, rfl, ?_⟩
  obtain ⟨_, faults, _⟩ := @resolve_type_sound pairScope doubled _ rfl misfitBindings
  obtain ⟨node, inside, _, fault⟩ := faults _ rfl
  exact ⟨node, inside, fault⟩

end Expr

end Vtl
