import Vtl.Expr.Basic
import Vtl.Operator.Apply

namespace Vtl

/-- The first declared identifier or measure that a bound dataset lacks. -/
def missingColumn? (declared bound : List Column) : Option Column :=
  declared.find? fun column => column.role ≠ .attribute && column ∉ bound

/-- The value of a variable. It has to fit the declared type and schema, and an integer declared as a
number becomes one. -/
def Bindings.resolve (bindings : Bindings) (type : StaticType) (name : String)
    (declared : ValueType) : Except ResolveError Value :=
  match bindings.value? name with
  | none => .error (.unbound name)
  | some value =>
    if !value.fits declared then .error (.wrongType name declared value.type)
    else
      match value, type with
      | .dataset data, .dataset columns =>
        match missingColumn? columns data.columns with
        | some column => .error (.missingColumn name column)
        | none => .ok value
      | .integer i, _ => .ok (if declared = .number then .number (.ofInt i.toInt) else value)
      | _, _ => .ok value

/-- Arithmetic on two resolved operands of a join. Null in place of a dataset gives null. -/
def JoinSpec.apply (spec : JoinSpec) (op : ArithmeticOp) :
    Value → Value → Except ResolveError Value
  | .null, _ => .ok .null
  | _, .null => .ok .null
  | .dataset left, .dataset right => (Dataset.join left right spec op.apply).map .dataset
  | left, right => .error (.notDatasets op left.type right.type)

namespace Expr

/-- The value of an expression. The left operand comes first, so its error wins. -/
def resolve (bindings : Bindings) : Expr → Except ResolveError Value
  | .constant _ value => .ok value
  | .variable type name declared => bindings.resolve type name declared
  | .unary _ op operand => do op.apply (← operand.resolve bindings)
  | .arithmetic _ op left right => do
    let l ← left.resolve bindings
    let r ← right.resolve bindings
    op.apply l r
  | .concatenation _ left right => do
    let l ← left.resolve bindings
    let r ← right.resolve bindings
    concatenate l r
  | .comparison _ op left right => do
    let l ← left.resolve bindings
    let r ← right.resolve bindings
    op.apply l r
  | .boolean _ op left right => do
    let l ← left.resolve bindings
    let r ← right.resolve bindings
    op.apply l r
  | .join _ op spec left right => do
    let l ← left.resolve bindings
    let r ← right.resolve bindings
    spec.apply op l r

end Expr

/-- What a join reports once both operands are resolved. -/
def JoinSpec.applyLog (spec : JoinSpec) (op : ArithmeticOp) : Value → Value → List LogRecord
  | .null, _ => []
  | _, .null => []
  | .dataset left, .dataset right =>
    match Dataset.join left right spec op.apply with
    | .ok joined => [spec.record left right joined]
    | .error _ => []
  | left, right =>
    let text := ResolveError.notDatasetsText op left.type right.type
    [⟨.error, s!"internal resolution error: {text}"⟩]

/-- What resolving an expression reports, in order. An operand is only reached if the one before it
has a value. -/
def Expr.resolveLog (bindings : Bindings) : Expr → List LogRecord
  | .constant .. | .variable .. => []
  | .unary _ _ operand => operand.resolveLog bindings
  | .arithmetic _ _ left right | .concatenation _ left right | .comparison _ _ left right
  | .boolean _ _ left right =>
    left.resolveLog bindings ++
      match left.resolve bindings with
      | .ok _ => right.resolveLog bindings
      | .error _ => []
  | .join _ op spec left right =>
    left.resolveLog bindings ++
      match left.resolve bindings with
      | .error _ => []
      | .ok l =>
        right.resolveLog bindings ++
          match right.resolve bindings with
          | .error _ => []
          | .ok r => spec.applyLog op l r

end Vtl
