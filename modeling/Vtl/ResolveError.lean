import Vtl.Column
import Vtl.Operator.Basic

namespace Vtl

/-- Why a compiled expression has no value under some bindings. -/
inductive ResolveError where
  | unbound (name : String)
  | wrongType (name : String) (declared bound : ValueType)
  | missingColumn (name : String) (column : Column)
  | operands (op : BinaryOp) (left right : ValueType)
  | operand (op : UnaryOp) (type : ValueType)
  /-- A join whose operands turned out not to be datasets. -/
  | notDatasets (op : ArithmeticOp) (left right : ValueType)
deriving DecidableEq

namespace ResolveError

def notDatasetsText (op : ArithmeticOp) (left right : ValueType) : String :=
  s!"dataset operator '{op.text}' resolved {left.text} and {right.text} operands"

def message : ResolveError → String
  | .unbound name => s!"variable '{name}' is not bound"
  | .wrongType name declared bound =>
    s!"variable '{name}' is declared as {declared.text} but bound to a {bound.text} value"
  | .missingColumn name column =>
    s!"dataset '{name}' is declared with {column.role.text} column '{column.name}' of type "
      ++ s!"{column.type.text}, which the bound dataset lacks"
  | .operands op left right =>
    s!"operator '{op.text}' cannot be applied to {left.text} and {right.text} values"
  | .operand op type => s!"operator '{op.text}' cannot be applied to a {type.text} value"
  | .notDatasets op left right => s!"internal error: {notDatasetsText op left right}"

end ResolveError

end Vtl
