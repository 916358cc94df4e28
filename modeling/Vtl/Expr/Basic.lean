import Vtl.Join
import Vtl.Typing

namespace Vtl

/-- A checked expression: each node carries its static type. -/
inductive Expr where
  | constant (type : StaticType) (value : Value)
  | variable (type : StaticType) (name : String) (declared : ValueType)
  | unary (type : StaticType) (op : UnaryOp) (operand : Expr)
  | arithmetic (type : StaticType) (op : ArithmeticOp) (left right : Expr)
  | concatenation (type : StaticType) (left right : Expr)
  | comparison (type : StaticType) (op : ComparisonOp) (left right : Expr)
  | boolean (type : StaticType) (op : BooleanOp) (left right : Expr)
  /-- Arithmetic on the measures of two datasets, row by row. -/
  | join (type : StaticType) (op : ArithmeticOp) (spec : JoinSpec) (left right : Expr)

namespace Expr

def type : Expr → StaticType
  | .constant type .. | .variable type .. | .unary type .. | .arithmetic type .. => type
  | .concatenation type .. | .comparison type .. | .boolean type .. | .join type .. => type

def valueType (e : Expr) : ValueType := e.type.valueType

def columns? (e : Expr) : Option (List Column) := e.type.columns?

def isDataset (e : Expr) : Bool := e.valueType = .dataset

end Expr

end Vtl
