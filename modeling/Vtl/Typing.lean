import Vtl.Operator.Basic
import Vtl.Value.Basic

namespace Vtl

/-- What is known about an expression or a variable without its value. A dataset may also be known by
its type alone, as a scalar of type `dataset`. -/
inductive StaticType where
  | scalar (type : ValueType)
  | dataset (columns : List Column)
deriving DecidableEq

namespace StaticType

def valueType : StaticType → ValueType
  | .scalar type => type
  | .dataset _ => .dataset

def columns? : StaticType → Option (List Column)
  | .scalar _ => none
  | .dataset columns => some columns

def ofValue : Value → StaticType
  | .dataset data => .dataset data.columns
  | value => .scalar value.type

end StaticType

/-- The static types of the names that an expression may use. -/
abbrev Declarations := Entries StaticType

/-- The declarations that describe the values at hand. -/
def Declarations.infer (bindings : Bindings) : Declarations := bindings.mapValues StaticType.ofValue

namespace ValueType

/-- The type of a sum, difference or product: null makes it a number, otherwise a date makes it an
integer, otherwise a number makes it a number. -/
def ofOperands (types : List ValueType) : ValueType :=
  if .null ∈ types then .number
  else if .date ∈ types then .integer
  else if .number ∈ types then .number
  else .integer

/-- Whether values of the two types may be compared. -/
def comparable (left right : ValueType) : Bool :=
  left = right || (left.isNumeric && right.isNumeric) || left = .null || right = .null

/-- The types that the measures of joined datasets may have. -/
def measures : List ValueType := [.integer, .number, .null, .date]

end ValueType

/-- A quotient is a number, whatever its operands are. -/
def ArithmeticOp.resultType (op : ArithmeticOp) (types : List ValueType) : ValueType :=
  if op = .div then .number else ValueType.ofOperands types

def BinaryOp.accepted : BinaryOp → List ValueType
  | .arithmetic _ => [.integer, .number, .dataset, .null, .date]
  | .concat => [.string, .null]
  | .comparison _ => ValueType.scalars
  | .boolean _ => [.boolean, .null]

def UnaryOp.accepted : UnaryOp → List ValueType
  | .plus | .minus => [.integer, .number, .null]
  | .not => [.boolean, .null]

end Vtl
