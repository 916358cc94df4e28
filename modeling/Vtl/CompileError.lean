import Vtl.Tree.Basic
import Vtl.Typing

namespace Vtl

/-- The groups of operators that share their rules of typing. -/
inductive Family where
  | arithmetic
  | concatenation
  | comparison
  | boolean
deriving DecidableEq

def Family.text : Family → String
  | .arithmetic => "arithmetic"
  | .concatenation => "concatenation"
  | .comparison => "comparison"
  | .boolean => "boolean"

/-- Trees that no source text has, and datasets that were declared without a schema. -/
inductive Defect where
  | shape (family : Family) (node : String)
  | operator (family : Family) (text : String)
  | unaryOperator (family : Family) (text : String)
  | noSchema (text : String)
deriving DecidableEq

def Defect.text : Defect → String
  | .shape family node => s!"{family.text} compiler received a {node} node"
  | .operator family text => s!"{family.text} compiler received operator '{text}'"
  | .unaryOperator family text => s!"{family.text} compiler received unary operator '{text}'"
  | .noSchema text => s!"dataset operand of '{text}' has no schema"

/-- Why an expression has no static type. -/
inductive CompileError where
  | typeMismatch (mark : Mark) (expected : List ValueType) (actual : ValueType)
  | operatorType (operator left right : String) (span : Span)
  | noCommonIdentifiers (op : ArithmeticOp) (span : Span)
  | unknownVariable (name : String) (span : Span)
  | internal (defect : Defect)
deriving DecidableEq

namespace CompileError

/-- What callers tell faults apart by. -/
inductive Kind where
  | typeMismatch
  | operatorType
  | structural
  | unknownVariable
  | internal
deriving DecidableEq

def kind : CompileError → Kind
  | .typeMismatch .. => .typeMismatch
  | .operatorType .. => .operatorType
  | .noCommonIdentifiers .. => .structural
  | .unknownVariable .. => .unknownVariable
  | .internal _ => .internal

def message : CompileError → String
  | .typeMismatch mark expected actual =>
    let types := ", ".intercalate (expected.map ValueType.text)
    s!"type mismatch at {mark.span.place}: '{mark.text}' has type {actual.text}, "
      ++ s!"expected one of {types}"
  | .operatorType operator left right span =>
    s!"operator '{operator}' cannot be applied to '{left}', '{right}' at {span.place}"
  | .noCommonIdentifiers op span =>
    s!"operator '{op.text}' at {span.place} requires at least one common identifier column"
  | .unknownVariable name span => s!"unknown variable '{name}' at {span.place}"
  | .internal defect => s!"internal error: {defect.text}"

/-- Where the fault is, unless it is not the source's. -/
def span? : CompileError → Option Span
  | .typeMismatch mark .. => some mark.span
  | .operatorType _ _ _ span | .noCommonIdentifiers _ span | .unknownVariable _ span => some span
  | .internal _ => none

end CompileError

end Vtl
