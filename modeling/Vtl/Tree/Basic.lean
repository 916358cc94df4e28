import Vtl.Number.Nearest
import Vtl.Token.Basic

namespace Vtl

inductive Literal where
  | null
  | integer (value : Int64)
  | number (value : Number)
  | string (text : String)
  | boolean (value : Bool)
deriving DecidableEq

/-- The source text of a node and where it stands. -/
structure Mark where
  text : String
  span : Span
deriving DecidableEq

/-- The shapes of expression with two operands. The operator token tells apart what shares one. -/
inductive Production where
  /-- `*` and `/` -/
  | product
  /-- `+`, `-` and `||` -/
  | sum
  | comparison
  /-- `and`, `or` and `xor` -/
  | boolean
deriving DecidableEq

/-- An expression as it was written. -/
inductive Tree where
  | parens (mark : Mark) (inner : Tree)
  | unary (mark : Mark) (op : Token) (operand : Tree)
  | binary (mark : Mark) (production : Production) (left : Tree) (op : Token) (right : Tree)
  | variable (mark : Mark) (name : String)
  | constant (mark : Mark) (value : Literal)
deriving DecidableEq

def Production.text : Production → String
  | .product => "arithmeticExpr"
  | .sum => "arithmeticExprOrConcat"
  | .comparison => "comparisonExpr"
  | .boolean => "booleanExpr"

namespace Tree

def mark : Tree → Mark
  | .parens mark _ | .unary mark .. | .binary mark .. | .variable mark _ | .constant mark _ => mark

def span (tree : Tree) : Span := tree.mark.span

def text (tree : Tree) : String := tree.mark.text

/-- How messages call the shape of a node. -/
def shapeText : Tree → String
  | .parens .. => "parenthesisExpr"
  | .unary .. => "unaryExpr"
  | .binary _ production .. => production.text
  | .variable .. => "varIdExpr"
  | .constant .. => "constantExpr"

end Tree

/-- `name := expression`, or an expression on its own. -/
structure Statement where
  target : Option String
  expression : Tree
  span : Span
deriving DecidableEq

end Vtl
