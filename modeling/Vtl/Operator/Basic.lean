import Vtl.Token.Basic

namespace Vtl

inductive ArithmeticOp where
  | add
  | sub
  | mul
  | div
deriving DecidableEq

inductive UnaryOp where
  | plus
  | minus
  | not
deriving DecidableEq

inductive BooleanOp where
  | and
  | or
  | xor
deriving DecidableEq

inductive ComparisonOp where
  | eq
  | ne
  | lt
  | le
  | gt
  | ge
deriving DecidableEq

/-- The operators between two operands. -/
inductive BinaryOp where
  | arithmetic (op : ArithmeticOp)
  | concat
  | comparison (op : ComparisonOp)
  | boolean (op : BooleanOp)
deriving DecidableEq

namespace ArithmeticOp

def all : List ArithmeticOp := [.add, .sub, .mul, .div]

def text : ArithmeticOp → String
  | .add => "+"
  | .sub => "-"
  | .mul => "*"
  | .div => "/"

def ofKind? : Token.Kind → Option ArithmeticOp
  | .plus => some .add
  | .minus => some .sub
  | .times => some .mul
  | .over => some .div
  | _ => none

end ArithmeticOp

namespace UnaryOp

def all : List UnaryOp := [.plus, .minus, .not]

def text : UnaryOp → String
  | .plus => "+"
  | .minus => "-"
  | .not => "not"

def ofKind? : Token.Kind → Option UnaryOp
  | .plus => some .plus
  | .minus => some .minus
  | .not => some .not
  | _ => none

end UnaryOp

namespace BooleanOp

def all : List BooleanOp := [.and, .or, .xor]

def text : BooleanOp → String
  | .and => "and"
  | .or => "or"
  | .xor => "xor"

def ofKind? : Token.Kind → Option BooleanOp
  | .and => some .and
  | .or => some .or
  | .xor => some .xor
  | _ => none

end BooleanOp

namespace ComparisonOp

def all : List ComparisonOp := [.eq, .ne, .lt, .le, .gt, .ge]

def text : ComparisonOp → String
  | .eq => "="
  | .ne => "<>"
  | .lt => "<"
  | .le => "<="
  | .gt => ">"
  | .ge => ">="

def ofKind? : Token.Kind → Option ComparisonOp
  | .equal => some .eq
  | .notEqual => some .ne
  | .less => some .lt
  | .lessEqual => some .le
  | .greater => some .gt
  | .greaterEqual => some .ge
  | _ => none

end ComparisonOp

def BinaryOp.text : BinaryOp → String
  | .arithmetic op => op.text
  | .concat => "||"
  | .comparison op => op.text
  | .boolean op => op.text

end Vtl
