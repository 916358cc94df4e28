import Vtl.CompileError
import Vtl.Expr.Basic

namespace Vtl

namespace Family

def admits : Family → Production → Bool
  | .arithmetic, .product | .arithmetic, .sum => true
  | .concatenation, .sum => true
  | .comparison, .comparison => true
  | .boolean, .boolean => true
  | _, _ => false

def binary? : Family → Token.Kind → Option BinaryOp
  | .arithmetic, kind => (ArithmeticOp.ofKind? kind).map .arithmetic
  | .concatenation, kind => if kind = .concat then some .concat else none
  | .comparison, kind => (ComparisonOp.ofKind? kind).map .comparison
  | .boolean, kind => (BooleanOp.ofKind? kind).map .boolean

def unary? : Family → Token.Kind → Option UnaryOp
  | .arithmetic, .plus => some .plus
  | .arithmetic, .minus => some .minus
  | .boolean, .not => some .not
  | _, _ => none

/-- The family that types an expression of two operands. -/
def ofBinary : Production → Token.Kind → Family
  | .product, _ => .arithmetic
  | .sum, kind => if kind = .concat then .concatenation else .arithmetic
  | .comparison, _ => .comparison
  | .boolean, _ => .boolean

/-- The family that types an expression of one operand. -/
def ofUnary (kind : Token.Kind) : Family := if kind = .not then .boolean else .arithmetic

end Family

/-- What an expression is compiled against: the names it may use, and how joins match rows. -/
structure Scope where
  declarations : Declarations
  policy : KeyPolicy

namespace Expr

/-- The type of an operand has to be among the accepted ones. -/
def checkOperand (node : Tree) (operand : Expr) (accepted : List ValueType) :
    Except CompileError Unit :=
  if operand.valueType ∈ accepted then .ok ()
  else .error (.typeMismatch node.mark accepted operand.valueType)

/-- The column that an operator makes of a measure common to both sides. -/
def joinMeasure (op : ArithmeticOp) (opToken : Token) (measure : Column) :
    Except CompileError Column :=
  if measure.type ∈ ValueType.measures then
    .ok { measure with type := op.resultType [measure.type, measure.type] }
  else
    let described := s!"{measure.name} {measure.type.text}"
    .error (.operatorType op.text described described opToken.span)

/-- Arithmetic on two datasets joins them on their common identifiers. The static schema of the
result is that of the left operand, although its rows hold the common columns only. -/
def joinDatasets (policy : KeyPolicy) (mark : Mark) (op : ArithmeticOp) (opToken : Token)
    (left right : Expr) : Except CompileError Expr :=
  match left.columns?, right.columns? with
  | some leftColumns, some rightColumns =>
    let common := CommonColumns.between leftColumns rightColumns
    if keyed : common.identifiers ≠ [] then do
      let measures ← common.measures.mapM (joinMeasure op opToken)
      pure (.join (.dataset leftColumns) op ⟨common.identifiers, measures, policy, keyed⟩ left right)
    else .error (.noCommonIdentifiers op mark.span)
  | _, _ => .error (.internal (.noSchema mark.text))

/-- Arithmetic takes two scalars or two datasets. Null goes with either. -/
def arithmeticOf (policy : KeyPolicy) (mark : Mark) (op : ArithmeticOp) (opToken : Token)
    (leftNode rightNode : Tree) (left right : Expr) : Except CompileError Expr :=
  let scalar := Expr.arithmetic (.scalar (op.resultType [left.valueType, right.valueType])) op left right
  match left.valueType, right.valueType with
  | .dataset, .dataset => joinDatasets policy mark op opToken left right
  | .dataset, .null | .null, .dataset => .ok scalar
  | .dataset, actual => .error (.typeMismatch rightNode.mark [.dataset] actual)
  | actual, .dataset => .error (.typeMismatch leftNode.mark [.dataset] actual)
  | _, _ => .ok scalar

/-- The expression that an operator makes of two compiled operands, if their types allow it. -/
def ofOperands (policy : KeyPolicy) (mark : Mark) (op : BinaryOp) (opToken : Token)
    (leftNode rightNode : Tree) (left right : Expr) : Except CompileError Expr := do
  checkOperand leftNode left op.accepted
  checkOperand rightNode right op.accepted
  match op with
  | .arithmetic op => arithmeticOf policy mark op opToken leftNode rightNode left right
  | .concat => .ok (.concatenation (.scalar .string) left right)
  | .comparison op =>
    if left.valueType.comparable right.valueType then
      .ok (.comparison (.scalar .boolean) op left right)
    else
      .error (.operatorType opToken.text left.valueType.text right.valueType.text opToken.span)
  | .boolean op => .ok (.boolean (.scalar .boolean) op left right)

/-- The expression that an operator makes of one compiled operand, if its type allows it. -/
def ofOperand (op : UnaryOp) (node : Tree) (operand : Expr) : Except CompileError Expr := do
  checkOperand node operand op.accepted
  let type := if op = .not then .boolean else ValueType.ofOperands [operand.valueType]
  pure (.unary (.scalar type) op operand)

def ofBinary (policy : KeyPolicy) (family : Family) (mark : Mark) (leftNode : Tree) (opToken : Token)
    (rightNode : Tree) (left right : Except CompileError Expr) : Except CompileError Expr :=
  match family.binary? opToken.kind with
  | none => .error (.internal (.operator family opToken.text))
  | some op => do
    let l ← left
    let r ← right
    ofOperands policy mark op opToken leftNode rightNode l r

def ofUnary (family : Family) (opToken : Token) (node : Tree) (operand : Except CompileError Expr) :
    Except CompileError Expr :=
  match family.unary? opToken.kind with
  | none => .error (.internal (.unaryOperator family opToken.text))
  | some op => do ofOperand op node (← operand)

def ofVariable (declarations : Declarations) (mark : Mark) (name : String) :
    Except CompileError Expr :=
  match declarations.value? name with
  | none => .error (.unknownVariable name mark.span)
  | some type => .ok (.variable type name type.valueType)

end Expr

def Literal.value : Literal → Value
  | .null => .null
  | .integer i => .integer i
  | .number n => .number n
  | .string s => .string s
  | .boolean b => .boolean b

namespace Tree

/-- Checks the types of an expression. Operands come before the node itself and left before right, so
the first fault in that order is the one reported. -/
def compile (scope : Scope) : Tree → Except CompileError Expr
  | .parens _ inner => inner.compile scope
  | .unary _ op operand => Expr.ofUnary (.ofUnary op.kind) op operand (operand.compile scope)
  | .binary mark production left op right =>
    Expr.ofBinary scope.policy (.ofBinary production op.kind) mark left op right
      (left.compile scope) (right.compile scope)
  | .variable mark name => Expr.ofVariable scope.declarations mark name
  | .constant _ literal => .ok (.constant (.scalar literal.value.type) literal.value)

/-- Compiles an expression of two operands by the rules of a given family. -/
def compileBinary (scope : Scope) (family : Family) : Tree → Except CompileError Expr
  | .binary mark production left op right =>
    if family.admits production then
      Expr.ofBinary scope.policy family mark left op right (left.compile scope) (right.compile scope)
    else .error (.internal (.shape family production.text))
  | tree => .error (.internal (.shape family tree.shapeText))

/-- Compiles an expression of one operand by the rules of a given family. -/
def compileUnary (scope : Scope) (family : Family) : Tree → Except CompileError Expr
  | .unary _ op operand => Expr.ofUnary family op operand (operand.compile scope)
  | tree => .error (.internal (.shape family tree.shapeText))

end Tree

end Vtl
