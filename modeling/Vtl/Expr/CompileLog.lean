import Vtl.Expr.Compile

namespace Vtl

/-- Only faults that are not the source's are reported. -/
def CompileError.records : CompileError → List LogRecord
  | .internal defect => [⟨.error, s!"internal compiler error: {defect.text}"⟩]
  | _ => []

/-- The identifiers of the left schema that the rows of a join do not carry. -/
def uncarried (left right : List Column) : List String :=
  let common := (CommonColumns.between left right).identifiers
  if common.isEmpty then []
  else (left.filter fun column => column.role = .identifier && column ∉ common).map Column.name

/-- A warning about a join whose static schema promises more identifiers than its rows have. -/
def Expr.joinRecords (mark : Mark) (op : BinaryOp) (left right : Expr) : List LogRecord :=
  match op, left.type, right.type with
  | .arithmetic _, .dataset leftColumns, .dataset rightColumns =>
    let names := uncarried leftColumns rightColumns
    let list := ", ".intercalate names
    let text := s!"'{mark.text}' declares identifier(s) {list} that its joined rows do not carry"
    if names.isEmpty then [] else [⟨.warn, text⟩]
  | _, _, _ => []

namespace Tree

/-- The report of an expression that compiled. -/
def announce (scope : Scope) (tree : Tree) : List LogRecord :=
  match tree.compile scope with
  | .ok e => [⟨.debug, s!"compiled {tree.shapeText} '{tree.text}' as {e.valueType.text}"⟩]
  | .error _ => []

/-- What the rules for one operand report, given the report of the operand. -/
def unaryLog (scope : Scope) (family : Family) (op : Token) (operand : Tree)
    (inner : List LogRecord) : List LogRecord :=
  match family.unary? op.kind with
  | none => (CompileError.internal (.unaryOperator family op.text)).records
  | some _ => inner ++
    match operand.compile scope with
    | .error _ => []
    | .ok e =>
      match Expr.ofUnary family op operand (.ok e) with
      | .ok _ => []
      | .error e => e.records

/-- What the rules for two operands report, given the reports of the operands. The right operand is
only reached if the left one compiles. -/
def binaryLog (scope : Scope) (family : Family) (mark : Mark) (left : Tree) (op : Token)
    (right : Tree) (leftLog rightLog : List LogRecord) : List LogRecord :=
  match family.binary? op.kind with
  | none => (CompileError.internal (.operator family op.text)).records
  | some operator => leftLog ++
    match left.compile scope with
    | .error _ => []
    | .ok l => rightLog ++
      match right.compile scope with
      | .error _ => []
      | .ok r => Expr.joinRecords mark operator l r ++
        match Expr.ofOperands scope.policy mark operator op left right l r with
        | .ok _ => []
        | .error e => e.records

/-- What compiling an expression reports, in order. Parentheses report nothing of their own. -/
def compileLog (scope : Scope) : Tree → List LogRecord
  | .parens _ inner => inner.compileLog scope
  | .unary mark op operand =>
    unaryLog scope (.ofUnary op.kind) op operand (operand.compileLog scope)
      ++ announce scope (.unary mark op operand)
  | .binary mark production left op right =>
    binaryLog scope (.ofBinary production op.kind) mark left op right (left.compileLog scope)
        (right.compileLog scope)
      ++ announce scope (.binary mark production left op right)
  | .variable mark name => announce scope (.variable mark name)
  | .constant mark literal => announce scope (.constant mark literal)

def compileBinaryLog (scope : Scope) (family : Family) : Tree → List LogRecord
  | .binary mark production left op right =>
    if family.admits production then
      binaryLog scope family mark left op right (left.compileLog scope) (right.compileLog scope)
    else (CompileError.internal (.shape family production.text)).records
  | tree => (CompileError.internal (.shape family tree.shapeText)).records

def compileUnaryLog (scope : Scope) (family : Family) : Tree → List LogRecord
  | .unary _ op operand => unaryLog scope family op operand (operand.compileLog scope)
  | tree => (CompileError.internal (.shape family tree.shapeText)).records

end Tree

end Vtl
