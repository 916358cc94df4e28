import Vtl.Number.Numeral
import Vtl.Token.Scan
import Vtl.Tree.Basic

namespace Vtl

namespace Token.Kind

/-- The shape that an operator between two operands makes, and how tightly it binds. -/
def binary? : Kind → Option (Production × Nat)
  | .or | .xor => some (.boolean, 1)
  | .and => some (.boolean, 2)
  | .equal | .notEqual | .less | .lessEqual | .greater | .greaterEqual => some (.comparison, 3)
  | .plus | .minus | .concat => some (.sum, 4)
  | .times | .over => some (.product, 5)
  | _ => none

def isUnary (kind : Kind) : Bool := kind = .plus || kind = .minus || kind = .not

end Token.Kind

/-- The numeral that a number constant writes. -/
def Numeral.ofConstant (text : List Char) : Numeral :=
  let whole := text.takeWhile Char.isDigit
  ⟨false, whole, text.drop (whole.length + 1), none⟩

namespace Tree

/-- The mark of a node that spans a part of the source. -/
def markOf (source : List Char) (span : Span) : Mark := ⟨String.ofList (span.slice source), span⟩

/-- The expression that a single token makes. -/
def ofToken (source : List Char) (token : Token) : Except SyntaxError Tree :=
  let mark := markOf source token.span
  match token.kind with
  | .integerConstant =>
    let value := digitsValue token.text.toList
    if value < integerLimit then .ok (.constant mark (.integer (Int64.ofNat value)))
    else .error ⟨.integerOutOfRange token.text, token.span⟩
  | .numberConstant => .ok (.constant mark (.number (Numeral.ofConstant token.text.toList).nearest))
  | .stringConstant => .ok (.constant mark (.string token.text))
  | .trueConstant => .ok (.constant mark (.boolean true))
  | .falseConstant => .ok (.constant mark (.boolean false))
  | .nullConstant => .ok (.constant mark .null)
  | .identifier => .ok (.variable mark token.text)
  | found => .error ⟨.noExpression found, token.span⟩

/-- An expression that has begun and waits for the operand being read. -/
inductive Frame where
  | parens (opening : Span)
  | unary (op : Token)
  | binary (production : Production) (level : Nat) (left : Tree) (op : Token)

/-- Completes the innermost expressions that bind at least as tightly as `level`. A parenthesis stays
open. -/
def settle (source : List Char) (level : Nat) : List Frame → Tree → List Frame × Tree
  | .unary op :: outer, tree =>
    settle source level outer (.unary (markOf source (op.span.through tree.span)) op tree)
  | .binary production own left op :: outer, tree =>
    if level ≤ own then
      settle source level outer
        (.binary (markOf source (left.span.through tree.span)) production left op tree)
    else (.binary production own left op :: outer, tree)
  | frames, tree => (frames, tree)

/-- An expression ends before a token that cannot go on with it, unless a parenthesis is open. -/
def finish (source : List Char) (frames : List Frame) (tree : Tree) (found : Token) :
    Except SyntaxError Tree :=
  match settle source 0 frames tree with
  | ([], whole) => .ok whole
  | (_ :: _, _) => .error ⟨.wrongToken .rightParen found.kind, found.span⟩

mutual

/-- Reads on where an operand is due. `close` is the token behind the list. -/
def readOperand (source : List Char) (close : Token) (frames : List Frame) :
    List Token → Except SyntaxError Tree × List Token
  | [] => (.error ⟨.noExpression close.kind, close.span⟩, [])
  | token :: rest =>
    if token.kind.isUnary then readOperand source close (.unary token :: frames) rest
    else if token.kind = .leftParen then
      readOperand source close (.parens token.span :: frames) rest
    else
      match ofToken source token with
      | .ok tree => readOperator source close frames tree rest
      | .error e => (.error e, token :: rest)

/-- Reads on behind the operand `tree`. -/
def readOperator (source : List Char) (close : Token) (frames : List Frame) (tree : Tree) :
    List Token → Except SyntaxError Tree × List Token
  | [] => (finish source frames tree close, [])
  | token :: rest =>
    match token.kind.binary? with
    | some (production, level) =>
      let (outer, left) := settle source level frames tree
      readOperand source close (.binary production level left token :: outer) rest
    | none =>
      if token.kind = .rightParen then
        match settle source 0 frames tree with
        | (.parens opening :: outer, inner) =>
          readOperator source close outer (.parens (markOf source (opening.through token.span)) inner) rest
        | _ => (finish source frames tree token, token :: rest)
      else (finish source frames tree token, token :: rest)

end

/-- Reads the longest expression at the head of a list of tokens. What is left of the list begins
with the token that ended the expression or was at fault. -/
def read (source : List Char) (close : Token) (tokens : List Token) :
    Except SyntaxError Tree × List Token :=
  readOperand source close [] tokens

/-- Reads an expression that has to take all tokens. -/
def readWhole (source : List Char) (tokens : Tokens) : Except SyntaxError Tree × Tokens :=
  match read source tokens.last tokens.items with
  | (.error e, rest) => (.error e, { tokens with items := rest })
  | (.ok tree, []) => (.ok tree, { tokens with items := [] })
  | (.ok _, token :: rest) =>
    (.error ⟨.wrongToken tokens.last.kind token.kind, token.span⟩,
      { tokens with items := token :: rest })

def parse (source : String) : Except SyntaxError Tree := do
  let tokens ← Tokens.ofString source
  (readWhole source.toList tokens).1

end Tree

end Vtl
