import Vtl.Expr.Compile
import Vtl.Proofs.Except

namespace Vtl

section MapError

variable {ε ε' δ α β : Type} {g : ε → δ} {h : ε' → δ}

theorem bind_mapError_congr {result : Except ε α} {other : Except ε' α} {next : α → Except ε β}
    {later : α → Except ε' β} (same : result.mapError g = other.mapError h)
    (onward : ∀ value, (next value).mapError g = (later value).mapError h) :
    (result >>= next).mapError g = (other >>= later).mapError h := by
  cases result with
  | error e =>
    obtain ⟨_, rfl, named⟩ := mapError_eq_error.mp same.symm
    exact congrArg Except.error named.symm
  | ok value =>
    obtain rfl := mapError_eq_ok.mp same.symm
    exact onward value

theorem mapM_mapError_congr {f : α → Except ε β} {again : α → Except ε' β}
    (same : ∀ x, (f x).mapError g = (again x).mapError h) (xs : List α) :
    (xs.mapM f).mapError g = (xs.mapM again).mapError h := by
  induction xs with
  | nil => rfl
  | cons x xs ih =>
    rw [List.mapM_cons, List.mapM_cons]
    exact bind_mapError_congr (same x) fun y => bind_mapError_congr ih fun ys => rfl

end MapError

variable {δ : Type} {g h : CompileError → δ}

/-- Two marks whose faults read alike, the one through `g` and the other through `h`. -/
structure Mark.Matches (g h : CompileError → δ) (mark other : Mark) : Prop where
  type : ∀ expected actual, g (.typeMismatch mark expected actual) = h (.typeMismatch other expected actual)
  keys : ∀ op, g (.noCommonIdentifiers op mark.span) = h (.noCommonIdentifiers op other.span)
  name : ∀ name, g (.unknownVariable name mark.span) = h (.unknownVariable name other.span)
  schema : g (.internal (.noSchema mark.text)) = h (.internal (.noSchema other.text))

/-- Two operator tokens of one kind whose faults read alike. -/
structure Token.Matches (g h : CompileError → δ) (op other : Token) : Prop where
  kind : other.kind = op.kind
  types : ∀ left right,
    g (.operatorType op.text left right op.span) = h (.operatorType other.text left right other.span)
  measure : ∀ text left right,
    g (.operatorType text left right op.span) = h (.operatorType text left right other.span)
  binary : ∀ family, g (.internal (.operator family op.text)) = h (.internal (.operator family other.text))
  unary : ∀ family,
    g (.internal (.unaryOperator family op.text)) = h (.internal (.unaryOperator family other.text))

/-- Two trees that are the same but for parentheses, texts and places, and whose faults read alike. -/
inductive Tree.Matches (g h : CompileError → δ) : Tree → Tree → Prop
  | leftParens {mark : Mark} {inner other : Tree} (ofInner : Matches g h inner other) :
      Matches g h (.parens mark inner) other
  | rightParens {mark : Mark} {tree inner : Tree} (ofInner : Matches g h tree inner) :
      Matches g h tree (.parens mark inner)
  | unary {mark otherMark : Mark} {op otherOp : Token} {operand other : Tree}
      (operator : op.Matches g h otherOp) (ofOperand : Matches g h operand other)
      (operandMark : operand.mark.Matches g h other.mark) :
      Matches g h (.unary mark op operand) (.unary otherMark otherOp other)
  | binary {mark otherMark : Mark} {production : Production} {op otherOp : Token}
      {left right otherLeft otherRight : Tree} (own : mark.Matches g h otherMark)
      (operator : op.Matches g h otherOp) (ofLeft : Matches g h left otherLeft)
      (leftMark : left.mark.Matches g h otherLeft.mark) (ofRight : Matches g h right otherRight)
      (rightMark : right.mark.Matches g h otherRight.mark) :
      Matches g h (.binary mark production left op right)
        (.binary otherMark production otherLeft otherOp otherRight)
  | variable {mark otherMark : Mark} {name : String} (own : mark.Matches g h otherMark) :
      Matches g h (.variable mark name) (.variable otherMark name)
  | constant {mark otherMark : Mark} {value : Literal} :
      Matches g h (.constant mark value) (.constant otherMark value)

namespace Expr

variable {policy : KeyPolicy} {left right operand : Expr} {mark otherMark : Mark} {opToken otherOp : Token}
  {node other leftNode otherLeft rightNode otherRight : Tree}

theorem checkOperand_matches (nodeMark : node.mark.Matches g h other.mark) (accepted : List ValueType) :
    (checkOperand node operand accepted).mapError g = (checkOperand other operand accepted).mapError h := by
  unfold checkOperand
  split
  · rfl
  · exact congrArg Except.error (nodeMark.type accepted operand.valueType)

theorem joinMeasure_matches (operator : opToken.Matches g h otherOp) (op : ArithmeticOp) (measure : Column) :
    (joinMeasure op opToken measure).mapError g = (joinMeasure op otherOp measure).mapError h := by
  unfold joinMeasure
  split
  · rfl
  · exact congrArg Except.error (operator.measure _ _ _)

theorem joinDatasets_matches (own : mark.Matches g h otherMark) (operator : opToken.Matches g h otherOp)
    (op : ArithmeticOp) :
    (joinDatasets policy mark op opToken left right).mapError g =
      (joinDatasets policy otherMark op otherOp left right).mapError h := by
  unfold joinDatasets
  split
  · dsimp only
    split
    · exact bind_mapError_congr (mapM_mapError_congr (joinMeasure_matches operator op) _) fun _ => rfl
    · exact congrArg Except.error (own.keys op)
  · exact congrArg Except.error own.schema

theorem arithmeticOf_matches (own : mark.Matches g h otherMark) (operator : opToken.Matches g h otherOp)
    (leftMark : leftNode.mark.Matches g h otherLeft.mark) (rightMark : rightNode.mark.Matches g h otherRight.mark)
    (op : ArithmeticOp) :
    (arithmeticOf policy mark op opToken leftNode rightNode left right).mapError g =
      (arithmeticOf policy otherMark op otherOp otherLeft otherRight left right).mapError h := by
  unfold arithmeticOf
  split
  · exact joinDatasets_matches own operator op
  · rfl
  · rfl
  · exact congrArg Except.error (rightMark.type _ _)
  · exact congrArg Except.error (leftMark.type _ _)
  · rfl

theorem ofOperands_matches (own : mark.Matches g h otherMark) (operator : opToken.Matches g h otherOp)
    (leftMark : leftNode.mark.Matches g h otherLeft.mark) (rightMark : rightNode.mark.Matches g h otherRight.mark)
    (op : BinaryOp) :
    (ofOperands policy mark op opToken leftNode rightNode left right).mapError g =
      (ofOperands policy otherMark op otherOp otherLeft otherRight left right).mapError h := by
  refine bind_mapError_congr (checkOperand_matches leftMark _) fun _ => ?_
  refine bind_mapError_congr (checkOperand_matches rightMark _) fun _ => ?_
  cases op with
  | arithmetic op => exact arithmeticOf_matches own operator leftMark rightMark op
  | concat | boolean => rfl
  | comparison op =>
    dsimp only
    split
    · rfl
    · exact congrArg Except.error (operator.types _ _)

end Expr

/-- Trees that match compile to the same expression, or fail with faults that read alike. -/
theorem Tree.Matches.compile {tree other : Tree} (alike : tree.Matches g h other) (scope : Scope) :
    (tree.compile scope).mapError g = (other.compile scope).mapError h := by
  induction alike with
  | leftParens _ ih | rightParens _ ih => exact ih
  | unary operator _ operandMark ih =>
    rw [Tree.compile, Tree.compile, Expr.ofUnary, Expr.ofUnary, operator.kind]
    split
    · exact congrArg Except.error (operator.unary _)
    · refine bind_mapError_congr ih fun _ => ?_
      exact bind_mapError_congr (Expr.checkOperand_matches operandMark _) fun _ => rfl
  | binary own operator _ leftMark _ rightMark ihLeft ihRight =>
    rw [Tree.compile, Tree.compile, Expr.ofBinary, Expr.ofBinary, operator.kind]
    split
    · exact congrArg Except.error (operator.binary _)
    · refine bind_mapError_congr ihLeft fun _ => bind_mapError_congr ihRight fun _ => ?_
      exact Expr.ofOperands_matches own operator leftMark rightMark _
  | «variable» own =>
    rw [Tree.compile, Tree.compile, Expr.ofVariable, Expr.ofVariable]
    split
    · exact congrArg Except.error (own.name _)
    · rfl
  | constant => rfl

end Vtl
