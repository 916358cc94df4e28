import Mathlib.Data.Int.ModEq
import Vtl.Proofs.TypingRules

namespace Vtl

/-- What an operator does to integers without bounds. -/
def ArithmeticOp.exact? : ArithmeticOp → Option (Int → Int → Int)
  | .add => some (· + ·)
  | .sub => some (· - ·)
  | .mul => some (· * ·)
  | .div => none

def UnaryOp.exact? : UnaryOp → Option (Int → Int)
  | .plus => some id
  | .minus => some (-·)
  | .not => none

/-- An expression over integers and dates, and the integer that it comes to if there are no bounds. A date
is the number of its day. -/
inductive Tree.Exact (declarations : Declarations) (bindings : Bindings) : Tree → Int → Prop
  | literal {mark : Mark} {i : Int64} : Exact declarations bindings (.constant mark (.integer i)) i.toInt
  | integer {mark : Mark} {name : String} {i : Int64}
      (declared : declarations.value? name = some (.scalar .integer))
      (bound : bindings.value? name = some (.integer i)) :
      Exact declarations bindings (.variable mark name) i.toInt
  | date {mark : Mark} {name : String} {d : Date} (declared : declarations.value? name = some (.scalar .date))
      (bound : bindings.value? name = some (.date d)) :
      Exact declarations bindings (.variable mark name) d.dayNumber
  | parens {mark : Mark} {inner : Tree} {n : Int} (inside : Exact declarations bindings inner n) :
      Exact declarations bindings (.parens mark inner) n
  | unary {mark : Mark} {token : Token} {operand : Tree} {op : UnaryOp} {sign : Int → Int} {n : Int}
      (known : UnaryOp.ofKind? token.kind = some op) (whole : op.exact? = some sign)
      (inside : Exact declarations bindings operand n) :
      Exact declarations bindings (.unary mark token operand) (sign n)
  | binary {mark : Mark} {production : Production} {left right : Tree} {token : Token} {op : ArithmeticOp}
      {operation : Int → Int → Int} {m n : Int}
      (known : ArithmeticOp.ofKind? token.kind = some op) (whole : op.exact? = some operation)
      (ofLeft : Exact declarations bindings left m) (ofRight : Exact declarations bindings right n) :
      Exact declarations bindings (.binary mark production left token right) (operation m n)

/-- The value goes into arithmetic as the given integer, reduced to 64 bits. -/
def Value.CountsAs (value : Value) (n : Int) : Prop := value.dayCount = .integer (.ofInt n)

theorem Value.countsAs_integer (i : Int64) : (Value.integer i).CountsAs i.toInt := by
  rw [CountsAs, Int64.ofInt_toInt]
  rfl

namespace Value.CountsAs

variable {value left right : Value} {m n : Int}

theorem type_eq (counts : value.CountsAs n) : value.type = .integer ∨ value.type = .date := by
  cases value with
  | integer => exact Or.inl rfl
  | date => exact Or.inr rfl
  | null | number | string | boolean | duration | dataset => cases counts

theorem eq_integer (counts : value.CountsAs n) (integer : value.type = .integer) :
    value = .integer (.ofInt n) := by
  cases value with
  | integer => exact counts
  | null | number | string | boolean | date | duration | dataset => cases integer

theorem isNull (counts : value.CountsAs n) : value.isNull = false := by
  cases value with
  | null => cases counts
  | integer | number | string | boolean | date | duration | dataset => rfl

/-- Reducing the operands of an operator to 64 bits before it is applied changes nothing. -/
theorem arithmetic {op : ArithmeticOp} {operation : Int → Int → Int} (whole : op.exact? = some operation)
    (leftCounts : left.CountsAs m) (rightCounts : right.CountsAs n) :
    op.apply left right = .ok (.integer (.ofInt (operation m n))) := by
  rw [ArithmeticOp.apply, leftCounts.isNull, rightCounts.isNull, leftCounts, rightCounts]
  cases op with
  | add =>
    cases whole
    rw [Int64.ofInt_add]
    rfl
  | sub =>
    cases whole
    rw [Int64.ofInt_sub]
    rfl
  | mul =>
    cases whole
    rw [Int64.ofInt_mul]
    rfl
  | div => cases whole

theorem unary {op : UnaryOp} {sign : Int → Int} (whole : op.exact? = some sign)
    (counts : value.CountsAs n) (integer : value.type = .integer) :
    op.apply value = .ok (.integer (.ofInt (sign n))) := by
  rw [counts.eq_integer integer]
  cases op with
  | plus =>
    cases whole
    rfl
  | minus =>
    cases whole
    rw [Int64.ofInt_neg]
    rfl
  | not => cases whole

end Value.CountsAs

/-- Sums, differences and products of integers and dates are integers. -/
theorem ArithmeticOp.resultType_eq_integer {op : ArithmeticOp} {operation : Int → Int → Int}
    {leftType rightType : ValueType} (whole : op.exact? = some operation)
    (ofLeft : leftType = .integer ∨ leftType = .date) (ofRight : rightType = .integer ∨ rightType = .date) :
    op.resultType [leftType, rightType] = .integer := by
  cases op with
  | div => cases whole
  | add | sub | mul =>
    rcases ofLeft with rfl | rfl <;> rcases ofRight with rfl | rfl <;> rfl

/-- A sign stands only before an integer, never before a date, and keeps it one. -/
theorem UnaryOp.integer_of_accepted {op : UnaryOp} {sign : Int → Int} {type : ValueType}
    (whole : op.exact? = some sign) (known : type = .integer ∨ type = .date) (accepted : type ∈ op.accepted) :
    type = .integer ∧ (if op = .not then .boolean else ValueType.ofOperands [type]) = .integer := by
  rcases known with rfl | rfl
  · cases op with
    | plus | minus => exact ⟨rfl, rfl⟩
    | not => cases whole
  · cases op <;> simp [UnaryOp.accepted] at accepted

namespace Family

theorem unary?_eq {kind : Token.Kind} {op operator : UnaryOp} (known : UnaryOp.ofKind? kind = some op)
    (found : (ofUnary kind).unary? kind = some operator) : operator = op := by
  cases kind <;> cases known <;> cases found <;> rfl

theorem binary?_eq {production : Production} {kind : Token.Kind} {op : ArithmeticOp} {operator : BinaryOp}
    (known : ArithmeticOp.ofKind? kind = some op)
    (found : (ofBinary production kind).binary? kind = some operator) : operator = .arithmetic op := by
  cases kind <;> cases known <;> cases production <;> cases found <;> rfl

end Family

namespace Tree

variable {scope : Scope} {bindings : Bindings} {tree : Tree} {e : Expr} {n : Int}

/-- Each node has a value, which counts as the exact one and is of the type of the node. -/
theorem Exact.resolve (exact : tree.Exact scope.declarations bindings n)
    (compiled : tree.compile scope = .ok e) :
    ∃ value, e.resolve bindings = .ok value ∧ value.CountsAs n ∧ value.type = e.valueType := by
  induction exact generalizing e with
  | @literal mark i =>
    cases compiled
    exact ⟨.integer i, rfl, Value.countsAs_integer i, rfl⟩
  | @integer mark name i declared bound =>
    obtain ⟨type, known, rfl⟩ := compile_variable_eq_ok.mp compiled
    cases declared.symm.trans known
    refine ⟨.integer i, ?_, Value.countsAs_integer i, rfl⟩
    rw [Expr.resolve, Bindings.resolve, bound]
    rfl
  | @date mark name d declared bound =>
    obtain ⟨type, known, rfl⟩ := compile_variable_eq_ok.mp compiled
    cases declared.symm.trans known
    refine ⟨.date d, ?_, rfl, rfl⟩
    rw [Expr.resolve, Bindings.resolve, bound]
    rfl
  | parens _ ih => exact ih compiled
  | unary known whole _ ih =>
    obtain ⟨operator, inner, found, operandCompiled, accepted, rfl⟩ := compile_unary_eq_ok.mp compiled
    obtain rfl := Family.unary?_eq known found
    obtain ⟨value, run, counts, type⟩ := ih operandCompiled
    obtain ⟨integer, result⟩ := UnaryOp.integer_of_accepted whole (type ▸ counts.type_eq) accepted
    refine ⟨_, bind_eq_ok.mpr ⟨value, run, counts.unary whole (type.trans integer)⟩, rfl, ?_⟩
    rw [Expr.valueType, Expr.type, result]
    rfl
  | binary known whole _ _ leftIh rightIh =>
    obtain ⟨operator, l, r, found, leftCompiled, rightCompiled, typed, made, parts⟩ :=
      compile_binary_eq_ok.mp compiled
    obtain rfl := Family.binary?_eq known found
    obtain ⟨left, leftRun, leftCounts, leftType⟩ := leftIh leftCompiled
    obtain ⟨right, rightRun, rightCounts, rightType⟩ := rightIh rightCompiled
    have ofLeft : l.valueType = .integer ∨ l.valueType = .date := leftType ▸ leftCounts.type_eq
    have ofRight : r.valueType = .integer ∨ r.valueType = .date := rightType ▸ rightCounts.type_eq
    cases typed with
    | constant | «variable» | unary | concatenation | comparison | boolean => cases made
    | arithmetic =>
      cases made
      cases parts
      have applied := leftCounts.arithmetic whole rightCounts
      refine ⟨_, bind_eq_ok.mpr ⟨left, leftRun, bind_eq_ok.mpr ⟨right, rightRun, applied⟩⟩, rfl, ?_⟩
      rw [Expr.valueType, Expr.type, ArithmeticOp.resultType_eq_integer whole ofLeft ofRight]
      rfl
    | join _ _ leftSchema =>
      -- Neither an integer nor a date is joined.
      cases parts
      rw [Expr.valueType_of_schema leftSchema] at ofLeft
      simp at ofLeft

end Tree

end Vtl
