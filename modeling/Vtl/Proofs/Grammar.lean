import Mathlib.Data.List.Forall2
import Mathlib.Tactic.FieldSimp
import Vtl.Proofs.Rounding
import Vtl.Tree.Read

namespace Vtl

/-- What one token stands for in an expression. -/
inductive Terminal where
  | leftParen
  | rightParen
  | operator (kind : Token.Kind)
  | name (text : String)
  | literal (value : Literal)
deriving DecidableEq

/-- The operators between two operands, by how tightly they bind. -/
def operatorsAt : Nat → List Token.Kind
  | 1 => [.or, .xor]
  | 2 => [.and]
  | 3 => [.equal, .notEqual, .less, .lessEqual, .greater, .greaterEqual]
  | 4 => [.plus, .minus, .concat]
  | 5 => [.times, .over]
  | _ => []

def productionAt : Nat → Production
  | 3 => .comparison
  | 4 => .sum
  | 5 => .product
  | _ => .boolean

def unaryOperators : List Token.Kind := [.plus, .minus, .not]

/-- The value that a number constant writes: the digits up to its point, and the ones behind it as a
fraction. -/
def decimalValue (text : List Char) : ℚ :=
  let whole := text.takeWhile Char.isDigit
  let fraction := (text.dropWhile Char.isDigit).tail
  digitsValue whole + digitsValue fraction / 10 ^ fraction.length

/-- The terminal of a token. An integer constant has one only if its value has 64 bits, a number
constant has the nearest number to its value, and the tokens that belong to statements have none. -/
inductive Token.Spells : Token → Terminal → Prop
  | leftParen {token : Token} (kind : token.kind = .leftParen) : Spells token .leftParen
  | rightParen {token : Token} (kind : token.kind = .rightParen) : Spells token .rightParen
  | binary {token : Token} {level : Nat} (kind : token.kind ∈ operatorsAt level) :
      Spells token (.operator token.kind)
  | unary {token : Token} (kind : token.kind ∈ unaryOperators) : Spells token (.operator token.kind)
  | name {token : Token} (kind : token.kind = .identifier) : Spells token (.name token.text)
  | integer {token : Token} {i : Int64} (kind : token.kind = .integerConstant)
      (value : i.toInt = digitsValue token.text.toList) : Spells token (.literal (.integer i))
  | number {token : Token} {x : Number} (kind : token.kind = .numberConstant)
      (nearest : x.IsNearest false (decimalValue token.text.toList)) : Spells token (.literal (.number x))
  | string {token : Token} (kind : token.kind = .stringConstant) :
      Spells token (.literal (.string token.text))
  | truth {token : Token} (kind : token.kind = .trueConstant) : Spells token (.literal (.boolean true))
  | falsehood {token : Token} (kind : token.kind = .falseConstant) :
      Spells token (.literal (.boolean false))
  | null {token : Token} (kind : token.kind = .nullConstant) : Spells token (.literal .null)

/-- An expression as it was written, without the texts and places of its parts. -/
inductive Shape where
  | parens (inner : Shape)
  | unary (op : Token.Kind) (operand : Shape)
  | binary (production : Production) (left : Shape) (op : Token.Kind) (right : Shape)
  | variable (name : String)
  | constant (value : Literal)
deriving DecidableEq

def Tree.shape : Tree → Shape
  | .parens _ inner => .parens inner.shape
  | .unary _ op operand => .unary op.kind operand.shape
  | .binary _ production left op right => .binary production left.shape op.kind right.shape
  | .variable _ name => .variable name
  | .constant _ value => .constant value

namespace Shape

/-- The leaves, operators and parentheses from left to right. -/
def yield : Shape → List Terminal
  | .parens inner => .leftParen :: inner.yield ++ [.rightParen]
  | .unary op operand => .operator op :: operand.yield
  | .binary _ left op right => left.yield ++ .operator op :: right.yield
  | .variable name => [.name name]
  | .constant value => [.literal value]

/-- The well-formed shapes by level. What stands to the left of an operator binds at least as tightly
as it does, and what stands to the right more tightly, so equal operators associate to the left. -/
inductive HasLevel : Shape → Nat → Prop
  | parens {inner : Shape} {level : Nat} (innerLevel : inner.HasLevel level) : HasLevel (.parens inner) 7
  | variable {name : String} : HasLevel (.variable name) 7
  | constant {value : Literal} : HasLevel (.constant value) 7
  | unary {op : Token.Kind} {operand : Shape} {level : Nat} (kind : op ∈ unaryOperators)
      (operandLevel : operand.HasLevel level) (tight : 6 ≤ level) : HasLevel (.unary op operand) 6
  | binary {level leftLevel rightLevel : Nat} {left right : Shape} {op : Token.Kind}
      (kind : op ∈ operatorsAt level) (ofLeft : left.HasLevel leftLevel) (leftTight : level ≤ leftLevel)
      (ofRight : right.HasLevel rightLevel) (rightTight : level + 1 ≤ rightLevel) :
      HasLevel (.binary (productionAt level) left op right) level

/-- Operands joined from left to right by operators of one level. -/
def chain (level : Nat) (first : Shape) (others : List (Token.Kind × Shape)) : Shape :=
  others.foldl (fun left (op, right) => .binary (productionAt level) left op right) first

/-- The tree of a shape with nothing but its operators and leaves: no parentheses, texts or places. -/
def core : Shape → Tree
  | .parens inner => inner.core
  | .unary op operand => .unary ⟨"", ⟨0, 0, 0, 0⟩⟩ ⟨op, "", ⟨0, 0, 0, 0⟩⟩ operand.core
  | .binary production left op right =>
    .binary ⟨"", ⟨0, 0, 0, 0⟩⟩ production left.core ⟨op, "", ⟨0, 0, 0, 0⟩⟩ right.core
  | .variable name => .variable ⟨"", ⟨0, 0, 0, 0⟩⟩ name
  | .constant value => .constant ⟨"", ⟨0, 0, 0, 0⟩⟩ value

/-- A well-formed shape that is written with the tokens. -/
def Derives (shape : Shape) (tokens : List Token) : Prop :=
  List.Forall₂ Token.Spells tokens shape.yield ∧ ∃ level, shape.HasLevel level

end Shape

theorem level_bounds {kind : Token.Kind} {level : Nat} (member : kind ∈ operatorsAt level) :
    1 ≤ level ∧ level ≤ 5 := by
  unfold operatorsAt at member
  split at member
  case h_6 => cases member
  all_goals omega

theorem binary?_eq_some_iff {kind : Token.Kind} {production : Production} {level : Nat} :
    kind.binary? = some (production, level) ↔ kind ∈ operatorsAt level ∧ production = productionAt level := by
  constructor
  · intro found
    cases kind <;> cases found <;> decide
  · rintro ⟨member, rfl⟩
    unfold operatorsAt at member
    split at member <;> simp only [List.mem_cons, List.not_mem_nil, or_false] at member
    · rcases member with rfl | rfl <;> rfl
    · rw [member]; rfl
    · rcases member with rfl | rfl | rfl | rfl | rfl | rfl <;> rfl
    · rcases member with rfl | rfl | rfl <;> rfl
    · rcases member with rfl | rfl <;> rfl

theorem isUnary_iff {kind : Token.Kind} : kind.isUnary = true ↔ kind ∈ unaryOperators := by
  simp [Token.Kind.isUnary, unaryOperators, or_assoc]

namespace Shape

theorem yield_chain {level : Nat} {first : Shape} {others : List (Token.Kind × Shape)} :
    (chain level first others).yield =
      first.yield ++ others.flatMap fun (op, operand) => .operator op :: operand.yield := by
  induction others generalizing first with
  | nil => simp [chain]
  | cons next others ih =>
    rw [List.flatMap_cons, ← List.append_assoc]
    exact ih

theorem chain_wellFormed {level : Nat} {first : Shape} {others : List (Token.Kind × Shape)}
    (ofFirst : ∃ own, first.HasLevel own ∧ level ≤ own)
    (ofOthers : ∀ op operand, (op, operand) ∈ others →
      op ∈ operatorsAt level ∧ ∃ own, operand.HasLevel own ∧ level + 1 ≤ own) :
    ∃ own, (chain level first others).HasLevel own ∧ level ≤ own := by
  induction others generalizing first with
  | nil => exact ofFirst
  | cons next others ih =>
    obtain ⟨own, firstLevel, leftTight⟩ := ofFirst
    obtain ⟨kind, rightLevel, operandLevel, rightTight⟩ := ofOthers next.1 next.2 List.mem_cons_self
    refine ih ⟨level, .binary kind firstLevel leftTight operandLevel rightTight, Nat.le_refl level⟩ ?_
    intro op operand member
    exact ofOthers op operand (List.mem_cons_of_mem next member)

end Shape

namespace Token.Spells

variable {token : Token}

theorem kind_leftParen (spelled : token.Spells .leftParen) : token.kind = .leftParen := by
  cases spelled with
  | leftParen kind => exact kind

theorem kind_rightParen (spelled : token.Spells .rightParen) : token.kind = .rightParen := by
  cases spelled with
  | rightParen kind => exact kind

theorem kind_operator {kind : Token.Kind} (spelled : token.Spells (.operator kind)) :
    token.kind = kind := by
  cases spelled with
  | binary => rfl
  | unary => rfl

theorem split_append {tokens : List Token} {first second : List Terminal}
    (spelled : List.Forall₂ Spells tokens (first ++ second)) :
    ∃ before behind, List.Forall₂ Spells before first ∧ List.Forall₂ Spells behind second ∧
      tokens = before ++ behind :=
  ⟨_, _, List.forall₂_take_append tokens first second spelled,
    List.forall₂_drop_append tokens first second spelled, (List.take_append_drop _ _).symm⟩

end Token.Spells

theorem digitsValue_append (first second : List Char) :
    digitsValue (first ++ second) = 10 ^ second.length * digitsValue first + digitsValue second :=
  (@Nat.ofDigitChars_append 10 first second 0).trans Nat.ofDigitChars_eq_ofDigitChars_zero

theorem Numeral.value_ofConstant (text : List Char) : (ofConstant text).value = decimalValue text := by
  have behind : text.drop ((text.takeWhile Char.isDigit).length + 1) = (text.dropWhile Char.isDigit).tail := by
    have split := @List.takeWhile_append_dropWhile _ Char.isDigit text
    rw [← List.tail_drop]
    nth_rewrite 2 [← split]
    rw [List.drop_left]
  have power (n : ℕ) : (10 : ℚ) ^ ((0 : ℤ) - n) = (10 ^ n)⁻¹ := by
    rw [zero_sub, zpow_neg, zpow_natCast]
  rw [value, ofConstant, decimalValue]
  dsimp only
  rw [behind, digitsValue_append, Option.getD_none, power]
  push_cast
  field_simp

/-- The number that a constant is read as is the one nearest to its value. -/
theorem Numeral.isNearest_decimalValue_iff {text : List Char} {x : Number} :
    x.IsNearest false (decimalValue text) ↔ x = (ofConstant text).nearest := by
  rw [← value_ofConstant]
  exact @isNearest_iff (ofConstant text) x

namespace Tree

variable {source : List Char} {token : Token}

theorem ofToken_name {name : String} (spelled : token.Spells (.name name)) :
    ∃ tree, ofToken source token = .ok tree ∧ tree.shape = .variable name := by
  cases spelled with
  | name kind => exact ⟨.variable (markOf source token.span) token.text, by simp [ofToken, kind], rfl⟩

theorem ofToken_literal {value : Literal} (spelled : token.Spells (.literal value)) :
    ∃ tree, ofToken source token = .ok tree ∧ tree.shape = .constant value := by
  refine ⟨.constant (markOf source token.span) value, ?_, rfl⟩
  cases spelled with
  | @integer i kind value =>
    have bound : digitsValue token.text.toList < integerLimit := by
      have upper := i.toInt_lt
      simp only [integerLimit]
      omega
    have same : Int64.ofNat (digitsValue token.text.toList) = i := by
      rw [← Int64.ofInt_eq_ofNat, ← value, Int64.ofInt_toInt]
    simp [ofToken, kind, bound, same]
  | number kind nearest => simp [ofToken, kind, Numeral.isNearest_decimalValue_iff.mp nearest]
  | string kind => simp [ofToken, kind]
  | truth kind => simp [ofToken, kind]
  | falsehood kind => simp [ofToken, kind]
  | null kind => simp [ofToken, kind]

theorem ofToken_spells {tree : Tree} (made : ofToken source token = .ok tree) :
    (∃ terminal, token.Spells terminal ∧ tree.shape.yield = [terminal]) ∧ tree.shape.HasLevel 7 := by
  unfold ofToken at made
  split at made
  case h_1 kind =>
    dsimp only at made
    split at made
    case isTrue bound =>
      cases made
      exact ⟨⟨_, .integer kind (Int64.toInt_ofNat_of_lt bound), rfl⟩, .constant⟩
    case isFalse => cases made
  case h_2 kind =>
    cases made
    exact ⟨⟨_, .number kind (Numeral.isNearest_decimalValue_iff.mpr rfl), rfl⟩, .constant⟩
  case h_3 kind => cases made; exact ⟨⟨_, .string kind, rfl⟩, .constant⟩
  case h_4 kind => cases made; exact ⟨⟨_, .truth kind, rfl⟩, .constant⟩
  case h_5 kind => cases made; exact ⟨⟨_, .falsehood kind, rfl⟩, .constant⟩
  case h_6 kind => cases made; exact ⟨⟨_, .null kind, rfl⟩, .constant⟩
  case h_7 kind => cases made; exact ⟨⟨_, .name kind, rfl⟩, .variable⟩
  case h_8 => cases made

end Tree

end Vtl
