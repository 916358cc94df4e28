import Vtl.Proofs.Digits
import Vtl.Proofs.Parsing
import Vtl.Proofs.TokenSeam
import Vtl.Proofs.TypingRules
import Vtl.Value.Text

namespace Vtl

namespace Lexeme

variable {c : Char} {cs : List Char}

theorem isNameStart_of_isDigit (digit : c.isDigit = true) : isNameStart c = false := by
  have notLetter : CharClass.alphabetic.contains c = false :=
    CharClass.contains_eq_false (by decide +kernel) (CharClass.digit_contains_iff.mpr digit)
  have plain : c ≠ '_' := by
    rintro rfl
    cases digit
  simp [isNameStart, notLetter, plain]

/-- No symbol begins with a digit. -/
theorem find?_symbols_of_isDigit (digit : c.isDigit = true) :
    (symbols.find? fun symbol => symbol.1.isPrefixOf (c :: cs)) = none := by
  have heads : ∀ symbol ∈ symbols, symbol.1.head?.any (fun first => !first.isDigit) = true := by decide
  refine List.find?_eq_none.mpr fun symbol known starts => ?_
  have other := heads symbol known
  obtain ⟨_ | ⟨first, others⟩, kind⟩ := symbol
  · cases other
  · have same : first = c := (List.cons_prefix_cons.mp (List.isPrefixOf_iff_prefix.mp starts)).1
    simp [same, digit] at other

/-- Digits up to the end of the text are an integer constant. -/
theorem read_digits (digits : ∀ d ∈ c :: cs, d.isDigit = true) :
    Lexeme.read c cs = .ok ⟨.integerConstant, c :: cs, (c :: cs).length⟩ := by
  have digit := digits c List.mem_cons_self
  have other (d : Char) (noDigit : d.isDigit = false) : c ≠ d := by
    rintro rfl
    rw [digit] at noDigit
    cases noDigit
  have whole : (c :: cs).takeWhile Char.isDigit = c :: cs := List.takeWhile_eq_self_iff.mpr digits
  have numeral : numeral (c :: cs) = ⟨.integerConstant, c :: cs, (c :: cs).length⟩ := by
    rw [numeral_eq, whole]
    dsimp only
    rw [List.drop_length]
    rfl
  rw [Lexeme.read, find?_symbols_of_isDigit digit]
  dsimp only
  rw [readOther, if_neg (other _ rfl), if_neg (other _ rfl), if_neg (other _ rfl), if_neg (other _ rfl),
    if_neg (by simp [isNameStart_of_isDigit digit]), if_pos digit, numeral]

end Lexeme

namespace Tokens

/-- The digits of a number are one token. -/
theorem readFrom_toDigits (n : Nat) (place : Position) :
    ∃ token last, readFrom ⟨Nat.toDigits 10 n, place⟩ = .ok ⟨[token], last⟩ ∧
      token.kind = .integerConstant ∧ digitsValue token.text.toList = n := by
  obtain ⟨c, cs, split⟩ := List.exists_cons_of_ne_nil (@Nat.toDigits_ne_nil n 10)
  have digits : ∀ d ∈ c :: cs, d.isDigit = true := by
    rw [← split]
    exact fun d => isDigit_of_mem_toDigits
  have digit := digits c List.mem_cons_self
  have plain : c ≠ '/' := by
    rintro rfl
    cases digit
  have next := @Cursor.next_of_read c cs (c :: cs) (c :: cs) [] .integerConstant (List.append_nil _).symm
    (CharClass.visible_of_isDigit digit) plain (Lexeme.read_digits digits) place
  have ends := (@readFrom_nil ⟨[], place.after (c :: cs)⟩ _).mpr ⟨_, rfl, rfl⟩
  rw [List.append_nil] at next
  rw [split]
  refine ⟨_, _, readFrom_cons.mpr ⟨_, next, by simp, ends⟩, rfl, ?_⟩
  rw [String.toList_ofList, ← split, digitsValue_toDigits]

theorem readFrom_minus_toDigits (n : Nat) (place : Position) :
    ∃ minus token last, readFrom ⟨'-' :: Nat.toDigits 10 n, place⟩ = .ok ⟨[minus, token], last⟩ ∧
      minus.kind = .minus ∧ token.kind = .integerConstant ∧ digitsValue token.text.toList = n := by
  obtain ⟨minus, isMinus, _, next⟩ :=
    @Cursor.next_single (Nat.toDigits 10 n) '-' .minus (by decide) (by decide) rfl place
  obtain ⟨token, last, read, kind, value⟩ := readFrom_toDigits n (place.step '-')
  exact ⟨minus, token, last, readFrom_cons.mpr ⟨_, next, by simp [isMinus], read⟩, isMinus, kind, value⟩

end Tokens

/-- Only the least integer has no opposite. -/
theorem toInt_neg_of_ne_minValue {i : Int64} (notLeast : i ≠ Int64.minValue) : (-i).toInt = -i.toInt := by
  have lower := i.le_toInt
  have upper := i.toInt_lt
  have above : i.toInt ≠ -2 ^ 63 := by
    rw [← Int64.toInt_minValue]
    exact fun same => notLeast (Int64.toInt_inj.mp same)
  rw [Int64.toInt_neg]
  apply Int.bmod_eq_of_le <;> omega

/-- The expression that is written for an integer: a constant, or the opposite of one. -/
def Shape.ofInteger (i : Int64) : Shape :=
  if 0 ≤ i.toInt then .constant (.integer i) else .unary .minus (.constant (.integer (-i)))

namespace Tree

variable {i : Int64} {tree : Tree}

theorem parse_integerText (notLeast : i ≠ Int64.minValue) :
    ∃ tree, parse (Value.integer i).text = .ok tree ∧ tree.shape = .ofInteger i := by
  have text : (Value.integer i).text = toString i.toInt := rfl
  have chars := toList_toString i.toInt
  by_cases nonneg : 0 ≤ i.toInt
  · obtain ⟨token, last, read, kind, value⟩ := Tokens.readFrom_toDigits i.toInt.natAbs .start
    have spells : token.Spells (.literal (.integer i)) := .integer kind (by omega)
    have derives : (Shape.constant (.integer i)).Derives [token] := ⟨.cons spells .nil, 7, .constant⟩
    rw [if_pos nonneg] at chars
    rw [← chars] at read
    rw [Shape.ofInteger, if_pos nonneg, text]
    exact exists_parse read derives
  · obtain ⟨minus, token, last, read, isMinus, kind, value⟩ :=
      Tokens.readFrom_minus_toDigits i.toInt.natAbs .start
    -- The digits are those of the opposite, which the least integer does not have.
    have opposite := toInt_neg_of_ne_minValue notLeast
    have spells : token.Spells (.literal (.integer (-i))) := .integer kind (by omega)
    have known : minus.kind ∈ unaryOperators := by simp [isMinus, unaryOperators]
    have spellsMinus : minus.Spells (.operator .minus) := isMinus ▸ .unary known
    have derives : (Shape.unary .minus (.constant (.integer (-i)))).Derives [minus, token] :=
      ⟨.cons spellsMinus (.cons spells .nil), 6, .unary (by decide) .constant (by decide)⟩
    rw [if_neg nonneg] at chars
    rw [← chars] at read
    rw [Shape.ofInteger, if_neg nonneg, text]
    exact exists_parse read derives

/-- A constant and the opposite of a constant are integers wherever they stand. -/
theorem compile_ofInteger (ofShape : tree.shape = .ofInteger i) (scope : Scope) :
    ∃ e, tree.compile scope = .ok e ∧ e.valueType = .integer ∧
      ∀ bindings, e.resolve bindings = .ok (.integer i) := by
  let mark : Mark := ⟨"", ⟨0, 0, 0, 0⟩⟩
  by_cases nonneg : 0 ≤ i.toInt
  · have same : (constant mark (.integer i)).shape = tree.shape := by
      rw [ofShape, Shape.ofInteger, if_pos nonneg]
      rfl
    exact ⟨_, compile_of_shape_eq same rfl, rfl, fun _ => rfl⟩
  · have same : (unary mark ⟨.minus, "-", mark.span⟩ (constant mark (.integer (-i)))).shape = tree.shape := by
      rw [ofShape, Shape.ofInteger, if_neg nonneg]
      rfl
    refine ⟨_, compile_of_shape_eq same rfl, rfl, fun bindings => ?_⟩
    have negated : UnaryOp.minus.apply (.integer (-i)) = .ok (.integer i) := by
      rw [UnaryOp.apply, Int64.neg_neg]
    exact negated

end Tree

/-- Every integer but the least one can be written back: its text is an expression of type integer whose
value it is, whatever is declared and bound. -/
theorem integer_text_reads_back {i : Int64} (notLeast : i ≠ Int64.minValue) :
    ∃ tree, Tree.parse (Value.integer i).text = .ok tree ∧
      ∀ scope : Scope, ∃ e, tree.compile scope = .ok e ∧ e.valueType = .integer ∧
        ∀ bindings, e.resolve bindings = .ok (.integer i) := by
  obtain ⟨tree, parsed, ofShape⟩ := Tree.parse_integerText notLeast
  exact ⟨tree, parsed, Tree.compile_ofInteger ofShape⟩

/-- The least integer that can be written back. -/
theorem integer_text_reads_back_nextToLeast :
    (Value.integer (-9223372036854775807)).text = "-9223372036854775807" ∧
      ∃ tree, Tree.parse "-9223372036854775807" = .ok tree ∧
        ∀ scope : Scope, ∃ e, tree.compile scope = .ok e ∧ e.valueType = .integer ∧
          ∀ bindings, e.resolve bindings = .ok (.integer (-9223372036854775807)) := by
  have text : (Value.integer (-9223372036854775807)).text = "-9223372036854775807" := by decide +kernel
  have back := @integer_text_reads_back (-9223372036854775807) (by decide)
  rw [text] at back
  exact ⟨text, back⟩

/-- The digits of the least integer are a constant out of range, since the minus in front of them is an
operator. -/
theorem least_integer_text_refused :
    (Value.integer Int64.minValue).text = "-9223372036854775808" ∧
      Tree.parse "-9223372036854775808" =
        .error ⟨.integerOutOfRange "9223372036854775808", ⟨1, 20, 1, 2⟩⟩ ∧
      ¬∀ i : Int64, ∃ tree, Tree.parse (Value.integer i).text = .ok tree := by
  have text : (Value.integer Int64.minValue).text = "-9223372036854775808" := by decide +kernel
  have refused : Tree.parse "-9223372036854775808" =
      .error ⟨.integerOutOfRange "9223372036854775808", ⟨1, 20, 1, 2⟩⟩ := by
    decide +kernel
  refine ⟨text, refused, fun all => ?_⟩
  obtain ⟨tree, parsed⟩ := all Int64.minValue
  rw [text, refused] at parsed
  cases parsed

end Vtl
