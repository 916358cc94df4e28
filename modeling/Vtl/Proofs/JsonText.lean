import Vtl.Json.Read
import Vtl.Json.Write
import Vtl.Proofs.Digits

namespace Vtl

/-- A numeral as documents have it: digits before the point, no zero in front of them, and only digits
behind the point. -/
structure Numeral.Proper (n : Numeral) : Prop where
  filled : n.whole ≠ []
  digits : ∀ c ∈ n.whole, c.isDigit = true
  leading : n.whole.head? = some '0' → n.whole = ['0']
  fractionDigits : ∀ c ∈ n.fraction, c.isDigit = true

namespace Json

namespace Lexeme

variable {c : Char} {cs rest : List Char} {n : Numeral}

theorem hexValue?_digitChar {digit : Nat} (bound : digit < 16) : hexValue? digit.digitChar = some digit := by
  have all : ∀ digit < 16, hexValue? (Nat.digitChar digit) = some digit := by decide
  exact all digit bound

/-- The part of a string that a character becomes. Control characters without a letter of their own are
escaped as units. -/
def pieceOf (c : Char) : Piece :=
  if c ∈ ['\n', '\t', '\r', '\x08', '\x0c'] then .char c
  else if c.toNat < 0x20 then .unit c.toNat
  else .char c

theorem stringBody_letter {letter : Char} (known : unescape? letter = some c) (notUnit : letter ≠ 'u')
    (piece : pieceOf c = .char c) :
    stringBody .plain (['\\', letter] ++ cs) =
      (stringBody .plain cs).map fun (pieces, rest) => (pieceOf c :: pieces, rest) := by
  simp [stringBody, notUnit, known, piece]

theorem stringBody_unit {high low : Nat} (highBound : high < 16) (lowBound : low < 16) :
    stringBody .plain ('\\' :: 'u' :: '0' :: '0' :: high.digitChar :: low.digitChar :: cs) =
      (stringBody .plain cs).map fun (pieces, rest) => (.unit (16 * high + low) :: pieces, rest) := by
  have zero : hexValue? '0' = some 0 := rfl
  simp [stringBody, zero, hexValue?_digitChar highBound, hexValue?_digitChar lowBound]

/-- A character is read back from its escaped form. -/
theorem stringBody_escape (c : Char) (cs : List Char) :
    stringBody .plain (escape c ++ cs) =
      (stringBody .plain cs).map fun (pieces, rest) => (pieceOf c :: pieces, rest) := by
  fun_cases escape c with
  | case1 same | case2 _ same | case3 _ _ same | case4 _ _ _ same | case5 _ _ _ _ same
  | case6 _ _ _ _ _ same | case7 _ _ _ _ _ _ same =>
    subst same
    exact stringBody_letter rfl (by decide) rfl
  | case8 _ _ newline tab returns backspace feed control =>
    have piece : pieceOf c = .unit (16 * (c.toNat / 16) + c.toNat % 16) := by
      rw [Nat.div_add_mod]
      simp [pieceOf, newline, tab, returns, backspace, feed, control]
    rw [piece]
    exact stringBody_unit (by omega) (by omega)
  | case9 quote backslash _ _ _ _ _ visible =>
    have piece : pieceOf c = .char c := by simp [pieceOf, visible]
    simp [stringBody, quote, backslash, visible, piece]

theorem textOf_unit {code : Nat} {pieces : List Piece} (whole : code < 0xD800) :
    textOf (.unit code :: pieces) = (textOf pieces).map (Char.ofNat code :: ·) := by
  have notHigh : isHighHalf code = false := by simp [isHighHalf]; omega
  have notLow : isLowHalf code = false := by simp [isLowHalf]; omega
  rcases pieces with _ | ⟨piece | low, pieces⟩ <;> simp [textOf, notHigh, notLow]

theorem textOf_pieceOf (c : Char) (pieces : List Piece) :
    textOf (pieceOf c :: pieces) = (textOf pieces).map (c :: ·) := by
  unfold pieceOf
  split
  · rfl
  split
  · next control => rw [textOf_unit (by omega), Char.ofNat_toNat]
  · rfl

theorem textOf_map_pieceOf (text : List Char) : textOf (text.map pieceOf) = some text := by
  induction text with
  | nil => rfl
  | cons c text ih => rw [List.map_cons, textOf_pieceOf, ih, Option.map_some]

theorem stringBody_flatMap_escape (text : List Char) :
    stringBody .plain (text.flatMap escape ++ '"' :: rest) = some (text.map pieceOf, rest) := by
  induction text with
  | nil => rfl
  | cons c text ih =>
    rw [List.flatMap_cons, List.append_assoc, stringBody_escape, ih]
    rfl

theorem read_quote (text : String) :
    read '"' (text.toList.flatMap escape ++ '"' :: rest) = some (.string (some text.toList), rest) := by
  simp only [read, stringBody_flatMap_escape, Option.map_some, textOf_map_pieceOf]

/-- What may stand behind a value: nothing, or a character that no numeral goes on with. -/
def Closed (rest : List Char) : Prop := ∀ c ∈ rest.head?, c ∈ [',', ']', '}']

/-- No digit, point or exponent stands behind a value. -/
theorem Closed.ne (closed : Closed rest) :
    ∀ c ∈ rest.head?, c.isDigit = false ∧ c ≠ '.' ∧ c ≠ 'e' ∧ c ≠ 'E' := by
  intro c head
  have known := closed c head
  simp only [List.mem_cons, List.not_mem_nil, or_false] at known
  rcases known with rfl | rfl | rfl <;> decide

def exponentChars : Option Int → List Char
  | none => []
  | some e => 'e' :: (if e < 0 then '-' else '+') :: Nat.toDigits 10 e.natAbs

def fractionChars (ds : List Char) : List Char := if ds.isEmpty then [] else '.' :: ds

theorem exponent_plus {ds : List Char} (filled : ds ≠ []) (run : (ds ++ rest).takeWhile Char.isDigit = ds) :
    exponent ('e' :: '+' :: (ds ++ rest)) = some (some (digitsValue ds : Int), rest) := by
  simp [exponent, run, filled]

theorem exponent_minus {ds : List Char} (filled : ds ≠ []) (run : (ds ++ rest).takeWhile Char.isDigit = ds) :
    exponent ('e' :: '-' :: (ds ++ rest)) = some (some (-(digitsValue ds : Int)), rest) := by
  simp [exponent, run, filled]

theorem exponent_exponentChars (closed : Closed rest) (e : Option Int) :
    exponent (exponentChars e ++ rest) = some (e, rest) := by
  cases e with
  | none =>
    cases rest with
    | nil => rfl
    | cons c rest => simp [exponentChars, exponent, closed.ne c rfl]
  | some e =>
    have run : (Nat.toDigits 10 e.natAbs ++ rest).takeWhile Char.isDigit = Nat.toDigits 10 e.natAbs :=
      takeWhile_isDigit_append (fun _ => isDigit_of_mem_toDigits) fun c head => (closed.ne c head).1
    rw [exponentChars]
    split
    · have value : -(e.natAbs : Int) = e := by omega
      rw [List.cons_append, List.cons_append, exponent_minus Nat.toDigits_ne_nil run, digitsValue_toDigits, value]
    · have value : (e.natAbs : Int) = e := by omega
      rw [List.cons_append, List.cons_append, exponent_plus Nat.toDigits_ne_nil run, digitsValue_toDigits, value]

theorem fraction_fractionChars {ds : List Char} (digits : ∀ c ∈ ds, c.isDigit = true)
    (ends : ∀ c ∈ rest.head?, c.isDigit = false ∧ c ≠ '.') :
    fraction (fractionChars ds ++ rest) = some (ds, rest) := by
  by_cases empty : ds = []
  · subst empty
    cases rest with
    | nil => rfl
    | cons c rest => simp [fractionChars, fraction, ends c rfl]
  · have run : (ds ++ rest).takeWhile Char.isDigit = ds :=
      takeWhile_isDigit_append digits fun c head => (ends c head).1
    simp [fractionChars, fraction, empty, run]

/-- A numeral is read back from its characters. -/
theorem numeral_chars (proper : n.Proper) (closed : Closed rest) (negative : Bool) :
    numeral negative (n.whole ++ (fractionChars n.fraction ++ (exponentChars n.exponent ++ rest))) =
      some ({ n with negative }, rest) := by
  have afterFraction : ∀ c ∈ (exponentChars n.exponent ++ rest).head?, c.isDigit = false ∧ c ≠ '.' := by
    cases n.exponent with
    | none => exact fun c head => ⟨(closed.ne c head).1, (closed.ne c head).2.1⟩
    | some e => simp [exponentChars]
  have afterWhole : ∀ c ∈ (fractionChars n.fraction ++ (exponentChars n.exponent ++ rest)).head?,
      c.isDigit = false := by
    unfold fractionChars
    split
    · exact fun c head => (afterFraction c head).1
    · simp
  have run := takeWhile_isDigit_append proper.digits afterWhole
  have accepted : (n.whole.isEmpty || (n.whole.head? == some '0' && decide (1 < n.whole.length))) = false := by
    have leading (zero : n.whole.head? = some '0') : n.whole.length ≤ 1 := by
      rw [proper.leading zero]
      rfl
    simpa [proper.filled] using leading
  simp [numeral, run, accepted, fraction_fractionChars proper.fractionDigits afterFraction,
    exponent_exponentChars closed]

theorem read_of_isDigit (digit : c.isDigit = true) :
    read c cs = (numeral false (c :: cs)).map fun (n, rest) => (.number n, rest) := by
  unfold read
  split
  case h_12 => rfl
  all_goals cases digit

theorem chars_eq (n : Numeral) : n.chars =
    (if n.negative then ['-'] else []) ++ (n.whole ++ (fractionChars n.fraction ++ exponentChars n.exponent)) := by
  simp only [Numeral.chars, fractionChars, List.append_assoc]
  rfl

theorem isBlank_of_isDigit (digit : c.isDigit = true) : isBlank c = false := by
  rw [← Bool.not_eq_true]
  intro blank
  simp only [isBlank, Bool.or_eq_true, beq_iff_eq] at blank
  rcases blank with ((rfl | rfl) | rfl) | rfl <;> cases digit

theorem read_chars (proper : n.Proper) (closed : Closed rest) :
    ∃ first others, n.chars ++ rest = first :: others ∧ isBlank first = false ∧
      read first others = some (.number n, rest) := by
  let tail := fractionChars n.fraction ++ (exponentChars n.exponent ++ rest)
  have number : numeral n.negative (n.whole ++ tail) = some (n, rest) := numeral_chars proper closed n.negative
  have split : n.chars ++ rest = (if n.negative then ['-'] else []) ++ (n.whole ++ tail) := by
    simp only [chars_eq, tail, List.append_assoc]
  rw [split]
  cases sign : n.negative with
  | true =>
    refine ⟨'-', n.whole ++ tail, rfl, by decide, ?_⟩
    rw [read, ← sign, number]
    rfl
  | false =>
    obtain ⟨first, ds, whole⟩ := List.exists_cons_of_ne_nil proper.filled
    have digit : first.isDigit = true := proper.digits first (whole ▸ List.mem_cons_self)
    have begins : n.whole ++ tail = first :: (ds ++ tail) := by rw [whole, List.cons_append]
    rw [begins, sign] at number
    refine ⟨first, ds ++ tail, begins, isBlank_of_isDigit digit, ?_⟩
    rw [read_of_isDigit digit, number]
    rfl

end Lexeme

mutual

/-- All numerals of a document are proper. -/
def Proper : Json → Prop
  | .number n => n.Proper
  | .array items => ProperItems items
  | .object members => ProperMembers members
  | _ => True

def ProperItems : List Json → Prop
  | [] => True
  | item :: items => item.Proper ∧ ProperItems items

def ProperMembers : List (String × Json) → Prop
  | [] => True
  | (_, value) :: members => value.Proper ∧ ProperMembers members

end

mutual

/-- The lexemes that a document is written with. -/
def written : Json → List Lexeme
  | .null => [.null]
  | .boolean value => [.boolean value]
  | .number n => [.number n]
  | .string text => [.string (some text.toList)]
  | .array [] => [.openBracket, .closeBracket]
  | .array (item :: items) => .openBracket :: item.written ++ writtenItems items
  | .object [] => [.openBrace, .closeBrace]
  | .object ((name, value) :: members) =>
    .openBrace :: .string (some name.toList) :: .colon :: value.written ++ writtenMembers members
  | .unreadable => [.string none]

def writtenItems : List Json → List Lexeme
  | [] => [.closeBracket]
  | item :: items => .comma :: item.written ++ writtenItems items

def writtenMembers : List (String × Json) → List Lexeme
  | [] => [.closeBrace]
  | (name, value) :: members =>
    .comma :: .string (some name.toList) :: .colon :: value.written ++ writtenMembers members

end

variable {c : Char} {cs rest : List Char} {lexeme : Lexeme} {later : List Lexeme}

theorem lexemes_cons (visible : isBlank c = false) (read : Lexeme.read c cs = some (lexeme, rest))
    (further : lexemes rest = some later) : lexemes (c :: cs) = some (lexeme :: later) := by
  rw [lexemes, if_neg (by simp [visible])]
  split
  · next none =>
    rw [read] at none
    cases none
  · next same =>
    rw [read] at same
    cases same
    rw [further, Option.map_some]

theorem lexemes_quote (text : String) (further : lexemes rest = some later) :
    lexemes (quote text ++ rest) = some (.string (some text.toList) :: later) := by
  have split : quote text ++ rest = '"' :: (text.toList.flatMap escape ++ '"' :: rest) := by simp [quote]
  rw [split]
  exact lexemes_cons (by decide) (Lexeme.read_quote text) further

/-- The name of a member with the colon behind it. -/
theorem lexemes_name (name : String) (further : lexemes rest = some later) :
    lexemes (quote name ++ ':' :: rest) = some (.string (some name.toList) :: .colon :: later) :=
  lexemes_quote name (lexemes_cons (by decide) rfl further)

theorem closed_compactItems (items : List Json) : Lexeme.Closed (compactItems items ++ rest) := by
  cases items <;> simp [Lexeme.Closed, compactItems]

theorem closed_compactMembers (members : List (String × Json)) :
    Lexeme.Closed (compactMembers members ++ rest) := by
  cases members <;> simp [Lexeme.Closed, compactMembers]

mutual

/-- The lexemes of a document are found again in its text, in front of those of what follows. -/
theorem lexemes_compact (json : Json) (proper : json.Proper) {rest : List Char} {later : List Lexeme}
    (closed : Lexeme.Closed rest) (further : lexemes rest = some later) :
    lexemes (json.compact ++ rest) = some (json.written ++ later) := by
  match json with
  | .null => exact lexemes_cons (by decide) rfl further
  | .boolean true => exact lexemes_cons (by decide) rfl further
  | .boolean false => exact lexemes_cons (by decide) rfl further
  | .number n =>
    obtain ⟨first, others, split, visible, read⟩ := Lexeme.read_chars proper closed
    rw [compact, split]
    exact lexemes_cons visible read further
  | .string text => exact lexemes_quote text further
  | .array [] => exact lexemes_cons (by decide) rfl (lexemes_cons (by decide) rfl further)
  | .array (item :: items) =>
    have tail := lexemes_compactItems items proper.2 further
    have head := lexemes_compact item proper.1 (closed_compactItems items) tail
    rw [compact, written]
    simp only [List.cons_append, List.append_assoc]
    exact lexemes_cons (by decide) rfl head
  | .object [] => exact lexemes_cons (by decide) rfl (lexemes_cons (by decide) rfl further)
  | .object ((name, value) :: members) =>
    have tail := lexemes_compactMembers members proper.2 further
    have head := lexemes_compact value proper.1 (closed_compactMembers members) tail
    rw [compact, written]
    simp only [List.cons_append, List.append_assoc]
    exact lexemes_cons (by decide) rfl (lexemes_name name head)
  | .unreadable => exact lexemes_cons (by decide) rfl further

theorem lexemes_compactItems (items : List Json) (proper : ProperItems items) {rest : List Char}
    {later : List Lexeme} (further : lexemes rest = some later) :
    lexemes (compactItems items ++ rest) = some (writtenItems items ++ later) := by
  match items with
  | [] => exact lexemes_cons (by decide) rfl further
  | item :: items =>
    have tail := lexemes_compactItems items proper.2 further
    have head := lexemes_compact item proper.1 (closed_compactItems items) tail
    rw [compactItems, writtenItems]
    simp only [List.cons_append, List.append_assoc]
    exact lexemes_cons (by decide) rfl head

theorem lexemes_compactMembers (members : List (String × Json)) (proper : ProperMembers members)
    {rest : List Char} {later : List Lexeme} (further : lexemes rest = some later) :
    lexemes (compactMembers members ++ rest) = some (writtenMembers members ++ later) := by
  match members with
  | [] => exact lexemes_cons (by decide) rfl further
  | (name, value) :: members =>
    have tail := lexemes_compactMembers members proper.2 further
    have head := lexemes_compact value proper.1 (closed_compactMembers members) tail
    rw [compactMembers, writtenMembers]
    simp only [List.cons_append, List.append_assoc]
    exact lexemes_cons (by decide) rfl (lexemes_name name head)

end

theorem exists_written (json : Json) :
    ∃ first others, json.written = first :: others ∧ first ≠ .closeBracket := by
  match json with
  | .null | .boolean _ | .number _ | .string _ | .unreadable | .array [] | .object [] =>
    exact ⟨_, _, rfl, by simp⟩
  | .array (item :: items) => exact ⟨_, _, rfl, by simp⟩
  | .object ((name, value) :: members) => exact ⟨_, _, rfl, by simp⟩

theorem readValue_openBracket {frames : List Frame} (item : Json) (later : List Lexeme) :
    readValue frames (.openBracket :: (item.written ++ later)) =
      readValue (.array [] :: frames) (item.written ++ later) := by
  obtain ⟨first, others, begins, notClosing⟩ := exists_written item
  rw [begins, List.cons_append, readValue]
  rintro rest same
  exact notClosing (List.cons.inj same).1

theorem add_name (members : List (String × Json)) (name : String) (value : Json) :
    Members.add (some members) (some name.toList) value = some ((name, value) :: members) := by
  rw [Members.add, String.ofList_toList]

mutual

/-- A document is read back from its lexemes, and reading goes on behind them. -/
theorem readValue_written (json : Json) (frames : List Frame) (later : List Lexeme) :
    readValue frames (json.written ++ later) = readAfter frames json later := by
  match json with
  | .null | .boolean _ | .number _ | .array [] | .object [] | .unreadable => rfl
  | .string text =>
    rw [written, List.singleton_append, readValue, ofText, String.ofList_toList]
  | .array (item :: items) =>
    rw [written, List.cons_append, List.cons_append, List.append_assoc, readValue_openBracket,
      readValue_written item, readAfter_writtenItems items]
    rfl
  | .object ((name, value) :: members) =>
    rw [written]
    simp only [List.cons_append, List.append_assoc]
    rw [readValue, readValue_written value, readAfter_writtenMembers members]
    rfl

theorem readAfter_writtenItems (items : List Json) (frames : List Frame) (earlier : List Json) (value : Json)
    (later : List Lexeme) :
    readAfter (.array earlier :: frames) value (writtenItems items ++ later) =
      readAfter frames (.array (earlier.reverse ++ value :: items)) later := by
  match items with
  | [] =>
    rw [writtenItems, List.singleton_append, readAfter, List.reverse_cons]
  | item :: items =>
    rw [writtenItems, List.cons_append, List.cons_append, List.append_assoc, readAfter,
      readValue_written item, readAfter_writtenItems items, List.reverse_cons, List.append_assoc]
    rfl

theorem readAfter_writtenMembers (members : List (String × Json)) (frames : List Frame)
    (earlier : List (String × Json)) (name : String) (value : Json) (later : List Lexeme) :
    readAfter (.object (some earlier) (some name.toList) :: frames) value (writtenMembers members ++ later) =
      readAfter frames (.object (earlier.reverse ++ (name, value) :: members)) later := by
  match members with
  | [] =>
    rw [writtenMembers, List.singleton_append, readAfter, add_name, Members.close, List.reverse_cons]
  | (next, following) :: members =>
    rw [writtenMembers]
    simp only [List.cons_append, List.append_assoc]
    rw [readAfter, add_name, readValue_written following, readAfter_writtenMembers members, List.reverse_cons,
      List.append_assoc]
    rfl

end

/-- A document is read back from its text on one line. -/
theorem parse?_compact {json : Json} (proper : json.Proper) :
    parse? (String.ofList json.compact) = some json := by
  have closed : Lexeme.Closed [] := by simp [Lexeme.Closed]
  have none : lexemes [] = some [] := by rw [lexemes]
  have found := lexemes_compact json proper closed none
  have read := readValue_written json [] []
  rw [List.append_nil] at found read
  rw [parse?, String.toList_ofList, found, Option.bind_eq_bind, Option.bind_some, List.append_nil, read]
  rfl

end Json

end Vtl
