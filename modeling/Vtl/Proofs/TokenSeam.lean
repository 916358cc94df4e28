import Vtl.Proofs.CharClasses
import Vtl.Proofs.TokenRuns

namespace Vtl

theorem takeWhile_append_cons {p : Char → Bool} {c : Char} (ends : p c = false) (cs ds : List Char) :
    (cs ++ c :: ds).takeWhile p = cs.takeWhile p := by
  induction cs with
  | nil => simp [ends]
  | cons d cs ih => simp only [List.cons_append, List.takeWhile_cons, ih]

namespace Lexeme

variable {b c : Char} {cs ds text : List Char} {count : Nat} {lexeme : Lexeme}

theorem isNamePart_of_blank (blank : CharClass.blank.contains b = true) : isNamePart b = false := by
  have notLetter : CharClass.alphabetic.contains b = false :=
    CharClass.contains_eq_false (by decide +kernel) blank
  have notNumeric : CharClass.numeric.contains b = false :=
    CharClass.contains_eq_false (by decide +kernel) blank
  have plain : b ≠ '_' := CharClass.ne_of_blank blank (by decide)
  simp [isNamePart, notLetter, notNumeric, plain]

/-- A character that no lexeme goes on with and that completes no comment sign: what stands before it is
read as if the text ended there. -/
structure Separator (b : Char) : Prop where
  name : isNamePart b = false
  digit : b.isDigit = false
  quote : b ≠ '"'
  point : b ≠ '.'
  slash : b ≠ '/'
  star : b ≠ '*'
  symbol : ∀ symbol ∈ symbols, b ∉ symbol.1.tail

theorem Separator.of_blank (blank : CharClass.blank.contains b = true) : Separator b where
  name := isNamePart_of_blank blank
  digit := CharClass.isDigit_of_blank blank
  quote := CharClass.ne_of_blank blank (by decide)
  point := CharClass.ne_of_blank blank (by decide)
  slash := CharClass.ne_of_blank blank (by decide)
  star := CharClass.ne_of_blank blank (by decide)
  symbol := by
    have visible : symbols.all (fun symbol => symbol.1.tail.all fun c => !CharClass.blank.contains c) = true := by
      decide
    intro symbol known member
    have ofSymbol := List.all_eq_true.mp (List.all_eq_true.mp visible symbol known) b member
    simp [blank] at ofSymbol

theorem isPrefixOf_separator {spelling : List Char} (plain : b ∉ spelling) :
    spelling.isPrefixOf (cs ++ b :: ds) = spelling.isPrefixOf cs := by
  induction cs generalizing spelling with
  | nil =>
    cases spelling with
    | nil => rfl
    | cons first spelling =>
      have differ : first ≠ b := fun same => plain (same ▸ List.mem_cons_self)
      simp [List.isPrefixOf, differ]
  | cons d cs ih =>
    cases spelling with
    | nil => rfl
    | cons first spelling =>
      have rest := @ih spelling fun member => plain (List.mem_cons_of_mem first member)
      simp only [List.cons_append, List.isPrefixOf, rest]

/-- No symbol reaches over a separator. -/
theorem find?_symbols_separator (separator : Separator b) :
    (symbols.find? fun symbol => symbol.1.isPrefixOf (c :: cs ++ b :: ds)) =
      symbols.find? fun symbol => symbol.1.isPrefixOf (c :: cs) := by
  have plain := separator.symbol
  generalize symbols = table at plain
  induction table with
  | nil => rfl
  | cons symbol table ih =>
    obtain ⟨head, tail⟩ := List.forall_mem_cons.mp plain
    have same : symbol.1.isPrefixOf (c :: cs ++ b :: ds) = symbol.1.isPrefixOf (c :: cs) := by
      rcases symbol with ⟨_ | ⟨first, spelling⟩, kind⟩
      · rfl
      · have plain : b ∉ spelling := head
        rw [List.cons_append, List.isPrefixOf, List.isPrefixOf, isPrefixOf_separator plain]
    rw [List.find?_cons, List.find?_cons, same, ih tail]

theorem stringBody_separator (separator : Lexeme.Separator b)
    (read : stringBody cs = some (text, count)) : stringBody (cs ++ b :: ds) = some (text, count) := by
  fun_induction stringBody cs generalizing text count with
  | case1 => cases read
  | case2 cs ih =>
    simp only [Option.map_eq_some_iff, Prod.mk.injEq] at read
    obtain ⟨⟨inner, innerCount⟩, found, rfl, rfl⟩ := read
    simp only [List.cons_append, stringBody, ih found, Option.map_some]
  | case3 cs single =>
    rw [List.cons_append, stringBody_closing]
    · exact read
    · intro rest same
      rcases List.append_eq_cons_iff.mp same with ⟨_, begins⟩ | ⟨more, quote, _⟩
      · exact separator.quote (List.cons.inj begins).1
      · exact single more quote
  | case4 c cs _ plain ih =>
    simp only [Option.map_eq_some_iff, Prod.mk.injEq] at read
    obtain ⟨⟨inner, innerCount⟩, found, rfl, rfl⟩ := read
    rw [List.cons_append, stringBody_cons plain, ih found]
    rfl

theorem stringBody_length_le (read : stringBody cs = some (text, count)) : count ≤ cs.length := by
  fun_induction stringBody cs generalizing text count with
  | case1 => cases read
  | case2 cs ih =>
    simp only [Option.map_eq_some_iff, Prod.mk.injEq] at read
    obtain ⟨⟨inner, innerCount⟩, found, rfl, rfl⟩ := read
    have bound := ih found
    simp only [List.length_cons]
    omega
  | case3 cs _ =>
    cases read
    exact Nat.le_add_left 1 cs.length
  | case4 c cs _ _ ih =>
    simp only [Option.map_eq_some_iff, Prod.mk.injEq] at read
    obtain ⟨⟨inner, innerCount⟩, found, rfl, rfl⟩ := read
    exact Nat.succ_le_succ (ih found)

theorem fraction_separator (separator : Lexeme.Separator b) :
    fraction (cs ++ b :: ds) = fraction cs := by
  match cs with
  | [] =>
    simp [fraction, separator.point]
  | c :: cs =>
    by_cases point : c = '.'
    · subst point
      exact takeWhile_append_cons separator.digit cs ds
    · simp [fraction, point]

theorem fraction_length_le : (fraction cs).length ≤ cs.length - 1 := by
  unfold fraction
  split
  · exact (List.takeWhile_sublist _).length_le
  · exact Nat.zero_le _

theorem numeral_separator (separator : Lexeme.Separator b) : numeral (cs ++ b :: ds) = numeral cs := by
  simp only [numeral_eq, takeWhile_append_cons separator.digit,
    List.drop_append_of_le_length (List.takeWhile_sublist _).length_le, fraction_separator separator]

theorem numeral_length_le : (numeral cs).length ≤ cs.length := by
  have whole : (cs.takeWhile Char.isDigit).length ≤ cs.length := (List.takeWhile_sublist _).length_le
  have digits := @fraction_length_le (cs.drop (cs.takeWhile Char.isDigit).length)
  rw [numeral_eq]
  dsimp only
  split
  · exact whole
  · next some =>
    rw [List.isEmpty_iff, ← List.length_eq_zero_iff] at some
    rw [List.length_drop] at digits
    simp only
    omega

theorem word_separator (separator : Lexeme.Separator b) : word (cs ++ b :: ds) = word cs := by
  simp only [word, takeWhile_append_cons separator.name]

/-- A lexeme that ends with the text stays as it is when the text goes on with a separator. -/
theorem readOther_separator (separator : Lexeme.Separator b) (read : readOther c cs = .ok lexeme) :
    readOther c (cs ++ b :: ds) = .ok lexeme ∧ lexeme.length ≤ cs.length + 1 := by
  unfold readOther at read ⊢
  split at read
  · cases read
  next bar =>
  split at read
  · cases read
  next colon =>
  rw [if_neg bar, if_neg colon]
  split at read
  · next quote =>
    rw [if_pos quote]
    split at read
    · next text count found =>
      cases read
      rw [stringBody_separator separator found]
      exact ⟨rfl, Nat.succ_le_succ (stringBody_length_le found)⟩
    · cases read
  next quote =>
  rw [if_neg quote]
  split at read
  · next tick =>
    rw [if_pos tick]
    dsimp only at read ⊢
    split at read
    · next closed =>
      cases read
      have same : (cs ++ b :: ds).takeWhile (· != '\'') = cs.takeWhile (· != '\'') := by
        rw [List.takeWhile_append, if_neg (Nat.ne_of_lt closed)]
      rw [same, if_pos (Nat.lt_of_lt_of_le closed (by simp))]
      exact ⟨rfl, Nat.succ_le_succ closed⟩
    · cases read
  next tick =>
  rw [if_neg tick]
  split at read
  · next start =>
    cases read
    rw [if_pos start, ← List.cons_append, word_separator separator]
    exact ⟨rfl, (List.takeWhile_sublist isNamePart).length_le⟩
  next start =>
  rw [if_neg start]
  split at read
  · next digit =>
    cases read
    rw [if_pos digit, ← List.cons_append, numeral_separator separator]
    exact ⟨rfl, numeral_length_le⟩
  · cases read

theorem read_separator (separator : Lexeme.Separator b) (read : Lexeme.read c cs = .ok lexeme) :
    Lexeme.read c (cs ++ b :: ds) = .ok lexeme ∧ lexeme.length ≤ cs.length + 1 := by
  unfold Lexeme.read at read ⊢
  rw [← List.cons_append, find?_symbols_separator separator]
  split at read
  · next spelling kind found =>
    cases read
    have starts := List.find?_some found
    exact ⟨rfl, (List.isPrefixOf_iff_prefix.mp starts).length_le⟩
  · exact readOther_separator separator read

end Lexeme

namespace Cursor

variable {b : Char} {cursor behind : Cursor} {cs ds rest : List Char} {place after : Position} {token : Token}

/-- A sign of two characters is not completed by another character than its second one. -/
theorem cons_append_ne {c first second : Char} (other : b ≠ second)
    (absent : ∀ rest, c = first → cs = second :: rest → False) (rest : List Char) :
    c :: (cs ++ b :: ds) ≠ first :: second :: rest := by
  intro same
  obtain ⟨begins, behind⟩ := List.cons.inj same
  rcases List.append_eq_cons_iff.mp behind with ⟨_, next⟩ | ⟨more, completes, _⟩
  · exact other (List.cons.inj next).1
  · exact absent more begins completes

/-- Trivia before a token stay as they are when the text goes on with a separator. Trivia up to the end go
on with it, maybe inside a comment that ends with the line. -/
theorem skipTrivia_separator {trivia : Trivia} (separator : Lexeme.Separator b)
    (skip : skipTrivia trivia place cs = (.ok (), ⟨rest, after⟩)) :
    ∃ last, (last = .blanks ∨ last = .line) ∧
      skipTrivia trivia place (cs ++ b :: ds) =
        if rest = [] then skipTrivia last after (b :: ds) else (.ok (), ⟨rest ++ b :: ds, after⟩) := by
  fun_induction skipTrivia trivia place cs with
  | case1 place =>
    cases skip
    exact ⟨.blanks, .inl rfl, rfl⟩
  | case6 place =>
    cases skip
    exact ⟨.line, .inr rfl, rfl⟩
  | case8 => cases skip
  | case2 _ _ ih | case3 _ _ ih | case7 _ _ _ ih | case9 _ _ _ ih => exact ih skip
  | case4 place c cs noLine noBlock isBlank ih =>
    rw [List.cons_append, skipTrivia_blanks_cons (cons_append_ne separator.slash noLine)
      (cons_append_ne separator.star noBlock), if_pos isBlank]
    exact ih skip
  | case5 place c cs noLine noBlock other =>
    cases skip
    refine ⟨.blanks, .inl rfl, ?_⟩
    rw [List.cons_append, skipTrivia_blanks_cons (cons_append_ne separator.slash noLine)
      (cons_append_ne separator.star noBlock), if_neg other, if_neg (List.cons_ne_nil c cs)]
  | case10 opening place c cs noEnd ih =>
    rw [List.cons_append, skipTrivia_block_cons (cons_append_ne separator.slash noEnd)]
    exact ih skip

theorem token_separator (separator : Lexeme.Separator b)
    (read : Cursor.token ⟨cs, place⟩ = (.ok token, ⟨rest, after⟩)) (more : token.kind ≠ .endOfInput) :
    Cursor.token ⟨cs ++ b :: ds, place⟩ = (.ok token, ⟨rest ++ b :: ds, after⟩) := by
  match cs with
  | [] =>
    cases read
    exact (more rfl).elim
  | c :: cs =>
    unfold Cursor.token at read ⊢
    dsimp only [List.cons_append] at read ⊢
    split at read
    · next lexeme found =>
      obtain ⟨kept, within⟩ := @Lexeme.read_separator b c cs ds lexeme separator found
      have bound : lexeme.length ≤ (c :: cs).length := within
      rw [kept]
      simp only [advance, ← List.cons_append, List.drop_append_of_le_length bound,
        List.take_append_of_le_length bound]
      cases read
      rfl
    · cases read

/-- A token of a text is also read where the text goes on with a separator. -/
theorem next_separator (separator : Lexeme.Separator b)
    (read : Cursor.next ⟨cs, place⟩ = (.ok token, ⟨rest, after⟩)) (more : token.kind ≠ .endOfInput) :
    Cursor.next ⟨cs ++ b :: ds, place⟩ = (.ok token, ⟨rest ++ b :: ds, after⟩) := by
  obtain ⟨_, _, ⟨startRest, startPlace⟩, _, _, skip, made, _⟩ := next_passes read
  have filled : startRest ≠ [] := by
    rintro rfl
    cases made
    exact more rfl
  obtain ⟨_, _, skipped⟩ := @skipTrivia_separator b cs ds _ _ _ .blanks separator skip
  unfold next
  rw [skipped, if_neg filled]
  exact token_separator separator made more

/-- Tokens are also read where the text goes on with a separator. -/
theorem Takes.separator {tokens : List Token} (separator : Lexeme.Separator b)
    (takes : Takes ⟨cs, place⟩ tokens ⟨rest, after⟩) :
    Takes ⟨cs ++ b :: ds, place⟩ tokens ⟨rest ++ b :: ds, after⟩ := by
  induction tokens generalizing cs place with
  | nil =>
    cases takes
    exact .nil
  | cons token tokens ih =>
    cases takes with
    | @cons _ middle _ _ _ next more later => exact .cons (next_separator separator next more) more (ih later)

/-- A lexeme is read where it stands, if it does not begin as a comment may. -/
theorem next_of_read {c : Char} {ds part text rest : List Char} {kind : Token.Kind}
    (whole : c :: ds = part ++ rest) (visible : CharClass.blank.contains c = false) (plain : c ≠ '/')
    (read : Lexeme.read c ds = .ok ⟨kind, text, part.length⟩) (place : Position) :
    Cursor.next ⟨part ++ rest, place⟩ =
      (.ok ⟨kind, String.ofList text, .between place (place.after part)⟩, ⟨rest, place.after part⟩) := by
  have skip : skipTrivia .blanks place (part ++ rest) = (.ok (), ⟨part ++ rest, place⟩) := by
    rw [← whole, skipTrivia_blanks_cons (by simp [plain]) (by simp [plain]), if_neg (by simp [visible])]
  have behind : Cursor.advance ⟨part ++ rest, place⟩ part.length = ⟨rest, place.after part⟩ := by
    simp [advance]
  rw [next, skip]
  dsimp only
  rw [Cursor.token]
  simp only [← whole, read]
  rw [whole, behind]

/-- A token of one character is read where it stands. -/
theorem next_single {c : Char} {kind : Token.Kind} (visible : CharClass.blank.contains c = false)
    (plain : c ≠ '/') (read : Lexeme.read c ds = .ok ⟨kind, [c], 1⟩) (place : Position) :
    ∃ single : Token, single.kind = kind ∧ single.text = String.ofList [c] ∧
      Cursor.next ⟨c :: ds, place⟩ = (.ok single, ⟨ds, place.step c⟩) := by
  have next := @next_of_read c ds [c] [c] ds kind rfl visible plain read place
  exact ⟨_, rfl, rfl, next⟩

theorem rest_of_endOfInput (read : cursor.token = (.ok token, behind)) (ends : token.kind = .endOfInput) :
    cursor.rest = [] := by
  unfold Cursor.token at read
  split at read
  · assumption
  · split at read
    · next lexeme found =>
      cases read
      exact ((Lexeme.read_progress found).2 ends).elim
    · cases read

/-- Where a text ends, what stands in the next line is read in place of its end. -/
theorem next_newline_of_end (read : Cursor.next ⟨cs, place⟩ = (.ok token, behind))
    (ends : token.kind = .endOfInput) :
    Cursor.next ⟨cs ++ '\n' :: ds, place⟩ = Cursor.next ⟨ds, place.after (cs ++ ['\n'])⟩ := by
  obtain ⟨trivia, _, ⟨startRest, startPlace⟩, passes, _, skip, made, _⟩ := next_passes read
  obtain rfl : startRest = [] := rest_of_endOfInput made ends
  have whole : cs = trivia := passes.rest.trans (List.append_nil trivia)
  have reached : startPlace = place.after cs := whole ▸ passes.place
  obtain ⟨last, inLine, skipped⟩ := @skipTrivia_separator '\n' cs ds _ _ _ .blanks (.of_blank (by decide)) skip
  unfold next
  rw [skipped, if_pos rfl, reached, Position.after_append]
  -- A comment that ends with the line ends here, and a line end is a blank elsewhere.
  rcases inLine with rfl | rfl
  · rw [skipTrivia_blanks_cons (by simp) (by simp), if_pos (by decide)]
    rfl
  · rfl

end Cursor

/-- The tokens of two texts with a line end between them are those of the one and of the other. -/
theorem Tokens.readFrom_newline {cs ds : List Char} {place : Position} {items others : List Token}
    {last final : Token} (read : readFrom ⟨cs, place⟩ = .ok ⟨items, last⟩)
    (further : readFrom ⟨ds, place.after (cs ++ ['\n'])⟩ = .ok ⟨others, final⟩) :
    readFrom ⟨cs ++ '\n' :: ds, place⟩ = .ok ⟨items ++ others, final⟩ := by
  rw [← List.append_nil items] at read
  obtain ⟨⟨rest, after⟩, takes, readEnd⟩ := readFrom_append.mp read
  -- Only trivia are left of the first text, and reading goes on behind them.
  obtain ⟨behind, next, ends⟩ := readFrom_nil.mp readEnd
  obtain ⟨passed, passes⟩ := takes.passes
  have reached : after.after (rest ++ ['\n']) = place.after (cs ++ ['\n']) := by
    have whole : cs = passed ++ rest := passes.rest
    rw [show after = place.after passed from passes.place, ← Position.after_append, ← List.append_assoc, ← whole]
  have onward : readFrom ⟨rest ++ '\n' :: ds, after⟩ = .ok ⟨others, final⟩ := by
    rw [readFrom_congr (Cursor.next_newline_of_end next ends), reached]
    exact further
  exact readFrom_append.mpr ⟨_, takes.separator (.of_blank (by decide)), onward⟩

end Vtl
