import Vtl.Token.Scan

namespace Vtl

theorem takeWhile_append_of_length_le {p : Char → Bool} {cs ds : List Char}
    (within : ((cs ++ ds).takeWhile p).length ≤ cs.length) :
    (cs ++ ds).takeWhile p = cs.takeWhile p := by
  rw [List.takeWhile_append] at within ⊢
  split at within
  · next whole =>
    rw [if_pos whole]
    have all : cs.takeWhile p = cs := (List.takeWhile_prefix p).eq_of_length whole
    have none : ds.takeWhile p = [] := by
      rw [List.length_append] at within
      exact List.eq_nil_of_length_eq_zero (by omega)
    rw [all, none, List.append_nil]
  · next part => rw [if_neg part]

namespace Lexeme

variable {cs ds : List Char} {c : Char} {lexeme : Lexeme}

theorem find?_symbols_of_append {found : List Char × Token.Kind}
    (read : (symbols.find? fun symbol => symbol.1.isPrefixOf (cs ++ ds)) = some found)
    (within : found.1.length ≤ cs.length) :
    (symbols.find? fun symbol => symbol.1.isPrefixOf cs) = some found := by
  obtain ⟨starts, before, after, split, none⟩ := List.find?_eq_some_iff_append.mp read
  refine List.find?_eq_some_iff_append.mpr ⟨?_, before, after, split, ?_⟩
  · rw [List.isPrefixOf_iff_prefix] at starts ⊢
    exact List.prefix_of_prefix_length_le starts (List.prefix_append cs ds) within
  · intro symbol member
    have longer := none symbol member
    simp only [Bool.not_eq_true', ← Bool.not_eq_true, List.isPrefixOf_iff_prefix] at longer ⊢
    exact fun shorter => longer (shorter.trans (List.prefix_append cs ds))

theorem find?_symbols_none_of_append
    (absent : (symbols.find? fun symbol => symbol.1.isPrefixOf (cs ++ ds)) = none) :
    (symbols.find? fun symbol => symbol.1.isPrefixOf cs) = none := by
  rw [List.find?_eq_none] at absent ⊢
  intro symbol member
  have longer := absent symbol member
  rw [List.isPrefixOf_iff_prefix] at longer ⊢
  exact fun shorter => longer (shorter.trans (List.prefix_append cs ds))

theorem stringBody_pos {text : List Char} {count : Nat} (read : stringBody cs = some (text, count)) :
    0 < count := by
  unfold stringBody at read
  split at read
  · cases read
  · simp only [Option.map_eq_some_iff, Prod.mk.injEq] at read
    obtain ⟨_, _, _, rfl⟩ := read
    omega
  · cases read
    decide
  · simp only [Option.map_eq_some_iff, Prod.mk.injEq] at read
    obtain ⟨_, _, _, rfl⟩ := read
    omega

theorem stringBody_closing (single : ∀ rest, cs ≠ '"' :: rest) : stringBody ('"' :: cs) = some ([], 1) := by
  rw [stringBody]
  exact single

theorem stringBody_cons (plain : c ≠ '"') :
    stringBody (c :: cs) = (stringBody cs).map fun (text, count) => (c :: text, count + 1) := by
  rw [stringBody]
  · exact fun _ quote => (plain quote).elim
  · exact plain

theorem stringBody_of_append {text : List Char} {count : Nat}
    (read : stringBody (cs ++ ds) = some (text, count)) (within : count ≤ cs.length) :
    stringBody cs = some (text, count) := by
  fun_induction stringBody cs generalizing text count with
  | case1 => exact absurd within (Nat.not_le.mpr (stringBody_pos read))
  | case2 cs ih =>
    simp only [List.cons_append, stringBody, Option.map_eq_some_iff, Prod.mk.injEq] at read ⊢
    obtain ⟨⟨inner, innerCount⟩, found, rfl, rfl⟩ := read
    exact ⟨_, ih found (by simp at within; omega), rfl, rfl⟩
  | case3 cs single =>
    -- The quote would be one of two only if the cut were between them, and then the string ends behind it.
    by_cases doubled : ∃ rest, cs ++ ds = '"' :: rest
    · obtain ⟨rest, same⟩ := doubled
      rw [List.cons_append, same] at read
      simp only [stringBody, Option.map_eq_some_iff, Prod.mk.injEq] at read
      obtain ⟨⟨_, _⟩, _, _, rfl⟩ := read
      match cs with
      | [] => simp at within
      | d :: cs => exact (single cs (congrArg (· :: cs) (List.cons.inj same).1)).elim
    · rw [List.cons_append, stringBody_closing fun rest same => doubled ⟨rest, same⟩] at read
      exact read
  | case4 c cs _ plain ih =>
    rw [List.cons_append, stringBody_cons plain] at read
    simp only [Option.map_eq_some_iff, Prod.mk.injEq] at read ⊢
    obtain ⟨⟨inner, innerCount⟩, found, rfl, rfl⟩ := read
    exact ⟨_, ih found (Nat.le_of_succ_le_succ within), rfl, rfl⟩

/-- The digits behind a point at the head of a text. -/
def fraction : List Char → List Char
  | '.' :: cs => cs.takeWhile Char.isDigit
  | _ => []

theorem numeral_eq : numeral cs =
    let whole := cs.takeWhile Char.isDigit
    let digits := fraction (cs.drop whole.length)
    if digits.isEmpty then ⟨.integerConstant, whole, whole.length⟩
    else ⟨.numberConstant, whole ++ '.' :: digits, whole.length + 1 + digits.length⟩ := by
  unfold numeral
  dsimp only
  split
  · next rest => rw [rest, fraction]
  · next other =>
    have none : fraction (cs.drop (cs.takeWhile Char.isDigit).length) = [] := by
      unfold fraction
      split
      · next point => exact (other _ point).elim
      · rfl
    rw [none]
    rfl

theorem fraction_of_append (within : (fraction (cs ++ ds)).length ≤ cs.length - 1) :
    fraction (cs ++ ds) = fraction cs := by
  match cs with
  | [] => exact List.eq_nil_of_length_eq_zero (Nat.le_zero.mp within)
  | c :: cs =>
    by_cases point : c = '.'
    · subst point
      exact takeWhile_append_of_length_le within
    · simp [fraction, point]

theorem numeral_of_append (within : (numeral (cs ++ ds)).length ≤ cs.length) :
    numeral (cs ++ ds) = numeral cs := by
  have bound : ((cs ++ ds).takeWhile Char.isDigit).length ≤ cs.length := by
    refine Nat.le_trans ?_ within
    rw [numeral_eq]
    dsimp only
    split <;> simp only <;> omega
  have whole := takeWhile_append_of_length_le bound
  rw [whole] at bound
  simp only [numeral_eq, whole, List.drop_append_of_le_length bound] at within ⊢
  rw [fraction_of_append]
  split at within
  · next none => simp [List.isEmpty_iff.mp none]
  · simp only [List.length_drop] at within ⊢
    omega

theorem word_of_append (within : (word (cs ++ ds)).length ≤ cs.length) : word (cs ++ ds) = word cs := by
  unfold word at within ⊢
  rw [takeWhile_append_of_length_le within]

theorem readOther_of_append (read : readOther c (cs ++ ds) = .ok lexeme)
    (within : lexeme.length ≤ cs.length + 1) : readOther c cs = .ok lexeme := by
  unfold readOther at read ⊢
  split at read
  · cases read
  next bar =>
  split at read
  · cases read
  next colon =>
  rw [if_neg bar, if_neg colon]
  split at read
  · next quote =>
    rw [if_pos quote]
    split at read
    · next text count found =>
      cases read
      rw [stringBody_of_append found (Nat.le_of_succ_le_succ within)]
    · cases read
  next quote =>
  rw [if_neg quote]
  split at read
  · next tick =>
    rw [if_pos tick]
    dsimp only at read ⊢
    split at read
    · cases read
      have bound : ((cs ++ ds).takeWhile (· != '\'')).length ≤ cs.length := by
        dsimp only at within
        omega
      rw [takeWhile_append_of_length_le bound] at within ⊢
      rw [if_pos (by dsimp only at within; omega)]
    · cases read
  next tick =>
  rw [if_neg tick]
  split at read
  · next start =>
    cases read
    rw [← List.cons_append, ← @List.length_cons _ c] at within
    rw [if_pos start, ← List.cons_append, word_of_append within]
  next start =>
  rw [if_neg start]
  split at read
  · next digit =>
    cases read
    rw [← List.cons_append, ← @List.length_cons _ c] at within
    rw [if_pos digit, ← List.cons_append, numeral_of_append within]
  · cases read

/-- What a lexeme is does not depend on the text behind it: cutting the text there, or anywhere
further on, leaves the lexeme. -/
theorem read_of_append (read : Lexeme.read c (cs ++ ds) = .ok lexeme)
    (within : lexeme.length ≤ cs.length + 1) : Lexeme.read c cs = .ok lexeme := by
  unfold Lexeme.read at read ⊢
  rw [← List.cons_append] at read
  split at read
  · next spelling kind found =>
    cases read
    rw [find?_symbols_of_append found within]
  · next absent =>
    rw [find?_symbols_none_of_append absent]
    exact readOther_of_append read within

end Lexeme

namespace Cursor

/-- From one place of a text to a later one, over the characters between them. -/
structure Passes (before : Cursor) (passed : List Char) (behind : Cursor) : Prop where
  rest : before.rest = passed ++ behind.rest
  place : behind.place = before.place.after passed

variable {before middle behind : Cursor} {cs ds rest : List Char} {place after : Position} {token : Token}

theorem Passes.refl : before.Passes [] before := ⟨rfl, rfl⟩

theorem Passes.cons {c : Char} {passed : List Char} (passes : Passes ⟨cs, place.step c⟩ passed behind) :
    Passes ⟨c :: cs, place⟩ (c :: passed) behind :=
  ⟨congrArg (c :: ·) passes.rest, passes.place⟩

theorem Passes.trans {first second : List Char} (passes : before.Passes first middle)
    (further : middle.Passes second behind) : before.Passes (first ++ second) behind := by
  refine ⟨?_, ?_⟩
  · rw [passes.rest, further.rest, List.append_assoc]
  · rw [further.place, passes.place, Position.after_append]

theorem advance_passes {count : Nat} : before.Passes (before.rest.take count) (before.advance count) :=
  ⟨(List.take_append_drop count before.rest).symm, rfl⟩

theorem skipTrivia_passes (trivia : Trivia) (place : Position) (cs : List Char) :
    ∃ passed, Passes ⟨cs, place⟩ passed (skipTrivia trivia place cs).2 := by
  fun_induction skipTrivia trivia place cs with
  | case1 | case5 | case6 | case8 => exact ⟨[], .refl⟩
  | case2 _ _ ih | case3 _ _ ih | case9 _ _ _ ih =>
    obtain ⟨passed, passes⟩ := ih
    exact ⟨_, passes.cons.cons⟩
  | case4 _ _ _ _ _ _ ih | case7 _ _ _ ih | case10 _ _ _ _ _ ih =>
    obtain ⟨passed, passes⟩ := ih
    exact ⟨_, passes.cons⟩

/-- A comment passes over at least one character, unless the text is at its end. -/
theorem skipTrivia_comment_length {trivia : Trivia} (comment : trivia ≠ .blanks) (more : cs ≠ []) :
    (skipTrivia trivia place cs).2.rest.length < cs.length := by
  fun_cases skipTrivia trivia place cs with
  | case1 | case2 | case3 | case4 | case5 => exact (comment rfl).elim
  | case6 | case8 => exact (more rfl).elim
  | case7 | case10 => exact Nat.lt_succ_of_le (skipTrivia_length _ _ _)
  | case9 => exact Nat.lt_succ_of_le (Nat.le_succ_of_le (skipTrivia_length _ _ _))

/-- What is passed over and ends where it began is nothing, and not inside a comment. -/
theorem skipTrivia_nil_of_append {trivia : Trivia}
    (skip : skipTrivia trivia place ds = (.ok (), ⟨rest ++ ds, after⟩)) :
    skipTrivia trivia place [] = (.ok (), ⟨rest, after⟩) := by
  obtain ⟨passed, split, reached⟩ := skipTrivia_passes trivia place ds
  rw [skip] at split reached
  obtain ⟨rfl, rfl⟩ : passed = [] ∧ rest = [] := by
    have lengths := congrArg List.length split
    simp only [List.length_append] at lengths
    exact ⟨List.eq_nil_of_length_eq_zero (by omega), List.eq_nil_of_length_eq_zero (by omega)⟩
  by_cases comment : trivia = .blanks ∨ ds = []
  · rcases comment with rfl | rfl
    · exact congrArg (fun place => (Except.ok (), Cursor.mk [] place)) reached.symm
    · exact skip
  · obtain ⟨inComment, more⟩ := not_or.mp comment
    have shorter := @skipTrivia_comment_length ds place trivia inComment more
    rw [skip] at shorter
    exact (Nat.lt_irrefl _ shorter).elim

theorem cons_cons_ne {c first second : Char} (absent : ∀ rest, c = first → cs = second :: rest → False)
    (rest : List Char) : c :: cs ≠ first :: second :: rest := by
  intro same
  obtain ⟨begins, completes⟩ := List.cons.inj same
  exact absent rest begins completes

theorem skipTrivia_blanks_cons {c : Char} (noLine : ∀ rest, c :: cs ≠ '/' :: '/' :: rest)
    (noBlock : ∀ rest, c :: cs ≠ '/' :: '*' :: rest) :
    skipTrivia .blanks place (c :: cs) =
      if CharClass.blank.contains c then skipTrivia .blanks (place.step c) cs
      else (.ok (), ⟨c :: cs, place⟩) := by
  rw [skipTrivia]
  · rintro rest rfl rfl
    exact noLine rest rfl
  · rintro rest rfl rfl
    exact noBlock rest rfl

theorem skipTrivia_block_cons {c : Char} {opening : Position} (noEnd : ∀ rest, c :: cs ≠ '*' :: '/' :: rest) :
    skipTrivia (.block opening) place (c :: cs) = skipTrivia (.block opening) (place.step c) cs := by
  rw [skipTrivia]
  rintro rest rfl rfl
  exact noEnd rest rfl

theorem length_le_of_skipTrivia (trivia : Trivia)
    (skip : skipTrivia trivia place cs = (.ok (), ⟨rest ++ ds, after⟩)) : ds.length ≤ cs.length := by
  have bound := skipTrivia_length trivia place cs
  rw [skip, List.length_append] at bound
  omega

/-- Blanks and comments are passed over alike when the text is cut behind them. A comment sign that
the cut would divide does not occur: what it begins or ends would reach behind the cut. -/
theorem skipTrivia_of_append {trivia : Trivia}
    (skip : skipTrivia trivia place (cs ++ ds) = (.ok (), ⟨rest ++ ds, after⟩)) :
    skipTrivia trivia place cs = (.ok (), ⟨rest, after⟩) := by
  fun_induction skipTrivia trivia place cs with
  | case1 | case6 | case8 => exact skipTrivia_nil_of_append skip
  | case2 _ _ ih | case3 _ _ ih | case7 _ _ _ ih | case9 _ _ _ ih => exact ih skip
  | case4 place c cs _ _ blank ih =>
    have plain : c ≠ '/' := by
      rintro rfl
      exact absurd blank (by decide)
    rw [List.cons_append, skipTrivia_blanks_cons (by simp [plain]) (by simp [plain]), if_pos blank] at skip
    exact ih skip
  | case5 place c cs noLine noBlock other =>
    rw [List.cons_append] at skip
    have openLine : ∀ tail, c :: (cs ++ ds) ≠ '/' :: '/' :: tail := by
      intro tail same
      obtain ⟨rfl, behind⟩ := List.cons.inj same
      rcases List.append_eq_cons_iff.mp behind with ⟨rfl, rfl⟩ | ⟨_, slash, _⟩
      · exact Nat.not_succ_le_self _ (length_le_of_skipTrivia .line skip)
      · exact noLine _ rfl slash
    have openBlock : ∀ tail, c :: (cs ++ ds) ≠ '/' :: '*' :: tail := by
      intro tail same
      obtain ⟨rfl, behind⟩ := List.cons.inj same
      rcases List.append_eq_cons_iff.mp behind with ⟨rfl, rfl⟩ | ⟨_, star, _⟩
      · exact Nat.not_succ_le_self _ (length_le_of_skipTrivia (.block place) skip)
      · exact noBlock _ rfl star
    rw [skipTrivia_blanks_cons openLine openBlock, if_neg other] at skip
    obtain ⟨_, stopped⟩ := Prod.mk.inj skip
    obtain ⟨same, rfl⟩ := Cursor.mk.inj stopped
    rw [← List.cons_append] at same
    rw [List.append_cancel_right same]
  | case10 opening place c cs noEnd ih =>
    rw [List.cons_append] at skip
    have closes : ∀ tail, c :: (cs ++ ds) ≠ '*' :: '/' :: tail := by
      intro tail same
      obtain ⟨rfl, behind⟩ := List.cons.inj same
      rcases List.append_eq_cons_iff.mp behind with ⟨rfl, rfl⟩ | ⟨_, slash, _⟩
      · exact Nat.not_succ_le_self _ (length_le_of_skipTrivia .blanks skip)
      · exact noEnd _ rfl slash
    rw [skipTrivia_block_cons closes] at skip
    exact ih skip

/-- A token takes the characters between the ends of its span. -/
theorem token_passes (read : before.token = (.ok token, behind)) :
    ∃ taken, before.Passes taken behind ∧ token.span = .between before.place behind.place := by
  unfold Cursor.token at read
  split at read
  · cases read
    exact ⟨[], .refl, rfl⟩
  · split at read
    · cases read
      exact ⟨_, advance_passes, rfl⟩
    · cases read

theorem token_of_append (read : Cursor.token ⟨cs ++ ds, place⟩ = (.ok token, ⟨rest ++ ds, after⟩))
    (more : token.kind ≠ .endOfInput) : Cursor.token ⟨cs, place⟩ = (.ok token, ⟨rest, after⟩) := by
  by_cases whole : ds = []
  · simpa [whole] using read
  have remains := List.length_pos_iff.mpr whole
  have progress := token_progress read more
  simp only [List.length_append] at progress
  match cs with
  | [] =>
    rw [List.length_nil] at progress
    omega
  | c :: cs =>
    unfold Cursor.token at read ⊢
    dsimp only [List.cons_append] at read ⊢
    split at read
    · next lexeme found =>
      obtain ⟨made, moved⟩ := Prod.mk.inj read
      obtain ⟨left, reached⟩ := Cursor.mk.inj moved
      have within : lexeme.length ≤ (c :: cs).length := by
        have lengths := congrArg List.length left
        simp only [List.length_drop, List.length_append, List.length_cons] at lengths ⊢
        omega
      rw [← List.cons_append, List.drop_append_of_le_length within] at left
      rw [← List.cons_append, List.take_append_of_le_length within] at reached
      rw [Lexeme.read_of_append found within, ← made, ← reached, ← List.append_cancel_right left]
      simp only [advance, ← List.cons_append, List.take_append_of_le_length within]
    · cases read

/-- The token and what was passed over before it. -/
theorem next_passes (read : before.next = (.ok token, behind)) :
    ∃ trivia taken start, before.Passes trivia start ∧ start.Passes taken behind ∧
      skipTrivia .blanks before.place before.rest = (.ok (), start) ∧ start.token = (.ok token, behind) ∧
      token.span = .between start.place behind.place := by
  obtain ⟨trivia, passes⟩ := skipTrivia_passes .blanks before.place before.rest
  unfold next at read
  split at read
  · cases read
  · next start skip =>
    rw [skip] at passes
    obtain ⟨taken, takes, span⟩ := token_passes read
    exact ⟨trivia, taken, start, passes, takes, skip, read, span⟩

theorem next_of_append (read : Cursor.next ⟨cs ++ ds, place⟩ = (.ok token, ⟨rest ++ ds, after⟩))
    (more : token.kind ≠ .endOfInput) : Cursor.next ⟨cs, place⟩ = (.ok token, ⟨rest, after⟩) := by
  obtain ⟨_, taken, ⟨startRest, startPlace⟩, _, takes, skip, made, _⟩ := next_passes read
  have split : startRest = (taken ++ rest) ++ ds := takes.rest.trans (List.append_assoc _ _ _).symm
  subst split
  unfold next
  rw [skipTrivia_of_append skip]
  exact token_of_append made more

/-- A text cut at the start of a token ends there. -/
theorem next_of_skipTrivia (skip : skipTrivia .blanks place (cs ++ ds) = (.ok (), ⟨ds, after⟩)) :
    Cursor.next ⟨cs, place⟩ = (.ok ⟨.endOfInput, "", .between after after⟩, ⟨[], after⟩) := by
  unfold next
  rw [@skipTrivia_of_append cs ds [] place after .blanks skip]
  rfl

end Cursor

end Vtl
