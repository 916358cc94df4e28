import Vtl.Proofs.TokenPrefix

namespace Vtl

/-- Blanks and comments in any order, each comment with its end: the line end behind `//`, and the first
`*/` behind `/*`. -/
inductive IsTrivia : List Char → Prop
  | nil : IsTrivia []
  | blank {c : Char} {cs : List Char} (isBlank : CharClass.blank.contains c = true) (rest : IsTrivia cs) :
      IsTrivia (c :: cs)
  | line {body cs : List Char} (oneLine : '\n' ∉ body) (rest : IsTrivia cs) :
      IsTrivia ('/' :: '/' :: (body ++ '\n' :: cs))
  | block {body cs : List Char} (firstEnd : ¬['*', '/'] <:+: body ++ ['*']) (rest : IsTrivia cs) :
      IsTrivia ('/' :: '*' :: (body ++ '*' :: '/' :: cs))

namespace Cursor

variable {place : Position} {cs : List Char} {behind : Cursor}

theorem skipTrivia_line {body : List Char} (oneLine : '\n' ∉ body) :
    skipTrivia .line place (body ++ '\n' :: cs) =
      skipTrivia .blanks (place.after (body ++ ['\n'])) cs := by
  induction body generalizing place with
  | nil => rfl
  | cons c body ih =>
    obtain ⟨other, rest⟩ := not_or.mp fun found => oneLine (List.mem_cons.mpr found)
    rw [List.cons_append, skipTrivia, if_neg (Ne.symm other), ih rest]
    rfl

/-- One more character in a block comment makes an end of it only with the character behind it. -/
theorem block_infix_cons {c : Char} {body : List Char} :
    ['*', '/'] <:+: c :: body ++ ['*'] ↔
      ['*', '/'] <+: c :: (body ++ '*' :: '/' :: cs) ∨ ['*', '/'] <:+: body ++ ['*'] := by
  rw [List.cons_append, List.infix_cons_iff]
  cases body <;> simp

theorem skipTrivia_block {opening : Position} {body : List Char} (firstEnd : ¬['*', '/'] <:+: body ++ ['*']) :
    skipTrivia (.block opening) place (body ++ '*' :: '/' :: cs) =
      skipTrivia .blanks (place.after (body ++ ['*', '/'])) cs := by
  induction body generalizing place with
  | nil => rfl
  | cons c body ih =>
    obtain ⟨noEnd, later⟩ := not_or.mp (mt block_infix_cons.mpr firstEnd)
    rw [List.cons_append, skipTrivia_block_cons fun rest same => noEnd ⟨rest, same.symm⟩, ih later]
    rfl

/-- Reading passes over trivia, whatever follows them. -/
theorem skipTrivia_append {gap : List Char} (trivia : IsTrivia gap) :
    skipTrivia .blanks place (gap ++ cs) = skipTrivia .blanks (place.after gap) cs := by
  induction trivia generalizing place with
  | nil => rfl
  | @blank c gap isBlank rest ih =>
    have plain : c ≠ '/' := by
      rintro rfl
      exact absurd isBlank (by decide)
    rw [List.cons_append, skipTrivia_blanks_cons (by simp [plain]) (by simp [plain]), if_pos isBlank, ih]
    rfl
  | @line body gap oneLine rest ih =>
    have regroup : '/' :: '/' :: (body ++ '\n' :: gap) ++ cs = '/' :: '/' :: (body ++ '\n' :: (gap ++ cs)) := by
      simp
    rw [regroup, skipTrivia, skipTrivia_line oneLine, ih, ← Position.after_append]
    simp
  | @block body gap firstEnd rest ih =>
    have regroup : '/' :: '*' :: (body ++ '*' :: '/' :: gap) ++ cs =
        '/' :: '*' :: (body ++ '*' :: '/' :: (gap ++ cs)) := by
      simp
    rw [regroup, skipTrivia, skipTrivia_block firstEnd, ih, ← Position.after_append]
    simp

/-- What is passed over on the way to a token: the rest of a comment that is open, and trivia. -/
def Trivia.Passes : Trivia → List Char → Prop
  | .blanks, passed => IsTrivia passed
  | .line, passed => IsTrivia ('/' :: '/' :: passed)
  | .block _, passed => IsTrivia ('/' :: '*' :: passed)

theorem Trivia.Passes.cons_line {c : Char} {passed : List Char} (other : c ≠ '\n')
    (passes : Trivia.line.Passes passed) : Trivia.line.Passes (c :: passed) := by
  cases passes with
  | blank isBlank => exact absurd isBlank (by decide)
  | @line body gap oneLine rest =>
    have longer : '\n' ∉ c :: body := by simp [oneLine, Ne.symm other]
    exact .line longer rest

theorem Trivia.Passes.cons_block {opening : Position} {c : Char} {passed : List Char}
    (noEnd : ¬['*', '/'] <+: c :: (passed ++ cs)) (passes : (Trivia.block opening).Passes passed) :
    (Trivia.block opening).Passes (c :: passed) := by
  cases passes with
  | blank isBlank => exact absurd isBlank (by decide)
  | @block body gap firstEnd rest =>
    have regroup : body ++ '*' :: '/' :: gap ++ cs = body ++ '*' :: '/' :: (gap ++ cs) := by simp
    rw [regroup] at noEnd
    have longer : ¬['*', '/'] <:+: c :: body ++ ['*'] := mt block_infix_cons.mp (not_or.mpr ⟨noEnd, firstEnd⟩)
    exact .block longer rest

/-- What reading passes over on the way to a token are trivia. -/
theorem skipTrivia_isTrivia {trivia : Trivia} (skip : skipTrivia trivia place cs = (.ok (), behind))
    (more : behind.rest ≠ []) :
    ∃ passed, Cursor.Passes ⟨cs, place⟩ passed behind ∧ trivia.Passes passed := by
  fun_induction skipTrivia trivia place cs with
  | case1 | case6 =>
    cases skip
    exact (more rfl).elim
  | case8 => cases skip
  | case2 _ _ ih | case3 _ _ ih =>
    obtain ⟨passed, passes, isTrivia⟩ := ih skip
    exact ⟨_, passes.cons.cons, isTrivia⟩
  | case4 place c cs _ _ blank ih =>
    obtain ⟨passed, passes, isTrivia⟩ := ih skip
    exact ⟨_, passes.cons, .blank blank isTrivia⟩
  | case5 =>
    cases skip
    exact ⟨[], .refl, .nil⟩
  | case7 place c cs ih =>
    obtain ⟨passed, passes, isTrivia⟩ := ih skip
    refine ⟨_, passes.cons, ?_⟩
    by_cases newline : c = '\n'
    · subst newline
      exact @IsTrivia.line [] passed List.not_mem_nil isTrivia
    · rw [if_neg newline] at isTrivia
      exact isTrivia.cons_line newline
  | case9 opening place cs ih =>
    obtain ⟨passed, passes, isTrivia⟩ := ih skip
    exact ⟨_, passes.cons.cons, @IsTrivia.block [] passed (by decide) isTrivia⟩
  | case10 opening place c cs noEnd ih =>
    obtain ⟨passed, passes, isTrivia⟩ := ih skip
    have stays : ¬['*', '/'] <+: c :: (passed ++ behind.rest) := by
      rw [← passes.rest]
      rintro ⟨rest, same⟩
      obtain ⟨rfl, closes⟩ := List.cons.inj same
      exact noEnd rest rfl closes.symm
    exact ⟨_, passes.cons, isTrivia.cons_block stays⟩

/-- A comment without an end: it was open before, or it begins behind what was passed over first. -/
theorem skipTrivia_error {trivia : Trivia} {e : SyntaxError}
    (skip : skipTrivia trivia place cs = (.error e, behind)) :
    (∃ gap start part, Cursor.Passes ⟨cs, place⟩ gap start ∧ start.Passes part behind ∧
      e.span = .between start.place behind.place) ∨
    ∃ opening passed, trivia = .block opening ∧ Cursor.Passes ⟨cs, place⟩ passed behind ∧
      e.span = .between opening behind.place := by
  fun_induction skipTrivia trivia place cs with
  | case1 | case5 | case6 => cases skip
  | case8 opening place =>
    cases skip
    exact .inr ⟨opening, [], rfl, .refl, rfl⟩
  | case2 place cs ih | case9 opening place cs ih =>
    rcases ih skip with ⟨gap, start, part, before, within, span⟩ | ⟨_, _, other, _⟩
    · exact .inl ⟨_, start, part, before.cons.cons, within, span⟩
    · cases other
  | case3 place cs ih =>
    rcases ih skip with ⟨gap, start, part, before, within, span⟩ | ⟨_, passed, same, within, span⟩
    · exact .inl ⟨_, start, part, before.cons.cons, within, span⟩
    · cases same
      exact .inl ⟨[], _, _, .refl, within.cons.cons, span⟩
  | case4 place c cs _ _ _ ih =>
    rcases ih skip with ⟨gap, start, part, before, within, span⟩ | ⟨_, _, other, _⟩
    · exact .inl ⟨_, start, part, before.cons, within, span⟩
    · cases other
  | case7 place c cs ih =>
    rcases ih skip with ⟨gap, start, part, before, within, span⟩ | ⟨_, _, other, _⟩
    · exact .inl ⟨_, start, part, before.cons, within, span⟩
    · split at other <;> cases other
  | case10 opening place c cs _ ih =>
    rcases ih skip with ⟨gap, start, part, before, within, span⟩ | ⟨_, passed, same, within, span⟩
    · exact .inl ⟨_, start, part, before.cons, within, span⟩
    · exact .inr ⟨_, _, same, within.cons, span⟩

end Cursor

end Vtl
