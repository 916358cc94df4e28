import Vtl.Proofs.Relocation
import Vtl.Proofs.TokenSeam

namespace Vtl

/-- How far a text is moved by what is put in front of it: its bytes and lines, and the columns of its
first line. -/
structure Shift where
  bytes : Nat
  lines : Nat
  columns : Nat
deriving DecidableEq

/-- The shift of a text that is put behind another one. -/
def Shift.behind (text : List Char) : Shift :=
  let place := Position.start.after text
  ⟨place.offset, place.line - 1, place.column - 1⟩

def Position.shift (move : Shift) (place : Position) : Position :=
  ⟨place.offset + move.bytes, place.line + move.lines,
    if place.line = 1 then place.column + move.columns else place.column⟩

def Span.shift (move : Shift) (span : Span) : Span :=
  ⟨span.start + move.bytes, span.stop + move.bytes, span.line + move.lines,
    if span.line = 1 then span.column + move.columns else span.column⟩

def Token.shift (move : Shift) (token : Token) : Token := { token with span := token.span.shift move }

def SyntaxError.shift (move : Shift) (e : SyntaxError) : SyntaxError := { e with span := e.span.shift move }

def Mark.shift (move : Shift) (mark : Mark) : Mark := { mark with span := mark.span.shift move }

/-- Moving a text as a change of the places in its tokens and trees. -/
def Shift.relocation (move : Shift) : Relocation where
  span := Span.shift move
  mark := Mark.shift move
  span_mark _ := rfl
  span_through _ _ := rfl

/-- A tree whose nodes and operators are moved and otherwise as they were. -/
def Tree.shift (move : Shift) (tree : Tree) : Tree := tree.relocate move.relocation

def Statement.shift (move : Shift) (statement : Statement) : Statement := statement.relocate move.relocation

variable {move : Shift}

namespace Position

variable {place : Position}

theorem line_step_pos (counted : 0 < place.line) (c : Char) : 0 < (place.step c).line := by
  unfold step
  split
  · exact Nat.succ_pos _
  · exact counted

theorem line_after_pos (counted : 0 < place.line) (cs : List Char) : 0 < (place.after cs).line := by
  induction cs generalizing place with
  | nil => exact counted
  | cons c cs ih => exact ih (line_step_pos counted c)

theorem column_after_pos (counted : 0 < place.column) (cs : List Char) : 0 < (place.after cs).column := by
  induction cs generalizing place with
  | nil => exact counted
  | cons c cs ih =>
    apply ih
    unfold step
    split
    · exact Nat.one_pos
    · exact Nat.succ_pos _

/-- Only the columns of the first line are moved, so lines have to be counted from one. -/
theorem shift_step (counted : 0 < place.line) (c : Char) :
    (place.step c).shift move = (place.shift move).step c := by
  unfold step shift
  split
  · simp only [Position.mk.injEq]
    exact ⟨by omega, by omega, if_neg (by omega)⟩
  · simp only [Position.mk.injEq]
    refine ⟨by omega, trivial, ?_⟩
    split <;> omega

theorem shift_after (counted : 0 < place.line) (cs : List Char) :
    (place.after cs).shift move = (place.shift move).after cs := by
  induction cs generalizing place with
  | nil => rfl
  | cons c cs ih => rw [after_cons, ih (line_step_pos counted c), shift_step counted, after_cons]

/-- A text that is put behind another one starts where that one ends. -/
theorem shift_start (text : List Char) : start.shift (.behind text) = start.after text := by
  have line := @line_after_pos start Nat.one_pos text
  have column := @column_after_pos start Nat.one_pos text
  simp only [shift, Shift.behind]
  generalize start.after text = place at line column
  obtain ⟨offset, line, column⟩ := place
  simp only [start, Position.mk.injEq, if_true]
  dsimp only at *
  omega

end Position

namespace Cursor

def shift (move : Shift) (cursor : Cursor) : Cursor := { cursor with place := cursor.place.shift move }

/-- Trivia are told apart alike wherever a text stands. -/
def Trivia.shift (move : Shift) : Trivia → Trivia
  | .blanks => .blanks
  | .line => .line
  | .block opening => .block (opening.shift move)

variable {cursor behind : Cursor} {place : Position} {cs : List Char} {token : Token}

theorem skipTrivia_shift (trivia : Trivia) (counted : 0 < place.line) (cs : List Char) :
    skipTrivia (trivia.shift move) (place.shift move) cs =
      ((skipTrivia trivia place cs).1.mapError (SyntaxError.shift move),
        (skipTrivia trivia place cs).2.shift move) := by
  fun_induction skipTrivia trivia place cs with
  | case1 | case6 | case8 => rfl
  | case2 place cs ih | case3 place cs ih | case9 _ place cs ih =>
    have once := Position.line_step_pos counted
    have moved := ih (Position.line_step_pos (once _) _)
    rw [Position.shift_step (once _), Position.shift_step counted] at moved
    exact moved
  | case4 place c cs noLine noBlock blank ih =>
    have moved := ih (Position.line_step_pos counted c)
    rw [Position.shift_step counted] at moved
    rw [Trivia.shift, skipTrivia_blanks_cons (cons_cons_ne noLine) (cons_cons_ne noBlock), if_pos blank]
    exact moved
  | case5 place c cs noLine noBlock other =>
    rw [Trivia.shift, skipTrivia_blanks_cons (cons_cons_ne noLine) (cons_cons_ne noBlock), if_neg other]
    rfl
  | case7 place c cs ih =>
    have moved := ih (Position.line_step_pos counted c)
    rw [Position.shift_step counted] at moved
    rw [← moved, Trivia.shift, skipTrivia]
    split <;> rfl
  | case10 opening place c cs noEnd ih =>
    have moved := ih (Position.line_step_pos counted c)
    rw [Position.shift_step counted] at moved
    rw [Trivia.shift, skipTrivia_block_cons (cons_cons_ne noEnd)]
    exact moved

/-- The same outcome at another place. -/
def shiftOutcome (move : Shift) (outcome : Except SyntaxError Token) : Except SyntaxError Token :=
  (outcome.map (Token.shift move)).mapError (SyntaxError.shift move)

theorem token_shift (counted : 0 < cursor.place.line) :
    (cursor.shift move).token = (shiftOutcome move cursor.token.1, cursor.token.2.shift move) := by
  rcases cursor with ⟨_ | ⟨c, cs⟩, place⟩
  · rfl
  · unfold Cursor.token
    simp only [shift]
    cases Lexeme.read c cs with
    | ok lexeme =>
      simp only [advance, ← Position.shift_after counted]
      rfl
    | error fault =>
      simp only [advance, ← Position.shift_after counted]
      rfl

/-- Moving a text moves what is read of it, token or fault, and changes nothing else. -/
theorem next_shift (counted : 0 < cursor.place.line) :
    (cursor.shift move).next = (shiftOutcome move cursor.next.1, cursor.next.2.shift move) := by
  have skipped := @skipTrivia_shift move _ .blanks counted cursor.rest
  obtain ⟨passed, passes⟩ := skipTrivia_passes .blanks cursor.place cursor.rest
  unfold next
  rw [show skipTrivia .blanks (cursor.shift move).place (cursor.shift move).rest = _ from skipped]
  rcases skip : skipTrivia .blanks cursor.place cursor.rest with ⟨e | done, start⟩
  · rfl
  · rw [skip] at passes
    have startCounted : 0 < start.place.line := by
      rw [passes.place]
      exact Position.line_after_pos counted passed
    exact token_shift startCounted

theorem line_next_pos (counted : 0 < cursor.place.line) (next : cursor.next = (.ok token, behind)) :
    0 < behind.place.line := by
  obtain ⟨trivia, taken, start, passes, takes, _⟩ := next_passes next
  rw [(passes.trans takes).place]
  exact Position.line_after_pos counted _

end Cursor

namespace Tokens

def shift (move : Shift) (tokens : Tokens) : Tokens :=
  ⟨tokens.items.map (Token.shift move), tokens.last.shift move⟩

/-- Moving a text moves its tokens and changes nothing else. -/
theorem readFrom_shift {cursor : Cursor} (counted : 0 < cursor.place.line) :
    readFrom (cursor.shift move) = ((readFrom cursor).map (shift move)).mapError (SyntaxError.shift move) := by
  fun_induction readFrom cursor with
  | case1 cursor e behind next =>
    have moved := @Cursor.next_shift move cursor counted
    rw [next] at moved
    exact readFrom_error moved
  | case2 cursor token behind next ends =>
    have moved := @Cursor.next_shift move cursor counted
    rw [next] at moved
    exact (readFrom_eq moved).trans (if_pos ends)
  | case3 cursor token behind next more ih =>
    have moved := @Cursor.next_shift move cursor counted
    rw [next] at moved
    refine (readFrom_eq moved).trans ((if_neg more).trans ?_)
    rw [show readFrom (Cursor.shift move behind) = _ from ih (Cursor.line_next_pos counted next)]
    cases readFrom behind <;> rfl

/-- A text has its own tokens behind any other text, moved by as much as that one takes. -/
theorem readFrom_behind_eq_ok {front text : List Char} {tokens : Tokens} :
    readFrom ⟨text, Position.start.after front⟩ = .ok tokens ↔
      ∃ own, readFrom ⟨text, .start⟩ = .ok own ∧ own.shift (.behind front) = tokens := by
  have moved := @readFrom_shift (.behind front) ⟨text, .start⟩ Nat.one_pos
  rw [Cursor.shift, Position.shift_start] at moved
  rw [moved, mapError_eq_ok, map_eq_ok]

end Tokens

theorem dropBytes_add (count : Nat) (before text : List Char) :
    dropBytes (count + byteLength before) (before ++ text) = dropBytes count text := by
  induction before with
  | nil => rfl
  | cons c before ih =>
    have positive := c.utf8Size_pos
    rw [List.cons_append, dropBytes, byteLength_cons, if_neg (by omega),
      show count + (c.utf8Size + byteLength before) - c.utf8Size = count + byteLength before by omega, ih]

variable {before text : List Char}

theorem Shift.bytes_behind (text : List Char) : (Shift.behind text).bytes = byteLength text := by
  simp [Shift.behind, Position.start]

theorem Span.slice_shift (bytes : move.bytes = byteLength before) (span : Span) :
    (span.shift move).slice (before ++ text) = span.slice text := by
  simp only [Span.slice, Span.shift, bytes, dropBytes_add, Nat.add_sub_add_right]

theorem Shift.relocation_between (bytes : move.bytes = byteLength before) :
    move.relocation.Between text (before ++ text) := by
  intro span
  exact congrArg (fun part => Mark.mk (String.ofList part) (span.shift move)) (Span.slice_shift bytes span)

/-- An expression is read alike wherever its text stands and whichever token closes it. -/
theorem Tree.read_shift (bytes : move.bytes = byteLength before) {close other : Token}
    {tokens rest : List Token} {tree : Tree} (run : read text close tokens = (.ok tree, rest)) :
    read (before ++ text) other (tokens.map (Token.shift move)) =
      (.ok (tree.shift move), rest.map (Token.shift move)) :=
  (@read_relocate _ _ _ _ other (Shift.relocation_between bytes) _ _ _).1 run

end Vtl
