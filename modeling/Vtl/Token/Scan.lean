import Vtl.Text.Blank
import Vtl.Token.Lexeme

namespace Vtl

/-- The unread part of a text and the place where it begins. -/
structure Cursor where
  rest : List Char
  place : Position
deriving DecidableEq

namespace Cursor

def ofString (source : String) : Cursor := ⟨source.toList, .start⟩

/-- Passes over `count` characters. -/
def advance (cursor : Cursor) (count : Nat) : Cursor :=
  ⟨cursor.rest.drop count, cursor.place.after (cursor.rest.take count)⟩

/-- The trivia being passed over: blanks, a comment that ends with the line, or a comment that ends
with `*/`, together with where it was opened. -/
inductive Trivia where
  | blanks
  | line
  | block (opening : Position)

/-- Passes over blanks and comments. Fails at the end of the text if a comment is still open there. -/
def skipTrivia : Trivia → Position → List Char → Except SyntaxError Unit × Cursor
  | .blanks, place, [] => (.ok (), ⟨[], place⟩)
  | .blanks, place, '/' :: '/' :: cs => skipTrivia .line ((place.step '/').step '/') cs
  | .blanks, place, '/' :: '*' :: cs => skipTrivia (.block place) ((place.step '/').step '*') cs
  | .blanks, place, c :: cs =>
    if CharClass.blank.contains c then skipTrivia .blanks (place.step c) cs
    else (.ok (), ⟨c :: cs, place⟩)
  | .line, place, [] => (.ok (), ⟨[], place⟩)
  | .line, place, c :: cs => skipTrivia (if c = '\n' then .blanks else .line) (place.step c) cs
  | .block opening, place, [] => (.error ⟨.openComment, .between opening place⟩, ⟨[], place⟩)
  | .block _, place, '*' :: '/' :: cs => skipTrivia .blanks ((place.step '*').step '/') cs
  | .block opening, place, c :: cs => skipTrivia (.block opening) (place.step c) cs

/-- Reads the token that begins where the cursor stands. -/
def token (cursor : Cursor) : Except SyntaxError Token × Cursor :=
  match cursor.rest with
  | [] => (.ok ⟨.endOfInput, "", .between cursor.place cursor.place⟩, cursor)
  | c :: cs =>
    match Lexeme.read c cs with
    | .ok lexeme =>
      let after := cursor.advance lexeme.length
      (.ok ⟨lexeme.kind, String.ofList lexeme.text, .between cursor.place after.place⟩, after)
    | .error (cause, count) =>
      let after := cursor.advance count
      (.error ⟨cause, .between cursor.place after.place⟩, after)

/-- The next token and the cursor behind it. A failure leaves the cursor where reading stopped, and
at the end of the text there is always one more end of input. -/
def next (cursor : Cursor) : Except SyntaxError Token × Cursor :=
  match skipTrivia .blanks cursor.place cursor.rest with
  | (.error e, stopped) => (.error e, stopped)
  | (.ok (), start) => start.token

/-- The outcomes of reading `count` times, going on after failures. -/
def outcomes (cursor : Cursor) : Nat → List (Except SyntaxError Token)
  | 0 => []
  | count + 1 => cursor.next.1 :: cursor.next.2.outcomes count

theorem skipTrivia_length (trivia : Trivia) (place : Position) (cs : List Char) :
    (skipTrivia trivia place cs).2.rest.length ≤ cs.length := by
  fun_induction skipTrivia trivia place cs <;> simp_all <;> omega

theorem token_progress {cursor after : Cursor} {token : Token}
    (read : cursor.token = (.ok token, after)) (more : token.kind ≠ .endOfInput) :
    after.rest.length < cursor.rest.length := by
  unfold Cursor.token at read
  split at read
  · cases read; simp at more
  · next c cs rest =>
    split at read
    · next lexeme ok =>
      cases read
      have := (Lexeme.read_progress ok).1
      simp only [advance, List.length_drop, rest, List.length_cons]
      omega
    · cases read

theorem next_progress {cursor after : Cursor} {token : Token}
    (read : cursor.next = (.ok token, after)) (more : token.kind ≠ .endOfInput) :
    after.rest.length < cursor.rest.length := by
  have skipped := skipTrivia_length .blanks cursor.place cursor.rest
  unfold next at read
  split at read
  · cases read
  · next start skip =>
    rw [skip] at skipped
    exact Nat.lt_of_lt_of_le (token_progress read more) skipped

end Cursor

/-- The tokens of a text before its end, and the end of input behind them. -/
structure Tokens where
  items : List Token
  last : Token
deriving DecidableEq

namespace Tokens

def toList (tokens : Tokens) : List Token := tokens.items ++ [tokens.last]

/-- Reads tokens up to the end of the input. -/
def readFrom (cursor : Cursor) : Except SyntaxError Tokens :=
  match _read : cursor.next with
  | (.error e, _) => .error e
  | (.ok token, after) =>
    if _more : token.kind = .endOfInput then .ok ⟨[], token⟩
    else (readFrom after).map fun tokens => { tokens with items := token :: tokens.items }
termination_by cursor.rest.length
decreasing_by exact Cursor.next_progress _read _more

def ofString (source : String) : Except SyntaxError Tokens := readFrom (.ofString source)

end Tokens

end Vtl
