import Vtl.Proofs.Layout
import Vtl.Proofs.NodeTexts
import Vtl.Proofs.Rewording

namespace Vtl

theorem Lexeme.Separator.of_paren {b : Char} (paren : b ∈ ['(', ')']) : Separator b := by
  rcases List.mem_pair.mp paren with rfl | rfl <;> constructor <;> decide +kernel

namespace Tokens

variable {text front part rest : List Char} {before middle behind : List Token} {first last stop : Token}

/-- A parenthesis behind the last one of some tokens closes them off, and moves what stands behind it. -/
theorem readFrom_closing
    (takes : Cursor.Takes ⟨part ++ rest, Position.start.after front⟩ middle
      ⟨rest, Position.start.after (front ++ part)⟩)
    (read : readFrom ⟨rest, Position.start.after (front ++ part)⟩ = .ok ⟨behind, stop⟩) :
    ∃ closing : Token, closing.kind = .rightParen ∧ ∃ closed : Tokens,
      readFrom ⟨part ++ ')' :: rest, Position.start.after front⟩ = .ok closed ∧
      closed.items.map Token.bare = (middle ++ closing :: behind).map Token.bare := by
  have cut := @Cursor.Takes.of_append part rest [] _ _ _ takes
  have kept := @Cursor.Takes.separator ')' part rest _ _ _ _ (.of_paren (by decide)) cut
  obtain ⟨closing, closes, _, symbol⟩ := @Cursor.next_single rest ')' .rightParen (by decide) (by decide) rfl
    (Position.start.after (front ++ part))
  obtain ⟨moved, readMoved, alike⟩ := readFrom_moved read (front ++ part ++ [')'])
  rw [Position.after_append] at readMoved
  have readClosing := readFrom_cons.mpr ⟨_, symbol, by simp [closes], readMoved⟩
  refine ⟨closing, closes, _, readFrom_append.mpr ⟨_, kept, readClosing⟩, ?_⟩
  have items : moved.items.map Token.bare = behind.map Token.bare := congrArg Tokens.items alike
  simp only [List.map_append, List.map_cons, items]

/-- Parentheses around some tokens, right before the first one and right behind the last one, are two
tokens more and change no other. -/
theorem readFrom_parenthesized (read : readFrom ⟨text, .start⟩ = .ok ⟨before ++ middle ++ behind, stop⟩)
    (atFirst : middle.head? = some first) (atLast : middle.getLast? = some last) :
    ∃ front part rest, text = front ++ part ++ rest ∧
      first.span.through last.span = .between (Position.start.after front) (Position.start.after (front ++ part)) ∧
      ∃ opening closing : Token, opening.kind = .leftParen ∧ closing.kind = .rightParen ∧ ∃ again : Tokens,
        readFrom ⟨front ++ '(' :: (part ++ ')' :: rest), .start⟩ = .ok again ∧
        again.items.map Token.bare = (before ++ (opening :: middle ++ [closing]) ++ behind).map Token.bare := by
  obtain ⟨earlier, gap, part, rest, split, trivia, takesBefore, takes, readBehind, span⟩ :=
    readFrom_stretch read atFirst atLast
  obtain ⟨closing, closes, closed, readClosed, closedItems⟩ := readFrom_closing takes readBehind
  obtain ⟨moved, readMoved, alike⟩ := readFrom_moved readClosed (earlier ++ gap ++ ['('])
  rw [Position.after_append] at readMoved
  obtain ⟨opening, opens, _, symbol⟩ := @Cursor.next_single (part ++ ')' :: rest) '(' .leftParen (by decide)
    (by decide) rfl (Position.start.after (earlier ++ gap))
  have readOpening := readFrom_cons.mpr ⟨_, symbol, by simp [opens], readMoved⟩
  rw [Position.after_append, ← readFrom_trivia trivia] at readOpening
  rw [split, ← List.append_assoc] at takesBefore
  have cut := Cursor.Takes.of_append takesBefore
  have kept := @Cursor.Takes.separator '(' _ (part ++ ')' :: rest) _ _ _ _ (.of_paren (by decide)) cut
  refine ⟨earlier ++ gap, part, rest, ?_, span, opening, closing, opens, closes, _,
    readFrom_append.mpr ⟨_, kept, readOpening⟩, ?_⟩
  · rw [split, List.append_assoc, List.append_assoc]
  · have items : moved.items.map Token.bare = closed.items.map Token.bare := congrArg Tokens.items alike
    simp only [List.map_append, List.map_cons, items, closedItems, List.append_assoc, List.cons_append,
      List.nil_append]

end Tokens

namespace Tree

/-- The kind of a fault does not depend on parentheses, texts and places. -/
theorem matches_core (tree : Tree) : tree.Matches CompileError.kind CompileError.kind tree.shape.core := by
  have marks (mark other : Mark) : mark.Matches CompileError.kind CompileError.kind other :=
    ⟨fun _ _ => rfl, fun _ => rfl, fun _ => rfl, rfl⟩
  have tokens (token other : Token) (kind : other.kind = token.kind) :
      token.Matches CompileError.kind CompileError.kind other :=
    ⟨kind, fun _ _ => rfl, fun _ _ _ => rfl, fun _ => rfl, fun _ => rfl⟩
  induction tree with
  | parens mark inner ih => exact .leftParens ih
  | unary mark op operand ih => exact .unary (tokens _ _ rfl) ih (marks _ _)
  | binary mark production left op right leftIh rightIh =>
    exact .binary (marks _ _) (tokens _ _ rfl) leftIh (marks _ _) rightIh (marks _ _)
  | «variable» mark name => exact .variable (marks _ _)
  | constant mark value => exact .constant

theorem compile_kind_congr {tree other : Tree} (same : tree.shape.core = other.shape.core) (scope : Scope) :
    (tree.compile scope).mapError CompileError.kind = (other.compile scope).mapError CompileError.kind := by
  rw [tree.matches_core.compile scope, same, other.matches_core.compile scope]

/-- Parentheses around a node are redundant. Put right before its text and right behind it, they give a
source that parses, and what that parses to compiles to the same expression, or fails as the tree without
them does. -/
theorem parse_parenthesized {source : String} {tree node : Tree} (parsed : parse source = .ok tree)
    (part : node ∈ tree.nodes) :
    ∃ before behind : String, source = before ++ node.text ++ behind ∧
      node.span.start = byteLength before.toList ∧
      node.span.stop = byteLength (before ++ node.text).toList ∧
      ∃ again, parse (before ++ "(" ++ node.text ++ ")" ++ behind) = .ok again ∧
        ∀ scope, (again.compile scope).mapError CompileError.kind =
          (tree.compile scope).mapError CompileError.kind := by
  obtain ⟨⟨items, stop⟩, read, whole⟩ := bind_eq_ok.mp parsed
  obtain ⟨_, builtTree⟩ := built_of_read (readWhole_eq_ok_iff.mp whole)
  obtain ⟨level, earlier, middle, later, rfl, built, wrap⟩ := builtTree.exists_node part
  obtain ⟨first, final, atFirst, atFinal, mark⟩ := built.ends
  obtain ⟨front, text, rest, split, span, opening, closing, opens, closes, again, readAgain, items⟩ :=
    Tokens.readFrom_parenthesized read atFirst atFinal
  rw [split, span, markOf, Span.slice_between] at mark
  -- The tokens with the parentheses derive a tree, and so do their copies at their own places.
  obtain ⟨wrapped, _, builtWrapped, _, core⟩ := wrap opens closes
  have derives : wrapped.shape.Derives (again.items.map Token.bare) := by
    rw [items]
    exact Shape.derives_relocate.mpr (derives_of_read (@read_of_built _ stop _ _ _ builtWrapped))
  obtain ⟨reread, shape, run⟩ := @read_of_derives (front ++ '(' :: (text ++ ')' :: rest)) again.last _ _
    (Shape.derives_relocate.mp derives)
  have nodeText : node.text = String.ofList text := by rw [Tree.text, mark]
  refine ⟨String.ofList front, String.ofList rest, ?_, ?_, ?_, reread, ?_, ?_⟩
  · rw [nodeText, ← String.ofList_append, ← String.ofList_append, ← split, String.ofList_toList]
  · rw [Tree.span, mark, String.toList_ofList]
    exact Position.offset_after_start front
  · rw [Tree.span, mark, nodeText, ← String.ofList_append, String.toList_ofList]
    exact Position.offset_after_start (front ++ text)
  · have chars : (String.ofList front ++ "(" ++ node.text ++ ")" ++ String.ofList rest).toList =
        front ++ '(' :: (text ++ ')' :: rest) := by
      simp [nodeText]
    refine bind_eq_ok.mpr ⟨again, ?_, ?_⟩
    · rw [Tokens.ofString, Cursor.ofString, chars]
      exact readAgain
    · rw [chars]
      exact readWhole_eq_ok_iff.mpr run
  · intro scope
    exact compile_kind_congr ((congrArg Shape.core shape).trans core) scope

/-- A difference with a comment in it. -/
def brokenDifference : Tree :=
  .binary ⟨"a -//\nb", ⟨0, 7, 1, 1⟩⟩ .sum (.variable ⟨"a", ⟨0, 1, 1, 1⟩⟩ "a") ⟨.minus, "-", ⟨2, 3, 1, 3⟩⟩
    (.variable ⟨"b", ⟨6, 7, 2, 1⟩⟩ "b")

theorem parse_parenthesized_brokenDifference :
    ∃ before behind : String, "a -//\nb - \"c\"" = before ++ "a -//\nb" ++ behind ∧
      0 = byteLength before.toList ∧ 7 = byteLength (before ++ "a -//\nb").toList ∧
      ∃ again, parse (before ++ "(" ++ "a -//\nb" ++ ")" ++ behind) = .ok again ∧
        (again.compile ⟨[("a", .scalar .integer), ("b", .scalar .integer)], .typed⟩).mapError CompileError.kind =
          .error .typeMismatch := by
  have parsed : parse "a -//\nb - \"c\"" =
      .ok (.binary ⟨"a -//\nb - \"c\"", ⟨0, 13, 1, 1⟩⟩ .sum brokenDifference ⟨.minus, "-", ⟨8, 9, 2, 3⟩⟩
        (.constant ⟨"\"c\"", ⟨10, 13, 2, 5⟩⟩ (.string "c"))) := by
    decide +kernel
  obtain ⟨before, behind, split, start, stop, again, parsedAgain, same⟩ :=
    @parse_parenthesized _ _ brokenDifference parsed (by decide)
  exact ⟨before, behind, split, start, stop, again, parsedAgain, same _⟩

end Tree

end Vtl
