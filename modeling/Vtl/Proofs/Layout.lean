import Vtl.Proofs.Bare
import Vtl.Proofs.Shifting
import Vtl.Proofs.TokenPlaces

namespace Vtl

/-- A text is cut in one way after a number of bytes. -/
theorem eq_of_byteLength_eq {before behind front rest : List Char} (whole : before ++ behind = front ++ rest)
    (length : byteLength before = byteLength front) : before = front := by
  rw [← takeBytes_append before behind, whole, length, takeBytes_append]

namespace Tokens

variable {before behind layout : List Char} {tokens : Tokens}

theorem readFrom_trivia (trivia : IsTrivia layout) (place : Position) :
    readFrom ⟨layout ++ behind, place⟩ = readFrom ⟨behind, place.after layout⟩ := by
  apply readFrom_congr
  rw [Cursor.next, Cursor.next, Cursor.skipTrivia_append trivia]

/-- The tokens of a text up to a place behind one of them, or up to its start, and those from there. -/
theorem exists_takes_before (read : readFrom ⟨before ++ behind, .start⟩ = .ok tokens)
    (seam : before = [] ∨ ∃ token ∈ tokens.items, token.span.stop = byteLength before) :
    ∃ earlier later, tokens.items = earlier ++ later ∧
      Cursor.Takes ⟨before ++ behind, .start⟩ earlier ⟨behind, Position.start.after before⟩ ∧
      readFrom ⟨behind, Position.start.after before⟩ = .ok ⟨later, tokens.last⟩ := by
  obtain ⟨items, last⟩ := tokens
  rcases seam with rfl | ⟨token, member, stop⟩
  · exact ⟨[], items, rfl, .nil, read⟩
  · obtain ⟨earlier, later, rfl⟩ := List.append_of_mem member
    rw [List.append_cons] at read
    obtain ⟨⟨rest, place⟩, takes, readLater⟩ := readFrom_append.mp read
    obtain ⟨passed, passes⟩ := takes.passes
    have offset : token.span.stop = place.offset := takes.stop List.getLast?_concat
    have reached : place = Position.start.after passed := passes.place
    have length : byteLength before = byteLength passed := by
      rw [← stop, offset, reached, Position.offset_after_start]
    obtain rfl := eq_of_byteLength_eq passes.rest length
    obtain rfl := List.append_cancel_left passes.rest
    rw [reached] at takes readLater
    exact ⟨earlier ++ [token], later, List.append_cons _ _ _, takes, readLater⟩

theorem bare_shift {move : Shift} (tokens : Tokens) : (tokens.shift move).bare = tokens.bare := by
  rw [shift, bare, bare, List.map_map]
  rfl

/-- A text has the same tokens behind one text and behind another, but for their places. -/
theorem readFrom_moved {front : List Char} (read : readFrom ⟨behind, Position.start.after front⟩ = .ok tokens)
    (other : List Char) :
    ∃ moved, readFrom ⟨behind, Position.start.after other⟩ = .ok moved ∧ moved.bare = tokens.bare := by
  obtain ⟨own, readOwn, rfl⟩ := readFrom_behind_eq_ok.mp read
  have further := (@readFrom_behind_eq_ok other _ _).mpr ⟨own, readOwn, rfl⟩
  exact ⟨_, further, by rw [bare_shift, bare_shift]⟩

/-- Trivia behind a token, or at the start of a text, move the tokens behind them and change nothing else.
The first character has to be a blank, or it could go on with the token before it. -/
theorem readFrom_layout {b : Char} (read : readFrom ⟨before ++ behind, .start⟩ = .ok tokens)
    (seam : before = [] ∨ ∃ token ∈ tokens.items, token.span.stop = byteLength before)
    (blank : CharClass.blank.contains b = true) (trivia : IsTrivia (b :: layout)) :
    ∃ spaced, readFrom ⟨before ++ b :: layout ++ behind, .start⟩ = .ok spaced ∧
      spaced.bare = tokens.bare := by
  obtain ⟨earlier, later, itemsSplit, takes, readLater⟩ := exists_takes_before read seam
  obtain ⟨moved, further, alike⟩ := readFrom_moved readLater (before ++ b :: layout)
  rw [Position.after_append, ← readFrom_trivia trivia] at further
  have cut := @Cursor.Takes.of_append before behind [] _ _ _ takes
  have spacedTakes := @Cursor.Takes.separator b before (layout ++ behind) _ _ _ _ (.of_blank blank) cut
  have spacedRead := readFrom_append.mpr ⟨_, spacedTakes, further⟩
  rw [← List.cons_append, ← List.append_assoc] at spacedRead
  refine ⟨_, spacedRead, ?_⟩
  obtain ⟨sameLater, sameLast⟩ := Tokens.mk.inj alike
  rw [bare, bare, itemsSplit, List.map_append, List.map_append]
  exact congrArg₂ Tokens.mk (congrArg (earlier.map Token.bare ++ ·) sameLater) sameLast

theorem toList_of_bare {tokens others : Tokens} (same : tokens.bare = others.bare) :
    (tokens.toList.map fun token => (token.kind, token.text)) =
      others.toList.map fun token => (token.kind, token.text) := by
  have bare := congrArg toList same
  simp only [toList, Tokens.bare, ← List.map_singleton, ← List.map_append] at bare
  have spelled := congrArg (List.map fun token => (token.kind, token.text)) bare
  rw [List.map_map, List.map_map] at spelled
  exact spelled

end Tokens

/-- Blanks and comments carry no meaning. If they begin with a blank, they can be put at the start of a
text or behind any of its tokens: the kinds and texts of the tokens stay, so the text parses to the same
trees but for places and source texts, these compile to the same expressions, and the text has the same
value and does the same in every session. -/
theorem layout_without_meaning {before behind layout : String} {tokens : Tokens}
    (read : Tokens.ofString (before ++ behind) = .ok tokens)
    (seam : before = "" ∨ ∃ token ∈ tokens.items, token.span.stop = byteLength before.toList)
    (trivia : IsTrivia layout.toList)
    (separate : ∃ b rest, layout.toList = b :: rest ∧ CharClass.blank.contains b = true) :
    (∃ spaced, Tokens.ofString (before ++ layout ++ behind) = .ok spaced ∧
      (spaced.toList.map fun token => (token.kind, token.text)) =
        tokens.toList.map fun token => (token.kind, token.text)) ∧
    (Tree.parse (before ++ layout ++ behind)).toOption.map Tree.bare =
      (Tree.parse (before ++ behind)).toOption.map Tree.bare ∧
    (Program.parse (before ++ layout ++ behind)).toOption.map (List.map Statement.bare) =
      (Program.parse (before ++ behind)).toOption.map (List.map Statement.bare) ∧
    (∀ tree other : Tree, tree.bare = other.bare →
      ∀ scope, (tree.compile scope).toOption = (other.compile scope).toOption) ∧
    (∀ (bindings : Bindings) (policy : KeyPolicy),
      (bindings.evaluate policy (before ++ layout ++ behind)).toOption =
        (bindings.evaluate policy (before ++ behind)).toOption) ∧
    ∀ session : Session,
      (session.execute (before ++ layout ++ behind)).1.toOption =
          (session.execute (before ++ behind)).1.toOption ∧
        (session.execute (before ++ layout ++ behind)).2 = (session.execute (before ++ behind)).2 := by
  obtain ⟨b, rest, begins, blank⟩ := separate
  rw [begins] at trivia
  have seamChars : before.toList = [] ∨
      ∃ token ∈ tokens.items, token.span.stop = byteLength before.toList := by
    refine seam.imp_left ?_
    rintro rfl
    rfl
  have readChars : Tokens.readFrom ⟨before.toList ++ behind.toList, .start⟩ = .ok tokens := by
    rw [← String.toList_append]
    exact read
  obtain ⟨spaced, spacedRead, bare⟩ := Tokens.readFrom_layout readChars seamChars blank trivia
  have spacedTokens : Tokens.ofString (before ++ layout ++ behind) = .ok spaced := by
    rw [Tokens.ofString, Cursor.ofString, String.toList_append, String.toList_append, begins]
    exact spacedRead
  have alike : Alike (before ++ layout ++ behind) (before ++ behind) :=
    ⟨spaced, tokens, spacedTokens, read, bare⟩
  refine ⟨⟨spaced, spacedTokens, Tokens.toList_of_bare bare⟩, ?_, ?_, ?_, ?_, alike.execute⟩
  · exact map_toOption_congr (fun _ => alike.exists_tree) fun _ => alike.symm.exists_tree
  · exact map_toOption_congr (fun _ => alike.exists_program) fun _ => alike.symm.exists_program
  · intro tree other same scope
    exact toOption_congr fun _ => Tree.compile_congr same
  · exact alike.evaluate

theorem layout_without_meaning_divided :
    (Tokens.ofString "6/\t/*/ 1 */2").toOption.map
        (fun spaced => spaced.toList.map fun token => (token.kind, token.text)) =
      some [(.integerConstant, "6"), (.over, "/"), (.integerConstant, "2"), (.endOfInput, "")] ∧
    ∀ session : Session, (session.execute "6/\t/*/ 1 */2").1.toOption = (session.execute "6/2").1.toOption := by
  have read : Tokens.ofString ("6/" ++ "2") =
      .ok ⟨[⟨.integerConstant, "6", ⟨0, 1, 1, 1⟩⟩, ⟨.over, "/", ⟨1, 2, 1, 2⟩⟩,
        ⟨.integerConstant, "2", ⟨2, 3, 1, 3⟩⟩], ⟨.endOfInput, "", ⟨3, 3, 1, 4⟩⟩⟩ := by
    decide +kernel
  have trivia : IsTrivia "\t/*/ 1 */".toList :=
    .blank (by decide) (@IsTrivia.block ['/', ' ', '1', ' '] [] (by decide) .nil)
  obtain ⟨⟨spaced, spacedRead, same⟩, _, _, _, _, executed⟩ := layout_without_meaning read
    (.inr ⟨_, List.mem_cons_of_mem _ List.mem_cons_self, by decide⟩) trivia ⟨'\t', _, rfl, by decide⟩
  refine ⟨?_, fun session => (executed session).1⟩
  rw [show "6/\t/*/ 1 */2" = "6/" ++ "\t/*/ 1 */" ++ "2" from rfl, spacedRead]
  exact congrArg some same

end Vtl
