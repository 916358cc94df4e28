import Vtl.Proofs.ProgramPrefix
import Vtl.Proofs.Shifting
import Vtl.Proofs.TokenPlaces

namespace Vtl

/-- The tokens of a text in three runs: the gap before the second run and the text from its first token to
its last one. -/
theorem Tokens.readFrom_stretch {text : List Char} {before middle behind : List Token} {first last stop : Token}
    (read : readFrom ⟨text, .start⟩ = .ok ⟨before ++ middle ++ behind, stop⟩)
    (atFirst : middle.head? = some first) (atLast : middle.getLast? = some last) :
    ∃ earlier gap part rest, text = earlier ++ (gap ++ (part ++ rest)) ∧ IsTrivia gap ∧
      Cursor.Takes ⟨text, .start⟩ before ⟨gap ++ (part ++ rest), Position.start.after earlier⟩ ∧
      Cursor.Takes ⟨part ++ rest, Position.start.after (earlier ++ gap)⟩ middle
        ⟨rest, Position.start.after (earlier ++ gap ++ part)⟩ ∧
      readFrom ⟨rest, Position.start.after (earlier ++ gap ++ part)⟩ = .ok ⟨behind, stop⟩ ∧
      first.span.through last.span =
        .between (Position.start.after (earlier ++ gap)) (Position.start.after (earlier ++ gap ++ part)) := by
  rw [List.append_assoc] at read
  obtain ⟨⟨hereRest, herePlace⟩, takesBefore, readHere⟩ := readFrom_append.mp read
  obtain ⟨⟨rest, after⟩, takesMiddle, readBehind⟩ := readFrom_append.mp readHere
  obtain ⟨earlier, toHere⟩ := takesBefore.passes
  obtain ⟨⟨startRest, place⟩, part, skip, filled, overPart, takes, span⟩ := takesMiddle.stretch atFirst atLast
  obtain ⟨gap, toStart, trivia⟩ := Cursor.skipTrivia_isTrivia skip filled
  have reached := toHere.trans toStart
  obtain rfl : startRest = part ++ rest := overPart.rest
  obtain rfl : hereRest = gap ++ (part ++ rest) := toStart.rest
  obtain rfl : herePlace = Position.start.after earlier := toHere.place
  obtain rfl : place = Position.start.after (earlier ++ gap) := reached.place
  obtain rfl : after = Position.start.after (earlier ++ gap ++ part) := (reached.trans overPart).place
  exact ⟨earlier, gap, part, rest, toHere.rest, trivia, takesBefore, takes, readBehind, span⟩

/-- The part of a text from one of its tokens to another has the tokens that it has in the text, but
for their places. -/
theorem Tokens.readFrom_part {text : List Char} {before middle behind : List Token} {first last stop : Token}
    (read : readFrom ⟨text, .start⟩ = .ok ⟨before ++ middle ++ behind, stop⟩)
    (atFirst : middle.head? = some first) (atLast : middle.getLast? = some last) :
    ∃ front part rest own, text = front ++ part ++ rest ∧
      first.span.through last.span = .between (Position.start.after front) (Position.start.after (front ++ part)) ∧
      readFrom ⟨part, .start⟩ = .ok own ∧ own.items.map (Token.shift (.behind front)) = middle ∧
      ∀ token ∈ middle, token.span.Inside (front ++ part) := by
  obtain ⟨earlier, gap, part, rest, split, _, _, takes, _, span⟩ := readFrom_stretch read atFirst atLast
  have cut := readFrom_append.mpr ⟨_, @Cursor.Takes.of_append part rest [] _ _ _ takes,
    readFrom_nil.mpr ⟨_, rfl, rfl⟩⟩
  obtain ⟨own, readOwn, moved⟩ := readFrom_behind_eq_ok.mp cut
  refine ⟨earlier ++ gap, part, rest, own, ?_, span, readOwn, ?_, ?_⟩
  · rw [split, List.append_assoc, List.append_assoc]
  · rw [← List.append_nil middle]
    exact congrArg Tokens.items moved
  · intro token member
    exact readFrom_inside ⟨rfl, rfl⟩ cut (List.mem_append_left _ member)

namespace Tree

/-- Tokens that build a node where they stand build the same node where their own text starts. -/
theorem Built.copy {front part rest : List Char} {close : Token} {own : List Token} {node : Tree} {level : Nat}
    (built : Built (front ++ part ++ rest) node level (own.map (Token.shift (.behind front))))
    (inside : ∀ token ∈ own.map (Token.shift (.behind front)), token.span.Inside (front ++ part)) :
    ∃ copy, read part close own = (.ok copy, []) ∧ copy.shift (.behind front) = node := by
  have run : read (front ++ part ++ rest) close _ = (.ok node, []) := read_of_built built
  have derives : node.shape.Derives own :=
    (@Shape.derives_relocate (Shift.relocation (.behind front)) _ _).mp (derives_of_read run)
  obtain ⟨copy, _, ownRun⟩ := @read_of_derives part close _ _ derives
  have moved := @read_shift _ _ _ (Shift.bytes_behind front) _ close _ _ _ ownRun
  have extended : read (front ++ part ++ rest) close _ = read (front ++ part) close _ :=
    (read_append inside).1 (List.forall_mem_nil _)
  rw [extended, moved] at run
  exact ⟨copy, ownRun, Except.ok.inj (Prod.mk.inj run).1⟩

/-- The text of every node is a source of its own, and what it parses to is the node, moved to the place
where the text stands. -/
theorem parse_node_text {source : String} {tree node : Tree} (parsed : parse source = .ok tree)
    (part : node ∈ tree.nodes) :
    ∃ before behind : String, source = before ++ node.text ++ behind ∧
      node.span.start = byteLength before.toList ∧
      ∃ copy, parse node.text = .ok copy ∧ copy.shift (.behind before.toList) = node := by
  obtain ⟨⟨items, last⟩, read, whole⟩ := bind_eq_ok.mp parsed
  obtain ⟨_, builtTree⟩ := built_of_read (readWhole_eq_ok_iff.mp whole)
  obtain ⟨level, earlier, middle, later, rfl, built, _⟩ := builtTree.exists_node part
  obtain ⟨first, final, atFirst, atFinal, mark⟩ := built.ends
  obtain ⟨front, text, rest, own, split, span, readOwn, rfl, inside⟩ :=
    Tokens.readFrom_part read atFirst atFinal
  rw [split] at built mark
  rw [span, markOf, Span.slice_between] at mark
  obtain ⟨copy, run, moved⟩ := @Built.copy _ _ _ own.last _ _ _ built inside
  have nodeText : node.text = String.ofList text := by rw [Tree.text, mark]
  refine ⟨String.ofList front, String.ofList rest, ?_, ?_, copy, ?_, ?_⟩
  · rw [nodeText, ← String.ofList_append, ← String.ofList_append, ← split, String.ofList_toList]
  · rw [Tree.span, mark, String.toList_ofList]
    exact Position.offset_after_start front
  · refine bind_eq_ok.mpr ⟨own, ?_, ?_⟩
    · rw [nodeText, Tokens.ofString, Cursor.ofString, String.toList_ofList]
      exact readOwn
    · rw [nodeText, String.toList_ofList]
      exact readWhole_eq_ok_iff.mpr run
  · rw [String.toList_ofList]
    exact moved

/-- A string and a quoted name in parentheses, in the second line of a text. -/
def quotedSum : Tree :=
  .parens ⟨"(\"\"\"\" || 'b c')", ⟨5, 20, 2, 1⟩⟩
    (.binary ⟨"\"\"\"\" || 'b c'", ⟨6, 19, 2, 2⟩⟩ .sum
      (.constant ⟨"\"\"\"\"", ⟨6, 10, 2, 2⟩⟩ (.string "\"")) ⟨.concat, "||", ⟨11, 13, 2, 7⟩⟩
      (.variable ⟨"'b c'", ⟨14, 19, 2, 10⟩⟩ "b c"))

theorem parse_node_text_quotedSum :
    ∃ before behind : String, "é -\n(\"\"\"\" || 'b c')" = before ++ "(\"\"\"\" || 'b c')" ++ behind ∧
      5 = byteLength before.toList ∧
      ∃ copy, parse "(\"\"\"\" || 'b c')" = .ok copy ∧ copy.shift (.behind before.toList) = quotedSum := by
  have parsed : parse "é -\n(\"\"\"\" || 'b c')" =
      .ok (.binary ⟨"é -\n(\"\"\"\" || 'b c')", ⟨0, 20, 1, 1⟩⟩ .sum (.variable ⟨"é", ⟨0, 2, 1, 1⟩⟩ "é")
        ⟨.minus, "-", ⟨3, 4, 1, 3⟩⟩ quotedSum) := by
    decide +kernel
  have part : quotedSum ∈ nodes (.binary ⟨"é -\n(\"\"\"\" || 'b c')", ⟨0, 20, 1, 1⟩⟩ .sum
      (.variable ⟨"é", ⟨0, 2, 1, 1⟩⟩ "é") ⟨.minus, "-", ⟨3, 4, 1, 3⟩⟩ quotedSum) := by
    decide
  have text : quotedSum.text = "(\"\"\"\" || 'b c')" := rfl
  have start : quotedSum.span.start = 5 := rfl
  rw [← text, ← start]
  exact parse_node_text parsed part

end Tree

end Vtl
