import Mathlib.Data.List.DropRight
import Vtl.Proofs.TokenSeam
import Vtl.Proofs.Trivia

namespace Vtl

namespace Position

theorem line_after_start (cs : List Char) : (start.after cs).line = 1 + cs.count '\n' := by
  induction cs using List.reverseRecOn with
  | nil => rfl
  | append_singleton cs c ih =>
    rw [after_append, List.count_append, ← Nat.add_assoc, ← ih, after_cons, after_nil, step]
    split
    · next newline => simp [newline]
    · next other => simp [other]

theorem column_after_start (cs : List Char) :
    (start.after cs).column = 1 + (cs.rtakeWhile (· != '\n')).length := by
  induction cs using List.reverseRecOn with
  | nil => rfl
  | append_singleton cs c ih =>
    rw [after_append, after_cons, after_nil, step, List.rtakeWhile_concat]
    split
    · next newline => simp [newline]
    · next other => simp [other, ih, Nat.add_assoc]

theorem offset_after_start (cs : List Char) : (start.after cs).offset = byteLength cs := by
  rw [offset_after]
  exact Nat.zero_add _

end Position

theorem byteLength_toList (source : String) : byteLength source.toList = source.utf8ByteSize := by
  suffices ∀ cs : List Char, byteLength cs = (String.ofList cs).utf8ByteSize by
    simpa using this source.toList
  intro cs
  induction cs with
  | nil => rfl
  | cons c cs ih =>
    rw [String.ofList_cons, String.utf8ByteSize_append, String.utf8ByteSize_singleton, ← ih, byteLength_cons]

theorem byteLength_pos {cs : List Char} (filled : cs ≠ []) : 0 < byteLength cs := by
  obtain ⟨c, rest, rfl⟩ := List.exists_cons_of_ne_nil filled
  have positive := c.utf8Size_pos
  rw [byteLength_cons]
  omega

/-- The span of `part` in a text where it stands behind `before`. -/
structure Span.Covers (span : Span) (before part : List Char) : Prop where
  start : span.start = byteLength before
  stop : span.stop = byteLength (before ++ part)
  line : span.line = 1 + before.count '\n'
  column : span.column = 1 + (before.rtakeWhile (· != '\n')).length

namespace Span.Covers

variable {span : Span} {before part behind : List Char}

theorem between (before part : List Char) :
    (Span.between (Position.start.after before) (Position.start.after (before ++ part))).Covers before part :=
  ⟨Position.offset_after_start before, Position.offset_after_start _, Position.line_after_start before,
    Position.column_after_start before⟩

theorem of_passes {source : List Char} {start stop : Cursor} (reached : Cursor.Passes ⟨source, .start⟩ before start)
    (passes : start.Passes part stop) : (Span.between start.place stop.place).Covers before part := by
  have stopPlace := (reached.trans passes).place
  have startPlace := reached.place
  dsimp only at startPlace stopPlace
  rw [startPlace, stopPlace]
  exact between before part

theorem slice_eq (covers : span.Covers before part) : span.slice (before ++ part ++ behind) = part := by
  rw [Span.slice, covers.start, covers.stop, byteLength_append, Nat.add_sub_cancel_left, List.append_assoc,
    dropBytes_append, takeBytes_append]

theorem start_lt_stop (covers : span.Covers before part) (filled : part ≠ []) : span.start < span.stop := by
  have positive := byteLength_pos filled
  rw [covers.start, covers.stop, byteLength_append]
  omega

end Span.Covers

/-- A string with each quote in it written twice. -/
def doubleQuotes (text : List Char) : List Char := text.flatMap fun c => if c = '"' then ['"', '"'] else [c]

/-- How a token of a kind with a text is written. -/
inductive Token.Written : Token.Kind → List Char → List Char → Prop
  | plain {kind : Token.Kind} {text : List Char} (notString : kind ≠ .stringConstant) : Written kind text text
  | string {text : List Char} : Written .stringConstant text ('"' :: doubleQuotes text ++ ['"'])
  | quotedName {text : List Char} : Written .identifier text ('\'' :: text ++ ['\''])

namespace Lexeme

variable {c : Char} {cs text : List Char} {count : Nat} {lexeme : Lexeme}

theorem take_stringBody (read : stringBody cs = some (text, count)) :
    cs.take count = doubleQuotes text ++ ['"'] := by
  fun_induction stringBody cs generalizing text count with
  | case1 => cases read
  | case2 cs ih =>
    simp only [Option.map_eq_some_iff, Prod.mk.injEq] at read
    obtain ⟨⟨inner, innerCount⟩, found, rfl, rfl⟩ := read
    rw [List.take_succ_cons, List.take_succ_cons, ih found]
    rfl
  | case3 cs _ =>
    cases read
    rfl
  | case4 c cs _ plain ih =>
    simp only [Option.map_eq_some_iff, Prod.mk.injEq] at read
    obtain ⟨⟨inner, innerCount⟩, found, rfl, rfl⟩ := read
    rw [List.take_succ_cons, ih found, doubleQuotes, doubleQuotes, List.flatMap_cons, if_neg plain]
    rfl

theorem take_quotedName (closed : (cs.takeWhile (· != '\'')).length < cs.length) :
    cs.take ((cs.takeWhile (· != '\'')).length + 1) = cs.takeWhile (· != '\'') ++ ['\''] := by
  induction cs with
  | nil => cases closed
  | cons d cs ih =>
    by_cases tick : d = '\''
    · simp [tick]
    · simp only [List.takeWhile_cons, bne_iff_ne, ne_eq, tick, not_false_eq_true, if_true, List.length_cons,
        Nat.add_lt_add_iff_right] at closed ⊢
      rw [List.take_succ_cons, ih closed, List.cons_append]

/-- Digits behind a point are there only if a point is. -/
theorem fraction_prefix (some : fraction cs ≠ []) : '.' :: fraction cs <+: cs := by
  unfold fraction at some ⊢
  split
  · exact (List.prefix_cons_inj '.').mpr (List.takeWhile_prefix _)
  · next none =>
    split at some
    · next rest => exact (none rest rfl).elim
    · exact (some rfl).elim

/-- A text at the head of the characters is what its length takes from them. -/
theorem written_of_prefix {kind : Token.Kind} (head : text <+: cs) (length : count = text.length)
    (notString : kind ≠ .stringConstant) : Token.Written kind text (cs.take count) := by
  rw [length, ← List.prefix_iff_eq_take.mp head]
  exact .plain notString

theorem numeral_written : Token.Written (numeral cs).kind (numeral cs).text (cs.take (numeral cs).length) := by
  have whole : cs.takeWhile Char.isDigit <+: cs := List.takeWhile_prefix _
  rw [numeral_eq]
  dsimp only
  split
  · exact written_of_prefix whole rfl (by simp)
  · next some =>
    have behind := fraction_prefix (mt List.isEmpty_iff.mpr some)
    have both := (List.prefix_append_right_inj (cs.takeWhile Char.isDigit)).mpr behind
    rw [List.prefix_iff_eq_append.mp whole] at both
    exact written_of_prefix both (by simp [Nat.add_assoc, Nat.add_comm]) (by simp)

theorem keyword?_ne_stringConstant (name : List Char) :
    Token.Kind.keyword? name ≠ some .stringConstant := by
  intro found
  obtain ⟨entry, known, kind⟩ := Option.map_eq_some_iff.mp found
  have others : ∀ entry ∈ Token.Kind.keywords, entry.2 ≠ .stringConstant := by decide
  exact others entry (List.mem_of_find?_eq_some known) kind

theorem word_written : Token.Written (word cs).kind (word cs).text (cs.take (word cs).length) := by
  refine written_of_prefix (List.takeWhile_prefix _) rfl ?_
  have other := keyword?_ne_stringConstant (cs.takeWhile isNamePart)
  simp only [word]
  cases known : Token.Kind.keyword? (cs.takeWhile isNamePart) with
  | none => simp
  | some kind =>
    rw [known] at other
    simpa using other

/-- The characters that a lexeme takes are the written form of its text. -/
theorem read_written (read : Lexeme.read c cs = .ok lexeme) :
    Token.Written lexeme.kind lexeme.text ((c :: cs).take lexeme.length) := by
  unfold Lexeme.read at read
  split at read
  · next spelling kind found =>
    cases read
    have starts := List.find?_some found
    rw [List.isPrefixOf_iff_prefix] at starts
    have others : ∀ symbol ∈ symbols, symbol.2 ≠ .stringConstant := by decide
    exact written_of_prefix starts rfl (others _ (List.mem_of_find?_eq_some found))
  unfold readOther at read
  split at read
  · cases read
  split at read
  · cases read
  split at read
  · next quote =>
    split at read
    · next body count found =>
      cases read
      rw [quote, List.take_succ_cons, take_stringBody found]
      exact .string
    · cases read
  split at read
  · next tick =>
    dsimp only at read
    split at read
    · next closed =>
      cases read
      rw [tick, List.take_succ_cons, take_quotedName closed]
      exact .quotedName
    · cases read
  split at read
  · cases read
    exact word_written
  split at read
  · cases read
    exact numeral_written
  · cases read

end Lexeme

namespace Cursor

variable {cursor behind : Cursor} {token : Token}

/-- The stretch of text that an outcome of reading is about. -/
def outcomeSpan : Except SyntaxError Token → Span
  | .ok token => token.span
  | .error e => e.span

/-- A token or a fault is about all characters from where reading began to where it stopped, and those
of a token are its written form. -/
theorem token_stretch (cursor : Cursor) :
    ∃ part, cursor.Passes part cursor.token.2 ∧
      outcomeSpan cursor.token.1 = .between cursor.place cursor.token.2.place ∧
      ∀ token, cursor.token.1 = .ok token → token.kind ≠ .endOfInput →
        cursor.rest ≠ [] ∧ part ≠ [] ∧ Token.Written token.kind token.text.toList part := by
  unfold Cursor.token
  split
  · refine ⟨[], .refl, rfl, ?_⟩
    intro token read more
    cases read
    exact (more rfl).elim
  · next c cs rest =>
    split
    · next lexeme found =>
      refine ⟨_, advance_passes, rfl, ?_⟩
      intro token read _
      cases read
      have progress := (Lexeme.read_progress found).1
      rw [rest, String.toList_ofList]
      refine ⟨List.cons_ne_nil c cs, ?_, Lexeme.read_written found⟩
      simp only [ne_eq, List.take_eq_nil_iff, List.cons_ne_nil, or_false]
      omega
    · exact ⟨_, advance_passes, rfl, fun _ read => by cases read⟩

/-- An outcome is about the characters behind what was passed over first, up to where reading stopped.
Only trivia stand before a token. -/
theorem next_stretch (cursor : Cursor) :
    ∃ gap start part, cursor.Passes gap start ∧ start.Passes part cursor.next.2 ∧
      outcomeSpan cursor.next.1 = .between start.place cursor.next.2.place ∧
      ∀ token, cursor.next.1 = .ok token → token.kind ≠ .endOfInput →
        IsTrivia gap ∧ part ≠ [] ∧ Token.Written token.kind token.text.toList part := by
  unfold next
  rcases skip : skipTrivia .blanks cursor.place cursor.rest with ⟨e | done, start⟩
  · rcases skipTrivia_error skip with ⟨gap, opening, part, before, within, span⟩ | ⟨_, _, other, _⟩
    · exact ⟨gap, opening, part, before, within, span, fun _ read => by cases read⟩
    · cases other
  · obtain ⟨part, within, span, written⟩ := token_stretch start
    by_cases more : start.rest = []
    · obtain ⟨gap, before⟩ := skipTrivia_passes .blanks cursor.place cursor.rest
      rw [skip] at before
      exact ⟨gap, start, part, before, within, span, fun token read known =>
        ((written token read known).1 more).elim⟩
    · obtain ⟨gap, before, isTrivia⟩ := skipTrivia_isTrivia skip more
      exact ⟨gap, start, part, before, within, span, fun token read known =>
        ⟨isTrivia, (written token read known).2⟩⟩

/-- What holds of an outcome if the one before it ended at the byte `reached`: its span is that of a part
of the source and does not begin before `reached`. A token takes a part that is not empty and is its
written form, with nothing but trivia in front of it. -/
structure Exact (source : List Char) (reached : Nat) (outcome : Except SyntaxError Token) : Prop where
  span : ∃ before part behind, source = before ++ part ++ behind ∧ (outcomeSpan outcome).Covers before part
  forward : reached ≤ (outcomeSpan outcome).start
  token : ∀ token, outcome = .ok token → token.kind ≠ .endOfInput →
    token.span.start < token.span.stop ∧
      Token.Written token.kind token.text.toList (token.span.slice source) ∧
      ∃ before gap behind, source = before ++ gap ++ behind ∧ byteLength before = reached ∧
        byteLength (before ++ gap) = token.span.start ∧ IsTrivia gap

/-- One reading step is exact wherever it begins, and the next one begins where it ended. -/
theorem next_exact {source before : List Char} (reached : Passes ⟨source, .start⟩ before cursor) :
    Exact source (byteLength before) cursor.next.1 ∧
      ∃ further, Passes ⟨source, .start⟩ further cursor.next.2 ∧
        byteLength further = (outcomeSpan cursor.next.1).stop := by
  obtain ⟨gap, start, part, skipped, within, span, written⟩ := next_stretch cursor
  have atStart := reached.trans skipped
  have atStop := atStart.trans within
  have covers := Span.Covers.of_passes atStart within
  rw [← span] at covers
  have whole : source = before ++ gap ++ part ++ cursor.next.2.rest := atStop.rest
  refine ⟨⟨⟨_, part, _, whole, covers⟩, ?_, ?_⟩, _, atStop, covers.stop.symm⟩
  · rw [covers.start, byteLength_append]
    exact Nat.le_add_right _ _
  · intro token read more
    obtain ⟨isTrivia, filled, isWritten⟩ := written token read more
    rw [read] at covers
    refine ⟨covers.start_lt_stop filled, ?_, before, gap, _, atStart.rest, rfl, covers.start.symm, isTrivia⟩
    rw [whole, show token.span.slice _ = part from covers.slice_eq]
    exact isWritten

theorem length_outcomes (cursor : Cursor) (count : Nat) : (cursor.outcomes count).length = count := by
  induction count generalizing cursor with
  | zero => rfl
  | succ count ih => rw [outcomes, List.length_cons, ih]

/-- Where the last of some outcomes ended, or where reading began. -/
def reachedAfter (start : Nat) (earlier : List (Except SyntaxError Token)) : Nat :=
  (earlier.getLast?.map fun outcome => (outcomeSpan outcome).stop).getD start

theorem outcomes_exact_from {source before : List Char} {count : Nat}
    {earlier later : List (Except SyntaxError Token)} {outcome : Except SyntaxError Token}
    (reached : Passes ⟨source, .start⟩ before cursor)
    (split : cursor.outcomes count = earlier ++ outcome :: later) :
    Exact source (reachedAfter (byteLength before) earlier) outcome := by
  induction count generalizing cursor before earlier with
  | zero => simp [outcomes] at split
  | succ count ih =>
    obtain ⟨exact, further, reachedNext, ended⟩ := next_exact reached
    rw [outcomes] at split
    cases earlier with
    | nil =>
      obtain ⟨rfl, _⟩ := List.cons.inj split
      exact exact
    | cons first earlier =>
      obtain ⟨rfl, rest⟩ := List.cons.inj split
      have later := ih reachedNext rest
      rw [ended] at later
      cases earlier <;> exact later

end Cursor

/-- The tokens of a text end in one end of input, where the text ends. -/
theorem Tokens.readFrom_end {source before : List Char} {cursor : Cursor} {items : List Token} {last : Token}
    (reached : Cursor.Passes ⟨source, .start⟩ before cursor) (read : readFrom cursor = .ok ⟨items, last⟩) :
    (∀ token ∈ items, token.kind ≠ .endOfInput) ∧ last.kind = .endOfInput ∧ last.span.Covers source [] := by
  induction items generalizing before cursor with
  | nil =>
    obtain ⟨behind, next, ends⟩ := readFrom_nil.mp read
    obtain ⟨trivia, taken, start, passes, takes, _, made, span⟩ := Cursor.next_passes next
    have atStart := reached.trans passes
    have empty := takes.rest
    rw [Cursor.rest_of_endOfInput made ends] at empty
    obtain ⟨rfl, _⟩ := List.append_eq_nil_iff.mp empty.symm
    have whole : source = before ++ trivia := by
      have split := atStart.rest
      rwa [Cursor.rest_of_endOfInput made ends, List.append_nil] at split
    have covers := Span.Covers.of_passes atStart takes
    rw [← span, ← whole] at covers
    exact ⟨List.forall_mem_nil _, ends, covers⟩
  | cons first items ih =>
    obtain ⟨behind, next, more, rest⟩ := readFrom_cons.mp read
    obtain ⟨_, _, _, passes, takes, _⟩ := Cursor.next_passes next
    obtain ⟨others, ends, covers⟩ := ih (reached.trans (passes.trans takes)) rest
    exact ⟨List.forall_mem_cons.mpr ⟨more, others⟩, ends, covers⟩

/-- Reading a source again and again, also behind faults, gives outcomes with exact places, each behind the
one before, and all the source between two tokens is trivia. Tokens read to the end are followed by one
end of input. -/
theorem Cursor.outcomes_exact (source : String) (count : Nat) :
    ((ofString source).outcomes count).length = count ∧
      (∀ earlier outcome later, (ofString source).outcomes count = earlier ++ outcome :: later →
        Exact source.toList (reachedAfter 0 earlier) outcome) ∧
      ∀ tokens, Tokens.ofString source = .ok tokens →
        (∀ token ∈ tokens.items, token.kind ≠ .endOfInput) ∧ tokens.last.kind = .endOfInput ∧
          tokens.last.span.start = source.utf8ByteSize ∧ tokens.last.span.stop = source.utf8ByteSize := by
  refine ⟨length_outcomes _ count, ?_, ?_⟩
  · intro earlier outcome later split
    exact outcomes_exact_from .refl split
  · intro tokens read
    obtain ⟨others, ends, covers⟩ := Tokens.readFrom_end .refl read
    have stop := covers.stop
    rw [List.append_nil] at stop
    rw [← byteLength_toList]
    exact ⟨others, ends, covers.start, stop⟩

/-- A fault between two tokens: the string behind it is still found where it stands. -/
theorem Cursor.outcomes_exact_loneBar :
    (ofString "é| \"a\"\"b\"").outcomes 4 =
        [.ok ⟨.identifier, "é", ⟨0, 2, 1, 1⟩⟩, .error ⟨.loneBar, ⟨2, 3, 1, 2⟩⟩,
          .ok ⟨.stringConstant, "a\"b", ⟨4, 10, 1, 4⟩⟩, .ok ⟨.endOfInput, "", ⟨10, 10, 1, 10⟩⟩] ∧
      Exact "é| \"a\"\"b\"".toList 3 (.ok ⟨.stringConstant, "a\"b", ⟨4, 10, 1, 4⟩⟩) := by
  have run : (ofString "é| \"a\"\"b\"").outcomes 4 =
      [.ok ⟨.identifier, "é", ⟨0, 2, 1, 1⟩⟩, .error ⟨.loneBar, ⟨2, 3, 1, 2⟩⟩,
        .ok ⟨.stringConstant, "a\"b", ⟨4, 10, 1, 4⟩⟩, .ok ⟨.endOfInput, "", ⟨10, 10, 1, 10⟩⟩] := by
    decide +kernel
  exact ⟨run, (outcomes_exact "é| \"a\"\"b\"" 4).2.1 [_, _] _ [_] run⟩

end Vtl
