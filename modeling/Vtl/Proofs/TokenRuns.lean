import Vtl.Proofs.Except
import Vtl.Proofs.TokenPrefix

namespace Vtl

namespace Cursor

/-- Some tokens in a row, from one place of a text to a later one. -/
inductive Takes : Cursor → List Token → Cursor → Prop
  | nil {cursor : Cursor} : Takes cursor [] cursor
  | cons {before middle behind : Cursor} {token : Token} {tokens : List Token}
      (next : before.next = (.ok token, middle)) (more : token.kind ≠ .endOfInput)
      (later : Takes middle tokens behind) : Takes before (token :: tokens) behind

variable {before behind : Cursor} {cs ds rest : List Char} {place after : Position} {first last : Token}
  {tokens : List Token}

theorem Takes.passes (takes : before.Takes tokens behind) : ∃ passed, before.Passes passed behind := by
  induction takes with
  | nil => exact ⟨[], .refl⟩
  | cons next _ _ ih =>
    obtain ⟨trivia, taken, start, toToken, overToken, _⟩ := next_passes next
    obtain ⟨passed, later⟩ := ih
    exact ⟨_, (toToken.trans overToken).trans later⟩

/-- Tokens are also read where the text is cut behind them. -/
theorem Takes.of_append (takes : Takes ⟨cs ++ ds, place⟩ tokens ⟨rest ++ ds, after⟩) :
    Takes ⟨cs, place⟩ tokens ⟨rest, after⟩ := by
  induction tokens generalizing cs place with
  | nil =>
    generalize whole : cs ++ ds = text at takes
    generalize remains : rest ++ ds = left at takes
    cases takes
    rw [← remains] at whole
    rw [List.append_cancel_right whole]
    exact .nil
  | cons token tokens ih =>
    cases takes with
    | @cons _ middle _ _ _ next more later =>
      obtain ⟨middleRest, middlePlace⟩ := middle
      obtain ⟨passed, passes⟩ := later.passes
      have split : middleRest = (passed ++ rest) ++ ds := passes.rest.trans (List.append_assoc _ _ _).symm
      subst split
      exact .cons (next_of_append next more) more (ih later)

/-- Behind trivia there are no more of them. -/
theorem skipTrivia_skipped {trivia : Trivia} (skip : skipTrivia trivia place cs = (.ok (), behind)) :
    skipTrivia .blanks behind.place behind.rest = (.ok (), behind) := by
  fun_induction skipTrivia trivia place cs with
  | case1 | case6 =>
    cases skip
    rfl
  | case8 => cases skip
  | case2 _ _ ih | case3 _ _ ih | case4 _ _ _ _ _ _ ih | case7 _ _ _ ih | case9 _ _ _ ih
  | case10 _ _ _ _ _ ih => exact ih skip
  | case5 place c cs noLine noBlock other =>
    cases skip
    rw [skipTrivia_blanks_cons (cons_cons_ne noLine) (cons_cons_ne noBlock), if_neg other]

theorem Takes.stop (takes : before.Takes tokens behind) (atLast : tokens.getLast? = some last) :
    last.span.stop = behind.place.offset := by
  induction takes with
  | nil => cases atLast
  | @cons before middle behind token tokens next _ later ih =>
    cases tokens with
    | nil =>
      obtain rfl : token = last := Option.some.inj atLast
      cases later
      obtain ⟨_, _, start, _, _, _, _, span⟩ := next_passes next
      rw [span, Span.between]
    | cons second tokens => exact ih atLast

/-- The stretch of text from the first of some tokens to the last one. -/
theorem Takes.stretch (takes : before.Takes tokens behind) (atFirst : tokens.head? = some first)
    (atLast : tokens.getLast? = some last) :
    ∃ start part, skipTrivia .blanks before.place before.rest = (.ok (), start) ∧ start.rest ≠ [] ∧
      start.Passes part behind ∧ start.Takes tokens behind ∧
      first.span.through last.span = .between start.place behind.place := by
  have stop := takes.stop atLast
  cases takes with
  | nil => cases atFirst
  | @cons _ middle _ token tokens next more later =>
    cases atFirst
    obtain ⟨_, taken, start, _, overToken, skip, made, span⟩ := next_passes next
    obtain ⟨passed, onward⟩ := later.passes
    have again : start.next = (.ok first, middle) := by
      rw [Cursor.next, skipTrivia_skipped skip]
      exact made
    have filled : start.rest ≠ [] := fun empty => by
      rw [Cursor.token, empty] at made
      cases made
      exact more rfl
    refine ⟨start, taken ++ passed, skip, filled, overToken.trans onward, .cons again more later, ?_⟩
    rw [Span.through, stop, span]
    rfl

end Cursor

namespace Tokens

variable {cursor behind other : Cursor} {token first last : Token} {items earlier others : List Token}

theorem readFrom_eq (next : cursor.next = (.ok token, behind)) :
    readFrom cursor =
      if token.kind = .endOfInput then .ok ⟨[], token⟩
      else (readFrom behind).map fun tokens => { tokens with items := token :: tokens.items } := by
  rw [readFrom]
  split
  · next failed =>
    rw [next] at failed
    cases failed
  · next same =>
    rw [next] at same
    cases same
    split <;> rfl

theorem readFrom_error {e : SyntaxError} (next : cursor.next = (.error e, behind)) :
    readFrom cursor = .error e := by
  rw [readFrom]
  split
  · next failed =>
    rw [next] at failed
    cases failed
    rfl
  · next read =>
    rw [next] at read
    cases read

theorem readFrom_cons : readFrom cursor = .ok ⟨first :: items, last⟩ ↔
    ∃ behind, cursor.next = (.ok first, behind) ∧ first.kind ≠ .endOfInput ∧
      readFrom behind = .ok ⟨items, last⟩ := by
  constructor
  · intro read
    rw [readFrom] at read
    split at read
    · cases read
    · next token behind next =>
      split at read
      · cases read
      · next more =>
        cases rest : readFrom behind with
        | error e =>
          rw [rest] at read
          cases read
        | ok tokens =>
          rw [rest] at read
          cases read
          exact ⟨behind, next, more, rest⟩
  · rintro ⟨behind, next, more, rest⟩
    rw [readFrom_eq next, if_neg more, rest]
    rfl

theorem readFrom_nil : readFrom cursor = .ok ⟨[], last⟩ ↔
    ∃ behind, cursor.next = (.ok last, behind) ∧ last.kind = .endOfInput := by
  constructor
  · intro read
    rw [readFrom] at read
    split at read
    · cases read
    · next token behind next =>
      split at read
      · next ends =>
        cases read
        exact ⟨behind, next, ends⟩
      · obtain ⟨_, _, whole⟩ := map_eq_ok.mp read
        cases whole
  · rintro ⟨behind, next, ends⟩
    rw [readFrom_eq next, if_pos ends]

/-- What is read depends on the next token and what is behind it. -/
theorem readFrom_congr (same : cursor.next = other.next) : readFrom cursor = readFrom other := by
  rcases next : cursor.next with ⟨e | token, after⟩
  · rw [readFrom_error next, readFrom_error (same.symm.trans next)]
  · rw [readFrom_eq next, readFrom_eq (same.symm.trans next)]

theorem readFrom_append {cursor : Cursor} {items others : List Token} {last : Token} :
    readFrom cursor = .ok ⟨items ++ others, last⟩ ↔
      ∃ middle, cursor.Takes items middle ∧ readFrom middle = .ok ⟨others, last⟩ := by
  induction items generalizing cursor with
  | nil =>
    constructor
    · intro read
      exact ⟨cursor, .nil, read⟩
    · rintro ⟨middle, takes, read⟩
      cases takes
      exact read
  | cons token items ih =>
    rw [List.cons_append, readFrom_cons]
    constructor
    · rintro ⟨behind, next, more, read⟩
      obtain ⟨middle, takes, rest⟩ := ih.mp read
      exact ⟨middle, .cons next more takes, rest⟩
    · rintro ⟨middle, takes, rest⟩
      cases takes with
      | cons next more later => exact ⟨_, next, more, ih.mpr ⟨middle, later, rest⟩⟩

/-- A text that is cut where one of its tokens begins has the tokens before it. -/
theorem readFrom_cut (read : readFrom cursor = .ok ⟨earlier ++ first :: others, last⟩) :
    ∃ cs ds stop, cursor.rest = cs ++ ds ∧ first.span.start = cursor.place.offset + byteLength cs ∧
      readFrom ⟨cs, cursor.place⟩ = .ok ⟨earlier, stop⟩ := by
  obtain ⟨⟨rest, place⟩, takes, readHere⟩ := readFrom_append.mp read
  obtain ⟨behind, next, _⟩ := readFrom_cons.mp readHere
  obtain ⟨trivia, _, ⟨ds, start⟩, toToken, _, skip, _, span⟩ := Cursor.next_passes next
  obtain ⟨passed, toHere⟩ := takes.passes
  have reached := toHere.trans toToken
  obtain rfl : rest = trivia ++ ds := toToken.rest
  have ends := readFrom_nil.mpr ⟨_, Cursor.next_of_skipTrivia skip, rfl⟩
  obtain ⟨text, origin⟩ := cursor
  obtain rfl : text = passed ++ trivia ++ ds := reached.rest
  have cut := readFrom_append.mpr ⟨_, takes.of_append, ends⟩
  rw [List.append_nil] at cut
  refine ⟨passed ++ trivia, ds, _, rfl, ?_, cut⟩
  rw [span, Span.between, reached.place, Position.offset_after]

end Tokens

/-- The span begins between two characters of the text and does not reach behind it. -/
structure Span.Inside (span : Span) (text : List Char) : Prop where
  start : ∃ before behind, text = before ++ behind ∧ span.start = byteLength before
  stop : span.stop ≤ byteLength text

theorem takeBytes_append_of_le {count : Nat} {cs ds : List Char} (within : count ≤ byteLength cs) :
    takeBytes count (cs ++ ds) = takeBytes count cs := by
  induction cs generalizing count with
  | nil =>
    obtain rfl := Nat.le_zero.mp within
    cases ds <;> rfl
  | cons c cs ih =>
    rw [byteLength_cons] at within
    rw [List.cons_append, takeBytes, takeBytes, ih (by omega)]

namespace Span.Inside

variable {first last : Span} {text more : List Char}

theorem through (begins : first.Inside text) (ends : last.Inside text) : (first.through last).Inside text :=
  ⟨begins.start, ends.stop⟩

theorem slice_append (inside : first.Inside text) : first.slice (text ++ more) = first.slice text := by
  obtain ⟨⟨before, behind, rfl, start⟩, stop⟩ := inside
  have within : first.stop - first.start ≤ byteLength behind := by
    rw [byteLength_append] at stop
    omega
  unfold slice
  rw [start, List.append_assoc, dropBytes_append, dropBytes_append, ← start, takeBytes_append_of_le within]

theorem ofPasses {start stop : Cursor} {before behind : List Char}
    (first : Cursor.Passes ⟨text, .start⟩ before start) (last : Cursor.Passes ⟨text, .start⟩ behind stop) :
    (Span.between start.place stop.place).Inside text := by
  have startOffset : start.place.offset = byteLength before := by
    rw [first.place, Position.offset_after]
    exact Nat.zero_add _
  have stopOffset : stop.place.offset = byteLength behind := by
    rw [last.place, Position.offset_after]
    exact Nat.zero_add _
  refine ⟨⟨before, start.rest, first.rest, startOffset⟩, ?_⟩
  have whole : byteLength text = byteLength behind + byteLength stop.rest := by
    rw [← byteLength_append, ← last.rest]
  simp only [Span.between]
  omega

end Span.Inside

namespace Tokens

theorem readFrom_inside {text before : List Char} {cursor : Cursor} {items : List Token} {last token : Token}
    (reached : Cursor.Passes ⟨text, .start⟩ before cursor) (read : readFrom cursor = .ok ⟨items, last⟩)
    (member : token ∈ items) : token.span.Inside text := by
  induction items generalizing before cursor with
  | nil => cases member
  | cons first items ih =>
    obtain ⟨behind, next, _, rest⟩ := readFrom_cons.mp read
    obtain ⟨trivia, taken, start, passes, takes, _, _, span⟩ := Cursor.next_passes next
    have atStart := reached.trans passes
    have atStop := atStart.trans takes
    rcases List.mem_cons.mp member with rfl | later
    · rw [span]
      exact .ofPasses atStart atStop
    · exact ih atStop rest later

/-- A source text cut where one of its tokens begins: the tokens before it stay, and lie in what is
left of the text. -/
theorem ofString_cut {source : String} {earlier others : List Token} {first last : Token}
    (read : ofString source = .ok ⟨earlier ++ first :: others, last⟩) :
    ∃ text more stop, source.toList = text ++ more ∧ byteLength text = first.span.start ∧
      ofString (String.ofList text) = .ok ⟨earlier, stop⟩ ∧ ∀ token ∈ earlier, token.span.Inside text := by
  obtain ⟨text, more, stop, whole, place, cut⟩ := readFrom_cut read
  refine ⟨text, more, stop, whole, ?_, ?_, ?_⟩
  · rw [place]
    exact (Nat.zero_add _).symm
  · rw [ofString, Cursor.ofString, String.toList_ofList]
    exact cut
  · intro token member
    exact readFrom_inside .refl cut member

end Tokens

end Vtl
