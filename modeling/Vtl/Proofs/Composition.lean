import Vtl.Proofs.Execution
import Vtl.Proofs.Rewording
import Vtl.Proofs.Shifting

namespace Vtl

variable {move : Shift} {before text : List Char}

/-- An expression that takes all tokens does not depend on the token behind them. -/
theorem Tree.read_close {close other : Token} {tokens : List Token} {tree : Tree}
    (run : read text close tokens = (.ok tree, [])) : read text other tokens = (.ok tree, []) := by
  obtain ⟨level, built⟩ := built_of_read run
  exact read_of_built built

namespace Program

variable {last : Token} {items rest : List Token} {statement : Statement} {first second : Program}

/-- What a segment reads does not depend on the token that closes it. -/
theorem Segment.Reads.close {first close other : Token} {others after later : List Token}
    (reads : Segment.Reads text ⟨first :: others, close, after⟩ statement) :
    Segment.Reads text ⟨first :: others, other, later⟩ statement := by
  obtain ⟨run, target, span⟩ := Segment.reads_iff.mp reads
  exact Segment.reads_iff.mpr ⟨Tree.read_close run, target, span⟩

/-- A semicolon between two lists of tokens keeps their statements apart. -/
theorem reads_semicolon {stop semicolon : Token} (ends : semicolon.kind = .semicolon)
    (reads : List.Forall₂ (Segment.Reads text) (clauses stop items) first)
    (further : List.Forall₂ (Segment.Reads text) (clauses last rest) second) :
    List.Forall₂ (Segment.Reads text) (clauses last (items ++ semicolon :: rest)) (first ++ second) := by
  induction items using induct_segments generalizing first with
  | single items plain =>
    cases items with
    | nil =>
      cases reads
      rwa [List.nil_append, clauses_semicolon ends]
    | cons token others =>
      rw [clauses_single plain, List.forall₂_cons_left_iff] at reads
      obtain ⟨statement, _, here, none, rfl⟩ := reads
      cases none
      rw [clauses_cut plain ends]
      exact .cons here.close further
  | cut items inner others plain closes ih =>
    cases items with
    | nil =>
      -- Two semicolons in a row have no statement between them.
      rw [List.nil_append, clauses_semicolon closes] at reads
      rw [List.nil_append, List.cons_append, clauses_semicolon closes]
      exact ih reads
    | cons token items =>
      rw [clauses_cut plain closes, List.forall₂_cons_left_iff] at reads
      obtain ⟨statement, later, here, tail, rfl⟩ := reads
      have regroup : token :: items ++ inner :: others ++ semicolon :: rest =
          token :: items ++ inner :: (others ++ semicolon :: rest) := by simp
      rw [regroup, clauses_cut plain closes]
      exact .cons here.close (ih tail)

theorem reads_extend {stop : Token} (more : List Char)
    (read : Tokens.readFrom ⟨text, .start⟩ = .ok ⟨items, stop⟩)
    (reads : List.Forall₂ (Segment.Reads text) (clauses stop items) first) :
    List.Forall₂ (Segment.Reads (text ++ more)) (clauses stop items) first := by
  have inside : ∀ segment ∈ clauses stop items, ∀ token ∈ segment.items, token.span.Inside text := by
    intro segment known token member
    exact Tokens.readFrom_inside .refl read (mem_of_mem_segments (List.mem_filter.mp known).1 member)
  refine ((List.forall₂_and_left _ _).mpr ⟨inside, reads⟩).imp ?_
  rintro segment statement ⟨segmentInside, readsSegment⟩
  exact (Segment.reads_append segmentInside).mpr readsSegment

theorem reads_shift (bytes : move.bytes = byteLength before)
    (reads : List.Forall₂ (Segment.Reads text) (clauses last items) first) :
    List.Forall₂ (Segment.Reads (before ++ text)) (clauses (last.shift move) (items.map (Token.shift move)))
      (first.map (Statement.shift move)) :=
  reads_relocate (Shift.relocation_between bytes) reads

/-- The tokens of two texts with a line end and a semicolon between them. -/
theorem readFrom_semicolon {cs ds : List Char} {stop : Token}
    (read : Tokens.readFrom ⟨cs, .start⟩ = .ok ⟨items, stop⟩)
    (further : Tokens.readFrom ⟨ds, .start⟩ = .ok ⟨rest, last⟩) :
    ∃ semicolon : Token, semicolon.kind = .semicolon ∧
      Tokens.readFrom ⟨cs ++ ['\n', ';'] ++ ds, .start⟩ =
        .ok ⟨items ++ semicolon :: rest.map (Token.shift (.behind (cs ++ ['\n', ';']))),
          last.shift (.behind (cs ++ ['\n', ';']))⟩ := by
  have moved := (@Tokens.readFrom_behind_eq_ok (cs ++ ['\n', ';']) _ _).mpr ⟨_, further, rfl⟩
  let place := Position.start.after (cs ++ ['\n'])
  have behind : Position.start.after (cs ++ ['\n', ';']) = place.step ';' := by
    simp only [place, Position.after_append]
    rfl
  rw [behind] at moved
  obtain ⟨semicolon, ends, _, symbol⟩ :=
    @Cursor.next_single ds ';' .semicolon (by decide) (by decide) rfl place
  have continued := Tokens.readFrom_cons.mpr ⟨_, symbol, by simp [ends], moved⟩
  refine ⟨semicolon, ends, ?_⟩
  rw [List.append_assoc]
  exact Tokens.readFrom_newline read continued

/-- Two programs with a line end and a semicolon between them are one program. -/
theorem parse_newline_semicolon {source other : String} (parsed : parse source = .ok first)
    (further : parse other = .ok second) :
    parse (source ++ "\n;" ++ other) =
      .ok (first ++ second.map (Statement.shift (.behind (source ++ "\n;").toList))) := by
  obtain ⟨⟨items, stop⟩, read, reads⟩ := parse_eq_ok.mp parsed
  obtain ⟨⟨others, last⟩, readOther, readsOther⟩ := parse_eq_ok.mp further
  have front : (source ++ "\n;").toList = source.toList ++ ['\n', ';'] := String.toList_append
  have whole : (source ++ "\n;" ++ other).toList = source.toList ++ ['\n', ';'] ++ other.toList := by
    rw [String.toList_append, front]
  obtain ⟨semicolon, ends, tokens⟩ := readFrom_semicolon read readOther
  rw [← whole] at tokens
  refine parse_eq_ok.mpr ⟨_, tokens, ?_⟩
  rw [whole, front]
  have extended := reads_extend (['\n', ';'] ++ other.toList) read reads
  rw [← List.append_assoc] at extended
  exact reads_semicolon ends extended (reads_shift (Shift.bytes_behind _) readsOther)

end Program

/-- The same fault at another place. -/
def CompileError.shift (move : Shift) : CompileError → CompileError
  | .typeMismatch mark expected actual => .typeMismatch (mark.shift move) expected actual
  | .operatorType operator left right span => .operatorType operator left right (span.shift move)
  | .noCommonIdentifiers op span => .noCommonIdentifiers op (span.shift move)
  | .unknownVariable name span => .unknownVariable name (span.shift move)
  | .internal defect => .internal defect

def Failure.shift (move : Shift) : Failure → Failure
  | .parsing e => .parsing (e.shift move)
  | .typing e => .typing (e.shift move)
  | .resolution e => .resolution e

theorem Tree.mark_shift (tree : Tree) : (tree.shift move).mark = tree.mark.shift move := by
  cases tree <;> rfl

theorem Mark.matches_shift (mark : Mark) : mark.Matches (CompileError.shift move) id (mark.shift move) :=
  ⟨fun _ _ => rfl, fun _ => rfl, fun _ => rfl, rfl⟩

theorem Token.matches_shift (token : Token) : token.Matches (CompileError.shift move) id (token.shift move) :=
  ⟨rfl, fun _ _ => rfl, fun _ _ _ => rfl, fun _ => rfl, fun _ => rfl⟩

theorem Tree.matches_shift (tree : Tree) : tree.Matches (CompileError.shift move) id (tree.shift move) := by
  have marks (node : Tree) : node.mark.Matches (CompileError.shift move) id (node.shift move).mark := by
    rw [mark_shift]
    exact node.mark.matches_shift
  induction tree with
  | parens mark inner ih => exact .leftParens (.rightParens ih)
  | unary mark op operand ih => exact .unary op.matches_shift ih (marks operand)
  | binary mark production left op right leftIh rightIh =>
    exact .binary mark.matches_shift op.matches_shift leftIh (marks left) rightIh (marks right)
  | «variable» mark name => exact .variable mark.matches_shift
  | constant mark literal => exact .constant

/-- Where an expression stands shows in the places of its faults only. -/
theorem Tree.compile_shift (scope : Scope) (tree : Tree) :
    (tree.shift move).compile scope = (tree.compile scope).mapError (CompileError.shift move) := by
  rw [tree.matches_shift.compile scope]
  cases (tree.shift move).compile scope <;> rfl

theorem Bindings.run_shift (bindings : Bindings) (policy : KeyPolicy) (tree : Tree) :
    bindings.run policy (tree.shift move) = (bindings.run policy tree).mapError (Failure.shift move) := by
  rw [run, run, Tree.compile_shift]
  cases tree.compile (bindings.scope policy) with
  | error e => rfl
  | ok e =>
    dsimp only [Except.mapError, bind, Except.bind]
    cases e.resolve bindings <;> rfl

namespace Program

variable {policy : KeyPolicy} {bindings : Bindings}

theorem run_shift (program : Program) :
    run policy (program.map (Statement.shift move)) bindings =
      ((run policy program bindings).1.mapError (Failure.shift move), (run policy program bindings).2) := by
  induction program generalizing bindings with
  | nil => rfl
  | cons statement rest ih =>
    have moved := @Bindings.run_shift move bindings policy statement.expression
    cases here : bindings.run policy statement.expression with
    | error failure =>
      rw [here] at moved
      rw [List.map_cons, run_cons_of_error moved, run_cons_of_error here]
      rfl
    | ok value =>
      rw [here] at moved
      have stored : (statement.shift move).store value bindings = statement.store value bindings := rfl
      rw [List.map_cons, run_cons_of_ok moved, run_cons_of_ok here, stored, ih]
      rcases run policy rest (statement.store value bindings) with ⟨_ | outcomes, final⟩ <;> rfl

/-- Statements behind others run if those do, on the bindings that they leave. -/
theorem run_append_of_ok {first second : Program} {outcomes : List Outcome} {middle : Bindings}
    (run : run policy first bindings = (.ok outcomes, middle)) :
    Program.run policy (first ++ second) bindings =
      ((Program.run policy second middle).1.map (outcomes ++ ·), (Program.run policy second middle).2) := by
  rcases exists_runs_or_failsAt policy bindings first with
    ⟨values, final, runs⟩ | ⟨before, statement, values, reached, failure, failsAt⟩
  · rw [runs.run_eq] at run
    cases run
    exact runs.run_append second
  · rw [failsAt.run_eq] at run
    cases run

theorem run_append_of_error {first second : Program} {failure : Failure} {final : Bindings}
    (run : run policy first bindings = (.error failure, final)) :
    Program.run policy (first ++ second) bindings = (.error failure, final) := by
  rcases exists_runs_or_failsAt policy bindings first with
    ⟨values, _, runs⟩ | ⟨before, statement, values, reached, _, failsAt⟩
  · rw [runs.run_eq] at run
    cases run
  · rw [failsAt.run_eq] at run
    cases run
    obtain ⟨⟨after, rfl⟩, runs, fails⟩ := failsAt
    exact FailsAt.run_eq ⟨⟨after ++ second, by simp⟩, runs, fails⟩

end Program

namespace Session

/-- Programs compose. With a line end and a semicolon between them, two sources that parse are one
program: the statements of the first, and those of the second at their new places. It fails where the
first one fails, and otherwise goes on with the second one in the session that the first one leaves. -/
theorem execute_newline_semicolon {source other : String} {first second : Program}
    (firstParsed : Program.parse source = .ok first) (secondParsed : Program.parse other = .ok second) :
    Program.parse (source ++ "\n;" ++ other) =
        .ok (first ++ second.map (Statement.shift (.behind (source ++ "\n;").toList))) ∧
      ∀ session : Session,
        (∀ failure final, session.execute source = (.error failure, final) →
          session.execute (source ++ "\n;" ++ other) = (.error failure, final)) ∧
        ∀ outcomes middle, session.execute source = (.ok outcomes, middle) →
          (∀ later final, middle.execute other = (.ok later, final) →
            session.execute (source ++ "\n;" ++ other) = (.ok (outcomes ++ later), final)) ∧
          ∀ failure final, middle.execute other = (.error failure, final) →
            session.execute (source ++ "\n;" ++ other) =
              (.error (failure.shift (.behind (source ++ "\n;").toList)), final) := by
  have parsed := Program.parse_newline_semicolon firstParsed secondParsed
  refine ⟨parsed, ?_⟩
  intro session
  rw [execute_of_parse firstParsed, execute_of_parse parsed]
  cases run : first.run session.policy session.bindings with
  | mk result reached =>
    cases result with
    | error e =>
      rw [Program.run_append_of_error run]
      exact ⟨fun _ _ failed => failed, fun _ _ succeeded => by cases succeeded⟩
    | ok done =>
      refine ⟨fun _ _ failed => (by cases failed), ?_⟩
      intro outcomes middle succeeded
      cases succeeded
      rw [execute_of_parse secondParsed, Program.run_append_of_ok run, Program.run_shift]
      dsimp only
      constructor
      · intro later final went
        obtain ⟨result, rfl⟩ := Prod.mk.inj went
        rw [result]
        rfl
      · intro failure final failed
        obtain ⟨result, rfl⟩ := Prod.mk.inj failed
        rw [result]
        rfl

theorem execute_newline_semicolon_comment :
    (⟨[], .typed⟩ : Session).execute ("a := 1 // one" ++ "\n;" ++ "a; b") =
      (.error (.typing (.unknownVariable "b" ⟨18, 19, 2, 5⟩)), ⟨[("a", .integer 1)], .typed⟩) := by
  have firstParsed : Program.parse "a := 1 // one" =
      .ok [⟨some "a", .constant ⟨"1", ⟨5, 6, 1, 6⟩⟩ (.integer 1), ⟨0, 6, 1, 1⟩⟩] := by decide +kernel
  have secondParsed : Program.parse "a; b" =
      .ok [⟨none, .variable ⟨"a", ⟨0, 1, 1, 1⟩⟩ "a", ⟨0, 1, 1, 1⟩⟩,
        ⟨none, .variable ⟨"b", ⟨3, 4, 1, 4⟩⟩ "b", ⟨3, 4, 1, 4⟩⟩] := by decide +kernel
  have ran : (⟨[], .typed⟩ : Session).execute "a := 1 // one" =
      (.ok [.assigned "a" (.integer 1)], ⟨[("a", .integer 1)], .typed⟩) := by
    rw [execute_of_parse firstParsed]
    rfl
  have failed : (⟨[("a", .integer 1)], .typed⟩ : Session).execute "a; b" =
      (.error (.typing (.unknownVariable "b" ⟨3, 4, 1, 4⟩)), ⟨[("a", .integer 1)], .typed⟩) := by
    rw [execute_of_parse secondParsed]
    rfl
  have place : Shift.behind ("a := 1 // one" ++ "\n;").toList = ⟨15, 1, 1⟩ := by decide +kernel
  have whole := ((execute_newline_semicolon firstParsed secondParsed).2 _).2 _ _ ran |>.2 _ _ failed
  rw [place] at whole
  exact whole

end Session

end Vtl
