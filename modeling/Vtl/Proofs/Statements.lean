import Vtl.Program
import Vtl.Proofs.Except
import Vtl.Proofs.Parsing

namespace Vtl

namespace Program

/-- The name that a statement assigns to, and the tokens of its expression. -/
def splitTarget : List Token → Option String × List Token
  | name :: assign :: rest =>
    if name.kind = .identifier ∧ assign.kind = .assign then (some name.text, rest)
    else (none, name :: assign :: rest)
  | tokens => (none, tokens)

variable {source : List Char} {close last : Token} {tokens items : List Token} {statement : Statement}
  {program : Program}

theorem readStatement_eq : readStatement source close tokens =
    ((Tree.read source close (splitTarget tokens).2).1.map fun tree =>
        ⟨(splitTarget tokens).1, tree, (tokens.head?.getD close).span.through tree.span⟩,
      (Tree.read source close (splitTarget tokens).2).2) := by
  unfold readStatement
  fun_cases splitTarget tokens with
  | case1 _ _ _ target => simp only [if_pos target]
  | case2 _ _ _ plain => simp only [if_neg plain]
  | case3 tokens short =>
    match tokens, short with
    | [], _ | [_], _ => rfl
    | name :: assign :: rest, short => exact (short name assign rest rfl).elim

/-- The tokens of a segment make one statement. -/
def Segment.Reads (source : List Char) (segment : Segment) (statement : Statement) : Prop :=
  readStatement source segment.close segment.items = (.ok statement, [])

theorem Segment.reads_iff {segment : Segment} : segment.Reads source statement ↔
    Tree.read source segment.close (splitTarget segment.items).2 = (.ok statement.expression, []) ∧
      statement.target = (splitTarget segment.items).1 ∧
      statement.span =
        (segment.items.head?.getD segment.close).span.through statement.expression.span := by
  unfold Reads
  rw [readStatement_eq]
  rcases Tree.read source segment.close (splitTarget segment.items).2 with ⟨_ | tree, rest⟩
  · simp [Except.map]
  · simp only [Except.map, Prod.mk.injEq, Except.ok.injEq]
    constructor
    · rintro ⟨rfl, rfl⟩
      exact ⟨⟨rfl, rfl⟩, rfl, rfl⟩
    · rintro ⟨⟨rfl, rfl⟩, target, span⟩
      exact ⟨by rw [← target, ← span], rfl⟩

/-- The segments in which statements stand. -/
def clauses (last : Token) (items : List Token) : List Segment :=
  (segments last items).filter fun segment => !segment.items.isEmpty

theorem readSegments_eq_ok {segments : List Segment} : (readSegments source segments).1 = .ok program ↔
    List.Forall₂ (Segment.Reads source) (segments.filter fun segment => !segment.items.isEmpty) program := by
  induction segments generalizing program with
  | nil => simp [readSegments, eq_comm]
  | cons segment others ih =>
    rw [readSegments, List.filter_cons]
    by_cases empty : segment.items.isEmpty = true
    · simpa [empty] using ih
    rw [if_neg empty, if_pos (by simpa using empty), List.forall₂_cons_left_iff]
    unfold Segment.Reads
    split
    · next failed => simp [failed]
    · next left => simp [left]
    · next statement read =>
      simp only [read, Prod.mk.injEq, Except.ok.injEq, and_true]
      constructor
      · intro whole
        obtain ⟨rest, made, rfl⟩ := map_eq_ok.mp whole
        exact ⟨statement, rest, rfl, ih.mp made, rfl⟩
      · rintro ⟨_, rest, rfl, made, rfl⟩
        exact map_eq_ok.mpr ⟨rest, ih.mpr made, rfl⟩

theorem parse_eq_ok {source : String} : Program.parse source = .ok program ↔
    ∃ tokens, Tokens.ofString source = .ok tokens ∧
      List.Forall₂ (Segment.Reads source.toList) (clauses tokens.last tokens.items) program := by
  rw [Program.parse, bind_eq_ok]
  simp only [readAll, readSegments_eq_ok, clauses]

/-- A list of tokens has no semicolon, or it is cut at its first one. -/
theorem induct_segments {motive : List Token → Prop}
    (single : ∀ items, (∀ token ∈ items, token.kind ≠ .semicolon) → motive items)
    (cut : ∀ items semicolon rest, (∀ token ∈ items, token.kind ≠ .semicolon) →
      semicolon.kind = .semicolon → motive rest → motive (items ++ semicolon :: rest))
    (items : List Token) : motive items := by
  -- The tokens that have been passed without a semicolon are kept in front.
  suffices behind : ∀ before : List Token, (∀ token ∈ before, token.kind ≠ .semicolon) →
      motive (before ++ items) from behind [] (List.forall_mem_nil _)
  induction items with
  | nil =>
    intro before plain
    rw [List.append_nil]
    exact single before plain
  | cons token items ih =>
    intro before plain
    by_cases ends : token.kind = .semicolon
    · exact cut before token items plain ends (ih [] (List.forall_mem_nil _))
    · rw [List.append_cons]
      exact ih (before ++ [token]) (List.forall_mem_append.mpr ⟨plain, List.forall_mem_singleton.mpr ends⟩)

theorem segments_single (plain : ∀ token ∈ items, token.kind ≠ .semicolon) :
    segments last items = [⟨items, last, []⟩] := by
  induction items with
  | nil => rfl
  | cons token items ih =>
    obtain ⟨head, tail⟩ := List.forall_mem_cons.mp plain
    rw [segments, if_neg head, ih tail]

theorem segments_cut {semicolon : Token} {rest : List Token}
    (plain : ∀ token ∈ items, token.kind ≠ .semicolon) (ends : semicolon.kind = .semicolon) :
    segments last (items ++ semicolon :: rest) =
      ⟨items, semicolon, semicolon :: rest⟩ :: segments last rest := by
  induction items with
  | nil => rw [List.nil_append, segments, if_pos ends]
  | cons token items ih =>
    obtain ⟨head, tail⟩ := List.forall_mem_cons.mp plain
    rw [List.cons_append, segments, if_neg head, ih tail]

theorem clauses_single {first : Token} (plain : ∀ token ∈ first :: items, token.kind ≠ .semicolon) :
    clauses last (first :: items) = [⟨first :: items, last, []⟩] := by
  rw [clauses, segments_single plain]
  rfl

theorem clauses_semicolon {semicolon : Token} {rest : List Token} (ends : semicolon.kind = .semicolon) :
    clauses last (semicolon :: rest) = clauses last rest := by
  rw [clauses, segments, if_pos ends]
  rfl

theorem clauses_cut {first semicolon : Token} {rest : List Token}
    (plain : ∀ token ∈ first :: items, token.kind ≠ .semicolon) (ends : semicolon.kind = .semicolon) :
    clauses last (first :: items ++ semicolon :: rest) =
      ⟨first :: items, semicolon, semicolon :: rest⟩ :: clauses last rest := by
  rw [clauses, segments_cut plain ends]
  rfl

theorem splitTarget_of_no_assign (plain : ∀ token ∈ items, token.kind ≠ .assign) :
    splitTarget items = (none, items) := by
  fun_cases splitTarget items with
  | case1 name assign rest target => exact (plain assign (by simp) target.2).elim
  | case2 => rfl
  | case3 => rfl

end Program

/-- The tokens that belong to statements and the end of the input stand for nothing in an expression. -/
theorem Token.Spells.kind_ne {token : Token} {terminal : Terminal} (spells : token.Spells terminal) :
    token.kind ≠ .semicolon ∧ token.kind ≠ .assign ∧ token.kind ≠ .endOfInput := by
  cases spells with
  | binary kind =>
    have isBinary := binary?_eq_some_iff.mpr ⟨kind, rfl⟩
    refine ⟨?_, ?_, ?_⟩ <;> intro same <;> rw [same] at isBinary <;> cases isBinary
  | unary kind =>
    have isUnary := isUnary_iff.mpr kind
    refine ⟨?_, ?_, ?_⟩ <;> intro same <;> rw [same] at isUnary <;> cases isUnary
  | leftParen kind | rightParen kind | name kind | integer kind | number kind | string kind | truth kind
  | falsehood kind | null kind => simp [kind]

theorem Token.Spells.all_kind_ne {tokens : List Token} {terminals : List Terminal}
    (spelled : List.Forall₂ Token.Spells tokens terminals) :
    ∀ token ∈ tokens, token.kind ≠ .semicolon ∧ token.kind ≠ .assign ∧ token.kind ≠ .endOfInput :=
  ((List.forall₂_and_left _ _).mp (spelled.imp fun _ _ spells => ⟨spells.kind_ne, spells⟩)).1

/-- An expression on its own is a program of one statement without a target, which reaches as far as the
expression does. -/
theorem Program.parse_expression {source : String} {tree : Tree} (parsed : Tree.parse source = .ok tree) :
    Program.parse source = .ok [⟨none, tree, tree.span⟩] := by
  obtain ⟨⟨items, last⟩, read, whole⟩ := bind_eq_ok.mp parsed
  have run : Tree.read source.toList last items = (.ok tree, []) := Tree.readWhole_eq_ok_iff.mp whole
  have plain := Token.Spells.all_kind_ne (Tree.derives_of_read run).1
  obtain ⟨level, built⟩ := Tree.built_of_read run
  cases items with
  | nil => cases run
  | cons first others =>
    have clause := @clauses_single last others first fun token member => (plain token member).1
    have target := splitTarget_of_no_assign fun token member => (plain token member).2.1
    have extent := (built.through_span rfl).symm
    refine parse_eq_ok.mpr ⟨_, read, ?_⟩
    rw [clause]
    refine .cons (Segment.reads_iff.mpr ⟨?_, ?_, extent⟩) .nil
    · rw [target]
      exact run
    · rw [target]

end Vtl
