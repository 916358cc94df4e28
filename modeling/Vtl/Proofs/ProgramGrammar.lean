import Vtl.Proofs.Bare
import Vtl.Proofs.Stopping

namespace Vtl

namespace Tree.Expression

variable {tokens : List Token}

theorem kind_ne (expression : Expression tokens) :
    ∀ token ∈ tokens, token.kind ≠ .semicolon ∧ token.kind ≠ .assign ∧ token.kind ≠ .endOfInput := by
  obtain ⟨shape, spelled, _⟩ := expression
  exact Token.Spells.all_kind_ne spelled

theorem bare_iff : Expression (tokens.map Token.bare) ↔ Expression tokens :=
  exists_congr fun _ => Shape.derives_relocate

theorem splitTarget_eq (expression : Expression tokens) : Program.splitTarget tokens = (none, tokens) :=
  Program.splitTarget_of_no_assign fun token member => (expression.kind_ne token member).2.1

end Tree.Expression

namespace Program

variable {text : List Char} {last : Token} {items lead rest : List Token} {e : SyntaxError}

/-- Tokens that make a statement: an expression, or a name with `:=` and an expression behind it. -/
def Clause (items : List Token) : Prop := Tree.Expression (splitTarget items).2

/-- Tokens that make a program: between semicolons there is nothing, or a statement. -/
def WellFormed (items : List Token) : Prop :=
  ∀ part ∈ items.splitOnP fun token => token.kind = .semicolon, part ≠ [] → Clause part

theorem segments_items : (segments last items).map Segment.items =
    items.splitOnP fun token => token.kind = .semicolon := by
  induction items with
  | nil => rfl
  | cons token items ih =>
    rw [segments, List.splitOnP_cons_eq_if_modifyHead, ← ih]
    by_cases ends : token.kind = .semicolon
    · simp only [ends, decide_true, if_true, List.map_cons]
    · simp only [ends, decide_false, Bool.false_eq_true, if_false]
      cases segments last items <;> rfl

theorem wellFormed_iff : WellFormed items ↔ ∀ segment ∈ clauses last items, Clause segment.items := by
  simp only [WellFormed, ← @segments_items last, clauses, List.forall_mem_map, List.mem_filter, and_imp,
    Bool.not_eq_true', List.isEmpty_eq_false_iff]

theorem wellFormed_semicolon {semicolon : Token} (ends : semicolon.kind = .semicolon) :
    WellFormed (lead ++ semicolon :: rest) ↔ WellFormed lead ∧ WellFormed rest := by
  have cut := @List.splitOnP_append_cons _ (fun token : Token => token.kind = .semicolon) lead rest semicolon
    (decide_eq_true ends)
  rw [WellFormed, cut, List.forall_mem_append]
  rfl

theorem wellFormed_plain (plain : ∀ token ∈ items, token.kind ≠ .semicolon) :
    WellFormed items ↔ (items ≠ [] → Clause items) := by
  rw [WellFormed, List.splitOnP_eq_singleton fun token member => decide_eq_false (plain token member),
    List.forall_mem_singleton]

/-- Tokens without a semicolon begin a statement of the programs that begin with them. -/
theorem WellFormed.exists_clause {others : List Token} (wellFormed : WellFormed (lead ++ others))
    (plain : ∀ token ∈ lead, token.kind ≠ .semicolon) (filled : lead ≠ []) :
    ∃ inner, Clause (lead ++ inner) := by
  induction others using induct_segments with
  | single others plainOthers =>
    have whole := wellFormed_plain (List.forall_mem_append.mpr ⟨plain, plainOthers⟩)
    exact ⟨others, whole.mp wellFormed (List.append_ne_nil_of_left_ne_nil filled _)⟩
  | cut inner semicolon behind plainInner ends _ =>
    rw [← List.append_assoc, wellFormed_semicolon ends] at wellFormed
    have whole := wellFormed_plain (List.forall_mem_append.mpr ⟨plain, plainInner⟩)
    exact ⟨inner, whole.mp wellFormed.1 (List.append_ne_nil_of_left_ne_nil filled _)⟩

theorem splitTarget_cases (items : List Token) :
    (∃ name assign expression, items = name :: assign :: expression ∧ name.kind = .identifier ∧
      assign.kind = .assign ∧ ∀ others, splitTarget (name :: assign :: others) = (some name.text, others)) ∨
    splitTarget items = (none, items) := by
  fun_cases splitTarget items with
  | case1 name assign expression target =>
    refine .inl ⟨name, assign, expression, rfl, target.1, target.2, fun others => ?_⟩
    rw [splitTarget, if_pos target]
  | case2 | case3 => exact .inr rfl

theorem Segment.exists_reads_iff {segment : Segment} :
    (∃ statement, segment.Reads text statement) ↔ Clause segment.items := by
  rw [Clause, @Tree.expression_iff text segment.close]
  constructor
  · rintro ⟨statement, reads⟩
    exact ⟨_, (Segment.reads_iff.mp reads).1⟩
  · rintro ⟨tree, run⟩
    let statement : Statement := ⟨(splitTarget segment.items).1, tree,
      (segment.items.head?.getD segment.close).span.through tree.span⟩
    exact ⟨statement, Segment.reads_iff.mpr ⟨run, rfl, rfl⟩⟩

/-- Reading accepts exactly the well-formed programs. -/
theorem exists_readAll_iff {tokens : Tokens} :
    (∃ program, (readAll text tokens).1 = .ok program) ↔ WellFormed tokens.items := by
  simp only [readAll, readSegments_eq_ok, @wellFormed_iff tokens.last, clauses, ← @Segment.exists_reads_iff text]
  generalize (segments tokens.last tokens.items).filter _ = parts
  induction parts with
  | nil => simp
  | cons part parts ih =>
    rw [List.forall_mem_cons, ← ih]
    constructor
    · rintro ⟨_, _ | ⟨reads, later⟩⟩
      exact ⟨⟨_, reads⟩, _, later⟩
    · rintro ⟨⟨_, reads⟩, _, later⟩
      exact ⟨_, .cons reads later⟩

theorem clause_bare_iff : Clause (items.map Token.bare) ↔ Clause items := by
  have moved : splitTarget (items.map Token.bare) = _ := splitTarget_relocate
  rw [Clause, Clause, moved]
  exact Tree.Expression.bare_iff

theorem wellFormed_bare_iff : WellFormed (items.map Token.bare) ↔ WellFormed items := by
  let last : Token := ⟨.endOfInput, "", ⟨0, 0, 0, 0⟩⟩
  have moved : clauses last.bare (items.map Token.bare) = _ := clauses_relocate
  rw [@wellFormed_iff last.bare, @wellFormed_iff last, moved, List.forall_mem_map]
  exact forall₂_congr fun _ _ => clause_bare_iff

theorem Clause.kind_ne (clause : Clause items) : ∀ token ∈ items, token.kind ≠ .endOfInput := by
  intro token member
  rcases splitTarget_cases items with ⟨name, assign, expression, rfl, isName, isAssign, split⟩ | whole
  · rw [Clause, split] at clause
    rcases List.mem_cons.mp member with rfl | later
    · simp [isName]
    rcases List.mem_cons.mp later with rfl | inside
    · simp [isAssign]
    · exact (clause.kind_ne token inside).2.2
  · rw [Clause, whole] at clause
    exact (clause.kind_ne token member).2.2

theorem WellFormed.kind_ne (wellFormed : WellFormed items) : ∀ token ∈ items, token.kind ≠ .endOfInput := by
  induction items using induct_segments with
  | single items plain =>
    intro token member
    exact ((wellFormed_plain plain).mp wellFormed (List.ne_nil_of_mem member)).kind_ne token member
  | cut items semicolon rest plain ends ih =>
    obtain ⟨first, later⟩ := (wellFormed_semicolon ends).mp wellFormed
    intro token member
    rcases List.mem_append.mp member with inFirst | behind
    · exact ((wellFormed_plain plain).mp first (List.ne_nil_of_mem inFirst)).kind_ne token inFirst
    rcases List.mem_cons.mp behind with rfl | inLater
    · simp [ends]
    · exact ih later token inLater

/-- A statement is left where its expression is left. -/
theorem exists_halts_clause {consumed : List Token} (split : (splitTarget items).2 = consumed ++ rest)
    (halts : Halts Tree.Expression consumed rest) : ∃ lead, items = lead ++ rest ∧ Halts Clause lead rest := by
  rcases splitTarget_cases items with ⟨name, assign, expression, rfl, _, _, target⟩ | whole
  · have same (others : List Token) : Clause ([name, assign] ++ others) ↔ Tree.Expression others := by
      rw [Clause, List.cons_append, List.singleton_append, target]
    rw [target] at split
    refine ⟨[name, assign] ++ consumed, ?_, halts.behind same⟩
    rw [List.append_assoc, ← split]
    rfl
  obtain ⟨stuck, ended, ends, closes, completes⟩ := halts
  rw [whole] at split
  refine ⟨consumed, split, ?_, ?_, ends, closes, ?_⟩
  · intro found more others begins clause
    rcases splitTarget_cases (consumed ++ found :: others) with
      ⟨name, assign, expression, same, isName, isAssign, _⟩ | plain
    · cases consumed with
      | nil =>
        -- A name is an expression, so it is not where an expression is left.
        obtain ⟨rfl, _⟩ := List.cons.inj same
        exact stuck found more [] begins ⟨.variable found.text, .cons (.name isName) .nil, 7, .variable⟩
      | cons first consumed =>
        have target : ∃ behind, items = name :: assign :: behind := by
          cases consumed <;> simp_all
        obtain ⟨behind, rfl⟩ := target
        rw [splitTarget, if_pos ⟨isName, isAssign⟩] at whole
        cases whole
    · rw [Clause, plain] at clause
      exact stuck found more others begins clause
  · intro empty clause
    rw [empty, List.append_nil] at split
    rw [Clause, ← split, whole, split] at clause
    exact ended empty clause
  · intro extra spelled
    have expression := completes extra spelled
    rw [Clause, expression.splitTarget_eq]
    exact expression

/-- A program is left where one of its statements is left. -/
theorem halts_wellFormed {tail : List Token} (plain : ∀ token ∈ lead ++ rest, token.kind ≠ .semicolon)
    (filled : lead ++ rest ≠ []) (behind : ∀ first more, tail = first :: more → first.kind = .semicolon)
    (halts : Halts Clause lead rest) : Halts WellFormed lead (rest ++ tail) := by
  obtain ⟨stuck, ended, ends, closes, completes⟩ := halts
  obtain ⟨plainLead, plainRest⟩ := List.forall_mem_append.mp plain
  have notEnded (empty : rest = []) : ¬WellFormed lead := by
    intro wellFormed
    rw [empty, List.append_nil] at filled
    exact ended empty ((wellFormed_plain plainLead).mp wellFormed filled)
  refine ⟨?_, ?_, ends, closes, ?_⟩
  · intro found more others begins wellFormed
    cases rest with
    | nil => exact notEnded rfl ((wellFormed_semicolon (behind found more begins)).mp wellFormed).1
    | cons first rest =>
      obtain ⟨rfl, _⟩ := List.cons.inj begins
      rw [List.append_cons] at wellFormed
      have plainFirst : first.kind ≠ .semicolon := plainRest first List.mem_cons_self
      have plainFound : ∀ token ∈ lead ++ [first], token.kind ≠ .semicolon :=
        List.forall_mem_append.mpr ⟨plainLead, List.forall_mem_singleton.mpr plainFirst⟩
      obtain ⟨inner, clause⟩ := wellFormed.exists_clause plainFound (by simp)
      rw [List.append_assoc] at clause
      exact stuck first rest inner rfl clause
  · intro empty
    exact notEnded (List.append_eq_nil_iff.mp empty).1
  · intro extra spelled
    have plainExtra : ∀ token ∈ extra, token.kind ≠ .semicolon :=
      fun token member => (Token.Spells.all_kind_ne spelled token member).1
    have whole := wellFormed_plain (List.forall_mem_append.mpr ⟨plainLead, plainExtra⟩)
    exact whole.mpr fun _ => completes extra spelled

/-- Reading segments fails behind the first one, or in it. -/
theorem readSegments_error {segment : Segment} {others : List Segment}
    (failed : (readSegments text (segment :: others)).1 = .error e) :
    (segment.items ≠ [] → Clause segment.items) ∧ (readSegments text others).1 = .error e ∨
      segment.items ≠ [] ∧ ∃ lead rest, segment.items = lead ++ rest ∧ Halts Clause lead rest ∧
        e.span = (rest.head?.getD segment.close).span := by
  rw [readSegments] at failed
  split at failed
  · next empty => exact .inl ⟨fun filled => (filled (List.isEmpty_iff.mp empty)).elim, failed⟩
  next some =>
  have filled : segment.items ≠ [] := fun empty => some (List.isEmpty_iff.mpr empty)
  by_cases clause : Clause segment.items
  · obtain ⟨statement, reads⟩ := (@Segment.exists_reads_iff text segment).mpr clause
    rw [Segment.Reads] at reads
    rw [reads] at failed
    exact .inl ⟨fun _ => clause, map_eq_error.mp failed⟩
  · have notRead : ∀ tree, Tree.read text segment.close (splitTarget segment.items).2 ≠ (.ok tree, []) :=
      fun tree run => clause (Tree.expression_iff.mpr ⟨tree, run⟩)
    obtain ⟨consumed, rest, split, halts, outcome⟩ := Tree.read_halts notRead
    obtain ⟨lead, whole, haltsClause⟩ := exists_halts_clause split halts
    refine .inr ⟨filled, lead, rest, whole, haltsClause, ?_⟩
    rcases outcome with ⟨_, run, place⟩ | ⟨_, found, more, rfl, run⟩
    · rw [readStatement_eq, run] at failed
      cases failed
      exact place
    · rw [readStatement_eq, run] at failed
      cases failed
      rfl

/-- Reading a program fails at the first token with which its tokens cannot begin a program, or at their
end. -/
theorem readSegments_halts (failed : (readSegments text (segments last items)).1 = .error e) :
    ∃ lead rest, items = lead ++ rest ∧ Halts WellFormed lead rest ∧
      e.span = (rest.head?.getD last).span := by
  induction items using induct_segments with
  | single items plain =>
    rw [segments_single plain] at failed
    rcases readSegments_error failed with ⟨_, later⟩ | ⟨filled, lead, rest, split, halts, place⟩
    · cases later
    · dsimp only at split filled
      subst split
      have whole := @halts_wellFormed _ _ [] plain filled nofun halts
      rw [List.append_nil] at whole
      exact ⟨lead, rest, rfl, whole, place⟩
  | cut items semicolon others plain ends ih =>
    rw [segments_cut plain ends] at failed
    rcases readSegments_error failed with ⟨clause, later⟩ | ⟨filled, lead, rest, split, halts, place⟩
    · obtain ⟨lead, rest, rfl, halts, place⟩ := ih later
      have before : WellFormed items := (wellFormed_plain plain).mpr clause
      have same (tokens : List Token) : WellFormed (items ++ [semicolon] ++ tokens) ↔ WellFormed tokens := by
        rw [List.append_assoc, List.singleton_append, wellFormed_semicolon ends, and_iff_right before]
      exact ⟨items ++ [semicolon] ++ lead, rest, by simp, halts.behind same, place⟩
    · dsimp only at split filled place
      subst split
      have behind : ∀ first more, semicolon :: others = first :: more → first.kind = .semicolon := by
        rintro _ _ ⟨⟩
        exact ends
      have whole := halts_wellFormed plain filled behind halts
      refine ⟨lead, rest ++ semicolon :: others, List.append_assoc .., whole, ?_⟩
      rw [place]
      cases rest <;> rfl

end Program

end Vtl
