import Vtl.Proofs.NodeTexts
import Vtl.Proofs.ProgramGrammar

namespace Vtl

namespace Span

/-- One span ends before another one begins, or where it begins. -/
def Before (first second : Span) : Prop := first.stop ≤ second.start

/-- A span that takes something and lies in another one. -/
structure Within (inner outer : Span) : Prop where
  start : outer.start ≤ inner.start
  filled : inner.start < inner.stop
  stop : inner.stop ≤ outer.stop

theorem Covers.ne_nil {span : Span} {before part : List Char} (covers : span.Covers before part)
    (filled : span.start < span.stop) : part ≠ [] := by
  rintro rfl
  rw [covers.start, covers.stop, List.append_nil] at filled
  exact Nat.lt_irrefl _ filled

end Span

namespace Token

/-- Each token takes something, and each stands behind the ones before it. -/
structure Ordered (tokens : List Token) : Prop where
  filled : ∀ token ∈ tokens, token.span.start < token.span.stop
  apart : tokens.Pairwise fun first second => first.span.Before second.span

namespace Ordered

variable {tokens own : List Token} {first last token : Token}

theorem sublist (ordered : Ordered tokens) (part : own.Sublist tokens) : Ordered own :=
  ⟨fun token member => ordered.filled token (part.subset member), ordered.apart.sublist part⟩

/-- Ordered tokens lie between the start of the first one and the end of the last one. -/
theorem within_ends (ordered : Ordered tokens) (atFirst : tokens.head? = some first)
    (atLast : tokens.getLast? = some last) (member : token ∈ tokens) :
    token.span.Within (first.span.through last.span) := by
  have filled := ordered.filled token member
  refine ⟨?_, filled, ?_⟩
  · obtain ⟨others, rfl⟩ := List.head?_eq_some_iff.mp atFirst
    have firstFilled := ordered.filled first List.mem_cons_self
    show first.span.start ≤ token.span.start
    rcases List.mem_cons.mp member with rfl | later
    · exact Nat.le_refl _
    · have behind : first.span.stop ≤ token.span.start := (List.pairwise_cons.mp ordered.apart).1 token later
      omega
  · obtain ⟨others, rfl⟩ := List.getLast?_eq_some_iff.mp atLast
    have lastFilled := ordered.filled last (List.mem_append_right _ List.mem_cons_self)
    show token.span.stop ≤ last.span.stop
    rcases List.mem_append.mp member with earlier | atEnd
    · have before : token.span.stop ≤ last.span.start :=
        (List.pairwise_append.mp ordered.apart).2.2 token earlier last List.mem_cons_self
      omega
    · rw [List.mem_singleton.mp atEnd]

end Ordered

end Token

/-- The tokens of a text stand in their order behind the place where reading begins. -/
theorem Tokens.readFrom_ordered {cursor : Cursor} {items : List Token} {last : Token}
    (read : readFrom cursor = .ok ⟨items, last⟩) :
    Token.Ordered items ∧ ∀ token ∈ items, cursor.place.offset ≤ token.span.start := by
  -- The bound is what carries the order from one token to all of the later ones.
  induction items generalizing cursor with
  | nil => exact ⟨⟨List.forall_mem_nil _, .nil⟩, List.forall_mem_nil _⟩
  | cons first items ih =>
    obtain ⟨behind, next, more, rest⟩ := readFrom_cons.mp read
    obtain ⟨gap, start, part, toStart, overPart, span, written⟩ := Cursor.next_stretch cursor
    rw [next] at overPart span written
    obtain ⟨_, filled, _⟩ := written first rfl more
    have placed : first.span = .between start.place behind.place := span
    have atStart : first.span.start = cursor.place.offset + byteLength gap := by
      rw [placed, Span.between, toStart.place, Position.offset_after]
    have atStop : first.span.stop = first.span.start + byteLength part := by
      rw [placed, Span.between, overPart.place, Position.offset_after]
    have long := byteLength_pos filled
    have reached : behind.place.offset = first.span.stop := by rw [placed, Span.between]
    obtain ⟨ordered, after⟩ := ih rest
    have behindFirst : ∀ token ∈ items, first.span.stop ≤ token.span.start := by
      rw [← reached]
      exact after
    refine ⟨⟨List.forall_mem_cons.mpr ⟨by omega, ordered.filled⟩, .cons behindFirst ordered.apart⟩, ?_⟩
    refine List.forall_mem_cons.mpr ⟨by omega, fun token member => ?_⟩
    have later := behindFirst token member
    omega

/-- The stretch from one token of a text to a later one is a part of the text. -/
theorem Tokens.readFrom_covers {text : List Char} {own items : List Token} {first last stop : Token}
    (read : readFrom ⟨text, .start⟩ = .ok ⟨items, stop⟩) (part : own <:+: items) (atFirst : own.head? = some first)
    (atLast : own.getLast? = some last) :
    ∃ before stretch behind, text = before ++ stretch ++ behind ∧
      (first.span.through last.span).Covers before stretch := by
  obtain ⟨earlier, later, rfl⟩ := part
  obtain ⟨front, gap, stretch, rest, split, _, _, _, _, span⟩ := readFrom_stretch read atFirst atLast
  refine ⟨front ++ gap, stretch, rest, ?_, ?_⟩
  · rw [split, List.append_assoc, List.append_assoc]
  · rw [span]
    exact .between (front ++ gap) stretch

namespace Tree

/-- The spans of the parts of a node, from left to right: of an operator token and of the operands around it,
or of what stands in parentheses. -/
def parts : Tree → List Span
  | .parens _ inner => [inner.span]
  | .unary _ op operand => [op.span, operand.span]
  | .binary _ _ left op right => [left.span, op.span, right.span]
  | .variable .. | .constant .. => []

variable {source : List Char} {tree inner : Tree} {level innerLevel : Nat} {tokens own : List Token}

namespace Built

theorem exists_span (built : Built source tree level tokens) :
    ∃ first ∈ tokens, ∃ last ∈ tokens, tree.span = first.span.through last.span ∧
      tokens.head? = some first ∧ tokens.getLast? = some last := by
  obtain ⟨first, last, atFirst, atLast, mark⟩ := built.ends
  refine ⟨first, List.mem_of_mem_head? atFirst, last, List.mem_of_getLast? atLast, ?_, atFirst, atLast⟩
  rw [span, mark, markOf]

theorem token_within (built : Built source tree level tokens) (ordered : Token.Ordered tokens) {token : Token}
    (member : token ∈ tokens) : token.span.Within tree.span := by
  obtain ⟨first, _, last, _, span, atFirst, atLast⟩ := built.exists_span
  rw [span]
  exact ordered.within_ends atFirst atLast member

theorem filled (built : Built source tree level tokens) (ordered : Token.Ordered tokens) :
    tree.span.start < tree.span.stop := by
  obtain ⟨first, inFirst, _⟩ := built.exists_span
  have within := built.token_within ordered inFirst
  exact Nat.lt_of_le_of_lt within.start (Nat.lt_of_lt_of_le within.filled within.stop)

/-- A tree that is put together from some of the tokens of another one lies in it. -/
theorem within (built : Built source tree level tokens) (ordered : Token.Ordered tokens)
    (builtInner : Built source inner innerLevel own) (part : own.Sublist tokens) : inner.span.Within tree.span := by
  have filled := builtInner.filled (ordered.sublist part)
  obtain ⟨first, inFirst, last, inLast, span, _⟩ := builtInner.exists_span
  have ofFirst := built.token_within ordered (part.subset inFirst)
  have ofLast := built.token_within ordered (part.subset inLast)
  rw [span] at filled ⊢
  exact ⟨ofFirst.start, filled, ofLast.stop⟩

/-- A tree ends before what all of its tokens end before. -/
theorem stop_le {bound : Nat} (built : Built source tree level tokens)
    (before : ∀ token ∈ tokens, token.span.stop ≤ bound) : tree.span.stop ≤ bound := by
  obtain ⟨first, _, last, inLast, span, _⟩ := built.exists_span
  rw [span]
  exact before last inLast

theorem le_start {bound : Nat} (built : Built source tree level tokens)
    (behind : ∀ token ∈ tokens, bound ≤ token.span.start) : bound ≤ tree.span.start := by
  obtain ⟨first, inFirst, last, _, span, _⟩ := built.exists_span
  rw [span]
  exact behind first inFirst

theorem text_eq (built : Built source tree level tokens) : tree.text = String.ofList (tree.span.slice source) := by
  obtain ⟨_, _, _, _, mark⟩ := built.ends
  rw [text, span, mark, markOf]

/-- The parts of a node lie in it, one behind the other. -/
theorem parts_placed (built : Built source tree level tokens) (ordered : Token.Ordered tokens) :
    (∀ part ∈ tree.parts, part.Within tree.span) ∧ tree.parts.Pairwise Span.Before := by
  -- Both facts are about the whole tree, and splitting it into its cases would hide it.
  have token {token : Token} (member : token ∈ tokens) := built.token_within ordered member
  have operand {operand : Tree} {own : List Token} {level : Nat} (ofOperand : Built source operand level own)
    (part : own.Sublist tokens) := built.within ordered ofOperand part
  cases built with
  | leaf made =>
    rcases ofToken_eq made with ⟨name, rfl⟩ | ⟨value, rfl⟩ <;> exact ⟨List.forall_mem_nil _, .nil⟩
  | @parens opening closing inner level tokens left right ofInner =>
    have part : tokens.Sublist (opening :: tokens ++ [closing]) :=
      ((List.sublist_append_left tokens [closing]).cons opening)
    exact ⟨List.forall_mem_singleton.mpr (operand ofInner part), List.pairwise_singleton _ _⟩
  | @unary op operandTree level tokens kind ofOperand tight =>
    have behind : op.span.stop ≤ operandTree.span.start :=
      ofOperand.le_start (List.pairwise_cons.mp ordered.apart).1
    refine ⟨?_, List.pairwise_pair.mpr behind⟩
    exact List.forall_mem_cons.mpr ⟨token List.mem_cons_self,
      List.forall_mem_singleton.mpr (operand ofOperand (List.sublist_cons_self op tokens))⟩
  | @binary level _ _ leftTree rightTree op before after kind ofLeft leftTight ofRight rightTight =>
    obtain ⟨_, apart, across⟩ := List.pairwise_append.mp ordered.apart
    have leftBefore : leftTree.span.stop ≤ op.span.start :=
      ofLeft.stop_le fun token member => across token member op List.mem_cons_self
    have rightBehind : op.span.stop ≤ rightTree.span.start :=
      ofRight.le_start (List.pairwise_cons.mp apart).1
    have leftWithin := operand ofLeft (List.sublist_append_left before (op :: after))
    have opWithin := token (List.mem_append_right before List.mem_cons_self)
    have rightWithin := operand ofRight
      ((List.sublist_cons_self op after).trans (List.sublist_append_right before (op :: after)))
    have opFilled := opWithin.filled
    have leftRight : leftTree.span.stop ≤ rightTree.span.start := by omega
    constructor
    · simp only [parts, List.forall_mem_cons, List.not_mem_nil, false_implies, implies_true, and_true]
      exact ⟨leftWithin, opWithin, rightWithin⟩
    · refine .cons (List.forall_mem_cons.mpr ⟨leftBefore, List.forall_mem_singleton.mpr leftRight⟩) ?_
      exact List.pairwise_pair.mpr rightBehind

end Built

/-- Where a node stands in a source. Its span covers its text, which is not empty, and reaches from the first
to the last one of the tokens that it is written with. Its parts lie in it, one behind the other. -/
structure Placed (source : List Char) (tokens : List Token) (node : Tree) : Prop where
  text : ∃ before part behind, source = before ++ part ++ behind ∧ part ≠ [] ∧ node.span.Covers before part ∧
    node.text = String.ofList part
  ends : ∃ own first last, own <:+: tokens ∧ node.shape.Derives own ∧ own.head? = some first ∧
    own.getLast? = some last ∧ node.span = first.span.through last.span
  within : ∀ part ∈ node.parts, part.Within node.span
  apart : node.parts.Pairwise Span.Before

theorem Built.placed {node : Tree} {stop : Token} (read : Tokens.readFrom ⟨source, .start⟩ = .ok ⟨tokens, stop⟩)
    (built : Built source node level own) (part : own <:+: tokens) : node.Placed source tokens := by
  have ordered := (Tokens.readFrom_ordered read).1.sublist part.sublist
  have filled := built.filled ordered
  obtain ⟨first, _, last, _, span, atFirst, atLast⟩ := built.exists_span
  obtain ⟨within, apart⟩ := built.parts_placed ordered
  have run : Tree.read source stop own = (.ok node, []) := read_of_built built
  refine ⟨?_, ⟨own, first, last, part, derives_of_read run, atFirst, atLast, span⟩, within, apart⟩
  obtain ⟨before, text, behind, split, covers⟩ := Tokens.readFrom_covers read part atFirst atLast
  rw [← span] at covers
  refine ⟨before, text, behind, split, covers.ne_nil filled, covers, ?_⟩
  rw [built.text_eq, split, covers.slice_eq]

/-- All nodes of a tree that is put together from neighbouring tokens of a source stand where they belong. -/
theorem Built.nodes_placed {stop : Token} (read : Tokens.readFrom ⟨source, .start⟩ = .ok ⟨tokens, stop⟩)
    (built : Built source tree level own) (part : own <:+: tokens) :
    ∀ node ∈ tree.nodes, node.Placed source tokens := by
  intro node member
  obtain ⟨nodeLevel, before, middle, behind, rfl, ofNode, _⟩ := built.exists_node member
  exact ofNode.placed read (List.IsInfix.trans ⟨before, behind, rfl⟩ part)

end Tree

/-- Where a statement stands in a source. It reaches from its target, or from the start of its expression, to
the end of its expression. -/
structure Statement.Placed (source : List Char) (tokens : List Token) (statement : Statement) : Prop where
  nodes : ∀ node ∈ statement.expression.nodes, node.Placed source tokens
  ends : (statement.target = none ∧ statement.span = statement.expression.span) ∨
    ∃ name assign, [name, assign] <:+: tokens ∧ name.kind = .identifier ∧ assign.kind = .assign ∧
      statement.target = some name.text ∧ name.span.Before assign.span ∧
      assign.span.Before statement.expression.span ∧
      statement.span = name.span.through statement.expression.span

namespace Program

variable {source : List Char} {items : List Token} {last : Token} {segment : Segment} {statement : Statement}
  {program : Program}

/-- The two forms of a statement: an expression, or one with a name and `:=` in front of it. -/
theorem Segment.Reads.cases (reads : segment.Reads source statement) :
    ∃ level own, Tree.Built source statement.expression level own ∧
      ((segment.items = own ∧ statement.target = none ∧ statement.span = statement.expression.span) ∨
        ∃ name assign, segment.items = name :: assign :: own ∧ name.kind = .identifier ∧ assign.kind = .assign ∧
          statement.target = some name.text ∧ statement.span = name.span.through statement.expression.span) := by
  obtain ⟨run, target, span⟩ := Segment.reads_iff.mp reads
  obtain ⟨level, built⟩ := Tree.built_of_read run
  rcases splitTarget_cases segment.items with ⟨name, assign, own, split, isName, isAssign, cut⟩ | whole
  · rw [split, cut] at target built
    rw [split] at span
    exact ⟨level, own, built, .inr ⟨name, assign, split, isName, isAssign, target, span⟩⟩
  · rw [whole] at target built
    obtain ⟨first, _, _, _, _, atFirst, _⟩ := built.exists_span
    rw [atFirst, Option.getD_some, built.through_span atFirst] at span
    exact ⟨level, segment.items, built, .inl ⟨rfl, target, span⟩⟩

/-- A statement reaches from a token of its segment to another one. -/
theorem Segment.Reads.exists_span (reads : segment.Reads source statement) :
    ∃ first ∈ segment.items, ∃ last ∈ segment.items, statement.span = first.span.through last.span := by
  obtain ⟨level, own, built, ⟨split, _, span⟩ | ⟨name, assign, split, _, _, _, span⟩⟩ := reads.cases
  · obtain ⟨first, inFirst, last, inLast, ofTree, _⟩ := built.exists_span
    rw [split, span]
    exact ⟨first, inFirst, last, inLast, ofTree⟩
  · obtain ⟨_, _, last, inLast, ofTree, _⟩ := built.exists_span
    have behind : last ∈ name :: assign :: own := List.mem_cons_of_mem _ (List.mem_cons_of_mem _ inLast)
    rw [split, span, ofTree]
    exact ⟨name, List.mem_cons_self, last, behind, rfl⟩

theorem Segment.Reads.placed {stop : Token} (read : Tokens.readFrom ⟨source, .start⟩ = .ok ⟨items, stop⟩)
    (reads : segment.Reads source statement) (part : segment.items <:+: items) :
    statement.Placed source items := by
  have ordered := (Tokens.readFrom_ordered read).1.sublist part.sublist
  obtain ⟨level, own, built, ⟨split, target, span⟩ | ⟨name, assign, split, isName, isAssign, target, span⟩⟩ :=
    reads.cases
  · rw [split] at part
    exact ⟨built.nodes_placed read part, .inl ⟨target, span⟩⟩
  · rw [split] at part ordered
    obtain ⟨behindName, apart⟩ := List.pairwise_cons.mp ordered.apart
    have behindAssign := (List.pairwise_cons.mp apart).1
    have ownPart : own <:+: name :: assign :: own := (List.suffix_append [name, assign] own).isInfix
    have head : [name, assign] <:+: name :: assign :: own := (List.prefix_append [name, assign] own).isInfix
    exact ⟨built.nodes_placed read (ownPart.trans part), .inr ⟨name, assign, head.trans part, isName, isAssign, target,
      behindName assign List.mem_cons_self, built.le_start behindAssign, span⟩⟩

/-- Segments have the tokens of a program in their order, without the semicolons. -/
theorem flatMap_segments_sublist : ((segments last items).flatMap Segment.items).Sublist items := by
  induction items using induct_segments with
  | single items plain => simp [segments_single plain]
  | cut items semicolon rest plain ends ih =>
    rw [segments_cut plain ends, List.flatMap_cons]
    exact (ih.cons semicolon).append_left items

theorem clauses_apart (ordered : Token.Ordered items) :
    (clauses last items).Pairwise fun first second =>
      ∀ token ∈ first.items, ∀ other ∈ second.items, token.span.Before other.span := by
  have ofSegments := (ordered.sublist (@flatMap_segments_sublist items last)).apart
  exact (List.pairwise_flatMap.mp ofSegments).2.filter _

end Program

/-- Spans are exact. Every node of a tree that a source parses to, on its own or in a program, stands where it
belongs, and so does every statement. Statements stand one behind the other. -/
theorem parsed_spans_exact (source : String) :
    (∀ tree, Tree.parse source = .ok tree →
      ∃ tokens, Tokens.ofString source = .ok tokens ∧
        ∀ node ∈ tree.nodes, node.Placed source.toList tokens.items) ∧
    ∀ program, Program.parse source = .ok program →
      ∃ tokens, Tokens.ofString source = .ok tokens ∧
        (∀ statement ∈ program, statement.Placed source.toList tokens.items) ∧
        program.Pairwise fun first second => first.span.Before second.span := by
  constructor
  · intro tree parsed
    obtain ⟨tokens, read, whole⟩ := bind_eq_ok.mp parsed
    obtain ⟨level, built⟩ := Tree.built_of_read (Tree.readWhole_eq_ok_iff.mp whole)
    exact ⟨tokens, read, built.nodes_placed read List.infix_rfl⟩
  · intro program parsed
    obtain ⟨tokens, read, reads⟩ := Program.parse_eq_ok.mp parsed
    refine ⟨tokens, read, fun statement member => ?_, ?_⟩
    · obtain ⟨segment, known, made⟩ := exists_mem_of_forall₂ reads member
      exact made.placed read (Program.infix_of_mem_segments (List.mem_filter.mp known).1)
    · refine pairwise_of_forall₂ reads (Program.clauses_apart (Tokens.readFrom_ordered read).1) ?_
      intro segment other statement later made madeLater apart
      obtain ⟨_, _, last, inLast, span⟩ := made.exists_span
      obtain ⟨first, inFirst, _, _, laterSpan⟩ := madeLater.exists_span
      rw [span, laterSpan]
      exact apart last inLast first inFirst

/-- `-('é' + b)` at the start of the second line, which is at `offset`. The accented letter takes two bytes and
one column. -/
def negatedSum (offset : Nat) : Tree :=
  .unary ⟨"-('é' + b)", ⟨offset, offset + 11, 2, 1⟩⟩ ⟨.minus, "-", ⟨offset, offset + 1, 2, 1⟩⟩ <|
    .parens ⟨"('é' + b)", ⟨offset + 1, offset + 11, 2, 2⟩⟩ <|
      .binary ⟨"'é' + b", ⟨offset + 2, offset + 10, 2, 3⟩⟩ .sum
        (.variable ⟨"'é'", ⟨offset + 2, offset + 6, 2, 3⟩⟩ "é") ⟨.plus, "+", ⟨offset + 7, offset + 8, 2, 7⟩⟩
        (.variable ⟨"b", ⟨offset + 9, offset + 10, 2, 9⟩⟩ "b")

def negatedSumProgram : Program :=
  [⟨some "sum", negatedSum 7, ⟨0, 18, 1, 1⟩⟩, ⟨none, .variable ⟨"c", ⟨21, 22, 2, 14⟩⟩ "c", ⟨21, 22, 2, 14⟩⟩]

theorem parsed_spans_exact_negatedSum :
    (Tree.parse "\n-('é' + b)" = .ok (negatedSum 1) ∧
      ∃ tokens, Tokens.ofString "\n-('é' + b)" = .ok tokens ∧
        ∀ node ∈ (negatedSum 1).nodes, node.Placed "\n-('é' + b)".toList tokens.items) ∧
    Program.parse "sum :=\n-('é' + b);; c" = .ok negatedSumProgram ∧
      ∃ tokens, Tokens.ofString "sum :=\n-('é' + b);; c" = .ok tokens ∧
        (∀ statement ∈ negatedSumProgram, statement.Placed "sum :=\n-('é' + b);; c".toList tokens.items) ∧
        negatedSumProgram.Pairwise fun first second => first.span.Before second.span := by
  have ofTree : Tree.parse "\n-('é' + b)" = .ok (negatedSum 1) := by decide +kernel
  have ofProgram : Program.parse "sum :=\n-('é' + b);; c" = .ok negatedSumProgram := by decide +kernel
  exact ⟨⟨ofTree, (parsed_spans_exact _).1 _ ofTree⟩, ofProgram, (parsed_spans_exact _).2 _ ofProgram⟩

end Vtl
