import Vtl.Proofs.Statements
import Vtl.Proofs.TokenRuns

namespace Vtl

namespace Tree

variable {text more : List Char} {close token : Token}

theorem markOf_append {span : Span} (inside : span.Inside text) :
    markOf (text ++ more) span = markOf text span := by
  rw [markOf, inside.slice_append, markOf]

theorem ofToken_append (inside : token.span.Inside text) :
    ofToken (text ++ more) token = ofToken text token := by
  rw [ofToken, markOf_append inside, ofToken]

/-- What an open frame will take from the source text is inside the text. -/
def Frame.Inside (text : List Char) : Frame → Prop
  | .parens opening => opening.Inside text
  | .unary op => op.span.Inside text
  | .binary _ _ left _ => left.span.Inside text

/-- Settling takes the texts of nodes from inside the text, whatever follows it. -/
theorem settle_append {level : Nat} {frames outer : List Frame} {tree whole : Tree}
    (framesInside : ∀ frame ∈ frames, frame.Inside text) (inside : tree.span.Inside text)
    (settles : settle text level frames tree = (outer, whole)) :
    settle (text ++ more) level frames tree = (outer, whole) ∧
      (∀ frame ∈ outer, frame.Inside text) ∧ whole.span.Inside text := by
  induction frames generalizing tree with
  | nil =>
    cases settles
    exact ⟨rfl, framesInside, inside⟩
  | cons frame frames ih =>
    obtain ⟨frameInside, outerInside⟩ := List.forall_mem_cons.mp framesInside
    cases frame with
    | parens opening =>
      cases settles
      exact ⟨rfl, framesInside, inside⟩
    | unary op =>
      have span : (op.span.through tree.span).Inside text := Span.Inside.through frameInside inside
      rw [settle] at settles ⊢
      rw [markOf_append span]
      exact ih outerInside span settles
    | binary production own left op =>
      have span : (left.span.through tree.span).Inside text := Span.Inside.through frameInside inside
      rw [settle] at settles ⊢
      split at settles
      · next closes =>
        rw [if_pos closes, markOf_append span]
        exact ih outerInside span settles
      · next closes =>
        cases settles
        rw [if_neg closes]
        exact ⟨rfl, framesInside, inside⟩

theorem finish_append {frames : List Frame} {tree : Tree} {found : Token}
    (framesInside : ∀ frame ∈ frames, frame.Inside text) (inside : tree.span.Inside text) :
    finish (text ++ more) frames tree found = finish text frames tree found := by
  unfold finish
  rw [(settle_append framesInside inside (Prod.eta _)).1]

/-- Tokens inside the text are read alike when more text follows. -/
theorem read_append {tokens : List Token} (tokensInside : ∀ token ∈ tokens, token.span.Inside text) :
    (∀ {frames : List Frame}, (∀ frame ∈ frames, frame.Inside text) →
      readOperand (text ++ more) close frames tokens = readOperand text close frames tokens) ∧
    (∀ {frames : List Frame} {tree : Tree}, (∀ frame ∈ frames, frame.Inside text) → tree.span.Inside text →
      readOperator (text ++ more) close frames tree tokens = readOperator text close frames tree tokens) := by
  induction tokens with
  | nil =>
    refine ⟨fun _ => rfl, fun framesInside inside => ?_⟩
    rw [readOperator, readOperator, finish_append framesInside inside]
  | cons token tokens ih =>
    obtain ⟨tokenInside, restInside⟩ := List.forall_mem_cons.mp tokensInside
    obtain ⟨ihOperand, ihOperator⟩ := ih restInside
    constructor
    · intro frames framesInside
      rw [readOperand, readOperand, ofToken_append tokenInside]
      split
      · exact ihOperand (List.forall_mem_cons.mpr ⟨tokenInside, framesInside⟩)
      split
      · exact ihOperand (List.forall_mem_cons.mpr ⟨tokenInside, framesInside⟩)
      split
      · next tree made => exact ihOperator framesInside (ofToken_span made ▸ tokenInside)
      · rfl
    · intro frames tree framesInside inside
      rw [readOperator, readOperator]
      split
      · next production level _ =>
        rcases settled : settle text level frames tree with ⟨outer, left⟩
        obtain ⟨same, outerInside, leftInside⟩ :=
          @settle_append text more level _ _ _ _ framesInside inside settled
        simp only [same]
        exact ihOperand (List.forall_mem_cons.mpr ⟨leftInside, outerInside⟩)
      · rcases settled : settle text 0 frames tree with ⟨outer, inner⟩
        obtain ⟨same, outerInside, _⟩ := @settle_append text more 0 _ _ _ _ framesInside inside settled
        rw [same, finish_append framesInside inside]
        split
        · split
          · next opening outer inner opened =>
            cases opened
            obtain ⟨openingInside, outerInside⟩ := List.forall_mem_cons.mp outerInside
            have span : (opening.through token.span).Inside text :=
              Span.Inside.through openingInside tokenInside
            rw [markOf_append span]
            exact ihOperator outerInside span
          · rfl
        · rfl

end Tree

namespace Program

variable {text more : List Char} {last : Token} {items : List Token} {statement : Statement}
  {before after : Program}

theorem splitTarget_subset {token : Token} (member : token ∈ (splitTarget items).2) : token ∈ items := by
  unfold splitTarget at member
  split at member
  · next name assign rest =>
    split at member
    · exact List.mem_cons_of_mem name (List.mem_cons_of_mem assign member)
    · exact member
  · exact member

theorem Segment.reads_append {segment : Segment} (inside : ∀ token ∈ segment.items, token.span.Inside text) :
    segment.Reads (text ++ more) statement ↔ segment.Reads text statement := by
  have same : Tree.read (text ++ more) segment.close (splitTarget segment.items).2 =
      Tree.read text segment.close (splitTarget segment.items).2 :=
    (Tree.read_append fun token member => inside token (splitTarget_subset member)).1 (List.forall_mem_nil _)
  rw [Segment.reads_iff, Segment.reads_iff, same]

theorem infix_of_mem_segments {segment : Segment} (known : segment ∈ segments last items) :
    segment.items <:+: items := by
  induction items using induct_segments with
  | single items plain =>
    rw [segments_single plain, List.mem_singleton] at known
    subst known
    exact List.infix_rfl
  | cut items semicolon rest plain ends ih =>
    rw [segments_cut plain ends, List.mem_cons] at known
    rcases known with rfl | later
    · exact (List.prefix_append items (semicolon :: rest)).isInfix
    · have behind : rest <:+ items ++ semicolon :: rest :=
        (List.suffix_cons semicolon rest).trans (List.suffix_append items (semicolon :: rest))
      exact (ih later).trans behind.isInfix

theorem mem_of_mem_segments {segment : Segment} {token : Token} (known : segment ∈ segments last items)
    (member : token ∈ segment.items) : token ∈ items :=
  (infix_of_mem_segments known).subset member

theorem Segment.Reads.start {segment : Segment} {first : Token} {others : List Token}
    (reads : segment.Reads text statement) (begins : segment.items = first :: others) :
    statement.span.start = first.span.start := by
  rw [(Segment.reads_iff.mp reads).2.2, begins]
  rfl

end Program

end Vtl
