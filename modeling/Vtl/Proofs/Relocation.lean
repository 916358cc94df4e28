import Vtl.Proofs.Statements

namespace Vtl

/-- A change of places in tokens and trees, in which joined spans stay joined. -/
structure Relocation where
  span : Span → Span
  mark : Mark → Mark
  span_mark : ∀ own, (mark own).span = span own.span
  span_through : ∀ first last, span (first.through last) = (span first).through (span last)

/-- The places are those of one source text before the change and of another one after it. -/
def Relocation.Between (move : Relocation) (text other : List Char) : Prop :=
  ∀ own, Tree.markOf other (move.span own) = move.mark (Tree.markOf text own)

variable {move : Relocation} {text other : List Char}

def Token.relocate (move : Relocation) (token : Token) : Token := { token with span := move.span token.span }

def Tree.relocate (move : Relocation) : Tree → Tree
  | .parens mark inner => .parens (move.mark mark) (inner.relocate move)
  | .unary mark op operand => .unary (move.mark mark) (op.relocate move) (operand.relocate move)
  | .binary mark production left op right =>
    .binary (move.mark mark) production (left.relocate move) (op.relocate move) (right.relocate move)
  | .variable mark name => .variable (move.mark mark) name
  | .constant mark value => .constant (move.mark mark) value

def Statement.relocate (move : Relocation) (statement : Statement) : Statement :=
  { statement with expression := statement.expression.relocate move, span := move.span statement.span }

/-- What a token stands for depends on its kind and text only. -/
theorem Token.Spells.congr {token same : Token} {terminal : Terminal} (kind : same.kind = token.kind)
    (text : same.text = token.text) (spells : token.Spells terminal) : same.Spells terminal := by
  obtain ⟨tokenKind, tokenText, tokenSpan⟩ := token
  obtain ⟨sameKind, sameText, sameSpan⟩ := same
  cases kind
  cases text
  cases spells with
  | leftParen kind => exact .leftParen kind
  | rightParen kind => exact .rightParen kind
  | binary kind => exact .binary kind
  | unary kind => exact .unary kind
  | name kind => exact .name kind
  | integer kind value => exact .integer kind value
  | number kind nearest => exact .number kind nearest
  | string kind => exact .string kind
  | truth kind => exact .truth kind
  | falsehood kind => exact .falsehood kind
  | null kind => exact .null kind

theorem Token.spells_relocate {token : Token} {terminal : Terminal} :
    (token.relocate move).Spells terminal ↔ token.Spells terminal :=
  ⟨@Token.Spells.congr (token.relocate move) token terminal rfl rfl,
    @Token.Spells.congr token (token.relocate move) terminal rfl rfl⟩

theorem Shape.derives_relocate {shape : Shape} {tokens : List Token} :
    shape.Derives (tokens.map (Token.relocate move)) ↔ shape.Derives tokens := by
  simp only [Derives, List.forall₂_map_left_iff, Token.spells_relocate]

namespace Tree

variable {close closing token : Token}

theorem span_relocate (tree : Tree) : (tree.relocate move).span = move.span tree.span := by
  cases tree <;> exact move.span_mark _

theorem ofToken_relocate (between : move.Between text other) {tree : Tree} (made : ofToken text token = .ok tree) :
    ofToken other (token.relocate move) = .ok (tree.relocate move) := by
  unfold ofToken at made ⊢
  simp only [Token.relocate, between _]
  dsimp only at made
  split at made
  case h_1 =>
    split at made
    · next bounded =>
      cases made
      exact if_pos bounded
    · cases made
  case h_8 => cases made
  all_goals
    cases made
    rfl

def Frame.relocate (move : Relocation) : Frame → Frame
  | .parens opening => .parens (move.span opening)
  | .unary op => .unary (op.relocate move)
  | .binary production level left op => .binary production level (left.relocate move) (op.relocate move)

theorem settle_relocate (between : move.Between text other) {level : Nat} {frames outer : List Frame}
    {tree whole : Tree} (settles : settle text level frames tree = (outer, whole)) :
    settle other level (frames.map (Frame.relocate move)) (tree.relocate move) =
      (outer.map (Frame.relocate move), whole.relocate move) := by
  induction frames generalizing tree with
  | nil =>
    cases settles
    rfl
  | cons frame frames ih =>
    rw [List.map_cons]
    cases frame with
    | parens opening =>
      cases settles
      rfl
    | unary op =>
      rw [settle] at settles
      rw [Frame.relocate, settle, span_relocate, Token.relocate, ← move.span_through, between]
      exact ih settles
    | binary production own left op =>
      rw [settle] at settles
      rw [Frame.relocate, settle, span_relocate, span_relocate, ← move.span_through, between]
      split at settles
      · next closes =>
        rw [if_pos closes]
        exact ih settles
      · next closes =>
        cases settles
        rw [if_neg closes]
        rfl

theorem finish_eq_ok {frames : List Frame} {tree whole : Tree} {found : Token} :
    finish text frames tree found = .ok whole ↔ settle text 0 frames tree = ([], whole) := by
  unfold finish
  split
  · next settled => simp [settled]
  · next settled => simp [settled]

theorem finish_relocate (between : move.Between text other) {frames : List Frame} {tree whole : Tree}
    {found instead : Token} (finished : finish text frames tree found = .ok whole) :
    finish other (frames.map (Frame.relocate move)) (tree.relocate move) instead =
      .ok (whole.relocate move) :=
  finish_eq_ok.mpr (settle_relocate between (finish_eq_ok.mp finished))

/-- An expression is read alike wherever its tokens stand and whichever token closes it. -/
theorem read_relocate (between : move.Between text other) {tokens rest : List Token} {whole : Tree} :
    (∀ {frames : List Frame}, readOperand text close frames tokens = (.ok whole, rest) →
      readOperand other closing (frames.map (Frame.relocate move)) (tokens.map (Token.relocate move)) =
        (.ok (whole.relocate move), rest.map (Token.relocate move))) ∧
    (∀ {frames : List Frame} {tree : Tree}, readOperator text close frames tree tokens = (.ok whole, rest) →
      readOperator other closing (frames.map (Frame.relocate move)) (tree.relocate move)
          (tokens.map (Token.relocate move)) =
        (.ok (whole.relocate move), rest.map (Token.relocate move))) := by
  induction tokens with
  | nil =>
    constructor
    · intro frames run
      cases run
    · intro frames tree run
      obtain ⟨finished, rfl⟩ := Prod.mk.inj run
      rw [List.map_nil, readOperator, finish_relocate between finished]
  | cons token tokens ih =>
    obtain ⟨ihOperand, ihOperator⟩ := ih
    have kind : (token.relocate move).kind = token.kind := rfl
    constructor
    · intro frames run
      rw [readOperand] at run
      rw [List.map_cons, readOperand, kind]
      split at run
      · next unary =>
        rw [if_pos unary]
        exact ihOperand run
      next notUnary =>
      rw [if_neg notUnary]
      split at run
      · next opens =>
        rw [if_pos opens]
        exact ihOperand run
      next plain =>
      rw [if_neg plain]
      split at run
      · next tree made =>
        rw [ofToken_relocate between made]
        exact ihOperator run
      · cases run
    · intro frames tree run
      rw [readOperator] at run
      rw [List.map_cons, readOperator, kind]
      split at run
      · next production level binary =>
        rcases settled : settle text level frames tree with ⟨outer, left⟩
        rw [settled] at run
        simp only [settle_relocate between settled]
        exact ihOperand run
      next notBinary =>
      split at run
      · next closes =>
        rw [if_pos closes]
        split at run
        · next opening outer inner settled =>
          have span : (move.span opening).through (token.relocate move).span =
              move.span (opening.through token.span) := (move.span_through _ _).symm
          simp only [settle_relocate between settled, List.map_cons, Frame.relocate, span, between _]
          exact ihOperator run
        · -- The parenthesis belongs to nothing that was opened, so the expression ends before it.
          obtain ⟨finished, rfl⟩ := Prod.mk.inj run
          simp only [settle_relocate between (finish_eq_ok.mp finished), finish_relocate between finished]
          rfl
      · next notClosing =>
        obtain ⟨finished, rfl⟩ := Prod.mk.inj run
        rw [if_neg notClosing, finish_relocate between finished]
        rfl

end Tree

namespace Program

variable {last : Token} {items : List Token} {statement : Statement} {program : Program}

theorem splitTarget_relocate : splitTarget (items.map (Token.relocate move)) =
    ((splitTarget items).1, (splitTarget items).2.map (Token.relocate move)) := by
  match items with
  | [] | [_] => rfl
  | name :: assign :: rest =>
    simp only [List.map_cons, splitTarget, Token.relocate]
    split <;> rfl

def Segment.relocate (move : Relocation) (segment : Segment) : Segment :=
  ⟨segment.items.map (Token.relocate move), segment.close.relocate move,
    segment.after.map (Token.relocate move)⟩

theorem segments_relocate : segments (last.relocate move) (items.map (Token.relocate move)) =
    (segments last items).map (Segment.relocate move) := by
  induction items with
  | nil => rfl
  | cons token items ih =>
    have kind : (token.relocate move).kind = token.kind := rfl
    rw [List.map_cons, segments, segments, ih, kind]
    by_cases ends : token.kind = .semicolon
    · rw [if_pos ends, if_pos ends]
      rfl
    · rw [if_neg ends, if_neg ends]
      cases segments last items <;> rfl

theorem clauses_relocate : clauses (last.relocate move) (items.map (Token.relocate move)) =
    (clauses last items).map (Segment.relocate move) := by
  rw [clauses, segments_relocate, List.filter_map, clauses]
  congr 2
  funext segment
  simp [Segment.relocate]

theorem Segment.Reads.relocate (between : move.Between text other) {segment : Segment}
    (reads : segment.Reads text statement) :
    (segment.relocate move).Reads other (statement.relocate move) := by
  obtain ⟨run, target, span⟩ := Segment.reads_iff.mp reads
  refine Segment.reads_iff.mpr ⟨?_, ?_, ?_⟩
  · rw [Segment.relocate, splitTarget_relocate]
    exact (Tree.read_relocate between).1 run
  · rw [Segment.relocate, splitTarget_relocate]
    exact target
  · rw [Statement.relocate, Tree.span_relocate, span, move.span_through]
    cases items : segment.items <;> simp [Segment.relocate, items, Token.relocate]

/-- Statements are read alike wherever their tokens stand. -/
theorem reads_relocate (between : move.Between text other)
    (reads : List.Forall₂ (Segment.Reads text) (clauses last items) program) :
    List.Forall₂ (Segment.Reads other) (clauses (last.relocate move) (items.map (Token.relocate move)))
      (program.map (Statement.relocate move)) := by
  rw [clauses_relocate, List.forall₂_map_left_iff, List.forall₂_map_right_iff]
  exact reads.imp fun _ _ => Segment.Reads.relocate between

end Program

end Vtl
