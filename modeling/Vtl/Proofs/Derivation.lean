import Vtl.Proofs.Grammar

namespace Vtl.Tree

variable {source : List Char}

/-- A single token makes a leaf, marked as the token is. -/
theorem ofToken_eq {token : Token} {tree : Tree} (made : ofToken source token = .ok tree) :
    (∃ name, tree = .variable (markOf source token.span) name) ∨
      ∃ value, tree = .constant (markOf source token.span) value := by
  unfold ofToken at made
  dsimp only at made
  split at made
  case h_1 =>
    split at made
    · cases made
      exact .inr ⟨_, rfl⟩
    · cases made
  case h_7 =>
    cases made
    exact .inl ⟨_, rfl⟩
  case h_8 => cases made
  all_goals
    cases made
    exact .inr ⟨_, rfl⟩

theorem ofToken_mark {token : Token} {tree : Tree} (made : ofToken source token = .ok tree) :
    tree.mark = markOf source token.span := by
  rcases ofToken_eq made with ⟨name, rfl⟩ | ⟨value, rfl⟩ <;> rfl

theorem ofToken_span {token : Token} {tree : Tree} (made : ofToken source token = .ok tree) :
    tree.span = token.span := by
  rw [span, ofToken_mark made, markOf]

/-- How a tree is put together from tokens, with its level. Each node is marked from its first token to
its last one. -/
inductive Built (source : List Char) : Tree → Nat → List Token → Prop
  | leaf {token : Token} {tree : Tree} (made : ofToken source token = .ok tree) : Built source tree 7 [token]
  | parens {opening closing : Token} {inner : Tree} {level : Nat} {tokens : List Token}
      (left : opening.kind = .leftParen) (right : closing.kind = .rightParen)
      (ofInner : Built source inner level tokens) :
      Built source (.parens (markOf source (opening.span.through closing.span)) inner) 7
        (opening :: tokens ++ [closing])
  | unary {op : Token} {operand : Tree} {level : Nat} {tokens : List Token}
      (kind : op.kind ∈ unaryOperators) (ofOperand : Built source operand level tokens)
      (tight : 6 ≤ level) :
      Built source (.unary (markOf source (op.span.through operand.span)) op operand) 6 (op :: tokens)
  | binary {level leftLevel rightLevel : Nat} {left right : Tree} {op : Token} {before behind : List Token}
      (kind : op.kind ∈ operatorsAt level) (ofLeft : Built source left leftLevel before)
      (leftTight : level ≤ leftLevel) (ofRight : Built source right rightLevel behind)
      (rightTight : level + 1 ≤ rightLevel) :
      Built source (.binary (markOf source (left.span.through right.span)) (productionAt level) left op right)
        level (before ++ op :: behind)

/-- Tokens that spell a well-formed shape build a tree of that shape. -/
theorem exists_built {shape : Shape} {level : Nat} {tokens : List Token} (wellFormed : shape.HasLevel level)
    (spelled : List.Forall₂ Token.Spells tokens shape.yield) :
    ∃ tree, tree.shape = shape ∧ Built source tree level tokens := by
  induction wellFormed generalizing tokens with
  | «variable» =>
    obtain ⟨token, _, spells, last, rfl⟩ := List.forall₂_cons_right_iff.mp spelled
    obtain rfl := List.forall₂_nil_right_iff.mp last
    obtain ⟨tree, made, shape⟩ := ofToken_name spells
    exact ⟨tree, shape, .leaf made⟩
  | constant =>
    obtain ⟨token, _, spells, last, rfl⟩ := List.forall₂_cons_right_iff.mp spelled
    obtain rfl := List.forall₂_nil_right_iff.mp last
    obtain ⟨tree, made, shape⟩ := ofToken_literal spells
    exact ⟨tree, shape, .leaf made⟩
  | parens innerLevel ih =>
    obtain ⟨opening, _, spellsLeft, behind, rfl⟩ := List.forall₂_cons_right_iff.mp spelled
    obtain ⟨inside, _, spelledInside, spelledLast, rfl⟩ := Token.Spells.split_append behind
    obtain ⟨closing, _, spellsRight, last, rfl⟩ := List.forall₂_cons_right_iff.mp spelledLast
    obtain rfl := List.forall₂_nil_right_iff.mp last
    obtain ⟨inner, rfl, built⟩ := ih spelledInside
    exact ⟨_, rfl, .parens spellsLeft.kind_leftParen spellsRight.kind_rightParen built⟩
  | unary kind operandLevel tight ih =>
    obtain ⟨op, _, spells, spelledOperand, rfl⟩ := List.forall₂_cons_right_iff.mp spelled
    obtain rfl := spells.kind_operator
    obtain ⟨operand, rfl, built⟩ := ih spelledOperand
    exact ⟨_, rfl, .unary kind built tight⟩
  | binary kind ofLeft leftTight ofRight rightTight ihLeft ihRight =>
    obtain ⟨before, _, spelledLeft, spelledBehind, rfl⟩ := Token.Spells.split_append spelled
    obtain ⟨op, behind, spells, spelledRight, rfl⟩ := List.forall₂_cons_right_iff.mp spelledBehind
    obtain rfl := spells.kind_operator
    obtain ⟨left, rfl, builtLeft⟩ := ihLeft spelledLeft
    obtain ⟨right, rfl, builtRight⟩ := ihRight spelledRight
    exact ⟨_, rfl, .binary kind builtLeft leftTight builtRight rightTight⟩

/-- The nodes of a tree, each before the nodes below it. -/
def nodes : Tree → List Tree
  | .parens mark inner => .parens mark inner :: inner.nodes
  | .unary mark op operand => .unary mark op operand :: operand.nodes
  | .binary mark production left op right =>
    .binary mark production left op right :: (left.nodes ++ right.nodes)
  | .variable mark name => [.variable mark name]
  | .constant mark value => [.constant mark value]

theorem nodes_ofToken {token : Token} {tree : Tree} (made : ofToken source token = .ok tree) :
    tree.nodes = [tree] := by
  rcases ofToken_eq made with ⟨name, rfl⟩ | ⟨value, rfl⟩ <;> rfl

namespace Built

variable {tree node : Tree} {level : Nat} {tokens : List Token}

theorem positive (built : Built source tree level tokens) : 1 ≤ level := by
  cases built with
  | leaf | parens | unary => decide
  | binary kind => exact (level_bounds kind).1

/-- A tree reaches from its first token to its last one. -/
theorem ends (built : Built source tree level tokens) :
    ∃ first last, tokens.head? = some first ∧ tokens.getLast? = some last ∧
      tree.mark = markOf source (first.span.through last.span) := by
  induction built with
  | @leaf token tree made => exact ⟨token, token, rfl, rfl, ofToken_mark made⟩
  | @parens opening closing inner level tokens => exact ⟨opening, closing, rfl, List.getLast?_concat, rfl⟩
  | @unary op operand level tokens _ _ _ ih =>
    obtain ⟨first, last, _, atLast, mark⟩ := ih
    refine ⟨op, last, rfl, ?_, ?_⟩
    · simp [List.getLast?_cons, atLast]
    · rw [Tree.mark, span, mark]
      rfl
  | @binary _ _ _ left right op before behind _ _ _ _ _ ihLeft ihRight =>
    obtain ⟨first, _, atFirst, _, leftMark⟩ := ihLeft
    obtain ⟨_, last, _, atLast, rightMark⟩ := ihRight
    refine ⟨first, last, ?_, ?_, ?_⟩
    · simp [List.head?_append, atFirst]
    · simp [List.getLast?_append, List.getLast?_cons, atLast]
    · rw [Tree.mark, span, span, leftMark, rightMark]
      rfl

theorem through_span {first : Token} (built : Built source tree level tokens) (atFirst : tokens.head? = some first) :
    first.span.through tree.span = tree.span := by
  obtain ⟨begins, last, atBegin, _, mark⟩ := built.ends
  obtain rfl : first = begins := Option.some.inj (atFirst.symm.trans atBegin)
  rw [span, mark]
  rfl

/-- Tokens in parentheses build what they build alone, in parentheses. -/
theorem exists_wrapped (built : Built source tree level tokens) {opening closing : Token}
    (left : opening.kind = .leftParen) (right : closing.kind = .rightParen) :
    ∃ whole own, Built source whole own (opening :: tokens ++ [closing]) ∧ level ≤ own ∧
      whole.shape.core = tree.shape.core := by
  refine ⟨_, 7, .parens left right built, ?_, rfl⟩
  cases built with
  | leaf | parens | unary => decide
  | binary kind => exact Nat.le_trans (level_bounds kind).2 (by decide)

/-- Every node of a tree is put together from tokens that stand side by side. They can be put in
parentheses: what stands around them goes with an operand that binds more tightly as it did before. -/
theorem exists_node (built : Built source tree level tokens) (part : node ∈ tree.nodes) :
    ∃ own before middle behind, tokens = before ++ middle ++ behind ∧ Built source node own middle ∧
      ∀ {opening closing : Token}, opening.kind = .leftParen → closing.kind = .rightParen →
        ∃ whole wrapped, Built source whole wrapped (before ++ (opening :: middle ++ [closing]) ++ behind) ∧
          level ≤ wrapped ∧ whole.shape.core = tree.shape.core := by
  induction built with
  | leaf made =>
    rw [nodes_ofToken made, List.mem_singleton] at part
    subst part
    refine ⟨7, [], _, [], by simp, .leaf made, fun left right => ?_⟩
    simpa using (Built.leaf made).exists_wrapped left right
  | @parens opening closing inner level tokens left right ofInner ih =>
    rcases List.mem_cons.mp part with rfl | below
    · refine ⟨7, [], _, [], by simp, .parens left right ofInner, fun outerLeft outerRight => ?_⟩
      simpa using (Built.parens left right ofInner).exists_wrapped outerLeft outerRight
    · obtain ⟨own, before, middle, behind, rfl, built, wrap⟩ := ih below
      refine ⟨own, opening :: before, middle, behind ++ [closing], by simp, built, fun innerLeft innerRight => ?_⟩
      obtain ⟨whole, wrapped, builtWhole, _, core⟩ := wrap innerLeft innerRight
      have builtAround := Built.parens left right builtWhole
      simp only [List.append_assoc, List.cons_append, List.nil_append] at builtAround ⊢
      exact ⟨_, 7, builtAround, Nat.le_refl 7, core⟩
  | @unary op operand level tokens kind ofOperand tight ih =>
    rcases List.mem_cons.mp part with rfl | below
    · refine ⟨6, [], _, [], by simp, .unary kind ofOperand tight, fun left right => ?_⟩
      simpa using (Built.unary kind ofOperand tight).exists_wrapped left right
    · obtain ⟨own, before, middle, behind, rfl, built, wrap⟩ := ih below
      refine ⟨own, op :: before, middle, behind, by simp, built, fun left right => ?_⟩
      obtain ⟨whole, wrapped, builtWhole, tighter, core⟩ := wrap left right
      have builtAround := Built.unary kind builtWhole (Nat.le_trans tight tighter)
      simp only [List.append_assoc, List.cons_append, List.nil_append] at builtAround ⊢
      exact ⟨_, 6, builtAround, Nat.le_refl 6, by simp only [shape, Shape.core, core]⟩
  | @binary level _ _ _ _ op front back kind ofLeft leftTight ofRight rightTight ihLeft ihRight =>
    rcases List.mem_cons.mp part with rfl | below
    · refine ⟨level, [], _, [], by simp, .binary kind ofLeft leftTight ofRight rightTight, fun left right => ?_⟩
      simpa using (Built.binary kind ofLeft leftTight ofRight rightTight).exists_wrapped left right
    rcases List.mem_append.mp below with inLeft | inRight
    · obtain ⟨own, before, middle, behind, rfl, built, wrap⟩ := ihLeft inLeft
      refine ⟨own, before, middle, behind ++ op :: back, by simp, built, fun left right => ?_⟩
      obtain ⟨whole, wrapped, builtWhole, tighter, core⟩ := wrap left right
      have builtAround := Built.binary kind builtWhole (Nat.le_trans leftTight tighter) ofRight rightTight
      simp only [List.append_assoc, List.cons_append, List.nil_append] at builtAround ⊢
      exact ⟨_, level, builtAround, Nat.le_refl level, by simp only [shape, Shape.core, core]⟩
    · obtain ⟨own, before, middle, behind, rfl, built, wrap⟩ := ihRight inRight
      refine ⟨own, front ++ op :: before, middle, behind, by simp, built, fun left right => ?_⟩
      obtain ⟨whole, wrapped, builtWhole, tighter, core⟩ := wrap left right
      have builtAround := Built.binary kind ofLeft leftTight builtWhole (Nat.le_trans rightTight tighter)
      simp only [List.append_assoc, List.cons_append, List.nil_append] at builtAround ⊢
      exact ⟨_, level, builtAround, Nat.le_refl level, by simp only [shape, Shape.core, core]⟩

end Built

end Vtl.Tree
