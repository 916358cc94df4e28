import Vtl.Proofs.Derivation
import Vtl.Proofs.Except

namespace Vtl.Tree

variable {source : List Char} {close : Token}

/-- The level from which an operand fits behind the innermost frame. -/
def demand : List Frame → Nat
  | .unary _ :: _ => 6
  | .binary _ own _ _ :: _ => own + 1
  | _ => 1

theorem settle_of_demand {level : Nat} {frames : List Frame} {tree : Tree} (demanded : demand frames ≤ level)
    (bound : level ≤ 5) : settle source level frames tree = (frames, tree) := by
  match frames with
  | [] => rfl
  | .parens _ :: _ => rfl
  | .unary _ :: _ =>
    simp only [demand] at demanded
    omega
  | .binary _ own _ _ :: _ =>
    simp only [demand] at demanded
    rw [settle, if_neg (by omega)]

theorem readOperand_unary {frames : List Frame} {token : Token} {rest : List Token}
    (kind : token.kind ∈ unaryOperators) :
    readOperand source close frames (token :: rest) =
      readOperand source close (.unary token :: frames) rest := by
  rw [readOperand, if_pos (isUnary_iff.mpr kind)]

theorem readOperand_leftParen {frames : List Frame} {token : Token} {rest : List Token}
    (kind : token.kind = .leftParen) :
    readOperand source close frames (token :: rest) =
      readOperand source close (.parens token.span :: frames) rest := by
  rw [readOperand, if_neg (by rw [kind]; decide), if_pos kind]

theorem readOperand_ofToken {frames : List Frame} {token : Token} {tree : Tree} {rest : List Token}
    (made : ofToken source token = .ok tree) :
    readOperand source close frames (token :: rest) = readOperator source close frames tree rest := by
  have notUnary : ¬token.kind.isUnary = true := by
    intro kind
    have member := isUnary_iff.mp kind
    simp only [unaryOperators, List.mem_cons, List.not_mem_nil, or_false] at member
    rcases member with kind | kind | kind <;> simp [ofToken, kind] at made
  have notParen : token.kind ≠ .leftParen := by
    intro kind
    simp [ofToken, kind] at made
  rw [readOperand, if_neg notUnary, if_neg notParen, made]

theorem readOperator_binary {frames outer : List Frame} {tree left : Tree} {token : Token} {level : Nat}
    {rest : List Token} (kind : token.kind ∈ operatorsAt level)
    (settled : settle source level frames tree = (outer, left)) :
    readOperator source close frames tree (token :: rest) =
      readOperand source close (.binary (productionAt level) level left token :: outer) rest := by
  rw [readOperator, binary?_eq_some_iff.mpr ⟨kind, rfl⟩]
  simp only [settled]

theorem readOperator_rightParen {frames outer : List Frame} {tree inner : Tree} {token : Token}
    {opening : Span} {rest : List Token} (kind : token.kind = .rightParen)
    (settled : settle source 0 frames tree = (.parens opening :: outer, inner)) :
    readOperator source close frames tree (token :: rest) =
      readOperator source close outer (.parens (markOf source (opening.through token.span)) inner) rest := by
  have notBinary : token.kind.binary? = none := by
    rw [kind]
    rfl
  rw [readOperator, notBinary, if_pos kind, settled]

/-- Reading `consumed` where an operand is due gets behind it, whatever follows. The frames opened on
the way settle as `whole` does over the frames that were there. -/
def ReadsAs (source : List Char) (close : Token) (frames : List Frame) (consumed : List Token) (level : Nat)
    (whole : Tree) : Prop :=
  ∀ rest, ∃ inner tree,
    readOperand source close frames (consumed ++ rest) = readOperator source close inner tree rest ∧
      ∀ lower, lower ≤ level → settle source lower inner tree = settle source lower frames whole

namespace ReadsAs

variable {frames : List Frame}

theorem ofToken {token : Token} {tree : Tree} {level : Nat} (made : ofToken source token = .ok tree) :
    ReadsAs source close frames [token] level tree := by
  intro rest
  exact ⟨frames, tree, readOperand_ofToken made, fun _ _ => rfl⟩

theorem parens {opening closing : Token} {consumed : List Token} {level : Nat} {inside : Tree}
    (left : opening.kind = .leftParen) (right : closing.kind = .rightParen)
    (reads : ReadsAs source close (.parens opening.span :: frames) consumed level inside) :
    ReadsAs source close frames (opening :: consumed ++ [closing]) 7
      (.parens (markOf source (opening.span.through closing.span)) inside) := by
  intro rest
  obtain ⟨inner, tree, read, settles⟩ := reads (closing :: rest)
  -- The parenthesis below keeps all of `inside` from settling further.
  have settled : settle source 0 inner tree = (.parens opening.span :: frames, inside) :=
    settles 0 (Nat.zero_le level)
  refine ⟨frames, _, ?_, fun _ _ => rfl⟩
  rw [List.append_assoc, List.cons_append, List.singleton_append, readOperand_leftParen left, read,
    readOperator_rightParen right settled]

theorem unary {op : Token} {consumed : List Token} {level : Nat} {operand : Tree}
    (kind : op.kind ∈ unaryOperators) (tight : 6 ≤ level)
    (reads : ReadsAs source close (.unary op :: frames) consumed level operand) :
    ReadsAs source close frames (op :: consumed) 6
      (.unary (markOf source (op.span.through operand.span)) op operand) := by
  intro rest
  obtain ⟨inner, tree, read, settles⟩ := reads rest
  refine ⟨inner, tree, (readOperand_unary kind).trans read, ?_⟩
  intro lower below
  rw [settles lower (by omega), settle]

theorem binary {op : Token} {before behind : List Token} {level leftLevel rightLevel : Nat}
    {left right : Tree} (kind : op.kind ∈ operatorsAt level) (demanded : demand frames ≤ level)
    (leftTight : level ≤ leftLevel) (rightTight : level + 1 ≤ rightLevel)
    (readsLeft : ReadsAs source close frames before leftLevel left)
    (readsRight : ReadsAs source close (.binary (productionAt level) level left op :: frames) behind
      rightLevel right) :
    ReadsAs source close frames (before ++ op :: behind) level
      (.binary (markOf source (left.span.through right.span)) (productionAt level) left op right) := by
  intro rest
  obtain ⟨inner, tree, read, settles⟩ := readsLeft (op :: behind ++ rest)
  have settled : settle source level inner tree = (frames, left) := by
    rw [settles level leftTight]
    exact settle_of_demand demanded (level_bounds kind).2
  obtain ⟨innerRight, treeRight, readRight, settlesRight⟩ := readsRight rest
  refine ⟨innerRight, treeRight, ?_, ?_⟩
  · rw [List.append_assoc, read, List.cons_append, readOperator_binary kind settled, readRight]
  · intro lower below
    rw [settlesRight lower (by omega), settle, if_pos below]

end ReadsAs

/-- Tokens are read as the tree that they build. -/
theorem Built.readsAs {tree : Tree} {level : Nat} {tokens : List Token} {frames : List Frame}
    (built : Built source tree level tokens) (demanded : demand frames ≤ level) :
    ReadsAs source close frames tokens level tree := by
  induction built generalizing frames with
  | leaf made => exact .ofToken made
  | @parens opening _ _ _ _ left right ofInner ih =>
    exact .parens left right (@ih (.parens opening.span :: frames) ofInner.positive)
  | @unary op _ _ _ kind _ tight ih => exact .unary kind tight (@ih (.unary op :: frames) tight)
  | @binary level _ _ left _ op _ _ kind _ leftTight _ rightTight ihLeft ihRight =>
    have readsLeft := ihLeft (Nat.le_trans demanded leftTight)
    have readsRight := @ihRight (.binary (productionAt level) level left op :: frames) rightTight
    exact .binary kind demanded leftTight rightTight readsLeft readsRight

/-- The frames that reading can leave open: an operand to the left of an operator binds at least as
tightly, and the operator itself as tightly as the frame outside of it asks for. -/
inductive WellNested : List Frame → Prop
  | nil : WellNested []
  | parens {opening : Span} {outer : List Frame} (nested : WellNested outer) :
      WellNested (.parens opening :: outer)
  | unary {op : Token} {outer : List Frame} (kind : op.kind ∈ unaryOperators) (nested : WellNested outer) :
      WellNested (.unary op :: outer)
  | binary {level leftLevel : Nat} {left : Tree} {op : Token} {outer : List Frame}
      (kind : op.kind ∈ operatorsAt level) (ofLeft : left.shape.HasLevel leftLevel)
      (leftTight : level ≤ leftLevel) (demanded : demand outer ≤ level) (nested : WellNested outer) :
      WellNested (.binary (productionAt level) level left op :: outer)

/-- What has been read when the frames are open. -/
def openYield : List Frame → List Terminal
  | [] => []
  | .parens _ :: outer => openYield outer ++ [.leftParen]
  | .unary op :: outer => openYield outer ++ [.operator op.kind]
  | .binary _ _ left op :: outer => openYield outer ++ (left.shape.yield ++ [.operator op.kind])

theorem WellNested.demand_le {frames : List Frame} (nested : WellNested frames) : demand frames ≤ 6 := by
  cases nested with
  | nil | parens => exact (by decide : 1 ≤ 6)
  | unary => exact Nat.le_refl 6
  | binary kind => exact Nat.succ_le_succ (level_bounds kind).2

/-- Settling reads nothing, and leaves an operand that fits both the frames still open and an operator
of the level. -/
structure Settled (level : Nat) (frames : List Frame) (tree : Tree) (outer : List Frame) (whole : Tree) :
    Prop where
  nested : WellNested outer
  fits : ∃ own, whole.shape.HasLevel own ∧ level ≤ own
  demanded : demand outer ≤ max level 1
  reads : openYield outer ++ whole.shape.yield = openYield frames ++ tree.shape.yield

theorem settle_settled {level own : Nat} (bound : level ≤ 5) {frames outer : List Frame} {tree whole : Tree}
    (nested : WellNested frames) (settles : settle source level frames tree = (outer, whole))
    (treeLevel : tree.shape.HasLevel own) (tight : level ≤ own) (demanded : demand frames ≤ own) :
    Settled level frames tree outer whole := by
  induction nested generalizing tree own with
  | nil =>
    cases settles
    exact ⟨.nil, ⟨own, treeLevel, tight⟩, Nat.le_max_right level 1, rfl⟩
  | parens nested _ =>
    cases settles
    exact ⟨.parens nested, ⟨own, treeLevel, tight⟩, Nat.le_max_right level 1, rfl⟩
  | unary kind nested ih =>
    rw [settle] at settles
    obtain ⟨outerNested, fits, outerDemand, reads⟩ :=
      ih settles (.unary kind treeLevel demanded) (by omega) nested.demand_le
    refine ⟨outerNested, fits, outerDemand, reads.trans ?_⟩
    simp [openYield, shape, Shape.yield]
  | @binary operatorLevel _ _ _ _ kind ofLeft leftTight outerDemanded nested ih =>
    by_cases closes : level ≤ operatorLevel
    · rw [settle, if_pos closes] at settles
      obtain ⟨outerNested, fits, outerDemand, reads⟩ :=
        ih settles (.binary kind ofLeft leftTight treeLevel demanded) closes outerDemanded
      refine ⟨outerNested, fits, outerDemand, reads.trans ?_⟩
      simp [openYield, shape, Shape.yield]
    · rw [settle, if_neg closes] at settles
      cases settles
      refine ⟨.binary kind ofLeft leftTight outerDemanded nested, ⟨own, treeLevel, tight⟩, ?_, rfl⟩
      simp only [demand]
      omega

theorem WellNested.settled {level : Nat} {frames outer : List Frame} {tree whole : Tree}
    (nested : WellNested frames) (treeLevel : tree.shape.HasLevel 7) (bound : level ≤ 5)
    (settles : settle source level frames tree = (outer, whole)) : Settled level frames tree outer whole :=
  settle_settled bound nested settles treeLevel (by omega) (Nat.le_succ_of_le nested.demand_le)

/-- The tokens up to `rest` continue what has been read to the whole of a well-formed tree. -/
def Completes (before : List Terminal) (tokens : List Token) (whole : Tree) (rest : List Token) : Prop :=
  ∃ consumed terminals, tokens = consumed ++ rest ∧ List.Forall₂ Token.Spells consumed terminals ∧
    whole.shape.yield = before ++ terminals ∧ ∃ level, whole.shape.HasLevel level

theorem Completes.cons {before : List Terminal} {token : Token} {terminal : Terminal} {tokens rest : List Token}
    {whole : Tree} (spells : token.Spells terminal)
    (completes : Completes (before ++ [terminal]) tokens whole rest) :
    Completes before (token :: tokens) whole rest := by
  obtain ⟨consumed, terminals, rfl, spelled, yields, wellFormed⟩ := completes
  refine ⟨token :: consumed, terminal :: terminals, rfl, .cons spells spelled, ?_, wellFormed⟩
  rw [yields, List.append_assoc, List.singleton_append]

theorem finish_completes {frames : List Frame} {tree whole : Tree} {found : Token} {tokens : List Token}
    (nested : WellNested frames) (treeLevel : tree.shape.HasLevel 7)
    (finished : finish source frames tree found = .ok whole) :
    Completes (openYield frames ++ tree.shape.yield) tokens whole tokens := by
  unfold finish at finished
  split at finished
  case h_1 settles =>
    cases finished
    obtain ⟨_, ⟨level, wellFormed, _⟩, _, reads⟩ := nested.settled treeLevel (by decide) settles
    refine ⟨[], [], rfl, .nil, ?_, level, wellFormed⟩
    rw [List.append_nil, ← reads]
    rfl
  case h_2 => cases finished

/-- An operator closes what binds as tightly as it does, and opens a frame over what is left. -/
theorem WellNested.open_binary {frames outer : List Frame} {tree left : Tree} {op : Token} {level : Nat}
    (nested : WellNested frames) (treeLevel : tree.shape.HasLevel 7) (kind : op.kind ∈ operatorsAt level)
    (settles : settle source level frames tree = (outer, left)) :
    WellNested (.binary (productionAt level) level left op :: outer) ∧
      openYield (.binary (productionAt level) level left op :: outer) =
        openYield frames ++ tree.shape.yield ++ [.operator op.kind] := by
  obtain ⟨positive, bound⟩ := level_bounds kind
  obtain ⟨outerNested, ⟨own, leftLevel, leftTight⟩, outerDemand, reads⟩ :=
    nested.settled treeLevel bound settles
  refine ⟨.binary kind leftLevel leftTight (by omega) outerNested, ?_⟩
  rw [openYield, ← reads, List.append_assoc]

/-- A right parenthesis closes all that was read since the left one. -/
theorem WellNested.close_parens {frames outer : List Frame} {tree inner : Tree} {opening : Span} {mark : Mark}
    (nested : WellNested frames) (treeLevel : tree.shape.HasLevel 7)
    (settles : settle source 0 frames tree = (.parens opening :: outer, inner)) :
    WellNested outer ∧ (Tree.parens mark inner).shape.HasLevel 7 ∧
      openYield outer ++ (Tree.parens mark inner).shape.yield =
        openYield frames ++ tree.shape.yield ++ [.rightParen] := by
  obtain ⟨outerNested, ⟨own, innerLevel, _⟩, _, reads⟩ := nested.settled treeLevel (by decide) settles
  cases outerNested with
  | parens outerNested =>
    refine ⟨outerNested, .parens innerLevel, ?_⟩
    simp [← reads, openYield, shape, Shape.yield]

theorem read_completes {tokens rest : List Token} {whole : Tree} :
    (∀ {frames : List Frame}, WellNested frames →
      readOperand source close frames tokens = (.ok whole, rest) →
        Completes (openYield frames) tokens whole rest) ∧
    (∀ {frames : List Frame} {tree : Tree}, WellNested frames → tree.shape.HasLevel 7 →
      readOperator source close frames tree tokens = (.ok whole, rest) →
        Completes (openYield frames ++ tree.shape.yield) tokens whole rest) := by
  induction tokens with
  | nil =>
    constructor
    · intro frames _ run
      cases run
    · intro frames tree nested treeLevel run
      rw [readOperator] at run
      obtain ⟨finished, rfl⟩ := Prod.mk.inj run
      exact finish_completes nested treeLevel finished
  | cons token tokens ih =>
    obtain ⟨ihOperand, ihOperator⟩ := ih
    constructor
    · intro frames nested run
      rw [readOperand] at run
      split at run
      case isTrue kind =>
        have member := isUnary_iff.mp kind
        exact .cons (.unary member) (ihOperand (.unary member nested) run)
      case isFalse =>
        split at run
        case isTrue kind => exact .cons (.leftParen kind) (ihOperand (.parens nested) run)
        case isFalse =>
          split at run
          case h_1 tree made =>
            obtain ⟨⟨terminal, spells, yields⟩, treeLevel⟩ := ofToken_spells made
            refine .cons spells ?_
            rw [← yields]
            exact ihOperator nested treeLevel run
          case h_2 => cases run
    · intro frames tree nested treeLevel run
      rw [readOperator] at run
      split at run
      case h_1 production level isBinary =>
        obtain ⟨kind, rfl⟩ := binary?_eq_some_iff.mp isBinary
        obtain ⟨opened, yields⟩ := nested.open_binary treeLevel kind (Prod.eta _)
        refine .cons (.binary kind) ?_
        rw [← yields]
        exact ihOperand opened run
      case h_2 =>
        split at run
        case isTrue kind =>
          split at run
          case h_1 opening outer inner settles =>
            obtain ⟨outerNested, innerLevel, yields⟩ := nested.close_parens treeLevel settles
            refine .cons (.rightParen kind) ?_
            rw [← yields]
            exact ihOperator outerNested innerLevel run
          case h_2 =>
            obtain ⟨finished, rfl⟩ := Prod.mk.inj run
            exact finish_completes nested treeLevel finished
        case isFalse =>
          obtain ⟨finished, rfl⟩ := Prod.mk.inj run
          exact finish_completes nested treeLevel finished

theorem read_of_built {tree : Tree} {level : Nat} {tokens : List Token}
    (built : Built source tree level tokens) : read source close tokens = (.ok tree, []) := by
  obtain ⟨inner, last, run, settles⟩ := @Built.readsAs source close tree level tokens [] built built.positive []
  have settled : settle source 0 inner last = ([], tree) := settles 0 (Nat.zero_le level)
  rw [List.append_nil] at run
  rw [read, run, readOperator, finish, settled]

theorem read_of_derives {shape : Shape} {tokens : List Token} (derives : shape.Derives tokens) :
    ∃ tree, tree.shape = shape ∧ read source close tokens = (.ok tree, []) := by
  obtain ⟨spelled, level, wellFormed⟩ := derives
  obtain ⟨tree, ofShape, built⟩ := exists_built wellFormed spelled
  exact ⟨tree, ofShape, read_of_built built⟩

theorem derives_of_read {tokens : List Token} {tree : Tree}
    (run : read source close tokens = (.ok tree, [])) : tree.shape.Derives tokens := by
  obtain ⟨consumed, terminals, ofTokens, spelled, yields, wellFormed⟩ := read_completes.1 .nil run
  rw [List.append_nil] at ofTokens
  subst ofTokens
  refine ⟨?_, wellFormed⟩
  rw [yields]
  exact spelled

theorem built_of_read {tokens : List Token} {tree : Tree}
    (run : read source close tokens = (.ok tree, [])) : ∃ level, Built source tree level tokens := by
  obtain ⟨spelled, level, wellFormed⟩ := derives_of_read run
  obtain ⟨same, _, built⟩ := @exists_built source _ _ _ wellFormed spelled
  have rerun : read source close tokens = (.ok same, []) := read_of_built built
  rw [run] at rerun
  cases rerun
  exact ⟨level, built⟩

theorem readWhole_eq_ok_iff {tokens : Tokens} {tree : Tree} :
    (readWhole source tokens).1 = .ok tree ↔ read source tokens.last tokens.items = (.ok tree, []) := by
  unfold readWhole
  split
  case h_1 run => simp [run]
  case h_2 run => simp [run]
  case h_3 run => simp [run]

theorem exists_readWhole_iff {tokens : Tokens} {shape : Shape} :
    (∃ tree, (readWhole source tokens).1 = .ok tree ∧ tree.shape = shape) ↔ shape.Derives tokens.items := by
  constructor
  · rintro ⟨tree, accepted, rfl⟩
    exact derives_of_read (readWhole_eq_ok_iff.mp accepted)
  · intro derives
    obtain ⟨tree, ofShape, run⟩ := read_of_derives derives
    exact ⟨tree, readWhole_eq_ok_iff.mpr run, ofShape⟩

/-- A source whose tokens spell a well-formed shape parses to a tree of that shape. -/
theorem exists_parse {source : String} {tokens : Tokens} {shape : Shape}
    (read : Tokens.ofString source = .ok tokens) (derives : shape.Derives tokens.items) :
    ∃ tree, parse source = .ok tree ∧ tree.shape = shape := by
  obtain ⟨tree, whole, ofShape⟩ := exists_readWhole_iff.mpr derives
  exact ⟨tree, bind_eq_ok.mpr ⟨tokens, read, whole⟩, ofShape⟩

/-- Reading accepts exactly the texts of well-formed shapes. No two of these have one text, and
operators of one level associate to the left. -/
theorem readWhole_accepts_grammar (source : List Char) (tokens : Tokens) :
    (∀ shape : Shape,
      (∃ tree, (readWhole source tokens).1 = .ok tree ∧ tree.shape = shape) ↔ shape.Derives tokens.items) ∧
    (∀ shape other : Shape, shape.Derives tokens.items → other.Derives tokens.items → shape = other) ∧
    (∀ (level : Nat) (first : Shape) (others : List (Token.Kind × Shape)),
      (∃ own, first.HasLevel own ∧ level ≤ own) →
      (∀ op operand, (op, operand) ∈ others →
        op ∈ operatorsAt level ∧ ∃ own, operand.HasLevel own ∧ level + 1 ≤ own) →
      List.Forall₂ Token.Spells tokens.items
        (first.yield ++ others.flatMap fun (op, operand) => .operator op :: operand.yield) →
      ∃ tree, (readWhole source tokens).1 = .ok tree ∧ tree.shape = .chain level first others) := by
  refine ⟨fun shape => exists_readWhole_iff, ?_, ?_⟩
  · intro shape other derives otherDerives
    obtain ⟨tree, rfl, run⟩ := @read_of_derives source tokens.last _ _ derives
    obtain ⟨same, rfl, rerun⟩ := @read_of_derives source tokens.last _ _ otherDerives
    rw [run] at rerun
    cases rerun
    rfl
  · intro level first others ofFirst ofOthers spelled
    obtain ⟨own, wellFormed, _⟩ := Shape.chain_wellFormed ofFirst ofOthers
    rw [← @Shape.yield_chain level] at spelled
    exact exists_readWhole_iff.mpr ⟨spelled, own, wellFormed⟩

/-- The tokens of `-c-0.1||e`. -/
def mixedChain : Tokens where
  items := [⟨.minus, "-", ⟨0, 1, 1, 1⟩⟩, ⟨.identifier, "c", ⟨1, 2, 1, 2⟩⟩, ⟨.minus, "-", ⟨2, 3, 1, 3⟩⟩,
    ⟨.numberConstant, "0.1", ⟨3, 6, 1, 4⟩⟩, ⟨.concat, "||", ⟨6, 8, 1, 7⟩⟩, ⟨.identifier, "e", ⟨8, 9, 1, 9⟩⟩]
  last := ⟨.endOfInput, "", ⟨9, 9, 1, 10⟩⟩

/-- The number nearest to a tenth, which no number is equal to. -/
def tenth : Number := ⟨0x3fb999999999999a⟩

theorem tenth_isNearest : tenth.IsNearest false (decimalValue "0.1".toList) :=
  Numeral.isNearest_decimalValue_iff.mpr (by decide +kernel)

theorem readWhole_accepts_grammar_mixedChain :
    Tokens.ofString "-c-0.1||e" = .ok mixedChain ∧ decimalValue "0.1".toList = 1 / 10 ∧
      ∃ tree, (readWhole "-c-0.1||e".toList mixedChain).1 = .ok tree ∧
        tree.shape = .binary .sum
          (.binary .sum (.unary .minus (.variable "c")) .minus (.constant (.number tenth))) .concat
          (.variable "e") := by
  refine ⟨by decide +kernel, by decide +kernel, (readWhole_accepts_grammar "-c-0.1||e".toList mixedChain).2.2 4
    (.unary .minus (.variable "c")) [(.minus, .constant (.number tenth)), (.concat, .variable "e")] ?_ ?_ ?_⟩
  · exact ⟨6, .unary (by decide) .variable (by decide), by decide⟩
  · intro op operand member
    simp only [List.mem_cons, List.not_mem_nil, or_false, Prod.mk.injEq] at member
    rcases member with ⟨rfl, rfl⟩ | ⟨rfl, rfl⟩
    · exact ⟨by decide, 7, .constant, by decide⟩
    · exact ⟨by decide, 7, .variable, by decide⟩
  · have minus : Token.Kind.minus ∈ operatorsAt 4 := by decide
    have concat : Token.Kind.concat ∈ operatorsAt 4 := by decide
    exact .cons (.binary minus) (.cons (.name rfl) (.cons (.binary minus) (.cons (.number rfl tenth_isNearest)
      (.cons (.binary concat) (.cons (.name rfl) .nil)))))

end Vtl.Tree
