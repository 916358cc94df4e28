import Vtl.Proofs.Parsing

namespace Vtl

/-- The terminals that complete what was read in part: a name where an operand is due, and the right
parentheses that are missing. -/
def Terminal.Closes (terminal : Terminal) : Prop := terminal = .name "x" ∨ terminal = .rightParen

/-- Where a list of tokens leaves a form: with the first one of `rest`, or with its end. No list of the
form goes on from `lead` in that way, and some list of the form goes on from it in another. -/
structure Halts (form : List Token → Prop) (lead rest : List Token) : Prop where
  stuck : ∀ found more others, rest = found :: more → ¬form (lead ++ found :: others)
  ended : rest = [] → ¬form lead
  completed : ∃ ends : List Terminal, (∀ terminal ∈ ends, terminal.Closes) ∧
    ∀ extra, List.Forall₂ Token.Spells extra ends → form (lead ++ extra)

/-- Tokens in front that make no difference to a form move the place where a list leaves it. -/
theorem Halts.behind {form other : List Token → Prop} {front lead rest : List Token}
    (same : ∀ tokens, other (front ++ tokens) ↔ form tokens) (halts : Halts form lead rest) :
    Halts other (front ++ lead) rest := by
  obtain ⟨stuck, ended, ends, closes, completes⟩ := halts
  refine ⟨?_, fun empty => mt (same lead).mp (ended empty), ends, closes, ?_⟩
  · intro found more others begins
    rw [List.append_assoc, same]
    exact stuck found more others begins
  · intro extra spelled
    rw [List.append_assoc, same]
    exact completes extra spelled

namespace Tree

/-- What was read can be completed to a well-formed shape. -/
def Leads (terminals : List Terminal) : Prop :=
  ∃ ends : List Terminal, (∀ terminal ∈ ends, terminal.Closes) ∧
    ∃ whole : Shape, whole.yield = terminals ++ ends ∧ ∃ level, whole.HasLevel level

theorem Leads.of_append {terminals : List Terminal} {terminal : Terminal} (closes : terminal.Closes)
    (leads : Leads (terminals ++ [terminal])) : Leads terminals := by
  obtain ⟨ends, allClose, whole, yields, wellFormed⟩ := leads
  refine ⟨terminal :: ends, List.forall_mem_cons.mpr ⟨closes, allClose⟩, whole, ?_, wellFormed⟩
  rw [yields, List.append_assoc, List.singleton_append]

/-- Behind an operand, closing the open parentheses completes what was read. -/
theorem WellNested.leads {frames : List Frame} {operand : Shape} {level : Nat} (nested : WellNested frames)
    (operandLevel : operand.HasLevel level) (demanded : demand frames ≤ level) :
    Leads (openYield frames ++ operand.yield) := by
  induction nested generalizing operand level with
  | nil => exact ⟨[], List.forall_mem_nil _, operand, (List.append_nil _).symm, level, operandLevel⟩
  | parens nested ih =>
    have closed := ih (.parens operandLevel) (Nat.le_succ_of_le nested.demand_le)
    rw [Shape.yield, ← List.append_assoc] at closed
    have opened := Leads.of_append (Or.inr rfl) closed
    rwa [openYield, List.append_assoc, List.singleton_append]
  | unary kind nested ih =>
    have applied := ih (.unary kind operandLevel demanded) nested.demand_le
    rwa [openYield, List.append_assoc, List.singleton_append]
  | binary kind ofLeft leftTight outerDemanded nested ih =>
    have applied := ih (.binary kind ofLeft leftTight operandLevel demanded) outerDemanded
    rwa [openYield, List.append_assoc, List.append_assoc, List.singleton_append]

/-- Where an operand is due, a name will do. -/
theorem WellNested.leads_operand {frames : List Frame} (nested : WellNested frames) : Leads (openYield frames) :=
  .of_append (Or.inl rfl) (nested.leads .variable (Nat.le_succ_of_le nested.demand_le))

variable {text : List Char} {close token found : Token} {tokens : List Token} {frames : List Frame} {tree : Tree}
  {e : SyntaxError}

theorem ofToken_error (failed : ofToken text token = .error e) : e.span = token.span := by
  unfold ofToken at failed
  dsimp only at failed
  split at failed
  case h_1 =>
    split at failed
    · cases failed
    · cases failed
      rfl
  case h_8 =>
    cases failed
    rfl
  all_goals cases failed

theorem finish_error (failed : finish text frames tree found = .error e) : e.span = found.span := by
  unfold finish at failed
  split at failed
  · cases failed
  · cases failed
    rfl

theorem readOperand_error (plain : token.kind ∉ unaryOperators) (noParen : token.kind ≠ .leftParen)
    (failed : ofToken text token = .error e) (rest : List Token) :
    readOperand text close frames (token :: rest) = (.error e, token :: rest) := by
  rw [readOperand, if_neg (mt isUnary_iff.mp plain), if_neg noParen, failed]

theorem readOperator_finish (plain : token.kind.binary? = none)
    (noParen : ∀ opening outer inner, token.kind = .rightParen →
      settle text 0 frames tree ≠ (.parens opening :: outer, inner)) (rest : List Token) :
    readOperator text close frames tree (token :: rest) = (finish text frames tree token, token :: rest) := by
  rw [readOperator, plain]
  dsimp only
  split
  · next kind =>
    split
    · next opening outer inner settles => exact (noParen opening outer inner kind settles).elim
    · rfl
  · rfl

/-- How a run on tokens ends behind what was read before: it has taken some tokens that spell terminals,
what is read so far can be completed, an error is at the next token, and what follows that token does not
matter. -/
structure Stops (close : Token) (run : List Token → Except SyntaxError Tree × List Token)
    (before : List Terminal) (tokens consumed : List Token) : Prop where
  split : tokens = consumed ++ (run tokens).2
  leads : ∃ terminals, List.Forall₂ Token.Spells consumed terminals ∧ Leads (before ++ terminals)
  place : ∀ e, (run tokens).1 = .error e → e.span = ((run tokens).2.head?.getD close).span
  kept : ∀ found more others, (run tokens).2 = found :: more →
    run (consumed ++ found :: others) = ((run tokens).1, found :: others)

namespace Stops

variable {run later : List Token → Except SyntaxError Tree × List Token} {before : List Terminal}
  {consumed : List Token} {terminal : Terminal} {result : Except SyntaxError Tree}

theorem cons (step : ∀ rest, run (token :: rest) = later rest) (spells : token.Spells terminal)
    (stops : Stops close later (before ++ [terminal]) tokens consumed) :
    Stops close run before (token :: tokens) (token :: consumed) := by
  obtain ⟨split, ⟨terminals, spelled, leads⟩, place, kept⟩ := stops
  refine ⟨?_, ⟨terminal :: terminals, .cons spells spelled, ?_⟩, ?_, ?_⟩
  · rw [step, List.cons_append, ← split]
  · rwa [List.append_assoc, List.singleton_append] at leads
  · rw [step]
    exact place
  · intro found more others
    rw [step, List.cons_append, step]
    exact kept found more others

theorem nil (ends : run [] = (result, [])) (place : ∀ e, result = .error e → e.span = close.span)
    (leads : Leads before) : Stops close run before [] [] := by
  refine ⟨?_, ⟨[], .nil, ?_⟩, ?_, ?_⟩
  · rw [ends]
    rfl
  · rwa [List.append_nil]
  · rw [ends]
    exact place
  · intro found more others begins
    rw [ends] at begins
    cases begins

/-- A run that takes nothing of a list and looks at its first token only. -/
theorem here (halts : ∀ rest, run (token :: rest) = (result, token :: rest))
    (place : ∀ e, result = .error e → e.span = token.span) (leads : Leads before) :
    Stops close run before (token :: tokens) [] := by
  refine ⟨?_, ⟨[], .nil, ?_⟩, ?_, ?_⟩
  · rw [halts]
    rfl
  · rwa [List.append_nil]
  · rw [halts]
    exact place
  · intro found more others begins
    rw [halts] at begins ⊢
    cases begins
    exact halts others

end Stops

/-- Reading stops behind tokens that can be completed, whichever they are. -/
theorem exists_stops : (∀ {frames : List Frame}, WellNested frames →
      ∃ consumed, Stops close (readOperand text close frames) (openYield frames) tokens consumed) ∧
    (∀ {frames : List Frame} {tree : Tree}, WellNested frames → tree.shape.HasLevel 7 →
      ∃ consumed, Stops close (readOperator text close frames tree) (openYield frames ++ tree.shape.yield)
        tokens consumed) := by
  -- The tokens decide which of the two functions goes on, so both are followed at once. What the open frames
  -- have read is the invariant: it can be completed wherever the run stops.
  induction tokens with
  | nil =>
    constructor
    · intro frames nested
      refine ⟨[], .nil rfl ?_ nested.leads_operand⟩
      rintro e ⟨⟩
      rfl
    · intro frames tree nested treeLevel
      have leads := nested.leads treeLevel (Nat.le_succ_of_le nested.demand_le)
      exact ⟨[], .nil rfl (fun e => finish_error) leads⟩
  | cons token tokens ih =>
    obtain ⟨ihOperand, ihOperator⟩ := ih
    constructor
    · intro frames nested
      by_cases unary : token.kind ∈ unaryOperators
      · obtain ⟨consumed, stops⟩ := ihOperand (.unary unary nested)
        exact ⟨_, .cons (fun _ => readOperand_unary unary) (.unary unary) stops⟩
      by_cases paren : token.kind = .leftParen
      · obtain ⟨consumed, stops⟩ := @ihOperand (.parens token.span :: frames) (.parens nested)
        exact ⟨_, .cons (fun _ => readOperand_leftParen paren) (.leftParen paren) stops⟩
      cases made : ofToken text token with
      | error e =>
        refine ⟨[], .here (readOperand_error unary paren made) ?_ nested.leads_operand⟩
        rintro _ ⟨⟩
        exact ofToken_error made
      | ok tree =>
        obtain ⟨⟨terminal, spells, yields⟩, treeLevel⟩ := ofToken_spells made
        obtain ⟨consumed, stops⟩ := ihOperator nested treeLevel
        rw [yields] at stops
        exact ⟨_, .cons (fun _ => readOperand_ofToken made) spells stops⟩
    · intro frames tree nested treeLevel
      have leads := nested.leads treeLevel (Nat.le_succ_of_le nested.demand_le)
      cases isBinary : token.kind.binary? with
      | some operator =>
        obtain ⟨kind, _⟩ := binary?_eq_some_iff.mp isBinary
        obtain ⟨opened, yields⟩ := nested.open_binary treeLevel kind (Prod.eta _)
        obtain ⟨consumed, stops⟩ := ihOperand opened
        rw [yields] at stops
        exact ⟨_, .cons (fun _ => readOperator_binary kind rfl) (.binary kind) stops⟩
      | none =>
        by_cases closes : token.kind = .rightParen ∧ ∃ opening outer inner,
            settle text 0 frames tree = (.parens opening :: outer, inner)
        · obtain ⟨kind, opening, outer, inner, settles⟩ := closes
          obtain ⟨outerNested, innerLevel, yields⟩ := nested.close_parens treeLevel settles
          obtain ⟨consumed, stops⟩ := ihOperator outerNested innerLevel
          rw [yields] at stops
          exact ⟨_, .cons (fun _ => readOperator_rightParen kind settles) (.rightParen kind) stops⟩
        · have finishes := @readOperator_finish text close token frames tree isBinary
            fun opening outer inner kind settles => closes ⟨kind, opening, outer, inner, settles⟩
          exact ⟨[], .here finishes (fun e => finish_error) leads⟩

/-- Tokens that make an expression. -/
def Expression (tokens : List Token) : Prop := ∃ shape : Shape, shape.Derives tokens

theorem expression_iff : Expression tokens ↔ ∃ tree, read text close tokens = (.ok tree, []) := by
  constructor
  · rintro ⟨shape, derives⟩
    obtain ⟨tree, _, run⟩ := @read_of_derives text close _ _ derives
    exact ⟨tree, run⟩
  · rintro ⟨tree, run⟩
    exact ⟨tree.shape, derives_of_read run⟩

/-- Reading that does not take all tokens stops at the first one with which they cannot begin an
expression, or at their end. It ends in an error there, or with an expression before a token. -/
theorem read_halts (failed : ∀ tree, read text close tokens ≠ (.ok tree, [])) :
    ∃ lead rest, tokens = lead ++ rest ∧ Halts Expression lead rest ∧
      ((∃ e, read text close tokens = (.error e, rest) ∧ e.span = (rest.head?.getD close).span) ∨
        ∃ tree found more, rest = found :: more ∧ read text close tokens = (.ok tree, rest)) := by
  have stops : ∃ lead, Stops close (read text close) [] tokens lead := exists_stops.1 .nil
  obtain ⟨lead, split, ⟨terminals, spelled, leads⟩, place, kept⟩ := stops
  rcases run : read text close tokens with ⟨result, rest⟩
  rw [run] at split place kept
  refine ⟨lead, rest, split, ⟨?_, ?_, ?_⟩, ?_⟩
  · intro found more others begins expression
    obtain ⟨tree, accepted⟩ := (@expression_iff text close _).mp expression
    cases (Prod.mk.inj (accepted.symm.trans (kept found more others begins))).2
  · intro ends expression
    obtain ⟨tree, accepted⟩ := (@expression_iff text close _).mp expression
    have whole : tokens = lead := split.trans (by rw [ends, List.append_nil])
    exact failed tree (whole ▸ accepted)
  · obtain ⟨ends, closes, whole, yields, wellFormed⟩ := leads
    refine ⟨ends, closes, fun extra spelledEnds => ⟨whole, ?_, wellFormed⟩⟩
    rw [yields]
    exact List.rel_append spelled spelledEnds
  · cases result with
    | error e => exact .inl ⟨e, rfl, place e rfl⟩
    | ok tree =>
      cases rest with
      | nil => exact (failed tree run).elim
      | cons found more => exact .inr ⟨tree, found, more, rfl, rfl⟩

theorem readWhole_halts {tokens : Tokens} (failed : (readWhole text tokens).1 = .error e) :
    ∃ lead rest, tokens.items = lead ++ rest ∧ Halts Expression lead rest ∧
      e.span = (rest.head?.getD tokens.last).span := by
  have notRead : ∀ tree, read text tokens.last tokens.items ≠ (.ok tree, []) := by
    intro tree run
    rw [readWhole_eq_ok_iff.mpr run] at failed
    cases failed
  obtain ⟨lead, rest, split, halts, outcome⟩ := read_halts notRead
  refine ⟨lead, rest, split, halts, ?_⟩
  rcases outcome with ⟨_, run, place⟩ | ⟨_, found, more, rfl, run⟩
  · rw [readWhole, run] at failed
    cases failed
    exact place
  · rw [readWhole, run] at failed
    cases failed
    rfl

end Tree

end Vtl
