import Vtl.Proofs.ProgramGrammar
import Vtl.Proofs.TokenPlaces

namespace Vtl

/-- Tokens with which an accepted list can begin, by their kinds and texts. A list of tokens ends in an end
of input. -/
def Viable (accepts : Tokens → Prop) (lead : List Token) : Prop :=
  ∃ tokens, tokens.last.kind = .endOfInput ∧ accepts tokens ∧
    lead.map Token.bare <+: tokens.toList.map Token.bare

/-- The first token of a list, the end of input included, with which the list stops being viable. The
tokens before it can be completed to the tokens of an accepted source text. -/
structure FirstImpossible (accepts : Tokens → Prop) (tokens : Tokens) (i : Nat) (token : Token) : Prop where
  found : tokens.toList[i]? = some token
  impossible : ¬Viable accepts (tokens.toList.take (i + 1))
  earlier : ∀ n < i, Viable accepts (tokens.toList.take (n + 1))
  completed : ∃ source other, Tokens.ofString source = .ok other ∧ accepts other ∧
    (tokens.toList.take i).map Token.bare <+: other.toList.map Token.bare

def Tree.Accepts (tokens : Tokens) : Prop := ∃ text tree, (readWhole text tokens).1 = .ok tree

def Program.Accepts (tokens : Tokens) : Prop := ∃ text program, (readAll text tokens).1 = .ok program

/-- A form of lists of tokens that tells which ones are accepted. -/
structure Describes (form : List Token → Prop) (accepts : Tokens → Prop) : Prop where
  accepted : ∀ {tokens : Tokens}, accepts tokens ↔ form tokens.items
  bare : ∀ {items : List Token}, form (items.map Token.bare) ↔ form items
  inner : ∀ {items : List Token}, form items → ∀ token ∈ items, token.kind ≠ .endOfInput

theorem Tree.describes : Describes Expression Accepts where
  accepted {tokens} := by
    constructor
    · rintro ⟨text, tree, whole⟩
      exact expression_iff.mpr ⟨tree, readWhole_eq_ok_iff.mp whole⟩
    · intro expression
      obtain ⟨tree, run⟩ := (@expression_iff [] tokens.last _).mp expression
      exact ⟨[], tree, readWhole_eq_ok_iff.mpr run⟩
  bare := Expression.bare_iff
  inner expression token member := (expression.kind_ne token member).2.2

theorem Program.describes : Describes WellFormed Accepts where
  accepted {tokens} := by
    constructor
    · rintro ⟨text, program⟩
      exact exists_readAll_iff.mp program
    · intro wellFormed
      exact ⟨[], exists_readAll_iff.mpr wellFormed⟩
  bare := wellFormed_bare_iff
  inner := WellFormed.kind_ne

variable {form : List Token → Prop} {accepts : Tokens → Prop} {lead rest : List Token} {last : Token}

theorem Describes.congr (describes : Describes form accepts) {items others : List Token}
    (same : items.map Token.bare = others.map Token.bare) : form items ↔ form others := by
  rw [← describes.bare, same, describes.bare]

/-- What a list of tokens leaves its form with is not viable. -/
theorem Halts.not_viable (describes : Describes form accepts) (halts : Halts form lead rest)
    (inner : ∀ token ∈ rest, token.kind ≠ .endOfInput) (ends : last.kind = .endOfInput) :
    ¬Viable accepts (lead ++ [rest.head?.getD last]) := by
  rintro ⟨⟨items, stop⟩, stops, accepted, begins⟩
  have ofItems : form items := describes.accepted.mp accepted
  rw [Tokens.toList, List.map_append, List.map_append, List.map_singleton, List.map_singleton,
    List.prefix_concat_iff] at begins
  rcases begins with whole | ⟨tail, inside⟩
  · obtain ⟨sameItems, sameLast⟩ := List.append_inj' whole rfl
    cases rest with
    | nil => exact halts.ended rfl ((describes.congr sameItems).mpr ofItems)
    | cons found more =>
      have kind : found.kind = stop.kind := (congrArg Token.kind (List.cons.inj sameLast).1 :)
      exact inner found List.mem_cons_self (kind.trans stops)
  · -- The accepted list goes on behind the token, so that the token is not its end.
    rw [List.append_assoc, List.singleton_append] at inside
    obtain ⟨front, behind, rfl, sameFront, sameBehind⟩ := List.map_eq_append_iff.mp inside.symm
    obtain ⟨same, others, rfl, sameToken, _⟩ := List.map_eq_cons_iff.mp sameBehind
    cases rest with
    | nil =>
      have kind : same.kind = last.kind := (congrArg Token.kind sameToken :)
      exact describes.inner ofItems same (by simp) (kind.trans ends)
    | cons found more =>
      have alike : (front ++ same :: others).map Token.bare = (lead ++ found :: others).map Token.bare := by
        rw [List.map_append, List.map_append, List.map_cons, List.map_cons, sameFront, sameToken]
        rfl
      exact halts.stuck found more others rfl ((describes.congr alike).mp ofItems)

namespace Tokens

variable {text : List Char} {items : List Token} {stop : Token}

/-- Any of the terminals that complete an expression can be written in a line of its own. -/
theorem exists_written {terminal : Terminal} (closes : terminal.Closes)
    (read : readFrom ⟨text, .start⟩ = .ok ⟨items, stop⟩) :
    ∃ c token final, readFrom ⟨text ++ ['\n', c], .start⟩ = .ok ⟨items ++ [token], final⟩ ∧
      token.Spells terminal := by
  have written {c : Char} {kind : Token.Kind} (visible : CharClass.blank.contains c = false) (plain : c ≠ '/')
      (lexeme : Lexeme.read c [] = .ok ⟨kind, [c], 1⟩) (more : kind ≠ .endOfInput) :
      ∃ token final, readFrom ⟨text ++ ['\n', c], .start⟩ = .ok ⟨items ++ [token], final⟩ ∧
        token.kind = kind ∧ token.text = String.ofList [c] := by
    obtain ⟨token, ofKind, ofText, next⟩ :=
      Cursor.next_single visible plain lexeme (Position.start.after (text ++ ['\n']))
    have further := readFrom_cons.mpr ⟨_, next, ofKind ▸ more, readFrom_nil.mpr ⟨_, rfl, rfl⟩⟩
    exact ⟨token, _, readFrom_newline read further, ofKind, ofText⟩
  rcases closes with rfl | rfl
  · obtain ⟨token, final, longer, kind, ofText⟩ := @written 'x' .identifier (by decide) (by decide) rfl (by decide)
    have spells := Token.Spells.name kind
    rw [ofText] at spells
    exact ⟨'x', token, final, longer, spells⟩
  · obtain ⟨token, final, longer, kind, _⟩ := @written ')' .rightParen (by decide) (by decide) rfl (by decide)
    exact ⟨')', token, final, longer, .rightParen kind⟩

theorem exists_completion {ends : List Terminal} (closes : ∀ terminal ∈ ends, terminal.Closes)
    (read : readFrom ⟨text, .start⟩ = .ok ⟨items, stop⟩) :
    ∃ longer extra final, readFrom ⟨longer, .start⟩ = .ok ⟨items ++ extra, final⟩ ∧
      List.Forall₂ Token.Spells extra ends := by
  induction ends generalizing text items stop with
  | nil => exact ⟨text, [], stop, by rw [List.append_nil, read], .nil⟩
  | cons terminal ends ih =>
    obtain ⟨first, later⟩ := List.forall_mem_cons.mp closes
    obtain ⟨_, token, _, readToken, spells⟩ := exists_written first read
    obtain ⟨longer, extra, final, readLonger, spelled⟩ := ih later readToken
    rw [List.append_assoc, List.singleton_append] at readLonger
    exact ⟨longer, token :: extra, final, readLonger, .cons spells spelled⟩

/-- The tokens before a place of a list are all the tokens of a text. -/
theorem exists_text_before {source : String} (lexed : ofString source = .ok ⟨lead ++ rest, last⟩) :
    ∃ text stop, readFrom ⟨text, .start⟩ = .ok ⟨lead, stop⟩ := by
  cases rest with
  | nil =>
    rw [List.append_nil] at lexed
    exact ⟨source.toList, last, lexed⟩
  | cons found more =>
    obtain ⟨text, _, stop, _, _, read, _⟩ := ofString_cut lexed
    rw [ofString, Cursor.ofString, String.toList_ofList] at read
    exact ⟨text, stop, read⟩

end Tokens

/-- Where a list of tokens leaves the form of the accepted ones, it stops being viable. -/
theorem Halts.firstImpossible (describes : Describes form accepts) {source : String}
    (lexed : Tokens.ofString source = .ok ⟨lead ++ rest, last⟩) (halts : Halts form lead rest) :
    FirstImpossible accepts ⟨lead ++ rest, last⟩ lead.length (rest.head?.getD last) := by
  obtain ⟨inner, ends, _⟩ := Tokens.readFrom_end .refl lexed
  have list : Tokens.toList ⟨lead ++ rest, last⟩ = lead ++ rest.head?.getD last :: (rest ++ [last]).tail := by
    cases rest <;> simp [Tokens.toList]
  have completed : ∃ source other, Tokens.ofString source = .ok other ∧ accepts other ∧
      lead.map Token.bare <+: other.toList.map Token.bare := by
    obtain ⟨text, stop, read⟩ := Tokens.exists_text_before lexed
    obtain ⟨closers, closes, completes⟩ := halts.completed
    obtain ⟨longer, extra, final, readLonger, spelled⟩ := Tokens.exists_completion closes read
    have accepted := (@describes.accepted ⟨lead ++ extra, final⟩).mpr (completes extra spelled)
    refine ⟨String.ofList longer, ⟨lead ++ extra, final⟩, ?_, accepted, ?_⟩
    · rw [Tokens.ofString, Cursor.ofString, String.toList_ofList, readLonger]
    · simp [Tokens.toList]
  have taken : (Tokens.toList ⟨lead ++ rest, last⟩).take lead.length = lead := by
    rw [list, List.take_left]
  refine ⟨?_, ?_, ?_, ?_⟩
  · rw [list]
    simp
  · have next : (Tokens.toList ⟨lead ++ rest, last⟩).take (lead.length + 1) = lead ++ [rest.head?.getD last] := by
      rw [list, List.append_cons]
      exact List.take_left' (by simp)
    rw [next]
    exact halts.not_viable describes (List.forall_mem_append.mp inner).2 ends
  · intro n below
    obtain ⟨other, tokens, read, accepted, begins⟩ := completed
    have shorter := @List.take_prefix_take_left _ (Tokens.toList ⟨lead ++ rest, last⟩) _ _ below
    rw [taken] at shorter
    exact ⟨tokens, (Tokens.readFrom_end .refl read).2.1, accepted, (shorter.map Token.bare).trans begins⟩
  · rw [taken]
    exact completed

/-- Syntax errors are at the earliest token that is impossible. Where the tokens of a source are no
expression, or no program, the error is at the first token, the end of input included, for which no accepted
list of tokens begins with the tokens up to it; those before it can be completed to an accepted source. -/
theorem syntax_error_at_first_impossible {source : String} {tokens : Tokens}
    (lexed : Tokens.ofString source = .ok tokens) :
    (∀ e, Tree.parse source = .error e →
      ∃ i token, FirstImpossible Tree.Accepts tokens i token ∧ e.span = token.span) ∧
    ∀ e, Program.parse source = .error e →
      ∃ i token, FirstImpossible Program.Accepts tokens i token ∧ e.span = token.span := by
  obtain ⟨items, last⟩ := tokens
  constructor
  · intro e failed
    rw [Tree.parse, lexed] at failed
    obtain ⟨lead, rest, split, halts, place⟩ := Tree.readWhole_halts failed
    dsimp only at split
    subst split
    exact ⟨_, _, halts.firstImpossible Tree.describes lexed, place⟩
  · intro e failed
    rw [Program.parse, lexed] at failed
    obtain ⟨lead, rest, split, halts, place⟩ := Program.readSegments_halts failed
    subst split
    exact ⟨_, _, halts.firstImpossible Program.describes lexed, place⟩

/-- The tokens of `a := (b; c`. -/
def openAssignment : Tokens where
  items := [⟨.identifier, "a", ⟨0, 1, 1, 1⟩⟩, ⟨.assign, ":=", ⟨2, 4, 1, 3⟩⟩, ⟨.leftParen, "(", ⟨5, 6, 1, 6⟩⟩,
    ⟨.identifier, "b", ⟨6, 7, 1, 7⟩⟩, ⟨.semicolon, ";", ⟨7, 8, 1, 8⟩⟩, ⟨.identifier, "c", ⟨9, 10, 1, 10⟩⟩]
  last := ⟨.endOfInput, "", ⟨10, 10, 1, 11⟩⟩

theorem syntax_error_at_first_impossible_openAssignment :
    Tokens.ofString "a := (b; c" = .ok openAssignment ∧
      (∃ i token, FirstImpossible Tree.Accepts openAssignment i token ∧ ⟨2, 4, 1, 3⟩ = token.span) ∧
      ∃ i token, FirstImpossible Program.Accepts openAssignment i token ∧ ⟨7, 8, 1, 8⟩ = token.span := by
  have lexed : Tokens.ofString "a := (b; c" = .ok openAssignment := by decide +kernel
  have noExpression : Tree.parse "a := (b; c" = .error ⟨.wrongToken .endOfInput .assign, ⟨2, 4, 1, 3⟩⟩ := by
    decide +kernel
  have noProgram : Program.parse "a := (b; c" = .error ⟨.wrongToken .rightParen .semicolon, ⟨7, 8, 1, 8⟩⟩ := by
    decide +kernel
  obtain ⟨ofExpression, ofProgram⟩ := syntax_error_at_first_impossible lexed
  exact ⟨lexed, ofExpression _ noExpression, ofProgram _ noProgram⟩

end Vtl
