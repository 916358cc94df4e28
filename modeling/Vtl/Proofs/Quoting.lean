import Vtl.Proofs.Composition
import Vtl.Proofs.Inference
import Vtl.Proofs.Layout

namespace Vtl

/-- The string constant of a text. -/
def quotedText (text : String) : String := "\"" ++ String.ofList (doubleQuotes text.toList) ++ "\""

/-- The name in single quotes. -/
def quotedName (name : String) : String := "'" ++ name ++ "'"

namespace Lexeme

variable {text name rest : List Char}

/-- A quote in a text is written twice, so the first one that is not ends the constant, unless another
quote follows. -/
theorem stringBody_doubleQuotes (ends : rest.head? ≠ some '"') :
    stringBody (doubleQuotes text ++ '"' :: rest) = some (text, (doubleQuotes text).length + 1) := by
  induction text with
  | nil =>
    refine stringBody_closing fun tail same => ends ?_
    rw [same]
    rfl
  | cons c text ih =>
    by_cases quote : c = '"'
    · subst quote
      have doubled : doubleQuotes ('"' :: text) = '"' :: '"' :: doubleQuotes text := rfl
      rw [doubled, List.cons_append, List.cons_append, stringBody, ih]
      rfl
    · have single : doubleQuotes (c :: text) = c :: doubleQuotes text := by
        rw [doubleQuotes, List.flatMap_cons, if_neg quote]
        rfl
      rw [single, List.cons_append, stringBody_cons quote, ih]
      rfl

theorem read_quotedText (ends : rest.head? ≠ some '"') :
    Lexeme.read '"' (doubleQuotes text ++ '"' :: rest) =
      .ok ⟨.stringConstant, text, (doubleQuotes text).length + 2⟩ := by
  have noSymbol : (symbols.find? fun symbol => symbol.1.isPrefixOf ('"' :: (doubleQuotes text ++ '"' :: rest))) =
      none := rfl
  rw [Lexeme.read, noSymbol]
  dsimp only
  rw [readOther, if_neg (by decide), if_neg (by decide), if_pos rfl, stringBody_doubleQuotes ends]

theorem takeWhile_quotedName (plain : '\'' ∉ name) :
    (name ++ '\'' :: rest).takeWhile (· != '\'') = name := by
  rw [takeWhile_append_cons (by decide), List.takeWhile_eq_self_iff]
  intro c member
  have differ : c ≠ '\'' := fun same => plain (same ▸ member)
  exact bne_iff_ne.mpr differ

theorem read_quotedName (plain : '\'' ∉ name) :
    Lexeme.read '\'' (name ++ '\'' :: rest) = .ok ⟨.identifier, name, name.length + 2⟩ := by
  have noSymbol : (symbols.find? fun symbol => symbol.1.isPrefixOf ('\'' :: (name ++ '\'' :: rest))) = none := rfl
  have closed : name.length < (name ++ '\'' :: rest).length := by simp
  rw [Lexeme.read, noSymbol]
  dsimp only
  rw [readOther, if_neg (by decide), if_neg (by decide), if_neg (by decide), if_pos rfl, takeWhile_quotedName plain]
  exact if_pos closed

end Lexeme

namespace Cursor

variable {rest : List Char}

/-- A string constant is read as the text in it if no quote follows. -/
theorem next_quotedText {text : String} (ends : rest.head? ≠ some '"') (place : Position) :
    ∃ token behind, Cursor.next ⟨(quotedText text).toList ++ rest, place⟩ = (.ok token, ⟨rest, behind⟩) ∧
      token.Spells (.literal (.string text)) := by
  have whole : '"' :: (doubleQuotes text.toList ++ '"' :: rest) = (quotedText text).toList ++ rest := by
    simp [quotedText]
  have length : (quotedText text).toList.length = (doubleQuotes text.toList).length + 2 := by
    simp [quotedText]
  have read := @Lexeme.read_quotedText text.toList rest ends
  rw [← length] at read
  have next := next_of_read whole (by decide) (by decide) read place
  rw [String.ofList_toList] at next
  exact ⟨_, _, next, .string rfl⟩

theorem next_concat (place : Position) :
    ∃ token behind, Cursor.next ⟨'|' :: '|' :: rest, place⟩ = (.ok token, ⟨rest, behind⟩) ∧
      token.Spells (.operator .concat) := by
  have read : Lexeme.read '|' ('|' :: rest) = .ok ⟨.concat, ['|', '|'], ['|', '|'].length⟩ := rfl
  have next := @next_of_read _ _ ['|', '|'] _ rest _ rfl (by decide) (by decide) read place
  have member : Token.Kind.concat ∈ operatorsAt 4 := by decide
  exact ⟨_, _, next, .binary member⟩

theorem next_assign (place : Position) :
    ∃ token, Cursor.next ⟨':' :: '=' :: rest, place⟩ = (.ok token, ⟨rest, place.after [':', '=']⟩) ∧
      token.kind = .assign := by
  have read : Lexeme.read ':' ('=' :: rest) = .ok ⟨.assign, [':', '='], [':', '='].length⟩ := rfl
  exact ⟨_, @next_of_read _ _ [':', '='] _ rest _ rfl (by decide) (by decide) read place, rfl⟩

/-- What stands between single quotes is a name, also if it would be a keyword without them. -/
theorem next_quotedName {name : String} (plain : '\'' ∉ name.toList) (place : Position) :
    Cursor.next ⟨(quotedName name).toList ++ rest, place⟩ =
      (.ok ⟨.identifier, name, .between place (place.after (quotedName name).toList)⟩,
        ⟨rest, place.after (quotedName name).toList⟩) := by
  have whole : '\'' :: (name.toList ++ '\'' :: rest) = (quotedName name).toList ++ rest := by
    simp [quotedName]
  have length : (quotedName name).toList.length = name.toList.length + 2 := by
    simp [quotedName]
  have read := @Lexeme.read_quotedName name.toList rest plain
  rw [← length] at read
  have next := next_of_read whole (by decide) (by decide) read place
  rwa [String.ofList_toList] at next

end Cursor

/-- The texts as string constants with `||` between them. -/
def concatenationOf (texts : List String) : String := "||".intercalate (texts.map quotedText)

def concatenationShape (first : String) (others : List String) : Shape :=
  .chain 4 (.constant (.string first)) (others.map fun text => (.concat, .constant (.string text)))

theorem yield_concatenationShape (first next : String) (others : List String) :
    (concatenationShape first (next :: others)).yield =
      .literal (.string first) :: .operator .concat :: (concatenationShape next others).yield := by
  simp only [concatenationShape, Shape.yield_chain]
  rfl

theorem concatenationShape_wellFormed (first : String) (others : List String) :
    ∃ level, (concatenationShape first others).HasLevel level := by
  have ofOthers : ∀ op operand,
      (op, operand) ∈ others.map (fun text => (Token.Kind.concat, Shape.constant (.string text))) →
        op ∈ operatorsAt 4 ∧ ∃ own, operand.HasLevel own ∧ 5 ≤ own := by
    intro op operand member
    obtain ⟨text, _, same⟩ := List.mem_map.mp member
    cases same
    exact ⟨by decide, 7, .constant, by decide⟩
  obtain ⟨level, wellFormed, _⟩ :=
    @Shape.chain_wellFormed 4 (.constant (.string first)) _ ⟨7, .constant, by decide⟩ ofOthers
  exact ⟨level, wellFormed⟩

theorem toList_concatenationOf_cons (first next : String) (others : List String) :
    (concatenationOf (first :: next :: others)).toList =
      (quotedText first).toList ++ '|' :: '|' :: (concatenationOf (next :: others)).toList := by
  simp [concatenationOf, String.toList_intercalate]

/-- Each constant ends at its own last quote, since a `|` or nothing follows it. -/
theorem Tokens.readFrom_concatenationOf (first : String) (others : List String) (place : Position) :
    ∃ items last, readFrom ⟨(concatenationOf (first :: others)).toList, place⟩ = .ok ⟨items, last⟩ ∧
      List.Forall₂ Token.Spells items (concatenationShape first others).yield := by
  induction others generalizing first place with
  | nil =>
    have alone : (concatenationOf [first]).toList = (quotedText first).toList ++ [] := by
      simp [concatenationOf]
    obtain ⟨token, behind, next, spells⟩ := @Cursor.next_quotedText [] first (by decide) place
    have ends := (@readFrom_nil ⟨[], behind⟩ _).mpr ⟨_, rfl, rfl⟩
    rw [alone]
    exact ⟨_, _, readFrom_cons.mpr ⟨_, next, spells.kind_ne.2.2, ends⟩, .cons spells .nil⟩
  | cons second others ih =>
    let rest := (concatenationOf (second :: others)).toList
    obtain ⟨token, behind, next, spells⟩ :=
      @Cursor.next_quotedText ('|' :: '|' :: rest) first (by simp) place
    obtain ⟨joins, further, nextJoins, spellsJoins⟩ := @Cursor.next_concat rest behind
    obtain ⟨items, last, read, spelled⟩ := ih second further
    have readJoins := readFrom_cons.mpr ⟨_, nextJoins, spellsJoins.kind_ne.2.2, read⟩
    rw [toList_concatenationOf_cons, yield_concatenationShape]
    exact ⟨_, _, readFrom_cons.mpr ⟨_, next, spells.kind_ne.2.2, readJoins⟩,
      .cons spells (.cons spellsJoins spelled)⟩

theorem Tree.parse_concatenationOf (first : String) (others : List String) :
    ∃ tree, Tree.parse (concatenationOf (first :: others)) = .ok tree ∧
      tree.shape = concatenationShape first others := by
  obtain ⟨items, last, read, spelled⟩ := Tokens.readFrom_concatenationOf first others .start
  exact exists_parse read ⟨spelled, concatenationShape_wellFormed first others⟩

/-- Expressions of a shape are strings, with the given text under the bindings. -/
def Shape.IsText (shape : Shape) (bindings : Bindings) (policy : KeyPolicy) (text : String) : Prop :=
  ∀ tree : Tree, tree.shape = shape →
    ∃ e, tree.compile (bindings.scope policy) = .ok e ∧ e.valueType = .string ∧
      e.resolve bindings = .ok (.string text)

namespace Shape.IsText

variable {bindings : Bindings} {policy : KeyPolicy} {shape : Shape} {text : String}

theorem constant (text : String) : IsText (.constant (.string text)) bindings policy text := by
  intro tree ofShape
  cases tree <;> simp only [Tree.shape, Shape.constant.injEq, reduceCtorEq] at ofShape
  subst ofShape
  exact ⟨_, rfl, rfl, rfl⟩

/-- One more constant behind a concatenation. -/
theorem concat (isText : shape.IsText bindings policy text) (next : String) :
    IsText (.binary .sum shape .concat (.constant (.string next))) bindings policy (text ++ next) := by
  intro tree ofShape
  cases tree <;> simp only [Tree.shape, Shape.binary.injEq, reduceCtorEq] at ofShape
  obtain ⟨rfl, ofLeft, ofOp, ofRight⟩ := ofShape
  obtain ⟨l, leftCompiled, leftType, leftValue⟩ := isText _ ofLeft
  obtain ⟨r, rightCompiled, rightType, rightValue⟩ := constant next _ ofRight
  have typed : (Expr.concatenation (.scalar .string) l r).WellTyped (bindings.scope policy) := by
    refine .concatenation (Tree.compile_wellTyped leftCompiled) (Tree.compile_wellTyped rightCompiled) ?_ ?_
    · rw [leftType]
      decide
    · rw [rightType]
      decide
  have known : (Family.ofBinary .sum .concat).binary? .concat = some .concat := rfl
  rw [← ofOp] at known
  refine ⟨_, Tree.compile_binary_eq_ok.mpr
    ⟨_, l, r, known, leftCompiled, rightCompiled, typed, rfl, rfl⟩, rfl, ?_⟩
  rw [Expr.resolve, leftValue, rightValue]
  rfl

theorem chain (isText : shape.IsText bindings policy text) (others : List String) :
    IsText (Shape.chain 4 shape (others.map fun next => (.concat, .constant (.string next)))) bindings policy
      (text ++ String.join others) := by
  induction others generalizing shape text with
  | nil =>
    rw [String.join_nil, String.append_empty]
    exact isText
  | cons next others ih =>
    rw [String.join_cons, ← String.append_assoc]
    exact ih (isText.concat next)

end Shape.IsText

theorem evaluate_concatenationOf (first : String) (others : List String) (bindings : Bindings)
    (policy : KeyPolicy) :
    bindings.evaluate policy (concatenationOf (first :: others)) =
      .ok (.string (String.join (first :: others))) := by
  obtain ⟨tree, parsed, ofShape⟩ := Tree.parse_concatenationOf first others
  obtain ⟨e, compiled, _, value⟩ := (Shape.IsText.constant first).chain others tree ofShape
  rw [Bindings.evaluate, parsed, String.join_cons]
  exact Bindings.run_eq_ok.mpr ⟨e, compiled, value⟩

/-- A name in single quotes is the variable of that name. -/
theorem Tree.parse_quotedName {name : String} (plain : '\'' ∉ name.toList) :
    Tree.parse (quotedName name) =
      .ok (.variable ⟨quotedName name, ⟨0, (quotedName name).utf8ByteSize, 1, 1⟩⟩ name) := by
  let place := Position.start.after (quotedName name).toList
  have next := @Cursor.next_quotedName [] name plain .start
  have ends := (@Tokens.readFrom_nil ⟨[], place⟩ _).mpr ⟨_, rfl, rfl⟩
  have read := Tokens.readFrom_cons.mpr ⟨_, next, by simp, ends⟩
  have span : Span.between .start place = ⟨0, (quotedName name).utf8ByteSize, 1, 1⟩ := by
    rw [Span.between, Position.offset_after_start, byteLength_toList]
    rfl
  have text : (Span.between .start place).slice (quotedName name).toList = (quotedName name).toList := by
    have slice := Span.slice_between [] (quotedName name).toList []
    rwa [List.append_nil] at slice
  have mark : markOf (quotedName name).toList (.between .start place) =
      ⟨quotedName name, ⟨0, (quotedName name).utf8ByteSize, 1, 1⟩⟩ := by
    rw [markOf, text, String.ofList_toList, span]
  rw [List.append_nil] at read
  refine bind_eq_ok.mpr ⟨_, read, Tree.readWhole_eq_ok_iff.mpr (Tree.read_of_built (.leaf ?_))⟩
  rw [← mark]
  rfl

/-- What stands in front of an expression that is assigned to a name in single quotes. -/
def assignmentTo (name gap further : String) : String := quotedName name ++ gap ++ ":=" ++ further

section Assignment

variable {name gap further source : String} {tree : Tree}

theorem Tokens.readFrom_assignmentTo {items : List Token} {last : Token} (plain : '\'' ∉ name.toList)
    (trivia : IsTrivia gap.toList) (moreTrivia : IsTrivia further.toList)
    (read : readFrom ⟨source.toList, .start⟩ = .ok ⟨items, last⟩) :
    ∃ target assign : Token, target.kind = .identifier ∧ target.text = name ∧ assign.kind = .assign ∧
      readFrom ⟨(assignmentTo name gap further ++ source).toList, .start⟩ =
        .ok ⟨target :: assign :: items.map (Token.shift (.behind (assignmentTo name gap further).toList)),
          last.shift (.behind (assignmentTo name gap further).toList)⟩ := by
  let front := (assignmentTo name gap further).toList
  have moved := (@Tokens.readFrom_behind_eq_ok front _ _).mpr ⟨_, read, rfl⟩
  have parts : front = (quotedName name).toList ++ (gap.toList ++ ([':', '='] ++ further.toList)) := by
    simp [front, assignmentTo]
  let named := Position.start.after (quotedName name).toList
  obtain ⟨assign, nextAssign, isAssign⟩ :=
    @Cursor.next_assign (further.toList ++ source.toList) (named.after gap.toList)
  have nextTarget :=
    @Cursor.next_quotedName (gap.toList ++ ':' :: '=' :: (further.toList ++ source.toList)) name plain .start
  have place : Position.start.after front = ((named.after gap.toList).after [':', '=']).after further.toList := by
    rw [parts]
    simp only [Position.after_append, named]
  rw [place, ← readFrom_trivia moreTrivia] at moved
  have readAssign := readFrom_cons.mpr ⟨_, nextAssign, by simp [isAssign], moved⟩
  rw [← readFrom_trivia trivia] at readAssign
  refine ⟨⟨.identifier, name, .between .start named⟩, assign, rfl, rfl, isAssign, ?_⟩
  have whole : (assignmentTo name gap further ++ source).toList =
      (quotedName name).toList ++ (gap.toList ++ ':' :: '=' :: (further.toList ++ source.toList)) := by
    simp [assignmentTo]
  rw [whole]
  exact readFrom_cons.mpr ⟨_, nextTarget, by simp, readAssign⟩

theorem Program.parse_assignmentTo (plain : '\'' ∉ name.toList) (trivia : IsTrivia gap.toList)
    (moreTrivia : IsTrivia further.toList) (parsed : Tree.parse source = .ok tree) :
    ∃ span, Program.parse (assignmentTo name gap further ++ source) =
      .ok [⟨some name, tree.shift (.behind (assignmentTo name gap further).toList), span⟩] := by
  obtain ⟨⟨items, last⟩, read, whole⟩ := bind_eq_ok.mp parsed
  have run : Tree.read source.toList last items = (.ok tree, []) := Tree.readWhole_eq_ok_iff.mp whole
  have plainItems := Token.Spells.all_kind_ne (Tree.derives_of_read run).1
  obtain ⟨target, assign, isName, rfl, isAssign, readAll⟩ :=
    Tokens.readFrom_assignmentTo plain trivia moreTrivia read
  let move := Shift.behind (assignmentTo target.text gap further).toList
  have moved := @Tree.read_shift move _ _ (Shift.bytes_behind _) last (last.shift move) items [] tree run
  have noSemicolon : ∀ token ∈ target :: assign :: items.map (Token.shift move), token.kind ≠ .semicolon := by
    intro token member
    rcases List.mem_cons.mp member with rfl | member
    · simp [isName]
    rcases List.mem_cons.mp member with rfl | member
    · simp [isAssign]
    · obtain ⟨own, known, rfl⟩ := List.mem_map.mp member
      exact (plainItems own known).1
  have split : splitTarget (target :: assign :: items.map (Token.shift move)) =
      (some target.text, items.map (Token.shift move)) := if_pos ⟨isName, isAssign⟩
  refine ⟨target.span.through (tree.shift move).span, parse_eq_ok.mpr ⟨_, readAll, ?_⟩⟩
  rw [clauses_single noSemicolon]
  refine .cons (Segment.reads_iff.mpr ?_) .nil
  rw [split, String.toList_append]
  exact ⟨moved, rfl, rfl⟩

namespace Session

variable {session : Session} {value : Value}

theorem execute_assignmentTo (plain : '\'' ∉ name.toList) (trivia : IsTrivia gap.toList)
    (moreTrivia : IsTrivia further.toList) (evaluated : session.evaluate source = .ok value) :
    session.execute (assignmentTo name gap further ++ source) =
      (.ok [.assigned name value], session.bind name value) := by
  obtain ⟨tree, parsed, run⟩ := bind_eq_ok.mp evaluated
  rw [mapError_eq_ok] at parsed
  obtain ⟨span, program⟩ := Program.parse_assignmentTo plain trivia moreTrivia parsed
  have moved := @Bindings.run_shift (.behind (assignmentTo name gap further).toList) session.bindings
    session.policy tree
  rw [run] at moved
  rw [execute_of_parse program, Program.run_cons_of_ok moved]
  rfl

/-- A bound name in single quotes has the value that is bound to it. -/
theorem evaluate_quotedName (plain : '\'' ∉ name.toList) (bound : session.bindings.value? name = some value) :
    session.evaluate (quotedName name) = .ok value := by
  have declared := Declarations.value?_infer.mpr ⟨value, bound, rfl⟩
  obtain ⟨same, found, resolved⟩ := Bindings.resolve_of_inferred declared
  cases bound.symm.trans found
  rw [evaluate, Bindings.evaluate, Tree.parse_quotedName plain]
  exact Bindings.run_eq_ok.mpr ⟨_, Tree.compile_variable_eq_ok.mpr ⟨_, declared, rfl⟩, resolved⟩

end Session

end Assignment

/-- Quoting can express all texts and names. String constants with `||` between them have the value of
their texts one behind the other, whatever these contain. Any name without a single quote can be written
between two: there it is the variable of exactly that name, and in front of `:=` a target that binds
exactly that name. -/
theorem quoting_expresses_all :
    (∀ texts : List String, texts ≠ [] → ∀ (bindings : Bindings) (policy : KeyPolicy),
      bindings.evaluate policy ("||".intercalate (texts.map quotedText)) =
        .ok (.string (String.join texts))) ∧
    ∀ name : String, '\'' ∉ name.toList →
      Tree.parse (quotedName name) =
        .ok (.variable ⟨quotedName name, ⟨0, (quotedName name).utf8ByteSize, 1, 1⟩⟩ name) ∧
      ∀ gap further source : String, IsTrivia gap.toList → IsTrivia further.toList →
        (∀ tree, Tree.parse source = .ok tree →
          ∃ span, Program.parse (quotedName name ++ gap ++ ":=" ++ further ++ source) =
            .ok [⟨some name, tree.shift (.behind (quotedName name ++ gap ++ ":=" ++ further).toList), span⟩]) ∧
        ∀ (session : Session) (value : Value), session.evaluate source = .ok value →
          session.execute (quotedName name ++ gap ++ ":=" ++ further ++ source) =
              (.ok [.assigned name value], session.bind name value) ∧
            (session.bind name value).evaluate (quotedName name) = .ok value := by
  constructor
  · intro texts filled bindings policy
    obtain ⟨first, others, rfl⟩ := List.exists_cons_of_ne_nil filled
    exact evaluate_concatenationOf first others bindings policy
  · intro name plain
    refine ⟨Tree.parse_quotedName plain, ?_⟩
    intro gap further source trivia moreTrivia
    refine ⟨fun tree => Program.parse_assignmentTo plain trivia moreTrivia, ?_⟩
    intro session value evaluated
    refine ⟨Session.execute_assignmentTo plain trivia moreTrivia evaluated, ?_⟩
    exact Session.evaluate_quotedName plain (Entries.value?_put_self _ _ _)

/-- A lone quote, no text and the marks of comments are one string. The empty name is a variable, and a
keyword in single quotes with a comment behind it is a target. -/
theorem quoting_expresses_all_marks :
    interpret "\"\"\"\"||\"\"||\"//\"\"\n/*\"" [] = .ok (.string "\"//\"\n/*") ∧
    Tree.parse "''" = .ok (.variable ⟨"''", ⟨0, 2, 1, 1⟩⟩ "") ∧
    (⟨[], .typed⟩ : Session).execute "'nULL'/*'*/:=\n1" =
      (.ok [.assigned "nULL" (.integer 1)], ⟨[("nULL", .integer 1)], .typed⟩) ∧
    (⟨[("nULL", .integer 1)], .typed⟩ : Session).evaluate "'nULL'" = .ok (.integer 1) := by
  have one : (⟨[], .typed⟩ : Session).evaluate "1" = .ok (.integer 1) := by
    rw [Session.evaluate, Bindings.evaluate,
      show Tree.parse "1" = .ok (.constant ⟨"1", ⟨0, 1, 1, 1⟩⟩ (.integer 1)) by decide +kernel]
    rfl
  have comment : IsTrivia "/*'*/".toList := @IsTrivia.block ['\''] [] (by decide) .nil
  have newline : IsTrivia "\n".toList := .blank (by decide) .nil
  have value := quoting_expresses_all.1 ["\"", "", "//\"\n/*"] (by decide) [] .typed
  have empty := (quoting_expresses_all.2 "" (by decide)).1
  have bound := ((quoting_expresses_all.2 "nULL" (by decide)).2 "/*'*/" "\n" "1" comment newline).2 _ _ one
  exact ⟨value, empty, bound⟩

end Vtl
