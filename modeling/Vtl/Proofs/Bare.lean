import Vtl.Proofs.Execution
import Vtl.Proofs.Relocation
import Vtl.Proofs.TypingRules

namespace Vtl

/-- All places and source texts are forgotten. -/
def Relocation.forget : Relocation where
  span _ := ⟨0, 0, 0, 0⟩
  mark _ := ⟨"", ⟨0, 0, 0, 0⟩⟩
  span_mark _ := rfl
  span_through _ _ := rfl

theorem Relocation.forget_between (text other : List Char) : Relocation.forget.Between text other := by
  intro own
  cases other <;> rfl

/-- A token as its kind and text. -/
def Token.bare (token : Token) : Token := token.relocate .forget

def Tokens.bare (tokens : Tokens) : Tokens := ⟨tokens.items.map Token.bare, tokens.last.bare⟩

/-- A tree without the places and source texts of its nodes. -/
def Tree.bare (tree : Tree) : Tree := tree.relocate .forget

def Statement.bare (statement : Statement) : Statement := statement.relocate .forget

variable {text otherText : List Char}

namespace Tree

variable {tree other : Tree}

theorem shape_relocate (move : Relocation) (tree : Tree) : (tree.relocate move).shape = tree.shape := by
  induction tree with
  | parens mark inner ih => rw [relocate, shape, shape, ih]
  | unary mark op operand ih => rw [relocate, shape, shape, ih, Token.relocate]
  | binary mark production left op right leftIh rightIh =>
    rw [relocate, shape, shape, leftIh, rightIh, Token.relocate]
  | «variable» | constant => rfl

theorem shape_eq_of_bare (same : tree.bare = other.bare) : tree.shape = other.shape := by
  rw [← shape_relocate .forget tree, ← shape_relocate .forget other]
  exact congrArg shape same

/-- Tokens of the same kinds and texts are read as the same tree, wherever they stand. -/
theorem exists_read_of_bare {close closing : Token} {tokens others : List Token}
    (same : tokens.map Token.bare = others.map Token.bare) (run : read text close tokens = (.ok tree, [])) :
    ∃ other, read otherText closing others = (.ok other, []) ∧ other.bare = tree.bare := by
  have derives : tree.shape.Derives (tokens.map Token.bare) :=
    Shape.derives_relocate.mpr (derives_of_read run)
  rw [same] at derives
  obtain ⟨other, _, otherRun⟩ := @read_of_derives otherText closing _ _ (Shape.derives_relocate.mp derives)
  have bareRun : read [] close (tokens.map Token.bare) = (.ok tree.bare, []) :=
    (read_relocate (Relocation.forget_between text [])).1 run
  have bareOther : read [] close (others.map Token.bare) = (.ok other.bare, []) :=
    (read_relocate (Relocation.forget_between otherText [])).1 otherRun
  rw [same, bareOther] at bareRun
  exact ⟨other, otherRun, Except.ok.inj (Prod.mk.inj bareRun).1⟩

end Tree

namespace Program

theorem Segment.exists_reads_of_bare {segment other : Segment} {statement : Statement}
    (same : segment.relocate .forget = other.relocate .forget) (reads : segment.Reads text statement) :
    ∃ again, other.Reads otherText again ∧ again.bare = statement.bare := by
  obtain ⟨run, target, _⟩ := Segment.reads_iff.mp reads
  have items : segment.items.map (Token.relocate .forget) = other.items.map (Token.relocate .forget) :=
    congrArg Segment.items same
  have splits := congrArg splitTarget items
  rw [splitTarget_relocate, splitTarget_relocate, Prod.mk.injEq] at splits
  obtain ⟨tree, otherRun, bare⟩ := @Tree.exists_read_of_bare text otherText _ _ other.close _ _ splits.2 run
  let span := (other.items.head?.getD other.close).span.through tree.span
  refine ⟨⟨statement.target, tree, span⟩, Segment.reads_iff.mpr ⟨otherRun, target.trans splits.1, rfl⟩, ?_⟩
  rw [Statement.bare, Statement.bare, Statement.relocate, Statement.relocate]
  exact congrArg (fun expression => Statement.mk statement.target expression _) bare

theorem exists_reads_of_bare {segments others : List Segment} {program : Program}
    (same : segments.map (Segment.relocate .forget) = others.map (Segment.relocate .forget))
    (reads : List.Forall₂ (Segment.Reads text) segments program) :
    ∃ again, List.Forall₂ (Segment.Reads otherText) others again ∧
      again.map Statement.bare = program.map Statement.bare := by
  induction reads generalizing others with
  | nil =>
    obtain rfl : others = [] := List.map_eq_nil_iff.mp same.symm
    exact ⟨[], .nil, rfl⟩
  | @cons segment statement segments program here _ ih =>
    cases others with
    | nil => cases same
    | cons other others =>
      obtain ⟨sameHead, sameTail⟩ := List.cons.inj same
      obtain ⟨again, reads, bare⟩ := Segment.exists_reads_of_bare sameHead here
      obtain ⟨later, readsLater, bareLater⟩ := ih sameTail
      exact ⟨again :: later, .cons reads readsLater, by rw [List.map_cons, List.map_cons, bare, bareLater]⟩

end Program

section Option

variable {ε α β : Type} {result other : Except ε α}

theorem toOption_eq_some {value : α} : result.toOption = some value ↔ result = .ok value := by
  cases result <;> simp [Except.toOption]

theorem toOption_congr (same : ∀ value, result = .ok value ↔ other = .ok value) :
    result.toOption = other.toOption := by
  ext value
  rw [toOption_eq_some, toOption_eq_some, same]

theorem toOption_map {g : α → β} : (result.map g).toOption = result.toOption.map g := by
  cases result <;> rfl

/-- Two results agree up to `g` if each value of one is matched by a value of the other. -/
theorem map_toOption_congr {g : α → β}
    (forth : ∀ value, result = .ok value → ∃ again, other = .ok again ∧ g again = g value)
    (back : ∀ value, other = .ok value → ∃ again, result = .ok again ∧ g again = g value) :
    result.toOption.map g = other.toOption.map g := by
  ext image
  simp only [Option.map_eq_some_iff, toOption_eq_some]
  constructor
  · rintro ⟨value, found, rfl⟩
    exact forth value found
  · rintro ⟨value, found, rfl⟩
    exact back value found

end Option

/-- Two source texts with tokens of the same kinds and texts. -/
def Alike (source other : String) : Prop :=
  ∃ tokens others, Tokens.ofString source = .ok tokens ∧ Tokens.ofString other = .ok others ∧
    tokens.bare = others.bare

variable {source other : String}

namespace Alike

theorem symm (alike : Alike source other) : Alike other source := by
  obtain ⟨tokens, others, read, readOther, same⟩ := alike
  exact ⟨others, tokens, readOther, read, same.symm⟩

theorem exists_tree (alike : Alike source other) {tree : Tree} (parsed : Tree.parse source = .ok tree) :
    ∃ again, Tree.parse other = .ok again ∧ again.bare = tree.bare := by
  obtain ⟨tokens, others, read, readOther, same⟩ := alike
  obtain ⟨_, readAgain, whole⟩ := bind_eq_ok.mp parsed
  rw [read] at readAgain
  cases readAgain
  obtain ⟨again, run, bare⟩ := Tree.exists_read_of_bare (congrArg Tokens.items same)
    (Tree.readWhole_eq_ok_iff.mp whole)
  exact ⟨again, bind_eq_ok.mpr ⟨others, readOther, Tree.readWhole_eq_ok_iff.mpr run⟩, bare⟩

theorem exists_program (alike : Alike source other) {program : Program}
    (parsed : Program.parse source = .ok program) :
    ∃ again, Program.parse other = .ok again ∧ again.map Statement.bare = program.map Statement.bare := by
  obtain ⟨tokens, others, read, readOther, same⟩ := alike
  obtain ⟨_, readAgain, reads⟩ := Program.parse_eq_ok.mp parsed
  rw [read] at readAgain
  cases readAgain
  have clauses := congrArg (fun tokens : Tokens => Program.clauses tokens.last tokens.items) same
  simp only [Tokens.bare] at clauses
  obtain ⟨again, readsAgain, bare⟩ := Program.exists_reads_of_bare
    (Program.clauses_relocate.symm.trans (clauses.trans Program.clauses_relocate)) reads
  exact ⟨again, Program.parse_eq_ok.mpr ⟨others, readOther, readsAgain⟩, bare⟩

end Alike

theorem Tree.compile_congr {tree other : Tree} (same : tree.bare = other.bare) {scope : Scope} {e : Expr} :
    tree.compile scope = .ok e ↔ other.compile scope = .ok e :=
  ⟨compile_of_shape_eq (shape_eq_of_bare same), compile_of_shape_eq (shape_eq_of_bare same).symm⟩

theorem Bindings.run_congr {bindings : Bindings} {policy : KeyPolicy} {tree other : Tree}
    (same : tree.bare = other.bare) {value : Value} :
    bindings.run policy tree = .ok value ↔ bindings.run policy other = .ok value := by
  simp only [run_eq_ok, Tree.compile_congr same]

/-- What a program does depends on the kinds and texts of its tokens only. -/
theorem Program.run_congr {policy : KeyPolicy} {bindings : Bindings} {program other : Program}
    (same : program.map Statement.bare = other.map Statement.bare) :
    (program.run policy bindings).1.toOption = (other.run policy bindings).1.toOption ∧
      (program.run policy bindings).2 = (other.run policy bindings).2 := by
  induction program generalizing other bindings with
  | nil =>
    obtain rfl : other = [] := List.map_eq_nil_iff.mp same.symm
    exact ⟨rfl, rfl⟩
  | cons statement rest ih =>
    cases other with
    | nil => cases same
    | cons again later =>
      obtain ⟨sameHead, sameTail⟩ := List.cons.inj same
      have target : statement.target = again.target := (congrArg Statement.target sameHead :)
      have tree : statement.expression.bare = again.expression.bare :=
        (congrArg Statement.expression sameHead :)
      cases here : bindings.run policy statement.expression with
      | ok value =>
        have there := (Bindings.run_congr tree).mp here
        have stored : statement.store value bindings = again.store value bindings := by
          rw [Statement.store, Statement.store, target]
        have outcome : statement.outcome value = again.outcome value := by
          rw [Statement.outcome, Statement.outcome, target]
        obtain ⟨outcomes, final⟩ := @ih (statement.store value bindings) later sameTail
        rw [run_cons_of_ok here, run_cons_of_ok there, ← stored, ← outcome]
        exact ⟨by rw [toOption_map, toOption_map, outcomes], final⟩
      | error failure =>
        cases there : bindings.run policy again.expression with
        | ok value =>
          rw [(Bindings.run_congr tree).mpr there] at here
          cases here
        | error other =>
          rw [run_cons_of_error here, run_cons_of_error there]
          exact ⟨rfl, rfl⟩

namespace Alike

/-- Texts that are alike have the same value under all bindings, or none. -/
theorem evaluate (alike : Alike source other) (bindings : Bindings) (policy : KeyPolicy) :
    (bindings.evaluate policy source).toOption = (bindings.evaluate policy other).toOption := by
  have forth : ∀ {source other : String}, Alike source other → ∀ value,
      bindings.evaluate policy source = .ok value → bindings.evaluate policy other = .ok value := by
    intro source other alike value evaluated
    simp only [Bindings.evaluate, bind_eq_ok, mapError_eq_ok] at evaluated ⊢
    obtain ⟨tree, parsed, run⟩ := evaluated
    obtain ⟨again, parsedAgain, bare⟩ := alike.exists_tree parsed
    exact ⟨again, parsedAgain, (Bindings.run_congr bare).mpr run⟩
  exact toOption_congr fun value => ⟨forth alike value, forth alike.symm value⟩

/-- Texts that are alike do the same in every session. -/
theorem execute (alike : Alike source other) (session : Session) :
    (session.execute source).1.toOption = (session.execute other).1.toOption ∧
      (session.execute source).2 = (session.execute other).2 := by
  cases parsed : Program.parse source with
  | ok program =>
    obtain ⟨again, parsedAgain, bare⟩ := alike.exists_program parsed
    obtain ⟨outcomes, final⟩ := @Program.run_congr session.policy session.bindings _ _ bare.symm
    rw [Session.execute_of_parse parsed, Session.execute_of_parse parsedAgain, final]
    exact ⟨outcomes, rfl⟩
  | error e =>
    cases parsedOther : Program.parse other with
    | ok program =>
      obtain ⟨again, parsedAgain, _⟩ := alike.symm.exists_program parsedOther
      rw [parsed] at parsedAgain
      cases parsedAgain
    | error _ =>
      rw [Session.execute, Session.execute, parsed, parsedOther]
      exact ⟨rfl, rfl⟩

end Alike

end Vtl
