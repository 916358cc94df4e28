import Vtl.Proofs.ProgramPrefix
import Vtl.Session

namespace Vtl

namespace Bindings

variable {bindings : Bindings} {policy : KeyPolicy} {tree : Tree}

theorem run_eq_ok {value : Value} : bindings.run policy tree = .ok value ↔
    ∃ e, tree.compile (bindings.scope policy) = .ok e ∧ e.resolve bindings = .ok value := by
  simp only [run, bind_eq_ok, mapError_eq_ok]

theorem run_eq_error {failure : Failure} : bindings.run policy tree = .error failure ↔
    (∃ e, tree.compile (bindings.scope policy) = .error e ∧ .typing e = failure) ∨
      ∃ e, tree.compile (bindings.scope policy) = .ok e ∧
        ∃ error, e.resolve bindings = .error error ∧ .resolution error = failure := by
  simp only [run, bind_eq_error, mapError_eq_ok, mapError_eq_error]

theorem evaluate_eq_error {source : String} {failure : Failure} :
    bindings.evaluate policy source = .error failure ↔
      (∃ e, Tree.parse source = .error e ∧ .parsing e = failure) ∨
        ∃ tree, Tree.parse source = .ok tree ∧ bindings.run policy tree = .error failure := by
  simp only [evaluate, bind_eq_error, mapError_eq_ok, mapError_eq_error]

end Bindings

namespace Program

/-- All statements have values, each under the bindings that the ones before it have left. -/
inductive Runs (policy : KeyPolicy) : Bindings → Program → List Value → Bindings → Prop
  | nil {bindings : Bindings} : Runs policy bindings [] [] bindings
  | cons {bindings final : Bindings} {statement : Statement} {rest : Program} {value : Value}
      {values : List Value} (here : bindings.run policy statement.expression = .ok value)
      (later : Runs policy (statement.store value bindings) rest values final) :
      Runs policy bindings (statement :: rest) (value :: values) final

/-- A statement has no value, and those before it are the statements that run. -/
structure FailsAt (policy : KeyPolicy) (bindings : Bindings) (program before : Program)
    (statement : Statement) (values : List Value) (reached : Bindings) (failure : Failure) : Prop where
  split : ∃ after, program = before ++ statement :: after
  runs : Runs policy bindings before values reached
  fails : reached.run policy statement.expression = .error failure

variable {policy : KeyPolicy} {bindings final reached : Bindings} {program before rest : Program}
  {statement : Statement} {values : List Value} {failure : Failure}

theorem run_cons_of_ok {value : Value} (here : bindings.run policy statement.expression = .ok value) :
    run policy (statement :: rest) bindings =
      ((run policy rest (statement.store value bindings)).1.map (statement.outcome value :: ·),
        (run policy rest (statement.store value bindings)).2) := by
  rw [run, here]

theorem run_cons_of_error (fails : bindings.run policy statement.expression = .error failure) :
    run policy (statement :: rest) bindings = (.error failure, bindings) := by
  rw [run, fails]

theorem exists_runs_or_failsAt (policy : KeyPolicy) (bindings : Bindings) (program : Program) :
    (∃ values final, Runs policy bindings program values final) ∨
      ∃ before statement values reached failure,
        FailsAt policy bindings program before statement values reached failure := by
  induction program generalizing bindings with
  | nil => exact Or.inl ⟨[], bindings, .nil⟩
  | cons statement rest ih =>
    cases here : bindings.run policy statement.expression with
    | error failure => exact Or.inr ⟨[], statement, [], bindings, failure, ⟨rest, rfl⟩, .nil, here⟩
    | ok value =>
      rcases ih (statement.store value bindings) with
        ⟨values, final, runs⟩ | ⟨before, later, values, reached, failure, ⟨after, rfl⟩, runs, fails⟩
      · exact Or.inl ⟨value :: values, final, .cons here runs⟩
      · exact Or.inr ⟨statement :: before, later, value :: values, reached, failure, ⟨after, rfl⟩,
          .cons here runs, fails⟩

namespace Runs

/-- Statements that run hand on to what follows them. -/
theorem run_append (runs : Runs policy bindings before values reached) (rest : Program) :
    run policy (before ++ rest) bindings =
      ((run policy rest reached).1.map (List.zipWith Statement.outcome before values ++ ·),
        (run policy rest reached).2) := by
  induction runs with
  | @nil bindings =>
    rw [List.nil_append]
    rcases run policy rest bindings with ⟨_ | outcomes, final⟩ <;> rfl
  | @cons _ final _ _ _ _ here _ ih =>
    rw [List.cons_append, run_cons_of_ok here, ih]
    rcases run policy rest final with ⟨_ | outcomes, last⟩ <;> rfl

theorem run_eq (runs : Runs policy bindings program values final) :
    run policy program bindings = (.ok (List.zipWith Statement.outcome program values), final) := by
  have whole := runs.run_append []
  rw [List.append_nil] at whole
  rw [whole, run, Except.map, List.append_nil]

theorem length_eq (runs : Runs policy bindings program values final) : values.length = program.length := by
  induction runs with
  | nil => rfl
  | cons _ _ ih => rw [List.length_cons, List.length_cons, ih]

/-- A name that no statement assigns to keeps its value. -/
theorem value?_eq (runs : Runs policy bindings program values final) {name : String}
    (untouched : ∀ statement ∈ program, statement.target ≠ some name) :
    final.value? name = bindings.value? name := by
  induction runs with
  | nil => rfl
  | @cons bindings _ statement _ value _ _ _ ih =>
    obtain ⟨head, tail⟩ := List.forall_mem_cons.mp untouched
    rw [ih tail, Statement.store]
    split
    · next target assigned =>
      refine Entries.value?_put_of_ne _ _ ?_
      rintro rfl
      exact head assigned
    · rfl

end Runs

theorem FailsAt.run_eq
    (failsAt : FailsAt policy bindings program before statement values reached failure) :
    run policy program bindings = (.error failure, reached) := by
  obtain ⟨⟨after, rfl⟩, runs, fails⟩ := failsAt
  rw [runs.run_append, run_cons_of_error fails]
  rfl

end Program

namespace Session

variable {session : Session} {source : String} {program : Program}

theorem execute_of_parse (parsed : Program.parse source = .ok program) :
    session.execute source =
      ((program.run session.policy session.bindings).1,
        { session with bindings := (program.run session.policy session.bindings).2 }) := by
  rw [execute, parsed]

/-- An expression on its own has the same value when it is executed, and leaves the session as it is. -/
theorem execute_expression {tree : Tree} (parsed : Tree.parse source = .ok tree) :
    session.execute source = ((session.evaluate source).map fun value => [.evaluated value], session) := by
  have whole := Program.parse_expression parsed
  have evaluated : session.evaluate source = session.bindings.run session.policy tree := by
    rw [evaluate, Bindings.evaluate, parsed]
    rfl
  rw [execute_of_parse whole, evaluated]
  cases here : session.bindings.run session.policy tree with
  | error failure =>
    rw [Program.run_cons_of_error here]
    rfl
  | ok value =>
    rw [Program.run_cons_of_ok here]
    rfl

/-- The entry points agree. A text that is an expression is, as a program, one statement without a target
that holds the same tree. Under any bindings its value, its value in a session and what executing it there
tells are the same, or all three fail alike, and executing it binds nothing. -/
theorem entry_points_agree {source : String} {tree : Tree} (parsed : Tree.parse source = .ok tree)
    (bindings : Bindings) :
    Program.parse source = .ok [⟨none, tree, tree.span⟩] ∧
      ((∃ value, interpret source bindings = .ok value ∧
          (⟨bindings, .typed⟩ : Session).evaluate source = .ok value ∧
          (⟨bindings, .typed⟩ : Session).execute source = (.ok [.evaluated value], ⟨bindings, .typed⟩)) ∨
        ∃ failure, interpret source bindings = .error failure ∧
          (⟨bindings, .typed⟩ : Session).evaluate source = .error failure ∧
          (⟨bindings, .typed⟩ : Session).execute source = (.error failure, ⟨bindings, .typed⟩)) := by
  have executed := @execute_expression ⟨bindings, .typed⟩ source tree parsed
  refine ⟨Program.parse_expression parsed, ?_⟩
  cases evaluated : (⟨bindings, .typed⟩ : Session).evaluate source with
  | ok value =>
    rw [evaluated] at executed
    exact .inl ⟨value, evaluated, rfl, executed⟩
  | error failure =>
    rw [evaluated] at executed
    exact .inr ⟨failure, evaluated, rfl, executed⟩

/-- `'a' = "x;y:=z"` begins with a name and holds the signs of a statement in a string. -/
theorem entry_points_agree_quotedSigns :
    Tree.parse "'a' = \"x;y:=z\"" = .ok (.binary ⟨"'a' = \"x;y:=z\"", ⟨0, 14, 1, 1⟩⟩ .comparison
        (.variable ⟨"'a'", ⟨0, 3, 1, 1⟩⟩ "a") ⟨.equal, "=", ⟨4, 5, 1, 5⟩⟩
        (.constant ⟨"\"x;y:=z\"", ⟨6, 14, 1, 7⟩⟩ (.string "x;y:=z"))) ∧
      (⟨[("a", .string "x")], .typed⟩ : Session).execute "'a' = \"x;y:=z\"" =
        (.ok [.evaluated (.boolean false)], ⟨[("a", .string "x")], .typed⟩) := by
  have parsed : Tree.parse "'a' = \"x;y:=z\"" = .ok (.binary ⟨"'a' = \"x;y:=z\"", ⟨0, 14, 1, 1⟩⟩ .comparison
      (.variable ⟨"'a'", ⟨0, 3, 1, 1⟩⟩ "a") ⟨.equal, "=", ⟨4, 5, 1, 5⟩⟩
      (.constant ⟨"\"x;y:=z\"", ⟨6, 14, 1, 7⟩⟩ (.string "x;y:=z"))) := by decide +kernel
  have value : interpret "'a' = \"x;y:=z\"" [("a", .string "x")] = .ok (.boolean false) := by
    rw [interpret, Bindings.evaluate, parsed]
    rfl
  obtain ⟨_, ⟨found, interpreted, _, executed⟩ | ⟨failure, interpreted, _⟩⟩ :=
    entry_points_agree parsed [("a", .string "x")]
  · cases value.symm.trans interpreted
    exact ⟨parsed, executed⟩
  · cases value.symm.trans interpreted

end Session

end Vtl
