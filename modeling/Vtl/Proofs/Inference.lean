import Vtl.Proofs.Execution
import Vtl.Proofs.Routing

namespace Vtl

/-- A name has the type of what is bound to it, and no other name has any. -/
theorem Declarations.value?_infer {bindings : Bindings} {name : String} {type : StaticType} :
    (infer bindings).value? name = some type ↔
      ∃ value, bindings.value? name = some value ∧ StaticType.ofValue value = type := by
  rw [infer, Entries.value?_mapValues, Option.map_eq_some_iff]

@[simp] theorem StaticType.valueType_ofValue (value : Value) : (ofValue value).valueType = value.type := by
  cases value <;> rfl

theorem Value.fits_own_type (value : Value) : value.fits value.type = true := by
  cases value <;> rfl

/-- The failures that are left when an expression is typed by the values at hand: a fault of the source,
or two measure cells that meet in a join and cannot be combined. -/
inductive Bindings.OrdinaryFailure (bindings : Bindings) (policy : KeyPolicy) (tree : Tree) : Failure → Prop
  | typing {e : CompileError} (refused : tree.compile (bindings.scope policy) = .error e)
      (ordinary : ∀ defect, e ≠ .internal defect) : OrdinaryFailure bindings policy tree (.typing e)
  | cells {e left right : Expr} {type : StaticType} {op : ArithmeticOp} {spec : JoinSpec}
      {leftType rightType : ValueType} (compiled : tree.compile (bindings.scope policy) = .ok e)
      (inside : (Expr.join type op spec left right).Within e)
      (fault : (Expr.join type op spec left right).Fault bindings
        (.operands (.arithmetic op) leftType rightType)) :
      OrdinaryFailure bindings policy tree (.resolution (.operands (.arithmetic op) leftType rightType))

/-- The failures of a variable that is not as it was declared. -/
inductive Failure.OfVariable : Failure → Prop
  | unbound (name : String) : OfVariable (.resolution (.unbound name))
  | wrongType (name : String) (declared bound : ValueType) :
      OfVariable (.resolution (.wrongType name declared bound))
  | missingColumn (name : String) (column : Column) : OfVariable (.resolution (.missingColumn name column))

theorem Failure.not_ofVariable_parsing (e : SyntaxError) : ¬(parsing e).OfVariable := by
  intro ofVariable
  cases ofVariable

/-- Under inferred declarations a variable has the value that is bound to it. -/
theorem Bindings.resolve_of_inferred {bindings : Bindings} {name : String} {type : StaticType}
    (declared : (Declarations.infer bindings).value? name = some type) :
    ∃ value, bindings.value? name = some value ∧
      bindings.resolve type name type.valueType = .ok value := by
  obtain ⟨value, bound, rfl⟩ := Declarations.value?_infer.mp declared
  refine ⟨value, bound, ?_⟩
  rw [resolve, bound, StaticType.valueType_ofValue]
  dsimp only
  rw [Value.fits_own_type]
  cases value with
  | dataset data =>
    have complete : missingColumn? data.columns data.columns = none := by
      rw [missingColumn?, List.find?_eq_none]
      intro column member
      simp [member]
    simp [StaticType.ofValue, complete]
  | null | integer | number | string | boolean | date | duration => rfl

/-- Under inferred declarations no variable is at fault. -/
theorem Expr.WellTyped.fault_of_inferred {bindings : Bindings} {policy : KeyPolicy} {node : Expr}
    {error : ResolveError} (typed : node.WellTyped (bindings.scope policy))
    (run : node.resolve bindings = .error error) (fault : node.Fault bindings error) :
    ∃ type op spec left right leftType rightType, node = .join type op spec left right ∧
      error = .operands (.arithmetic op) leftType rightType := by
  cases typed with
  | «variable» declared =>
    obtain ⟨value, _, resolved⟩ := Bindings.resolve_of_inferred declared
    cases resolved.symm.trans run
  | join =>
    cases fault
    exact ⟨_, _, _, _, _, _, _, rfl, rfl⟩
  | constant | unary | arithmetic | concatenation | comparison | boolean => cases fault

namespace Bindings

variable {bindings : Bindings} {policy : KeyPolicy}

theorem OrdinaryFailure.not_ofVariable {tree : Tree} {failure : Failure}
    (ordinary : bindings.OrdinaryFailure policy tree failure) : ¬failure.OfVariable := by
  intro ofVariable
  cases ordinary <;> cases ofVariable

theorem run_ordinaryFailure {tree : Tree} {level : Nat} {failure : Failure}
    (wellFormed : tree.shape.HasLevel level) (failed : bindings.run policy tree = .error failure) :
    bindings.OrdinaryFailure policy tree failure := by
  rcases run_eq_error.mp failed with ⟨e, refused, rfl⟩ | ⟨e, compiled, error, run, rfl⟩
  · refine .typing refused ?_
    rintro defect rfl
    exact Tree.compile_noDefect (Declarations.infer_haveSchemas bindings) wellFormed defect refused
  · have typed := Tree.compile_wellTyped compiled
    obtain ⟨node, inside, nodeRun, fault⟩ := typed.exists_fault run
    obtain ⟨type, op, spec, left, right, leftType, rightType, rfl, rfl⟩ :=
      (typed.within inside).fault_of_inferred nodeRun fault
    exact .cells compiled inside fault

theorem evaluate_failure {source : String} {failure : Failure}
    (failed : bindings.evaluate policy source = .error failure) : ¬failure.OfVariable ∧
      ((∃ e, Tree.parse source = .error e ∧ failure = .parsing e) ∨
        ∃ tree, Tree.parse source = .ok tree ∧ bindings.OrdinaryFailure policy tree failure) := by
  rcases evaluate_eq_error.mp failed with ⟨e, refused, rfl⟩ | ⟨tree, parsed, run⟩
  · exact ⟨Failure.not_ofVariable_parsing e, Or.inl ⟨e, refused, rfl⟩⟩
  · obtain ⟨level, wellFormed⟩ := (Tree.ParsedFrom.expression parsed).wellFormed
    have ordinary := run_ordinaryFailure wellFormed run
    exact ⟨ordinary.not_ofVariable, Or.inr ⟨tree, parsed, ordinary⟩⟩

end Bindings

/-- The statement at which a program fails, under the bindings that it was run with. -/
theorem Session.execute_failure {session final : Session} {source : String} {failure : Failure}
    (failed : session.execute source = (.error failure, final)) : ¬failure.OfVariable ∧
      ((∃ e, Program.parse source = .error e ∧ failure = .parsing e) ∨
        ∃ program before statement values, Program.parse source = .ok program ∧
          program.FailsAt session.policy session.bindings before statement values final.bindings failure ∧
          final.bindings.OrdinaryFailure session.policy statement.expression failure) := by
  cases parsed : Program.parse source with
  | error e =>
    rw [execute, parsed] at failed
    cases failed
    exact ⟨Failure.not_ofVariable_parsing e, Or.inl ⟨e, rfl, rfl⟩⟩
  | ok program =>
    rw [execute_of_parse parsed] at failed
    rcases Program.exists_runs_or_failsAt session.policy session.bindings program with
      ⟨values, last, runs⟩ | ⟨before, statement, values, reached, found, failsAt⟩
    · rw [runs.run_eq] at failed
      cases failed
    · rw [failsAt.run_eq] at failed
      cases failed
      obtain ⟨after, split⟩ := failsAt.split
      have member : statement ∈ program := by simp [split]
      obtain ⟨level, wellFormed⟩ := (Tree.ParsedFrom.statement parsed member).wellFormed
      have ordinary := Bindings.run_ordinaryFailure wellFormed failsAt.fails
      exact ⟨ordinary.not_ofVariable, Or.inr ⟨program, before, statement, values, rfl, failsAt, ordinary⟩⟩

/-- Types that are read off values fit them. Whatever is bound, a source fails by its own syntax or
types or by two measure cells that meet in a join, and not by a variable. So does each statement of a
program, under the bindings that the ones before it have left. -/
theorem inferred_declarations_fit (source : String) :
    (∀ bindings failure, interpret source bindings = .error failure → ¬failure.OfVariable ∧
      ((∃ e, Tree.parse source = .error e ∧ failure = .parsing e) ∨
        ∃ tree, Tree.parse source = .ok tree ∧ bindings.OrdinaryFailure .typed tree failure)) ∧
    (∀ (session : Session) (failure : Failure), session.evaluate source = .error failure →
      ¬failure.OfVariable ∧ ((∃ e, Tree.parse source = .error e ∧ failure = .parsing e) ∨
        ∃ tree, Tree.parse source = .ok tree ∧
          session.bindings.OrdinaryFailure session.policy tree failure)) ∧
    ∀ (session final : Session) (failure : Failure), session.execute source = (.error failure, final) →
      ¬failure.OfVariable ∧ ((∃ e, Program.parse source = .error e ∧ failure = .parsing e) ∨
        ∃ program before statement values, Program.parse source = .ok program ∧
          program.FailsAt session.policy session.bindings before statement values final.bindings failure ∧
          final.bindings.OrdinaryFailure session.policy statement.expression failure) :=
  ⟨fun _ _ => Bindings.evaluate_failure, fun _ _ => Bindings.evaluate_failure,
    fun _ _ _ => Session.execute_failure⟩

theorem inferred_declarations_fit_misfit :
    interpret "ds + ds" Expr.misfitBindings =
        .error (.resolution (.operands (.arithmetic .add) .string .string)) ∧
      Expr.misfitBindings.OrdinaryFailure .typed Expr.doubled
        (.resolution (.operands (.arithmetic .add) .string .string)) := by
  have parsed : Tree.parse "ds + ds" = .ok Expr.doubled := by decide +kernel
  have failed : interpret "ds + ds" Expr.misfitBindings =
      .error (.resolution (.operands (.arithmetic .add) .string .string)) := by
    rw [interpret, Bindings.evaluate, parsed]
    rfl
  obtain ⟨_, ⟨e, refused, _⟩ | ⟨tree, again, ordinary⟩⟩ := (inferred_declarations_fit "ds + ds").1 _ _ failed
  · rw [parsed] at refused
    cases refused
  · rw [parsed] at again
    cases again
    exact ⟨failed, ordinary⟩

end Vtl
