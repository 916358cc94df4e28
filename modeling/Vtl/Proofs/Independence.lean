import Vtl.Proofs.Bare

namespace Vtl

/-- The names of the variables in an expression, from left to right. -/
def Tree.names : Tree → List String
  | .parens _ inner => inner.names
  | .unary _ _ operand => operand.names
  | .binary _ _ left _ right => left.names ++ right.names
  | .variable _ name => [name]
  | .constant .. => []

/-- The same is bound to each of the names, or nothing. -/
def Bindings.AgreeOn (bindings : Bindings) (names : List String) (other : Bindings) : Prop :=
  ∀ name ∈ names, bindings.value? name = other.value? name

namespace Bindings.AgreeOn

variable {bindings other : Bindings} {names more : List String}

theorem of_append (agree : bindings.AgreeOn (names ++ more) other) :
    bindings.AgreeOn names other ∧ bindings.AgreeOn more other :=
  List.forall_mem_append.mp agree

theorem put {name : String} (absent : name ∉ names) (bindings : Bindings) (value : Value) :
    AgreeOn (bindings.put name value) names bindings := by
  intro used member
  refine Entries.value?_put_of_ne bindings value ?_
  rintro rfl
  exact absent member

/-- An expression is compiled with the types of the names in it. -/
theorem compile {tree : Tree} (agree : bindings.AgreeOn tree.names other) (policy : KeyPolicy) :
    tree.compile (bindings.scope policy) = tree.compile (other.scope policy) := by
  induction tree with
  | parens mark inner ih => exact ih agree
  | unary mark op operand ih => rw [Tree.compile, Tree.compile, ih agree]
  | binary mark production left op right leftIh rightIh =>
    obtain ⟨onLeft, onRight⟩ := agree.of_append
    rw [Tree.compile, Tree.compile, leftIh onLeft, rightIh onRight]
    rfl
  | «variable» mark name =>
    have bound : bindings.value? name = other.value? name := agree name List.mem_cons_self
    have declared : (Declarations.infer bindings).value? name = (Declarations.infer other).value? name := by
      rw [Declarations.infer, Declarations.infer, Entries.value?_mapValues, Entries.value?_mapValues, bound]
    rw [Tree.compile, Tree.compile, Expr.ofVariable, Expr.ofVariable, scope, scope, declared]
  | constant mark value => rfl

/-- What an expression compiles to has a value that depends on the names in the expression. -/
theorem resolve {tree : Tree} {scope : Scope} {e : Expr} (agree : bindings.AgreeOn tree.names other)
    (compiled : tree.compile scope = .ok e) : e.resolve bindings = e.resolve other := by
  induction tree generalizing e with
  | parens mark inner ih => exact ih agree compiled
  | unary mark op operand ih =>
    obtain ⟨operator, inner, _, operandCompiled, _, rfl⟩ := Tree.compile_unary_eq_ok.mp compiled
    rw [Expr.resolve, Expr.resolve, ih agree operandCompiled]
  | binary mark production left op right leftIh rightIh =>
    obtain ⟨onLeft, onRight⟩ := agree.of_append
    obtain ⟨operator, l, r, _, leftCompiled, rightCompiled, _, _, parts⟩ :=
      Tree.compile_binary_eq_ok.mp compiled
    have sameLeft := leftIh onLeft leftCompiled
    have sameRight := rightIh onRight rightCompiled
    cases e with
    | constant | «variable» | unary => cases parts
    | arithmetic | concatenation | comparison | boolean | join =>
      cases parts
      rw [Expr.resolve, Expr.resolve, sameLeft, sameRight]
  | «variable» mark name =>
    obtain ⟨type, _, rfl⟩ := Tree.compile_variable_eq_ok.mp compiled
    exact Bindings.resolve_congr (agree name List.mem_cons_self) type type.valueType
  | constant mark value =>
    cases compiled
    rfl

/-- What an expression comes to, a value or a failure, depends on the names in it. -/
theorem run {tree : Tree} (agree : bindings.AgreeOn tree.names other) (policy : KeyPolicy) :
    bindings.run policy tree = other.run policy tree := by
  have sameCompiled := agree.compile policy
  rw [Bindings.run, Bindings.run, ← sameCompiled]
  cases compiled : tree.compile (bindings.scope policy) with
  | error e => rfl
  | ok e => exact congrArg (Except.mapError Failure.resolution) (agree.resolve compiled)

end Bindings.AgreeOn

namespace Program

variable {policy : KeyPolicy} {bindings final : Bindings} {program : Program}

/-- A program that does not fail runs, and tells what its statements came to. -/
theorem run_eq_ok {outcomes : List Outcome} : run policy program bindings = (.ok outcomes, final) ↔
    ∃ values, Runs policy bindings program values final ∧
      outcomes = List.zipWith Statement.outcome program values := by
  constructor
  · intro ran
    rcases exists_runs_or_failsAt policy bindings program with
      ⟨values, last, runs⟩ | ⟨before, statement, values, reached, failure, failsAt⟩
    · rw [runs.run_eq] at ran
      cases ran
      exact ⟨values, runs, rfl⟩
    · rw [failsAt.run_eq] at ran
      cases ran
  · rintro ⟨values, runs, rfl⟩
    exact runs.run_eq

theorem runs_assignment {name : String} {tree : Tree} {span : Span} {values : List Value} :
    Runs policy bindings [⟨some name, tree, span⟩] values final ↔
      ∃ v, bindings.run policy tree = .ok v ∧ values = [v] ∧ final = bindings.put name v := by
  constructor
  · intro runs
    cases runs with
    | @cons _ _ _ _ v _ here later =>
      cases later
      exact ⟨v, here, rfl, rfl⟩
  · rintro ⟨v, here, rfl, rfl⟩
    exact .cons here .nil

end Program

/-- Of two expressions that do not use each other's names, each has the value that it has alone, and it
does not matter which value is bound first. -/
theorem Bindings.run_exchange {bindings : Bindings} {policy : KeyPolicy} {x y : String} {first second : Tree}
    {v w : Value} (differ : x ≠ y) (withoutX : x ∉ second.names) (withoutY : y ∉ first.names)
    (here : bindings.run policy first = .ok v) (next : Bindings.run (bindings.put x v) policy second = .ok w) :
    bindings.run policy second = .ok w ∧ Bindings.run (bindings.put y w) policy first = .ok v ∧
      (bindings.put x v).put y w = (bindings.put y w).put x v := by
  have alone : bindings.run policy second = .ok w :=
    ((AgreeOn.put withoutX bindings v).run policy).symm.trans next
  have after : Bindings.run (bindings.put y w) policy first = .ok v :=
    ((AgreeOn.put withoutY bindings w).run policy).trans here
  exact ⟨alone, after, Entries.put_comm differ bindings v w⟩

/-- A program that does not fail does the same as one that is alike but for places. -/
theorem Program.run_ok_congr {policy : KeyPolicy} {bindings final : Bindings} {program other : Program}
    {outcomes : List Outcome} (same : other.map Statement.bare = program.map Statement.bare)
    (ran : program.run policy bindings = (.ok outcomes, final)) :
    other.run policy bindings = (.ok outcomes, final) := by
  obtain ⟨results, finals⟩ := @run_congr policy bindings _ _ same
  rw [ran] at results finals
  exact Prod.ext (toOption_eq_some.mp results) finals

namespace Session

variable {session final : Session} {source : String} {program : Program}

theorem exists_runs_of_execute {outcomes : List Outcome} (parsed : Program.parse source = .ok program)
    (ran : session.execute source = (.ok outcomes, final)) :
    ∃ values reached, Program.Runs session.policy session.bindings program values reached ∧
      outcomes = List.zipWith Statement.outcome program values ∧
      final = { session with bindings := reached } := by
  rw [execute_of_parse parsed, Prod.mk.injEq] at ran
  obtain ⟨result, rfl⟩ := ran
  obtain ⟨values, runs, told⟩ := Program.run_eq_ok.mp (Prod.ext result rfl)
  exact ⟨values, _, runs, told, rfl⟩

theorem execute_of_runs {values : List Value} {reached : Bindings} (parsed : Program.parse source = .ok program)
    (runs : Program.Runs session.policy session.bindings program values reached) :
    session.execute source =
      (.ok (List.zipWith Statement.outcome program values), { session with bindings := reached }) := by
  rw [execute_of_parse parsed, runs.run_eq]

/-- Independent statements commute. If neither of two assignments uses the name that the other one is to,
and they run in one order, they run in the other one with the same values, and leave the same bindings:
as one program, and as two that are executed one after the other. This is so because what an expression
comes to depends on what is bound to the names in it, and on nothing else that is bound. -/
theorem independent_statements_commute :
    (∀ (session : Session) (x y : String) (first second : Tree) (firstSpan secondSpan : Span),
      x ≠ y → x ∉ second.names → y ∉ first.names →
      (∀ swapped outcomes final,
        swapped.map Statement.bare =
          [⟨some y, second, secondSpan⟩, ⟨some x, first, firstSpan⟩].map Statement.bare →
        Program.run session.policy [⟨some x, first, firstSpan⟩, ⟨some y, second, secondSpan⟩]
          session.bindings = (.ok outcomes, final) →
        ∃ v w, outcomes = [.assigned x v, .assigned y w] ∧
          Program.run session.policy swapped session.bindings = (.ok [.assigned y w, .assigned x v], final)) ∧
      ∀ source other, Program.parse source = .ok [⟨some x, first, firstSpan⟩] →
        Program.parse other = .ok [⟨some y, second, secondSpan⟩] →
        ∀ outcomes later middle final, session.execute source = (.ok outcomes, middle) →
          middle.execute other = (.ok later, final) →
          ∃ v w between, outcomes = [.assigned x v] ∧ later = [.assigned y w] ∧
            session.execute other = (.ok [.assigned y w], between) ∧
            between.execute source = (.ok [.assigned x v], final)) ∧
    ∀ (bindings other : Bindings) (policy : KeyPolicy) (tree : Tree), bindings.AgreeOn tree.names other →
      tree.compile (bindings.scope policy) = tree.compile (other.scope policy) ∧
        bindings.run policy tree = other.run policy tree ∧
        ∀ source, Tree.parse source = .ok tree →
          bindings.evaluate policy source = other.evaluate policy source := by
  refine ⟨?_, ?_⟩
  · intro session x y first second firstSpan secondSpan differ withoutX withoutY
    refine ⟨?_, ?_⟩
    · intro swapped outcomes final same ran
      obtain ⟨values, runs, rfl⟩ := Program.run_eq_ok.mp ran
      cases runs with
      | @cons _ _ _ _ v _ here later =>
        obtain ⟨w, next, rfl, rfl⟩ := Program.runs_assignment.mp later
        obtain ⟨alone, after, sameFinal⟩ := Bindings.run_exchange differ withoutX withoutY here next
        have opposite : Program.Runs session.policy session.bindings
            [⟨some y, second, secondSpan⟩, ⟨some x, first, firstSpan⟩] [w, v]
            ((session.bindings.put y w).put x v) := .cons alone (.cons after .nil)
        refine ⟨v, w, rfl, Program.run_ok_congr same ?_⟩
        rw [opposite.run_eq]
        exact congrArg (Prod.mk _) sameFinal.symm
    · intro source other parsed parsedOther outcomes later middle final ran ranOther
      obtain ⟨values, reached, runs, rfl, rfl⟩ := exists_runs_of_execute parsed ran
      obtain ⟨further, last, runsOther, rfl, rfl⟩ := exists_runs_of_execute parsedOther ranOther
      obtain ⟨v, here, rfl, rfl⟩ := Program.runs_assignment.mp runs
      obtain ⟨w, next, rfl, rfl⟩ := Program.runs_assignment.mp runsOther
      obtain ⟨alone, after, sameFinal⟩ := Bindings.run_exchange differ withoutX withoutY here next
      refine ⟨v, w, session.bind y w, rfl, rfl, ?_, ?_⟩
      · exact execute_of_runs parsedOther (Program.runs_assignment.mpr ⟨w, alone, rfl, rfl⟩)
      · have last := @execute_of_runs (session.bind y w) _ _ _ _ parsed
          (Program.runs_assignment.mpr ⟨v, after, rfl, rfl⟩)
        rw [last]
        exact congrArg (fun bindings => (_, Session.mk bindings _)) sameFinal.symm
  · intro bindings other policy tree agree
    refine ⟨agree.compile policy, agree.run policy, ?_⟩
    intro source parsed
    have sameRun := agree.run policy
    rw [Bindings.evaluate, Bindings.evaluate, parsed]
    exact sameRun

/-- `n + n` in `x := n + n` -/
def doubledCount : Tree :=
  .binary ⟨"n + n", ⟨5, 10, 1, 6⟩⟩ .sum (.variable ⟨"n", ⟨5, 6, 1, 6⟩⟩ "n") ⟨.plus, "+", ⟨7, 8, 1, 8⟩⟩
    (.variable ⟨"n", ⟨9, 10, 1, 10⟩⟩ "n")

/-- `-n` in `y := -n` -/
def negatedCount : Tree :=
  .unary ⟨"-n", ⟨5, 7, 1, 6⟩⟩ ⟨.minus, "-", ⟨5, 6, 1, 6⟩⟩ (.variable ⟨"n", ⟨6, 7, 1, 7⟩⟩ "n")

/-- A count, and a name that is assigned to once more. -/
def countSession : Session := ⟨[("n", .integer 3), ("y", .string "old")], .typed⟩

theorem independent_statements_commute_reassigned :
    "x" ∉ negatedCount.names ∧ "y" ∉ doubledCount.names ∧
      Program.parse "x := n + n" = .ok [⟨some "x", doubledCount, ⟨0, 10, 1, 1⟩⟩] ∧
      Program.parse "y := -n" = .ok [⟨some "y", negatedCount, ⟨0, 7, 1, 1⟩⟩] ∧
      (∃ between, countSession.execute "y := -n" = (.ok [.assigned "y" (.integer (-3))], between) ∧
        between.execute "x := n + n" = (.ok [.assigned "x" (.integer 6)],
          ⟨[("n", .integer 3), ("x", .integer 6), ("y", .integer (-3))], .typed⟩)) ∧
      countSession.bindings.run .typed doubledCount = Bindings.run [("n", .integer 3)] .typed doubledCount := by
  have parsed : Program.parse "x := n + n" = .ok [⟨some "x", doubledCount, ⟨0, 10, 1, 1⟩⟩] := by decide +kernel
  have parsedOther : Program.parse "y := -n" = .ok [⟨some "y", negatedCount, ⟨0, 7, 1, 1⟩⟩] := by decide +kernel
  have ran : countSession.execute "x := n + n" =
      (.ok [.assigned "x" (.integer 6)], countSession.bind "x" (.integer 6)) := by
    rw [execute_of_parse parsed]
    rfl
  have ranOther : (countSession.bind "x" (.integer 6)).execute "y := -n" =
      (.ok [.assigned "y" (.integer (-3))],
        ⟨[("n", .integer 3), ("x", .integer 6), ("y", .integer (-3))], .typed⟩) := by
    rw [execute_of_parse parsedOther]
    rfl
  have withoutX : "x" ∉ negatedCount.names := by decide
  have withoutY : "y" ∉ doubledCount.names := by decide
  obtain ⟨v, w, between, told, toldOther, first, second⟩ := (independent_statements_commute.1 countSession "x" "y"
    doubledCount negatedCount ⟨0, 10, 1, 1⟩ ⟨0, 7, 1, 1⟩ (by decide) withoutX withoutY).2 _ _ parsed parsedOther
    _ _ _ _ ran ranOther
  cases told
  cases toldOther
  have agree : countSession.bindings.AgreeOn doubledCount.names [("n", .integer 3)] := by
    intro name member
    obtain rfl : name = "n" := by simpa [doubledCount, Tree.names] using member
    rfl
  exact ⟨withoutX, withoutY, parsed, parsedOther, ⟨between, first, second⟩,
    (independent_statements_commute.2 _ _ .typed _ agree).2.1⟩

end Session

end Vtl
