import Vtl.Proofs.DatasetOrigin
import Vtl.Proofs.Inference
import Vtl.Proofs.KeyAgreement
import Vtl.Proofs.Progress

namespace Vtl

namespace JoinKey

/-- The typed key of a row under some columns. -/
def ofRow (columns : List Column) (row : Row) : JoinKey :=
  .typed (columns.map fun column => row.cell column.name)

variable {columns more : List Column} {first second : Row}

theorem same_ofRow_iff : (ofRow columns first).same (ofRow columns second) = true ↔
    ∀ column ∈ columns, (first.cell column.name).sameKey (second.cell column.name) = true := by
  rw [ofRow, ofRow, JoinKey.same, sameCells_eq_true_iff, List.forall₂_map_left_iff,
    List.forall₂_map_right_iff, List.forall₂_same]

/-- Rows that agree under some columns agree under each part of them. -/
theorem same_ofRow_of_subset (subset : ∀ column ∈ columns, column ∈ more)
    (same : (ofRow more first).same (ofRow more second) = true) :
    (ofRow columns first).same (ofRow columns second) = true := by
  rw [same_ofRow_iff] at same ⊢
  exact fun column member => same column (subset column member)

theorem ofRow_congr (cells : ∀ column ∈ columns, first.cell column.name = second.cell column.name) :
    ofRow columns first = ofRow columns second := by
  rw [ofRow, ofRow, List.map_congr_left cells]

end JoinKey

theorem JoinSpec.keyOf_typed {spec : JoinSpec} (typed : spec.policy = .typed) (row : Row) :
    spec.keyOf row = .ofRow spec.identifiers row := by
  rw [keyOf, typed, JoinKey.ofRow]

/-- No identifier of a schema has the name of a measure of it. -/
def SeparateNames (columns : List Column) : Prop :=
  ∀ identifier ∈ columns, ∀ measure ∈ columns, identifier.role = .identifier → measure.role = .measure →
    identifier.name ≠ measure.name

/-- The columns of a join have the roles that they are listed under, and no identifier has the name of a
measure. -/
structure JoinSpec.Keyed (spec : JoinSpec) : Prop where
  identifiers : ∀ column ∈ spec.identifiers, column.role = .identifier
  measures : ∀ column ∈ spec.measures, column.role = .measure
  separate : SeparateNames spec.outputColumns

namespace Dataset

/-- No two rows of a dataset agree in all its identifiers. -/
def DistinctRows (data : Dataset) : Prop :=
  data.rows.Pairwise fun first second =>
    (JoinKey.ofRow data.identifiers first).same (.ofRow data.identifiers second) = false

instance (data : Dataset) : Decidable data.DistinctRows := inferInstanceAs (Decidable (List.Pairwise _ _))

variable {ε : Type} {hasher : Hasher} {left right data : Dataset} {spec : JoinSpec}
  {combine : Value → Value → Except ε Value}

theorem identifiers_outputColumns (keyed : spec.Keyed) (rows : List Row) :
    identifiers ⟨spec.outputColumns, rows⟩ = spec.identifiers := by
  have others : spec.measures.filter (fun column => column.role = .identifier) = [] :=
    List.filter_eq_nil_iff.mpr fun column member => by simp [keyed.measures column member]
  have own : spec.identifiers.filter (fun column => column.role = .identifier) = spec.identifiers :=
    List.filter_eq_self.mpr fun column member => by simp [keyed.identifiers column member]
  rw [identifiers, JoinSpec.outputColumns, List.filter_append, own, others, List.append_nil]

/-- A merged row has the key of the left row that it comes from. -/
theorem ofRow_merge (keyed : spec.Keyed) {l r row : Row} (merged : spec.merge combine l r = .ok row) :
    JoinKey.ofRow spec.identifiers row = .ofRow spec.identifiers l := by
  refine JoinKey.ofRow_congr fun column member => ?_
  refine (JoinSpec.merge_merged merged).identifiers column member ?_
  intro taken
  obtain ⟨measure, isMeasure, sameName⟩ := List.mem_map.mp taken
  exact keyed.separate column (List.mem_append_left _ member) measure (List.mem_append_right _ isMeasure)
    (keyed.identifiers column member) (keyed.measures measure isMeasure) sameName.symm

/-- Rows that agree with one row agree with each other, so there are no two of them. -/
theorem DistinctRows.pairwise_matches (distinct : right.DistinctRows)
    (kept : ∀ column ∈ right.identifiers, column ∈ spec.identifiers) (row : Row) :
    (right.rows.filter fun r =>
      (JoinKey.ofRow spec.identifiers row).same (.ofRow spec.identifiers r)).Pairwise fun _ _ => False := by
  refine (distinct.sublist List.filter_sublist).imp_of_mem ?_
  intro first second firstFound secondFound apart
  have firstSame := (List.mem_filter.mp firstFound).2
  have secondSame := (List.mem_filter.mp secondFound).2
  have same := JoinKey.same_ofRow_of_subset kept
    (JoinKey.same_trans (JoinKey.same_symm firstSame) secondSame)
  rw [apart] at same
  cases same

/-- A join that keeps the identifiers of both sides keeps their rows apart: a left row meets at most one
right row, and rows of the result agree only if the left rows do that they come from. -/
theorem joinBy_distinctRows (typed : spec.policy = .typed) (keyed : spec.Keyed)
    (leftDistinct : left.DistinctRows) (rightDistinct : right.DistinctRows)
    (leftKept : ∀ column ∈ left.identifiers, column ∈ spec.identifiers)
    (rightKept : ∀ column ∈ right.identifiers, column ∈ spec.identifiers)
    (run : joinBy hasher left right spec combine = .ok data) : data.DistinctRows := by
  rw [joinBy_eq_probe] at run
  simp only [JoinSpec.keyOf_typed typed] at run
  obtain ⟨groups, found, whole⟩ := bind_eq_ok.mp run
  cases whole
  rw [DistinctRows, identifiers_outputColumns keyed]
  -- Rows of one group come from one left row, rows of two groups from two of them.
  refine List.pairwise_flatten.mpr ⟨?_, ?_⟩
  · intro group member
    obtain ⟨l, _, made⟩ := mem_of_mapM_eq_ok found member
    exact pairwise_of_forall₂ (mapM_eq_ok.mp made) (rightDistinct.pairwise_matches rightKept l)
      fun _ _ _ _ _ _ => False.elim
  · refine pairwise_of_forall₂ (mapM_eq_ok.mp found) leftDistinct ?_
    intro l l' group group' made made' apart row inGroup row' inGroup'
    obtain ⟨r, _, merged⟩ := mem_of_mapM_eq_ok made inGroup
    obtain ⟨r', _, merged'⟩ := mem_of_mapM_eq_ok made' inGroup'
    rw [ofRow_merge keyed merged, ofRow_merge keyed merged']
    by_contra agree
    have agreeLeft := JoinKey.same_ofRow_of_subset leftKept (Bool.not_eq_false _ |>.mp agree)
    rw [apart] at agreeLeft
    cases agreeLeft

end Dataset

/-- The identifiers of a dataset tell its rows apart, and share no name with a measure. -/
structure Dataset.Keyed (data : Dataset) : Prop where
  distinct : data.DistinctRows
  separate : SeparateNames data.columns

/-- Every bound dataset is keyed. -/
def Bindings.Keyed (bindings : Bindings) : Prop :=
  ∀ name data, bindings.value? name = some (.dataset data) → Dataset.Keyed data

theorem Bindings.Keyed.put {bindings : Bindings} {value : Value} (keyed : bindings.Keyed) (name : String)
    (sound : ∀ data, value = .dataset data → Dataset.Keyed data) :
    Bindings.Keyed (bindings.put name value) := by
  intro other data bound
  rw [Entries.value?_put] at bound
  split at bound
  · exact sound data (Option.some.inj bound)
  · exact keyed other data bound

/-- The columns that a join gives its result come from the left schema. -/
theorem JoinSpec.Keyed.of_common {left right : List Column} {op : ArithmeticOp} {spec : JoinSpec}
    (separate : SeparateNames left)
    (identifiers : spec.identifiers = (CommonColumns.between left right).identifiers)
    (measures : spec.measures = (CommonColumns.between left right).measures.map op.measureOf) :
    spec.Keyed := by
  have ofIdentifier (column : Column) (member : column ∈ spec.identifiers) :
      column ∈ left ∧ column.role = .identifier := by
    rw [identifiers, mem_common_identifiers] at member
    exact ⟨member.1, member.2.2⟩
  have ofMeasure (column : Column) (member : column ∈ spec.measures) :
      ∃ source ∈ left, source.name = column.name ∧ source.role = .measure ∧ column.role = .measure := by
    rw [measures] at member
    obtain ⟨source, common, rfl⟩ := List.mem_map.mp member
    obtain ⟨ofLeft, _, role⟩ := mem_common_measures.mp common
    exact ⟨source, ofLeft, rfl, role, role⟩
  have measureRole (column : Column) (member : column ∈ spec.measures) : column.role = .measure := by
    obtain ⟨_, _, _, _, role⟩ := ofMeasure column member
    exact role
  refine ⟨fun column member => (ofIdentifier column member).2, measureRole, ?_⟩
  intro identifier inColumns measure alsoInColumns role otherRole
  rcases List.mem_append.mp inColumns with isIdentifier | isMeasure
  · rcases List.mem_append.mp alsoInColumns with notMeasure | isMeasure
    · rw [(ofIdentifier measure notMeasure).2] at otherRole
      cases otherRole
    · obtain ⟨source, ofLeft, sameName, sourceRole, _⟩ := ofMeasure measure isMeasure
      rw [← sameName]
      exact separate identifier (ofIdentifier identifier isIdentifier).1 source ofLeft role sourceRole
  · rw [measureRole identifier isMeasure] at role
    cases role

namespace Expr

/-- The joins that make up the value of an expression lose no identifier: those of either operand are
all among the ones that rows are matched by. -/
def KeepsIdentifiers : Expr → Prop
  | .join _ _ spec left right =>
    left.KeepsIdentifiers ∧ right.KeepsIdentifiers ∧
      ∀ columns, left.type = .dataset columns ∨ right.type = .dataset columns →
        ∀ column ∈ columns, column.role = .identifier → column ∈ spec.identifiers
  | _ => True

/-- What is known of a dataset that comes from keyed ones: it is keyed, and so is its static schema,
which has all its identifiers. -/
structure KeyedAs (e : Expr) (data : Dataset) : Prop where
  keyed : Dataset.Keyed data
  separate : ∀ columns, e.type = .dataset columns → SeparateNames columns
  declared : ∀ columns, e.type = .dataset columns →
    ∀ column ∈ data.identifiers, column ∈ columns ∧ column.role = .identifier

theorem Yields.keyedAs {bindings : Bindings} {e : Expr} {data : Dataset} (keyed : bindings.Keyed)
    (keeps : e.KeepsIdentifiers) (yields : e.Yields (bindings.scope .typed) bindings data) :
    e.KeyedAs data := by
  induction yields with
  | @«variable» name type data declared bound _ =>
    obtain ⟨value, again, same⟩ := Declarations.value?_infer.mp declared
    obtain rfl := Option.some.inj (bound.symm.trans again)
    have own := keyed name data bound
    refine ⟨own, ?_, ?_⟩
    · rintro columns rfl
      cases same
      exact own.separate
    · rintro columns rfl column member
      cases same
      simpa [Dataset.identifiers] using member
  | @join op spec left right leftColumns rightColumns leftData rightData data _ _ leftSchema rightSchema
      policy identifiers measures _ joined leftIh rightIh =>
    obtain ⟨leftKeeps, rightKeeps, kept⟩ := keeps
    have ofLeft := leftIh leftKeeps
    have ofRight := rightIh rightKeeps
    have separate := ofLeft.separate leftColumns leftSchema
    have specKeyed : spec.Keyed := .of_common separate identifiers measures
    have leftKept : ∀ column ∈ leftData.identifiers, column ∈ spec.identifiers := by
      intro column member
      obtain ⟨declared, role⟩ := ofLeft.declared leftColumns leftSchema column member
      exact kept leftColumns (Or.inl leftSchema) column declared role
    have rightKept : ∀ column ∈ rightData.identifiers, column ∈ spec.identifiers := by
      intro column member
      obtain ⟨declared, role⟩ := ofRight.declared rightColumns rightSchema column member
      exact kept rightColumns (Or.inr rightSchema) column declared role
    have distinct : Dataset.DistinctRows data :=
      Dataset.joinBy_distinctRows policy specKeyed ofLeft.keyed.distinct ofRight.keyed.distinct leftKept
        rightKept joined
    have columns := (Dataset.joinBy_ok joined).1
    refine ⟨⟨distinct, ?_⟩, ?_, ?_⟩
    · rw [columns]
      exact specKeyed.separate
    · intro own schema
      cases schema
      exact separate
    · intro own schema column member
      cases schema
      obtain ⟨inColumns, role⟩ := List.mem_filter.mp member
      rw [columns] at inColumns
      rcases List.mem_append.mp inColumns with identifier | measure
      · rw [identifiers, mem_common_identifiers] at identifier
        exact ⟨identifier.1, identifier.2.2⟩
      · rw [specKeyed.measures column measure] at role
        cases role

end Expr

namespace Program

/-- No value that is assigned has lost an identifier. -/
def KeepsIdentifiers (policy : KeyPolicy) : Program → Bindings → Prop
  | [], _ => True
  | statement :: rest, bindings =>
    ∀ value, bindings.run policy statement.expression = .ok value →
      (statement.target.isSome = true →
        ∀ e, statement.expression.compile (bindings.scope policy) = .ok e → e.KeepsIdentifiers) ∧
      KeepsIdentifiers policy rest (statement.store value bindings)

/-- A statement leaves the bindings keyed. -/
theorem keyed_store {bindings : Bindings} {statement : Statement} {value : Value} (keyed : bindings.Keyed)
    (keeps : statement.target.isSome = true →
      ∀ e, statement.expression.compile (bindings.scope .typed) = .ok e → e.KeepsIdentifiers)
    (run : bindings.run .typed statement.expression = .ok value) :
    (statement.store value bindings).Keyed := by
  obtain ⟨e, compiled, resolved⟩ := Bindings.run_eq_ok.mp run
  unfold Statement.store
  split
  · next name assigned =>
    refine keyed.put name ?_
    rintro data rfl
    have yields := (Tree.compile_wellTyped compiled).yields resolved
    have kept := keeps (by rw [assigned]; rfl) e compiled
    exact (yields.keyedAs keyed kept).keyed
  · exact keyed

theorem keyed_run {program : Program} {bindings : Bindings} (keyed : bindings.Keyed)
    (keeps : program.KeepsIdentifiers .typed bindings) : (program.run .typed bindings).2.Keyed := by
  induction program generalizing bindings with
  | nil => exact keyed
  | cons statement rest ih =>
    cases run : bindings.run .typed statement.expression with
    | error failure =>
      rw [run_cons_of_error run]
      exact keyed
    | ok value =>
      obtain ⟨here, later⟩ := keeps value run
      rw [run_cons_of_ok run]
      exact ih (keyed_store keyed here run) later

end Program

namespace Session

/-- A session comes from another one by executing programs whose assigned values lose no identifier, with
keyed datasets and scalars bound in between. -/
inductive Reaches (start : Session) : Session → Prop
  | refl : Reaches start start
  | bind {session : Session} {value : Value} (earlier : Reaches start session) (name : String)
      (keyed : ∀ data, value = .dataset data → Dataset.Keyed data) : Reaches start (session.bind name value)
  | execute {session : Session} {source : String} (earlier : Reaches start session)
      (keeps : ∀ program, Program.parse source = .ok program →
        program.KeepsIdentifiers session.policy session.bindings) :
      Reaches start (session.execute source).2

theorem policy_execute {session : Session} {source : String} :
    (session.execute source).2.policy = session.policy := by
  unfold execute
  split <;> rfl

theorem keyed_execute {session : Session} {source : String} (typed : session.policy = .typed)
    (keyed : session.bindings.Keyed)
    (keeps : ∀ program, Program.parse source = .ok program →
      program.KeepsIdentifiers session.policy session.bindings) :
    (session.execute source).2.bindings.Keyed := by
  cases parsed : Program.parse source with
  | error e =>
    rw [execute, parsed]
    exact keyed
  | ok program =>
    have kept := keeps program parsed
    rw [typed] at kept
    rw [execute_of_parse parsed, typed]
    exact Program.keyed_run keyed kept

theorem Reaches.keyed {start session : Session} (typed : start.policy = .typed)
    (keyed : start.bindings.Keyed) (reaches : start.Reaches session) :
    session.policy = .typed ∧ session.bindings.Keyed := by
  induction reaches with
  | refl => exact ⟨typed, keyed⟩
  | bind _ name sound ih => exact ⟨ih.1, ih.2.put name sound⟩
  | execute _ keeps ih => exact ⟨policy_execute.trans ih.1, keyed_execute ih.1 ih.2 keeps⟩

/-- Where rows are joined by typed keys and the joins of assigned values lose no identifier, a session never
holds a dataset with two rows of one identity, if none was bound from outside. -/
theorem reachable_distinct_rows {start session : Session} (typed : start.policy = .typed)
    (keyed : start.bindings.Keyed) (reaches : start.Reaches session) {name : String} {data : Dataset}
    (bound : session.bindings.value? name = some (.dataset data)) : data.DistinctRows :=
  ((reaches.keyed typed keyed).2 name data bound).distinct

/-- Two rows that only the year tells apart. -/
def yearRows : Dataset :=
  ⟨[⟨"id", .identifier, .integer⟩, ⟨"year", .identifier, .integer⟩, ⟨"m", .measure, .integer⟩],
    [[("id", .integer 1), ("m", .integer 3), ("year", .integer 2020)],
      [("id", .integer 1), ("m", .integer 5), ("year", .integer 2021)]]⟩

def totalRows : Dataset :=
  ⟨[⟨"id", .identifier, .integer⟩, ⟨"m", .measure, .integer⟩], [[("id", .integer 1), ("m", .integer 10)]]⟩

def yearSession : Session := ⟨[("a", .dataset yearRows), ("b", .dataset totalRows)], .typed⟩

theorem yearSession_keyed : yearSession.bindings.Keyed := by
  intro name data bound
  by_cases first : name = "a"
  · subst first
    cases bound
    exact ⟨by decide, by simp [SeparateNames, yearRows]⟩
  by_cases second : name = "b"
  · subst second
    cases bound
    exact ⟨by decide, by simp [SeparateNames, totalRows]⟩
  · simp [yearSession, first, second] at bound

/-- `c := a op other`, the operator and the name on the right being one character each -/
def assignment (production : Production) (op : Token.Kind) (symbol other : String) : Statement :=
  ⟨some "c", .binary ⟨"a " ++ symbol ++ " " ++ other, ⟨5, 10, 1, 6⟩⟩ production
    (.variable ⟨"a", ⟨5, 6, 1, 6⟩⟩ "a") ⟨op, symbol, ⟨7, 8, 1, 8⟩⟩
    (.variable ⟨other, ⟨9, 10, 1, 10⟩⟩ other), ⟨0, 10, 1, 1⟩⟩

theorem reachable_distinct_rows_doubled :
    ∃ data, (yearSession.execute "c := a + a").2.bindings.value? "c" = some (.dataset data) ∧
      data.rows.length = 2 ∧ Dataset.DistinctRows data := by
  have parsed : Program.parse "c := a + a" = .ok [assignment .sum .plus "+" "a"] := by decide +kernel
  have keeps : ∀ program, Program.parse "c := a + a" = .ok program →
      program.KeepsIdentifiers yearSession.policy yearSession.bindings := by
    intro program again
    obtain rfl := Except.ok.inj (parsed.symm.trans again)
    intro value _
    refine ⟨fun _ e compiled => ?_, trivial⟩
    cases compiled
    refine ⟨trivial, trivial, ?_⟩
    rintro columns (own | own)
    all_goals
      cases own
      decide
  have run : ∃ data, (yearSession.execute "c := a + a").2.bindings.value? "c" = some (.dataset data) ∧
      data.rows.length = 2 := by
    rw [execute_of_parse parsed]
    exact ⟨_, rfl, rfl⟩
  obtain ⟨data, bound, count⟩ := run
  exact ⟨data, bound, count, reachable_distinct_rows rfl yearSession_keyed (.execute .refl keeps) bound⟩

/-- Executing a source leaves a dataset with two rows of one identity, although none was bound. -/
def LosesIdentity (session : Session) (source : String) : Prop :=
  session.policy = .typed ∧
    (∀ name data, session.bindings.value? name = some (.dataset data) → Dataset.DistinctRows data) ∧
    ∃ name data, (session.execute source).2.bindings.value? name = some (.dataset data) ∧
      ¬Dataset.DistinctRows data

/-- An identifier that has the name of a measure. -/
def sharedRows : Dataset :=
  ⟨[⟨"x", .identifier, .integer⟩, ⟨"x", .measure, .integer⟩], [[("x", .integer 1)], [("x", .integer (-1))]]⟩

/-- Rows of one identity come from a sum over fewer identifiers than one side has, and from a product
that is stored in place of an identifier. -/
theorem identity_lost_with_identifier :
    yearSession.LosesIdentity "c := a + b" ∧
      (⟨[("a", .dataset sharedRows)], .typed⟩ : Session).LosesIdentity "c := a * a" := by
  refine ⟨⟨rfl, fun name data bound => (yearSession_keyed name data bound).distinct, "c", ?_⟩,
    ⟨rfl, ?_, "c", ?_⟩⟩
  · have parsed : Program.parse "c := a + b" = .ok [assignment .sum .plus "+" "b"] := by decide +kernel
    rw [execute_of_parse parsed]
    exact ⟨⟨totalRows.columns,
      [[("id", .integer 1), ("m", .integer 13)], [("id", .integer 1), ("m", .integer 15)]]⟩, rfl, by decide⟩
  · intro name data bound
    have a : name = "a" := by by_contra other; simp [other] at bound
    subst a
    cases bound
    decide
  · have parsed : Program.parse "c := a * a" = .ok [assignment .product .times "*" "a"] := by
      decide +kernel
    rw [execute_of_parse parsed]
    exact ⟨⟨sharedRows.columns, [[("x", .integer 1)], [("x", .integer 1)]]⟩, rfl, by decide⟩

end Session

end Vtl
