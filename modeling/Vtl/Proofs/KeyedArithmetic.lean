import Mathlib.Data.List.Nodup
import Vtl.Proofs.DistinctRows
import Vtl.Proofs.TypingRules

namespace Vtl

/-- Values of every kind but numbers and datasets are equal only if they are the same. -/
theorem Value.equals_iff {a b : Value} (scalar : a.type ≠ .dataset) (discrete : a.type ≠ .number) :
    a.equals b = true ↔ a = b := by
  refine ⟨eq_of_equals scalar discrete, ?_⟩
  rintro rfl
  cases a with
  | dataset | number => simp [type] at scalar discrete
  | null | integer | string | boolean | date | duration => simp [equals]

/-- Of rows with distinct keys at most one has a given key. -/
theorem filter_eq_toList_find? {α β : Type} {key : α → β} {select : α → Bool} {sought : β} {rows : List α}
    (distinct : (rows.map key).Nodup) (selected : ∀ row ∈ rows, select row = true → key row = sought) :
    rows.filter select = (rows.find? select).toList := by
  induction rows with
  | nil => rfl
  | cons row rows ih =>
    obtain ⟨fresh, distinct⟩ := List.nodup_cons.mp distinct
    obtain ⟨here, later⟩ := List.forall_mem_cons.mp selected
    by_cases chosen : select row = true
    · have others : rows.filter select = [] := by
        refine List.filter_eq_nil_iff.mpr fun other member alsoChosen => fresh ?_
        rw [here chosen, ← later other member alsoChosen]
        exact List.mem_map_of_mem member
      rw [List.filter_cons_of_pos chosen, List.find?_cons_of_pos chosen, others, Option.toList_some]
    · rw [List.filter_cons_of_neg chosen, List.find?_cons_of_neg chosen, ih distinct later]

namespace Row

variable {columns : List Column} {row : Row} {key : List Value}

/-- The cells of a row under some columns, missing ones being null. -/
def keyUnder (row : Row) (columns : List Column) : List Value := columns.map fun column => row.cell column.name

/-- The row has a cell under each of the columns, and one that equality compares exactly: no number and no
dataset. -/
def Discrete (row : Row) (columns : List Column) : Prop :=
  ∀ column ∈ columns, ∃ cell, row.value? column.name = some cell ∧ cell.type ≠ .dataset ∧ cell.type ≠ .number

/-- A row is found under a key if its cells are equal to those of the key, none of them missing. -/
def holds (row : Row) (columns : List Column) (key : List Value) : Bool :=
  let names := columns.map Column.name
  names.length == key.length &&
    (names.zip key).all fun (name, value) => (row.value? name).any fun cell => cell.equals value

theorem keyUnder_cons (row : Row) (column : Column) (columns : List Column) :
    row.keyUnder (column :: columns) = row.cell column.name :: row.keyUnder columns := rfl

theorem cell_of_value? {name : String} {value : Value} (found : row.value? name = some value) :
    row.cell name = value := by
  rw [Row.cell, found, Option.getD_some]

theorem holds_cons {column : Column} {value : Value} :
    row.holds (column :: columns) (value :: key) =
      ((row.value? column.name).any (fun cell => cell.equals value) && row.holds columns key) := by
  simp only [holds, List.map_cons, List.length_cons, List.zip_cons_cons, List.all_cons]
  rw [Bool.and_left_comm]
  congr 2
  simp

theorem holds_iff (discrete : row.Discrete columns) :
    row.holds columns key = true ↔ row.keyUnder columns = key := by
  induction columns generalizing key with
  | nil => cases key <;> simp [holds, keyUnder]
  | cons column columns ih =>
    obtain ⟨⟨cell, found, scalar, discreteCell⟩, rest⟩ := List.forall_mem_cons.mp discrete
    cases key with
    | nil => simp [holds, keyUnder]
    | cons value key =>
      rw [holds_cons, Bool.and_eq_true, ih rest, found, Option.any_some,
        Value.equals_iff scalar discreteCell, keyUnder_cons, cell_of_value? found, List.cons.injEq]

theorem Discrete.map_value? (discrete : row.Discrete columns) :
    columns.map (fun column => row.value? column.name) = (row.keyUnder columns).map some := by
  rw [keyUnder, List.map_map, List.map_inj_left]
  intro column member
  obtain ⟨cell, found, _⟩ := discrete column member
  rw [Function.comp_apply, cell_of_value? found, found]

end Row

theorem JoinSpec.Merged.value?_eq {ε : Type} {spec : JoinSpec} {combine : Value → Value → Except ε Value}
    {left right row : Row} (merged : spec.Merged combine left right row) {column : Column}
    (member : column ∈ spec.outputColumns) : row.value? column.name = some (row.cell column.name) := by
  have named := (merged.names column.name).mpr (List.mem_map_of_mem member)
  obtain ⟨value, found⟩ := Entries.mem_names_iff.mp named
  rw [Row.cell_of_value? found, found]

namespace Dataset

/-- The keys of the rows in their order: the cells of each row under the identifiers. -/
def keys (data : Dataset) : List (List Value) := data.rows.map fun row => Row.keyUnder row data.identifiers

/-- The rows of a dataset can be found by their identifiers: each row has a cell under each of them, which
is neither a number nor a dataset, and no two rows have the same cells there. No name stands for two
columns. -/
structure Indexed (data : Dataset) : Prop where
  names : (data.columns.map Column.name).Nodup
  discrete : ∀ row : Row, row ∈ data.rows → row.Discrete data.identifiers
  distinct : data.keys.Nodup

variable {ε : Type} {hasher : Hasher} {left right data : Dataset} {spec : JoinSpec}
  {combine : Value → Value → Except ε Value} {key : List Value} {row : Row}

theorem findRow?_eq_find? : data.findRow? key = data.rows.find? fun row => Row.holds row data.identifiers key :=
  rfl

theorem findRow?_eq_some (discrete : ∀ row : Row, row ∈ data.rows → row.Discrete data.identifiers)
    (found : data.findRow? key = some row) : row ∈ data.rows ∧ row.keyUnder data.identifiers = key := by
  rw [findRow?_eq_find?] at found
  have member := List.mem_of_find?_eq_some found
  have held := List.find?_some found
  exact ⟨member, (Row.holds_iff (discrete row member)).mp held⟩

theorem isSome_findRow?_iff (discrete : ∀ row : Row, row ∈ data.rows → row.Discrete data.identifiers) :
    (data.findRow? key).isSome = true ↔ key ∈ data.keys := by
  rw [findRow?_eq_find?, List.find?_isSome, keys, List.mem_map]
  refine exists_congr fun row => and_congr_right fun member => ?_
  exact Row.holds_iff (discrete row member)

/-- Each row is found under its own key. -/
theorem Indexed.findRow?_keyUnder (indexed : data.Indexed) (member : row ∈ data.rows) :
    data.findRow? (row.keyUnder data.identifiers) = some row := by
  have selected (other : Row) (known : other ∈ data.rows) :=
    (@Row.holds_iff _ _ (row.keyUnder data.identifiers) (indexed.discrete other known)).mp
  have alone := filter_eq_toList_find? indexed.distinct selected
  have held := (Row.holds_iff (indexed.discrete row member)).mpr rfl
  have found := alone ▸ List.mem_filter.mpr ⟨member, held⟩
  exact Option.mem_toList.mp found

theorem Indexed.scalarKey (indexed : data.Indexed) (identifiers : spec.identifiers = data.identifiers)
    (member : row ∈ data.rows) : spec.ScalarKey row := by
  intro column known
  rw [identifiers] at known
  obtain ⟨cell, found, scalar, _⟩ := indexed.discrete row member column known
  rw [Row.cell_of_value? found]
  exact scalar

/-- The rows whose typed keys agree with that of some row are those that are found under its key, at most
one. -/
theorem Indexed.matches_eq_findRow? (indexed : data.Indexed) (typed : spec.policy = .typed)
    (identifiers : spec.identifiers = data.identifiers) (row : Row) :
    data.rows.filter (fun other => (spec.keyOf row).same (spec.keyOf other)) =
      (data.findRow? (row.keyUnder spec.identifiers)).toList := by
  have agree (other : Row) (member : other ∈ data.rows) : (spec.keyOf row).same (spec.keyOf other) =
      other.holds data.identifiers (row.keyUnder spec.identifiers) := by
    rw [Bool.eq_iff_iff, JoinSpec.same_keyOf_iff typed (indexed.scalarKey identifiers member),
      Row.holds_iff (indexed.discrete other member), ← identifiers, eq_comm, Row.keyUnder, Row.keyUnder,
      List.map_inj_left]
  rw [List.filter_congr agree, findRow?_eq_find?]
  exact filter_eq_toList_find? indexed.distinct fun other member =>
    (Row.holds_iff (indexed.discrete other member)).mp

end Dataset

theorem separateNames_of_nodup {columns : List Column} (names : (columns.map Column.name).Nodup) :
    SeparateNames columns := by
  intro identifier inColumns measure alsoInColumns isIdentifier isMeasure sameName
  have same := List.inj_on_of_nodup_map names inColumns alsoInColumns sameName
  rw [same, isMeasure] at isIdentifier
  cases isIdentifier

theorem CommonColumns.identifiers_eq {left right : Dataset} (same : left.identifiers = right.identifiers) :
    (CommonColumns.between left.columns right.columns).identifiers = left.identifiers := by
  rw [CommonColumns.between, List.filter_filter, Dataset.identifiers]
  refine List.filter_congr fun column member => ?_
  rw [Bool.and_eq_left_iff_imp]
  intro role
  have common : column ∈ right.identifiers := same ▸ List.mem_filter.mpr ⟨member, role⟩
  exact decide_eq_true (List.mem_filter.mp common).1

/-- Two indexed datasets are joined by typed keys on all the identifiers, which they have in common. -/
structure JoinSpec.OnIndexed (spec : JoinSpec) (left right : Dataset) : Prop where
  typed : spec.policy = .typed
  keyed : spec.Keyed
  leftIndexed : left.Indexed
  rightIndexed : right.Indexed
  ofLeft : spec.identifiers = left.identifiers
  ofRight : spec.identifiers = right.identifiers

theorem JoinSpec.OnIndexed.of_common {left right : Dataset} {op : ArithmeticOp} {spec : JoinSpec}
    (leftIndexed : left.Indexed) (rightIndexed : right.Indexed) (same : left.identifiers = right.identifiers)
    (typed : spec.policy = .typed)
    (identifiers : spec.identifiers = (CommonColumns.between left.columns right.columns).identifiers)
    (measures : spec.measures =
      (CommonColumns.between left.columns right.columns).measures.map op.measureOf) :
    spec.OnIndexed left right := by
  have keyed : spec.Keyed := .of_common (separateNames_of_nodup leftIndexed.names) identifiers measures
  have ofLeft := identifiers.trans (CommonColumns.identifiers_eq same)
  exact ⟨typed, keyed, leftIndexed, rightIndexed, ofLeft, ofLeft.trans same⟩

namespace JoinSpec.OnIndexed

open Dataset

variable {ε : Type} {hasher : Hasher} {left right data : Dataset} {spec : JoinSpec}
  {combine : Value → Value → Except ε Value} {key : List Value} {row : Row}

/-- Each left row is looked up on the right. -/
theorem joinBy_eq_lookup (on : spec.OnIndexed left right) :
    joinBy hasher left right spec combine =
      left.probe (fun row => (right.findRow? (row.keyUnder spec.identifiers)).toList) spec combine := by
  rw [joinBy_eq_probe]
  simp only [on.rightIndexed.matches_eq_findRow? on.typed on.ofRight]

theorem keyUnder_merge (on : spec.OnIndexed left right) {l r : Row} (merged : spec.merge combine l r = .ok row) :
    row.keyUnder spec.identifiers = l.keyUnder spec.identifiers :=
  JoinKey.typed.inj (ofRow_merge on.keyed merged)

theorem identifiers_joinBy (on : spec.OnIndexed left right)
    (run : joinBy hasher left right spec combine = .ok data) : data.identifiers = spec.identifiers := by
  obtain ⟨columns, rows⟩ := data
  obtain rfl : columns = spec.outputColumns := (joinBy_ok run).1
  exact identifiers_outputColumns on.keyed rows

/-- A left row that is found makes one row, which has its key. -/
theorem keys_of_match (on : spec.OnIndexed left right) {l : Row} {made : List Row}
    (run : (right.findRow? (l.keyUnder spec.identifiers)).toList.mapM (spec.merge combine l) = .ok made) :
    made.map (fun row => Row.keyUnder row spec.identifiers) =
      [l.keyUnder spec.identifiers].filter fun key => (right.findRow? key).isSome := by
  rw [List.filter_singleton]
  cases found : right.findRow? (l.keyUnder spec.identifiers) with
  | none =>
    rw [found] at run
    cases run
    rfl
  | some r =>
    rw [found, Option.toList_some, mapM_eq_ok] at run
    obtain ⟨row, rest, merged, nothing, rfl⟩ := List.forall₂_cons_left_iff.mp run
    obtain rfl := List.forall₂_nil_left_iff.mp nothing
    rw [List.map_singleton, on.keyUnder_merge merged]
    rfl

theorem keys_of_matches (on : spec.OnIndexed left right) {rows : List Row} {groups : List (List Row)}
    (run : rows.mapM (fun l => (right.findRow? (l.keyUnder spec.identifiers)).toList.mapM
      (spec.merge combine l)) = .ok groups) :
    groups.flatten.map (fun row => Row.keyUnder row spec.identifiers) =
      (rows.map fun row => row.keyUnder spec.identifiers).filter fun key => (right.findRow? key).isSome := by
  induction mapM_eq_ok.mp run with
  | nil => rfl
  | cons here rest ih =>
    rw [List.flatten_cons, List.map_append, on.keys_of_match here, ih (mapM_eq_ok.mpr rest), List.map_cons,
      ← List.filter_append, List.singleton_append]

/-- The keys of a join are those of the left rows that are found on the right, in the left order. -/
theorem keys_joinBy (on : spec.OnIndexed left right)
    (run : joinBy hasher left right spec combine = .ok data) :
    data.keys = left.keys.filter fun key => (right.findRow? key).isSome := by
  rw [keys, keys, on.identifiers_joinBy run, ← on.ofLeft]
  rw [on.joinBy_eq_lookup] at run
  obtain ⟨groups, found, whole⟩ := bind_eq_ok.mp run
  cases whole
  exact on.keys_of_matches found

/-- Each row of a join is made of the two rows that are found under its key. -/
theorem exists_rows_joinBy (on : spec.OnIndexed left right)
    (run : joinBy hasher left right spec combine = .ok data) (member : row ∈ data.rows) :
    ∃ l r, left.findRow? (row.keyUnder spec.identifiers) = some l ∧
      right.findRow? (row.keyUnder spec.identifiers) = some r ∧ spec.Merged combine l r row := by
  rw [on.joinBy_eq_lookup] at run
  obtain ⟨l, inLeft, r, found, merged⟩ := (probe_ok run).2 row member
  rw [on.keyUnder_merge merged]
  refine ⟨l, r, ?_, Option.mem_toList.mp found, JoinSpec.merge_merged merged⟩
  rw [on.ofLeft]
  exact on.leftIndexed.findRow?_keyUnder inLeft

theorem discrete_joinBy (on : spec.OnIndexed left right)
    (run : joinBy hasher left right spec combine = .ok data) (member : row ∈ data.rows) :
    row.Discrete data.identifiers := by
  rw [on.identifiers_joinBy run]
  obtain ⟨l, inLeft, r, _, made⟩ := (joinBy_ok run).2 row member
  have sameKey := on.keyUnder_merge made
  have merged := JoinSpec.merge_merged made
  intro column known
  obtain ⟨cell, found, discrete⟩ := on.leftIndexed.discrete l inLeft column (on.ofLeft ▸ known)
  have kept : row.cell column.name = cell := by
    rw [← Row.cell_of_value? found]
    exact List.map_inj_left.mp sameKey column known
  refine ⟨cell, ?_, discrete⟩
  rw [merged.value?_eq (List.mem_append_left _ known), kept]

end JoinSpec.OnIndexed

/-- A name that a dataset is bound to, and that is declared with the columns of it. -/
structure Scope.Names (scope : Scope) (bindings : Bindings) (name : String) (data : Dataset) : Prop where
  declared : scope.declarations.value? name = some (.dataset data.columns)
  bound : bindings.value? name = some (.dataset data)

theorem Bindings.names_dataset {bindings : Bindings} {name : String} {data : Dataset} (policy : KeyPolicy)
    (bound : bindings.value? name = some (.dataset data)) : (bindings.scope policy).Names bindings name data :=
  ⟨Declarations.value?_infer.mpr ⟨_, bound, rfl⟩, bound⟩

section Arithmetic

variable {scope : Scope} {bindings : Bindings} {x y : String} {a b data : Dataset} {op : ArithmeticOp}
  {mark leftMark rightMark : Mark} {production : Production} {opToken : Token} {e : Expr}

/-- Arithmetic between the names of two datasets joins them on what their columns have in common. -/
theorem Scope.Names.exists_join
    (operator : (Family.ofBinary production opToken.kind).binary? opToken.kind = some (.arithmetic op))
    (leftNamed : scope.Names bindings x a) (rightNamed : scope.Names bindings y b)
    (compiled : (Tree.binary mark production (.variable leftMark x) opToken (.variable rightMark y)).compile
      scope = .ok e)
    (run : e.resolve bindings = .ok (.dataset data)) :
    ∃ spec : JoinSpec, spec.policy = scope.policy ∧
      spec.identifiers = (CommonColumns.between a.columns b.columns).identifiers ∧
      spec.measures = (CommonColumns.between a.columns b.columns).measures.map op.measureOf ∧
      Dataset.join a b spec op.apply = .ok data := by
  obtain ⟨found, l, r, same, leftCompiled, rightCompiled, typed, made, parts⟩ :=
    Tree.compile_binary_eq_ok.mp compiled
  obtain rfl := Option.some.inj (operator.symm.trans same)
  obtain ⟨leftType, leftDeclared, rfl⟩ := Tree.compile_variable_eq_ok.mp leftCompiled
  obtain ⟨rightType, rightDeclared, rfl⟩ := Tree.compile_variable_eq_ok.mp rightCompiled
  obtain rfl := Option.some.inj (leftNamed.declared.symm.trans leftDeclared)
  obtain rfl := Option.some.inj (rightNamed.declared.symm.trans rightDeclared)
  cases typed.yields run with
  | «variable» => cases made
  | join leftYields rightYields leftSchema rightSchema policy identifiers measures _ joined =>
    cases made
    cases parts
    cases leftSchema
    cases rightSchema
    obtain @⟨_, _, leftData, _, leftBound⟩ := leftYields
    obtain @⟨_, _, rightData, _, rightBound⟩ := rightYields
    obtain rfl := Value.dataset.inj (Option.some.inj (leftNamed.bound.symm.trans leftBound))
    obtain rfl := Value.dataset.inj (Option.some.inj (rightNamed.bound.symm.trans rightBound))
    exact ⟨_, policy, identifiers, measures, joined⟩

/-- Arithmetic on datasets is arithmetic on the rows of the keys that both have. The rows of each
dataset can be found by its identifiers, which are the same for both: a row is found in the result
exactly if there is one in each of them, and its measures are computed from these two. The keys of
the result are those of the left dataset that the right one has, in the same order; so nothing is
lost between a dataset and itself. -/
theorem arithmetic_on_common_keys (typed : scope.policy = .typed)
    (operator : (Family.ofBinary production opToken.kind).binary? opToken.kind = some (.arithmetic op))
    (leftNamed : scope.Names bindings x a) (rightNamed : scope.Names bindings y b)
    (leftIndexed : a.Indexed) (rightIndexed : b.Indexed) (sameIdentifiers : a.identifiers = b.identifiers)
    (compiled : (Tree.binary mark production (.variable leftMark x) opToken (.variable rightMark y)).compile
      scope = .ok e)
    (run : e.resolve bindings = .ok (.dataset data)) :
    data.identifiers = a.identifiers ∧
    (∀ key, (data.findRow? key).isSome = true ↔
      (a.findRow? key).isSome = true ∧ (b.findRow? key).isSome = true) ∧
    (∀ key row, data.findRow? key = some row → ∃ left right, a.findRow? key = some left ∧
      b.findRow? key = some right ∧
      data.identifiers.map (fun column => row.value? column.name) = key.map some ∧
      ∀ measure ∈ a.columns, measure ∈ b.columns → measure.role = .measure →
        ∃ cell, row.value? measure.name = some cell ∧
          op.apply (left.cell measure.name) (right.cell measure.name) = .ok cell) ∧
    data.keys = a.keys.filter (fun key => (b.findRow? key).isSome) ∧
    (a = b → data.keys = a.keys ∧ data.rows.length = a.rows.length) := by
  obtain ⟨spec, policy, identifiers, measures, joined⟩ :=
    leftNamed.exists_join operator rightNamed compiled run
  have on : spec.OnIndexed a b := .of_common leftIndexed rightIndexed sameIdentifiers (policy.trans typed)
    identifiers measures
  have own := on.identifiers_joinBy joined
  have keys := on.keys_joinBy joined
  have discrete (row : Row) (member : row ∈ data.rows) := on.discrete_joinBy joined member
  refine ⟨own.trans on.ofLeft, ?_, ?_, keys, ?_⟩
  · intro key
    rw [Dataset.isSome_findRow?_iff discrete, keys, List.mem_filter,
      Dataset.isSome_findRow?_iff leftIndexed.discrete]
  · intro key row found
    obtain ⟨member, rfl⟩ := Dataset.findRow?_eq_some discrete found
    obtain ⟨left, right, inLeft, inRight, merged⟩ := on.exists_rows_joinBy joined member
    rw [own]
    refine ⟨left, right, inLeft, inRight, own ▸ (discrete row member).map_value?, ?_⟩
    intro measure ofLeft ofRight role
    have common : op.measureOf measure ∈ spec.measures := by
      rw [measures]
      exact List.mem_map_of_mem (mem_common_measures.mpr ⟨ofLeft, ofRight, role⟩)
    have present := merged.value?_eq (List.mem_append_right spec.identifiers common)
    have combined := merged.measures _ common
    exact ⟨_, present, combined⟩
  · rintro rfl
    have all : data.keys = a.keys := by
      rw [keys, List.filter_eq_self]
      exact fun key => (Dataset.isSome_findRow?_iff leftIndexed.discrete).mpr
    have count := congrArg List.length all
    rw [Dataset.keys, Dataset.keys, List.length_map, List.length_map] at count
    exact ⟨all, count⟩

end Arithmetic

/-- Goods by number and kind. Of the second ones nobody knows how many there are, and of the last ones
nobody knows the kind. -/
def stockRows : Dataset :=
  ⟨[⟨"id", .identifier, .integer⟩, ⟨"m", .measure, .integer⟩, ⟨"used", .identifier, .boolean⟩],
    [[("id", .integer 1), ("m", .integer 5), ("used", .boolean true)],
      [("id", .integer 1), ("used", .boolean false)],
      [("id", .integer 2), ("m", .integer 4), ("used", .null)]]⟩

/-- Goods that were sold, in another order and under columns in another order. -/
def soldRows : Dataset :=
  ⟨[⟨"id", .identifier, .integer⟩, ⟨"used", .identifier, .boolean⟩, ⟨"m", .measure, .integer⟩],
    [[("id", .integer 2), ("m", .integer 3), ("used", .null)],
      [("id", .integer 1), ("m", .integer 1), ("used", .boolean false)]]⟩

/-- `a - b` -/
def remaining : Tree :=
  .binary ⟨"a - b", ⟨0, 5, 1, 1⟩⟩ .sum (.variable ⟨"a", ⟨0, 1, 1, 1⟩⟩ "a") ⟨.minus, "-", ⟨2, 3, 1, 3⟩⟩
    (.variable ⟨"b", ⟨4, 5, 1, 5⟩⟩ "b")

def stockBindings : Bindings := [("a", .dataset stockRows), ("b", .dataset soldRows)]

/-- What `a - b` gives: the goods that were sold, in the order of the stock. -/
def remainingRows : Dataset :=
  ⟨soldRows.columns, [[("id", .integer 1), ("m", .null), ("used", .boolean false)],
    [("id", .integer 2), ("m", .integer 1), ("used", .null)]]⟩

theorem arithmetic_on_common_keys_remaining :
    stockRows.Indexed ∧ soldRows.Indexed ∧ ∃ e, remaining.compile (stockBindings.scope .typed) = .ok e ∧
      e.resolve stockBindings = .ok (.dataset remainingRows) ∧
      remainingRows.keys = stockRows.keys.filter (fun key => (soldRows.findRow? key).isSome) ∧
      ∀ key, (remainingRows.findRow? key).isSome = true ↔
        (stockRows.findRow? key).isSome = true ∧ (soldRows.findRow? key).isSome = true := by
  have stock : stockRows.Indexed := by
    refine ⟨by decide, ?_, ?_⟩
    · simp [stockRows, Row.Discrete, Dataset.identifiers, Value.type]
    · simp [stockRows, Dataset.keys, Row.keyUnder, Dataset.identifiers, Row.cell]
  have sold : soldRows.Indexed := by
    refine ⟨by decide, ?_, ?_⟩
    · simp [soldRows, Row.Discrete, Dataset.identifiers, Value.type]
    · simp [soldRows, Dataset.keys, Row.keyUnder, Dataset.identifiers, Row.cell]
  have compiled : ∃ e, remaining.compile (stockBindings.scope .typed) = .ok e ∧
      e.resolve stockBindings = .ok (.dataset remainingRows) := ⟨_, rfl, rfl⟩
  obtain ⟨e, compiled, run⟩ := compiled
  obtain ⟨_, found, _, keys, _⟩ := arithmetic_on_common_keys rfl rfl (Bindings.names_dataset .typed rfl)
    (Bindings.names_dataset .typed rfl) stock sold rfl compiled run
  exact ⟨stock, sold, e, compiled, run, keys, found⟩

end Vtl
