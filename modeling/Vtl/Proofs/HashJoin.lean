import Vtl.Operator.Apply
import Vtl.Proofs.Merge

namespace Vtl

/-- A scalar agrees as part of a key with no other value than itself. -/
theorem Value.sameKey_iff {a b : Value} (scalar : b.type ≠ .dataset) : a.sameKey b = true ↔ a = b := by
  cases b with
  | dataset data => exact absurd rfl scalar
  | number y =>
    cases a with
    | number x =>
      obtain ⟨x⟩ := x
      obtain ⟨y⟩ := y
      simp [sameKey]
    | _ => simp [sameKey, equals]
  | _ => cases a <;> simp [sameKey, equals]

namespace JoinKey

theorem sameCells_iff {left right : List Value} (scalar : ∀ cell ∈ right, cell.type ≠ .dataset) :
    sameCells left right = true ↔ left = right := by
  induction left generalizing right with
  | nil => cases right <;> simp [sameCells]
  | cons a left ih =>
    cases right with
    | nil => simp [sameCells]
    | cons b right =>
      have rest := ih fun cell member => scalar cell (List.mem_cons_of_mem b member)
      rw [sameCells, Bool.and_eq_true, Value.sameKey_iff (scalar b List.mem_cons_self), rest,
        List.cons.injEq]

/-- A key that no dataset is part of. -/
def IsScalar : JoinKey → Prop
  | .typed cells => ∀ cell ∈ cells, cell.type ≠ .dataset
  | .concatenated _ => True

theorem same_iff {other key : JoinKey} (scalar : key.IsScalar) : other.same key = true ↔ other = key := by
  cases key with
  | typed cells =>
    cases other with
    | typed others => simpa [same] using sameCells_iff scalar
    | concatenated text => simp [same]
  | concatenated text => cases other <;> simp [same]

end JoinKey

/-- The cells of a row under the identifiers of a join are scalars, missing ones being null. -/
def JoinSpec.ScalarKey (spec : JoinSpec) (row : Row) : Prop :=
  ∀ column ∈ spec.identifiers, (row.cell column.name).type ≠ .dataset

theorem JoinSpec.ScalarKey.isScalar {spec : JoinSpec} {row : Row} (scalar : spec.ScalarKey row) :
    (spec.keyOf row).IsScalar := by
  unfold JoinSpec.keyOf
  cases spec.policy with
  | typed =>
    intro cell member
    obtain ⟨column, known, same⟩ := List.mem_map.mp member
    exact same ▸ scalar column known
  | concatenated => trivial

/-- Typed keys tell rows apart exactly by the cells under the identifiers. -/
theorem JoinSpec.same_keyOf_iff {spec : JoinSpec} {left right : Row} (typed : spec.policy = .typed)
    (scalar : spec.ScalarKey right) :
    (spec.keyOf left).same (spec.keyOf right) = true ↔
      ∀ column ∈ spec.identifiers, left.cell column.name = right.cell column.name := by
  rw [JoinKey.same_iff scalar.isScalar]
  simp only [JoinSpec.keyOf, typed, JoinKey.typed.injEq, List.map_inj_left]

namespace Bucket

variable {bucket : Bucket} {key other : JoinKey} {row found : Row}

theorem add_cons {stored : JoinKey} {rows : List Row} {rest : Bucket} :
    Bucket.add ((stored, rows) :: rest) key row =
      if key.same stored then (stored, rows ++ [row]) :: rest
      else (stored, rows) :: Bucket.add rest key row :=
  rfl

theorem rows_cons {stored : JoinKey} {rows : List Row} {rest : Bucket} :
    Bucket.rows ((stored, rows) :: rest) other =
      if other.same stored then rows else Bucket.rows rest other :=
  rfl

theorem mem_rows_add (member : found ∈ (bucket.add key row).rows other) :
    found = row ∨ found ∈ bucket.rows other := by
  induction bucket with
  | nil =>
    simp only [Bucket.add, Bucket.rows] at member
    split at member
    · exact Or.inl (by simpa using member)
    · cases member
  | cons entry rest ih =>
    obtain ⟨stored, rows⟩ := entry
    rw [add_cons] at member
    rw [rows_cons]
    by_cases hit : other.same stored = true
    · rw [if_pos hit]
      split at member
      · rw [rows_cons, if_pos hit, List.mem_append, List.mem_singleton] at member
        exact member.symm
      · rw [rows_cons, if_pos hit] at member
        exact Or.inr member
    · rw [if_neg hit]
      split at member
      · rw [rows_cons, if_neg hit] at member
        exact Or.inr member
      · rw [rows_cons, if_neg hit] at member
        exact ih member

/-- The keys of a bucket are scalar. -/
def IsScalar (bucket : Bucket) : Prop := ∀ entry ∈ bucket, entry.1.IsScalar

theorem IsScalar.add (scalar : bucket.IsScalar) (scalarKey : key.IsScalar) :
    (bucket.add key row).IsScalar := by
  induction bucket with
  | nil =>
    intro entry member
    rw [List.mem_singleton.mp member]
    exact scalarKey
  | cons entry rest ih =>
    obtain ⟨head, tail⟩ := List.forall_mem_cons.mp scalar
    unfold Bucket.add
    split
    · exact List.forall_mem_cons.mpr ⟨head, tail⟩
    · exact List.forall_mem_cons.mpr ⟨head, ih tail⟩

/-- Adding a row to a bucket adds it behind the rows of its key, and changes no other key. -/
theorem rows_add (scalar : bucket.IsScalar) (scalarKey : key.IsScalar) :
    (bucket.add key row).rows other =
      if other.same key then bucket.rows other ++ [row] else bucket.rows other := by
  induction bucket with
  | nil => simp [Bucket.add, Bucket.rows]
  | cons entry rest ih =>
    obtain ⟨stored, rows⟩ := entry
    obtain ⟨head, tail⟩ := List.forall_mem_cons.mp scalar
    by_cases known : key = stored
    · rw [add_cons, if_pos ((JoinKey.same_iff head).mpr known), rows_cons, rows_cons, known]
      split <;> rfl
    · have differ : ¬key.same stored = true := fun same => known ((JoinKey.same_iff head).mp same)
      rw [add_cons, if_neg differ, rows_cons, rows_cons, ih tail]
      by_cases hit : other.same stored = true
      · have elsewhere : ¬other.same key = true := fun same =>
          known (((JoinKey.same_iff scalarKey).mp same).symm.trans ((JoinKey.same_iff head).mp hit))
        rw [if_pos hit, if_neg elsewhere, if_pos hit]
      · simp only [if_neg hit]

end Bucket

namespace JoinIndex

variable {index : JoinIndex} {key other : JoinKey} {row found : Row}

@[simp] theorem slot_add : (index.add key row).slot other = index.slot other := by
  simp [slot, add]

/-- The bucket in which a key is looked for, after a row was added under another one. -/
theorem bucket_add (filled : 0 < index.buckets.size) :
    (index.add key row).buckets.getD (index.slot other) [] =
      if index.slot key = index.slot other then
        Bucket.add (index.buckets.getD (index.slot other) []) key row
      else index.buckets.getD (index.slot other) [] := by
  have within : index.slot other < index.buckets.size := Nat.mod_lt _ filled
  simp only [add, Array.getD_eq_getD_getElem?, Array.getElem?_modify]
  split
  · simp [within]
  · rfl

theorem mem_rows_add (filled : 0 < index.buckets.size)
    (member : found ∈ (index.add key row).rows other) : found = row ∨ found ∈ index.rows other := by
  rw [rows, slot_add, bucket_add filled] at member
  split at member
  · exact Bucket.mem_rows_add member
  · exact Or.inr member

/-- A table has buckets, and their keys are scalar. -/
structure IsScalar (index : JoinIndex) : Prop where
  filled : 0 < index.buckets.size
  keys : ∀ bucket ∈ index.buckets, Bucket.IsScalar bucket

theorem IsScalar.bucket (scalar : index.IsScalar) (key : JoinKey) :
    Bucket.IsScalar (index.buckets.getD (index.slot key) []) := by
  have within : index.slot key < index.buckets.size := Nat.mod_lt _ scalar.filled
  rw [Array.getD_eq_getD_getElem?, Array.getElem?_eq_getElem within, Option.getD_some]
  exact scalar.keys _ (Array.getElem_mem within)

theorem IsScalar.add (scalar : index.IsScalar) (scalarKey : key.IsScalar) :
    (index.add key row).IsScalar := by
  refine ⟨by simpa [JoinIndex.add] using scalar.filled, ?_⟩
  intro bucket member
  obtain ⟨slot, within, same⟩ := Array.getElem_of_mem member
  simp only [JoinIndex.add, Array.getElem_modify] at same
  have old := scalar.keys _ (Array.getElem_mem (by simpa [JoinIndex.add] using within))
  split at same
  · exact same ▸ Bucket.IsScalar.add old scalarKey
  · exact same ▸ old

/-- Adding a row to a table adds it behind the rows of its key, and changes no other key: a key that
agrees with the added one is that very key, so both are looked for in one bucket. -/
theorem rows_add (scalar : index.IsScalar) (scalarKey : key.IsScalar) :
    (index.add key row).rows other =
      if other.same key then index.rows other ++ [row] else index.rows other := by
  rw [rows, slot_add, bucket_add scalar.filled]
  by_cases slots : index.slot key = index.slot other
  · rw [if_pos slots, Bucket.rows_add (scalar.bucket other) scalarKey]
    rfl
  · have differ : ¬other.same key = true := fun same =>
      slots (congrArg index.slot ((JoinKey.same_iff scalarKey).mp same).symm)
    rw [if_neg slots, if_neg differ]
    rfl

theorem empty_isScalar (hasher : Hasher) (capacity : Nat) : (empty hasher capacity).IsScalar := by
  refine ⟨by simp [empty], ?_⟩
  intro bucket member
  rw [(Array.mem_replicate.mp member).2]
  exact List.forall_mem_nil _

@[simp] theorem rows_empty (hasher : Hasher) (capacity : Nat) (key : JoinKey) :
    (empty hasher capacity).rows key = [] := by
  simp only [rows, empty, Array.getD_eq_getD_getElem?, Array.getElem?_replicate]
  split <;> rfl

variable {spec : JoinSpec} {rows : List Row}

/-- A table finds for a key the rows that were added under it, in the order in which they came. -/
theorem rows_foldl_add (scalar : index.IsScalar) (scalarKeys : ∀ row ∈ rows, spec.ScalarKey row) :
    (rows.foldl (fun index row => index.add (spec.keyOf row) row) index).rows key =
      index.rows key ++ rows.filter fun row => key.same (spec.keyOf row) := by
  induction rows generalizing index with
  | nil => simp
  | cons row rows ih =>
    obtain ⟨head, tail⟩ := List.forall_mem_cons.mp scalarKeys
    rw [List.foldl_cons, ih (scalar.add head.isScalar) tail, rows_add scalar head.isScalar,
      List.filter_cons]
    split
    · rw [List.append_assoc, List.singleton_append]
    · rfl

theorem rows_build (hasher : Hasher) (scalarKeys : ∀ row ∈ rows, spec.ScalarKey row) :
    (build hasher spec rows).rows key = rows.filter fun row => key.same (spec.keyOf row) := by
  rw [build, rows_foldl_add (empty_isScalar _ _) scalarKeys, rows_empty, List.nil_append]

theorem mem_rows_foldl_add (filled : 0 < index.buckets.size)
    (member : found ∈ (rows.foldl (fun index row => index.add (spec.keyOf row) row) index).rows key) :
    found ∈ index.rows key ∨ found ∈ rows := by
  induction rows generalizing index with
  | nil => exact Or.inl member
  | cons row rows ih =>
    rcases ih (by simpa [add] using filled) member with old | later
    · rcases mem_rows_add filled old with same | old
      · exact Or.inr (same ▸ List.mem_cons_self)
      · exact Or.inl old
    · exact Or.inr (List.mem_cons_of_mem row later)

/-- Whatever the keys are, a table finds only rows that were put into it. -/
theorem mem_rows_build {hasher : Hasher} (member : found ∈ (build hasher spec rows).rows key) :
    found ∈ rows := by
  rcases mem_rows_foldl_add (by simp [empty]) member with old | added
  · rw [rows_empty] at old
    cases old
  · exact added

end JoinIndex

namespace Dataset

variable {ε : Type} {hasher : Hasher} {left right data : Dataset} {spec : JoinSpec}
  {combine : Value → Value → Except ε Value}

/-- Left rows in order meet right rows in order, and two of them make a row if their keys agree. -/
def nestedLoopJoin (left right : Dataset) (spec : JoinSpec)
    (combine : Value → Value → Except ε Value) : Except ε Dataset := do
  let mut rows : List Row := []
  for l in left.rows do
    for r in right.rows do
      if (spec.keyOf l).same (spec.keyOf r) then
        rows := rows ++ [← spec.merge combine l r]
  pure ⟨spec.outputColumns, rows⟩

theorem nestedLoopJoin_eq_probe :
    nestedLoopJoin left right spec combine =
      left.probe (fun l => right.rows.filter fun r => (spec.keyOf l).same (spec.keyOf r)) spec combine := by
  simp only [nestedLoopJoin, probe, forIn_select, bind_assoc, pure_bind, forIn_gather, List.nil_append]

theorem joinBy_eq_nestedLoopJoin (scalar : ∀ row ∈ right.rows, spec.ScalarKey row) :
    joinBy hasher left right spec combine = nestedLoopJoin left right spec combine := by
  rw [nestedLoopJoin_eq_probe]
  simp only [joinBy, JoinIndex.rows_build hasher scalar]

theorem probe_ok {find : Row → List Row} (run : left.probe find spec combine = .ok data) :
    data.columns = spec.outputColumns ∧
      ∀ row ∈ data.rows, ∃ l ∈ left.rows, ∃ r ∈ find l, spec.merge combine l r = .ok row := by
  obtain ⟨groups, found, whole⟩ := bind_eq_ok.mp run
  cases whole
  refine ⟨rfl, ?_⟩
  intro row member
  obtain ⟨group, inGroups, inGroup⟩ := List.mem_flatten.mp member
  obtain ⟨l, inLeft, made⟩ := mem_of_mapM_eq_ok found inGroups
  obtain ⟨r, inRight, merged⟩ := mem_of_mapM_eq_ok made inGroup
  exact ⟨l, inLeft, r, inRight, merged⟩

/-- Whatever the keys are, a join has the rows that some left row and some right row make. -/
theorem joinBy_ok (run : joinBy hasher left right spec combine = .ok data) :
    data.columns = spec.outputColumns ∧
      ∀ row ∈ data.rows, ∃ l ∈ left.rows, ∃ r ∈ right.rows, spec.merge combine l r = .ok row := by
  obtain ⟨columns, rows⟩ := probe_ok run
  refine ⟨columns, ?_⟩
  intro row member
  obtain ⟨l, inLeft, r, found, merged⟩ := rows row member
  exact ⟨l, inLeft, r, JoinIndex.mem_rows_build found, merged⟩

theorem joinBy_error {e : ε} (run : joinBy hasher left right spec combine = .error e) :
    ∃ l ∈ left.rows, ∃ r ∈ right.rows, spec.merge combine l r = .error e := by
  rcases bind_eq_error.mp run with failed | ⟨groups, _, whole⟩
  · obtain ⟨l, inLeft, failed⟩ := mem_of_mapM_eq_error failed
    obtain ⟨r, found, failed⟩ := mem_of_mapM_eq_error failed
    exact ⟨l, inLeft, r, JoinIndex.mem_rows_build found, failed⟩
  · cases whole

/-- The hash table changes nothing: whatever the hasher is, a join gives the rows of the nested loop
in its order, or the first error of it. Only the right identifiers have to be scalars, since a left
cell that is none agrees with no scalar. -/
theorem joinBy_refines_nested_loop (hasher : Hasher) (left right : Dataset) (spec : JoinSpec)
    (combine : Value → Value → Except ε Value) (scalar : ∀ row ∈ right.rows, spec.ScalarKey row) :
    joinBy hasher left right spec combine = nestedLoopJoin left right spec combine ∧
      (∀ data, joinBy hasher left right spec combine = .ok data →
        data.columns = spec.identifiers ++ spec.measures ∧
          ∀ row ∈ data.rows, ∃ l ∈ left.rows, ∃ r ∈ right.rows,
            (spec.keyOf l).same (spec.keyOf r) = true ∧ spec.Merged combine l r row) ∧
      (∀ l r e, spec.merge combine l r = .error e ↔
        ∃ before column after, spec.measures = before ++ column :: after ∧
          (∀ earlier ∈ before, ∃ value,
            combine (l.cell earlier.name) (r.cell earlier.name) = .ok value) ∧
          combine (l.cell column.name) (r.cell column.name) = .error e) ∧
      (spec.policy = .typed → ∀ l r : Row, r ∈ right.rows →
        ((spec.keyOf l).same (spec.keyOf r) = true ↔
          ∀ column ∈ spec.identifiers, l.cell column.name = r.cell column.name)) := by
  have same : joinBy hasher left right spec combine = nestedLoopJoin left right spec combine :=
    joinBy_eq_nestedLoopJoin scalar
  refine ⟨same, ?_, fun l r e => JoinSpec.merge_eq_error, ?_⟩
  · intro data run
    rw [same, nestedLoopJoin_eq_probe] at run
    obtain ⟨columns, rows⟩ := probe_ok run
    refine ⟨columns, ?_⟩
    intro row member
    obtain ⟨l, inLeft, r, found, merged⟩ := rows row member
    obtain ⟨inRight, keys⟩ := List.mem_filter.mp found
    exact ⟨l, inLeft, r, inRight, keys, JoinSpec.merge_merged merged⟩
  · intro typed l r member
    exact JoinSpec.same_keyOf_iff typed (scalar r member)

/-- Two rows share a NaN as identifier, and the last one has no identifier. -/
def nanRows : Dataset :=
  ⟨[⟨"id", .identifier, .number⟩, ⟨"m", .measure, .integer⟩],
    [[("id", .number .undefined), ("m", .integer 1)], [("id", .number .undefined), ("m", .integer 2)],
      [("m", .integer 3)]]⟩

def nanSpec : JoinSpec := ⟨nanRows.identifiers, [⟨"m", .measure, .integer⟩], .typed, by decide⟩

theorem joinBy_refines_nested_loop_nanRows :
    (∀ row ∈ nanRows.rows, nanSpec.ScalarKey row) ∧
      (joinBy .mixing nanRows nanRows nanSpec ArithmeticOp.add.apply).toOption.map
        (fun data => data.rows.length) = some 5 ∧
      joinBy .mixing nanRows nanRows nanSpec ArithmeticOp.add.apply =
        nestedLoopJoin nanRows nanRows nanSpec ArithmeticOp.add.apply := by
  have scalar : ∀ row ∈ nanRows.rows, nanSpec.ScalarKey row := by
    simp [nanRows, nanSpec, JoinSpec.ScalarKey, Dataset.identifiers, Row.cell, Value.type]
  exact ⟨scalar, by rfl, (joinBy_refines_nested_loop _ _ _ _ _ scalar).1⟩

end Dataset

end Vtl
