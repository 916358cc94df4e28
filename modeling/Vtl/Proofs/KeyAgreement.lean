import Vtl.Proofs.HashJoin
import Vtl.Proofs.Operators

namespace Vtl

theorem Number.equals_iff {x y : Number} :
    x.equals y = true ↔ x.isNaN = false ∧ y.isNaN = false ∧ x.rank = y.rank := by
  simp [equals, and_assoc]

namespace Value

theorem eq_of_equals {a b : Value} (scalar : a.type ≠ .dataset) (exact : a.type ≠ .number)
    (same : a.equals b = true) : a = b := by
  cases a <;> cases b <;> simp_all [equals, type]

mutual

theorem equals_symm {a b : Value} (same : a.equals b = true) : b.equals a = true := by
  cases a with
  | dataset data =>
    obtain ⟨columns, rows⟩ := data
    cases b with
    | dataset other =>
      obtain ⟨others, otherRows⟩ := other
      simp only [equals, Bool.and_eq_true, beq_iff_eq] at same ⊢
      exact ⟨same.1.symm, rowsEqual_symm same.2⟩
    | _ => cases same
  | number x =>
    cases b with
    | number y =>
      rw [equals, Number.equals_iff] at same ⊢
      exact ⟨same.2.1, same.1, same.2.2.symm⟩
    | _ => cases same
  | null | integer | string | boolean | date | duration =>
    exact eq_of_equals (by simp [type]) (by simp [type]) same ▸ same

theorem rowsEqual_symm {rows others : List (List (String × Value))} (same : rowsEqual rows others = true) :
    rowsEqual others rows = true := by
  match rows, others with
  | [], [] => rfl
  | row :: rows, other :: others =>
    rw [rowsEqual, Bool.and_eq_true] at same ⊢
    exact ⟨cellsEqual_symm same.1, rowsEqual_symm same.2⟩

theorem cellsEqual_symm {cells others : List (String × Value)} (same : cellsEqual cells others = true) :
    cellsEqual others cells = true := by
  match cells, others with
  | [], [] => rfl
  | (name, value) :: cells, (other, otherValue) :: others =>
    simp only [cellsEqual, Bool.and_eq_true, beq_iff_eq] at same ⊢
    exact ⟨⟨same.1.1.symm, equals_symm same.1.2⟩, cellsEqual_symm same.2⟩

end

mutual

theorem equals_trans {a b c : Value} (first : a.equals b = true) (second : b.equals c = true) :
    a.equals c = true := by
  cases a with
  | dataset data =>
    obtain ⟨columns, rows⟩ := data
    cases b with
    | dataset middle =>
      obtain ⟨middleColumns, middleRows⟩ := middle
      cases c with
      | dataset other =>
        obtain ⟨others, otherRows⟩ := other
        simp only [equals, Bool.and_eq_true, beq_iff_eq] at first second ⊢
        exact ⟨first.1.trans second.1, rowsEqual_trans first.2 second.2⟩
      | _ => cases second
    | _ => cases first
  | number x =>
    cases b with
    | number y =>
      cases c with
      | number z =>
        rw [equals, Number.equals_iff] at first second ⊢
        exact ⟨first.1, second.2.1, first.2.2.trans second.2.2⟩
      | _ => cases second
    | _ => cases first
  | null | integer | string | boolean | date | duration =>
    exact eq_of_equals (by simp [type]) (by simp [type]) first ▸ second
termination_by structural a

theorem rowsEqual_trans {rows middle others : List (List (String × Value))}
    (first : rowsEqual rows middle = true) (second : rowsEqual middle others = true) :
    rowsEqual rows others = true := by
  match rows, middle, others with
  | [], [], [] => rfl
  | row :: rows, inner :: middle, other :: others =>
    rw [rowsEqual, Bool.and_eq_true] at first second ⊢
    exact ⟨cellsEqual_trans first.1 second.1, rowsEqual_trans first.2 second.2⟩
termination_by structural rows

theorem cellsEqual_trans {cells middle others : List (String × Value)}
    (first : cellsEqual cells middle = true) (second : cellsEqual middle others = true) :
    cellsEqual cells others = true := by
  match cells, middle, others with
  | [], [], [] => rfl
  | (name, value) :: cells, (inner, innerValue) :: middle, (other, otherValue) :: others =>
    simp only [cellsEqual, Bool.and_eq_true, beq_iff_eq] at first second ⊢
    exact ⟨⟨first.1.1.trans second.1.1, equals_trans first.1.2 second.1.2⟩,
      cellsEqual_trans first.2 second.2⟩
termination_by structural cells

end

variable {a b c : Value}

/-- Parts of a key are equal, or they are datasets that are equal by value. -/
theorem sameKey_cases (same : a.sameKey b = true) :
    a = b ∨ ∃ data other, a = .dataset data ∧ b = .dataset other ∧ a.equals b = true := by
  by_cases scalar : b.type = .dataset
  · obtain ⟨other, rfl⟩ := exists_dataset scalar
    cases a with
    | dataset data => exact Or.inr ⟨data, other, rfl, rfl, same⟩
    | _ => cases same
  · exact Or.inl ((sameKey_iff scalar).mp same)

theorem sameKey_symm (same : a.sameKey b = true) : b.sameKey a = true := by
  rcases sameKey_cases same with rfl | ⟨data, other, rfl, rfl, equal⟩
  · exact same
  · exact equals_symm equal

theorem sameKey_trans (first : a.sameKey b = true) (second : b.sameKey c = true) : a.sameKey c = true := by
  rcases sameKey_cases first with rfl | ⟨data, other, rfl, rfl, equal⟩
  · exact second
  rcases sameKey_cases second with rfl | ⟨_, last, _, rfl, further⟩
  · exact first
  · exact equals_trans equal further

theorem hashWords_of_sameKey (same : a.sameKey b = true) : a.hashWords = b.hashWords := by
  rcases sameKey_cases same with rfl | ⟨data, other, rfl, rfl, _⟩
  · rfl
  · rfl

end Value

namespace JoinKey

variable {first second third : JoinKey} {cells others further : List Value}

theorem sameCells_eq_true_iff :
    sameCells cells others = true ↔ List.Forall₂ (fun a b => a.sameKey b = true) cells others := by
  induction cells generalizing others with
  | nil => cases others <;> simp [sameCells]
  | cons a cells ih =>
    cases others with
    | nil => simp [sameCells]
    | cons b others => rw [sameCells, Bool.and_eq_true, ih, List.forall₂_cons]

theorem sameCells_symm (same : sameCells cells others = true) : sameCells others cells = true := by
  rw [sameCells_eq_true_iff] at same ⊢
  exact same.flip.imp fun _ _ => Value.sameKey_symm

theorem sameCells_trans (same : sameCells cells others = true) (next : sameCells others further = true) :
    sameCells cells further = true := by
  induction cells generalizing others further with
  | nil => cases others <;> cases further <;> simp_all [sameCells]
  | cons a cells ih =>
    cases others with
    | nil => cases same
    | cons b others =>
      cases further with
      | nil => cases next
      | cons c further =>
        rw [sameCells, Bool.and_eq_true] at same next ⊢
        exact ⟨Value.sameKey_trans same.1 next.1, ih same.2 next.2⟩

/-- Agreement of keys is symmetric and transitive. It is not reflexive: a dataset with a NaN in it
agrees with nothing. -/
theorem same_symm (same : first.same second = true) : second.same first = true := by
  match first, second with
  | .typed _, .typed _ => exact sameCells_symm same
  | .concatenated a, .concatenated b =>
    simp only [JoinKey.same, beq_iff_eq] at same ⊢
    exact same.symm

theorem same_trans (same : first.same second = true) (next : second.same third = true) :
    first.same third = true := by
  match first, second, third with
  | .typed _, .typed _, .typed _ => exact sameCells_trans same next
  | .concatenated a, .concatenated b, .concatenated c =>
    simp only [JoinKey.same, beq_iff_eq] at same next ⊢
    exact same.trans next

/-- Keys that agree have one hash. -/
theorem hashWords_of_same (same : first.same second = true) : first.hashWords = second.hashWords := by
  match first, second with
  | .typed cells, .typed others =>
    rw [JoinKey.same, sameCells_eq_true_iff] at same
    induction same with
    | nil => rfl
    | cons head _ ih =>
      simp only [hashWords, List.flatMap_cons] at ih ⊢
      rw [Value.hashWords_of_sameKey head, ih]
  | .concatenated a, .concatenated b =>
    simp only [JoinKey.same, beq_iff_eq] at same
    rw [same]

end JoinKey

/-- Adding a row to a bucket adds it behind the rows of its key, and changes no other key. The keys may
hold datasets. -/
theorem Bucket.rows_add_eq {bucket : Bucket} {key other : JoinKey} {row : Row} :
    (bucket.add key row).rows other =
      if other.same key then bucket.rows other ++ [row] else bucket.rows other := by
  induction bucket with
  | nil => simp [Bucket.add, Bucket.rows]
  | cons entry rest ih =>
    obtain ⟨stored, rows⟩ := entry
    rw [add_cons]
    by_cases known : key.same stored = true
    · -- What agrees with the stored key agrees with the added one, and the other way round.
      have alike : other.same stored = true ↔ other.same key = true :=
        ⟨fun same => JoinKey.same_trans same (JoinKey.same_symm known),
          fun same => JoinKey.same_trans same known⟩
      rw [if_pos known, rows_cons, rows_cons]
      by_cases hit : other.same stored = true
      · rw [if_pos hit, if_pos hit, if_pos (alike.mp hit)]
      · have miss : ¬other.same key = true := fun same => hit (alike.mpr same)
        rw [if_neg hit, if_neg hit, if_neg miss]
    · rw [if_neg known, rows_cons, rows_cons, ih]
      by_cases hit : other.same stored = true
      · have miss : ¬other.same key = true := fun same =>
          known (JoinKey.same_trans (JoinKey.same_symm same) hit)
        rw [if_pos hit, if_neg miss, if_pos hit]
      · simp only [if_neg hit]

namespace JoinIndex

variable {index : JoinIndex} {key other : JoinKey} {row : Row} {spec : JoinSpec} {rows : List Row}

theorem rows_add_eq (filled : 0 < index.buckets.size) :
    (index.add key row).rows other =
      if other.same key then index.rows other ++ [row] else index.rows other := by
  rw [JoinIndex.rows, slot_add, bucket_add filled]
  by_cases slots : index.slot key = index.slot other
  · rw [if_pos slots, Bucket.rows_add_eq]
    rfl
  · have differ : ¬other.same key = true := by
      intro same
      apply slots
      rw [slot, slot, JoinKey.hashWords_of_same same]
    rw [if_neg slots, if_neg differ]
    rfl

theorem rows_foldl_add_eq (filled : 0 < index.buckets.size) :
    (rows.foldl (fun index row => index.add (spec.keyOf row) row) index).rows key =
      index.rows key ++ rows.filter fun row => key.same (spec.keyOf row) := by
  induction rows generalizing index with
  | nil => simp
  | cons row rows ih =>
    have stillFilled : 0 < (index.add (spec.keyOf row) row).buckets.size := by simpa [add] using filled
    rw [List.foldl_cons, ih stillFilled, rows_add_eq filled, List.filter_cons]
    split
    · rw [List.append_assoc, List.singleton_append]
    · rfl

theorem rows_build_eq (hasher : Hasher) :
    (build hasher spec rows).rows key = rows.filter fun row => key.same (spec.keyOf row) := by
  have filled : 0 < (empty hasher rows.length).buckets.size := by simp [empty]
  rw [build, rows_foldl_add_eq filled, rows_empty, List.nil_append]

end JoinIndex

/-- A left row meets the right rows whose keys agree with its own, whatever the keys hold. -/
theorem Dataset.joinBy_eq_probe {ε : Type} {hasher : Hasher} {left right : Dataset} {spec : JoinSpec}
    {combine : Value → Value → Except ε Value} :
    joinBy hasher left right spec combine =
      left.probe (fun l => right.rows.filter fun r => (spec.keyOf l).same (spec.keyOf r)) spec combine := by
  simp only [joinBy, JoinIndex.rows_build_eq]

end Vtl
