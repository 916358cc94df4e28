import Mathlib.Data.List.Perm.Basic
import Vtl.Proofs.KeyAgreement

namespace Vtl

section Pairs

variable {α β γ : Type} (agree : α → β → Bool) (pair : α → β → γ)

theorem map_filter_eq_flatMap (x : α) (ys : List β) :
    (ys.filter (agree x)).map (pair x) =
      ys.flatMap fun y => ([x].filter fun x => agree x y).map fun x => pair x y := by
  induction ys with
  | nil => rfl
  | cons y ys ih =>
    rw [List.flatMap_cons, ← ih, List.filter_cons, List.filter_singleton]
    cases agree x y with
    | false => rfl
    | true => rfl

/-- The pairs that agree are the same ones from either side. -/
theorem flatMap_filter_perm (xs : List α) (ys : List β) :
    (xs.flatMap fun x => (ys.filter (agree x)).map (pair x)).Perm
      (ys.flatMap fun y => (xs.filter fun x => agree x y).map fun x => pair x y) := by
  induction xs with
  | nil => simp
  | cons x xs ih =>
    have split (y : β) : ((x :: xs).filter fun x => agree x y).map (fun x => pair x y) =
        ([x].filter fun x => agree x y).map (fun x => pair x y) ++
          (xs.filter fun x => agree x y).map fun x => pair x y := by
      rw [← List.map_append, ← List.filter_append, List.singleton_append]
    simp only [List.flatMap_cons, split, map_filter_eq_flatMap agree pair x ys]
    exact (ih.append_left _).trans (List.flatMap_append_perm ys _ _)

end Pairs

theorem JoinKey.same_comm (first second : JoinKey) : first.same second = second.same first :=
  Bool.eq_iff_iff.mpr ⟨same_symm, same_symm⟩

namespace JoinSpec

variable {ε : Type} {spec : JoinSpec} {combine : Value → Value → Except ε Value} {left right : Row}

theorem exists_merge (total : ∀ a b, ∃ value, combine a b = .ok value) (left right : Row) :
    ∃ row, spec.merge combine left right = .ok row := by
  cases run : spec.merge combine left right with
  | ok row => exact ⟨row, rfl⟩
  | error e =>
    obtain ⟨before, column, after, _, _, failed⟩ := merge_eq_error.mp run
    obtain ⟨value, combined⟩ := total (left.cell column.name) (right.cell column.name)
    cases combined.symm.trans failed

/-- Rows that agree in all identifiers make the same row in either order. -/
theorem merge_swap (same : ∀ column ∈ spec.identifiers, left.cell column.name = right.cell column.name) :
    spec.merge (fun a b => combine b a) right left = spec.merge combine left right := by
  have identity (row : Row) (column : Column) (member : column ∈ spec.identifiers) :
      row.put column.name (right.cell column.name) = row.put column.name (left.cell column.name) := by
    rw [same column member]
  rw [merge, merge, List.foldl_ext _ _ _ identity]

end JoinSpec

namespace Dataset

variable {ε : Type} {hasher : Hasher} {left right : Dataset} {spec : JoinSpec}
  {combine : Value → Value → Except ε Value}

/-- A join that cannot fail has one row for each pair of rows with keys that agree. -/
theorem joinBy_eq_pairs {pair : Row → Row → Row} (merges : ∀ l r, spec.merge combine l r = .ok (pair l r)) :
    joinBy hasher left right spec combine = .ok ⟨spec.outputColumns, left.rows.flatMap fun l =>
      (right.rows.filter fun r => (spec.keyOf l).same (spec.keyOf r)).map (pair l)⟩ := by
  have group (l : Row) : spec.merge combine l = fun r => pure (pair l r) := funext fun r => merges l r
  rw [joinBy_eq_probe, probe]
  simp only [group, List.mapM_pure, pure_bind, List.flatMap_def]
  rfl

/-- Two datasets joined by typed keys give the same rows in either order, as often as they stand there,
though not in the same places. The operands of what combines measures change places with the datasets.
The identifiers of one side have to be scalars: what agrees with a scalar is that scalar. -/
theorem joinBy_swap_perm (hasher otherHasher : Hasher) (left right : Dataset) (spec : JoinSpec)
    (combine : Value → Value → Except ε Value) (typed : spec.policy = .typed)
    (scalar : ∀ row ∈ right.rows, spec.ScalarKey row) (total : ∀ a b, ∃ value, combine a b = .ok value) :
    ∃ data swapped, joinBy hasher left right spec combine = .ok data ∧
      joinBy otherHasher right left spec (fun a b => combine b a) = .ok swapped ∧
      data.columns = swapped.columns ∧ data.rows.Perm swapped.rows := by
  choose pair merges using @JoinSpec.exists_merge ε spec combine total
  choose back mergesBack using @JoinSpec.exists_merge ε spec (fun a b => combine b a) fun a b => total b a
  refine ⟨_, _, joinBy_eq_pairs merges, joinBy_eq_pairs mergesBack, rfl, ?_⟩
  refine (flatMap_filter_perm _ pair left.rows right.rows).trans (.of_eq ?_)
  refine List.flatMap_congr fun r inRight => ?_
  simp only [JoinKey.same_comm (spec.keyOf r)]
  refine List.map_congr_left fun l agrees => ?_
  have same := (JoinSpec.same_keyOf_iff typed (scalar r inRight)).mp (List.mem_filter.mp agrees).2
  have swapped := (mergesBack r l).symm.trans ((JoinSpec.merge_swap same).trans (merges l r))
  exact (Except.ok.inj swapped).symm

/-- The rows of `nanRows` with other measures, the first of them twice. -/
def repeatedRows : Dataset :=
  ⟨nanRows.columns, [[("m", .integer 7)], [("id", .number .undefined), ("m", .integer 8)], [("m", .integer 7)]]⟩

/-- Keeps the left one of two values, unless it is null. -/
def firstKnown (a b : Value) : Except Unit Value := .ok (if a.isNull then b else a)

theorem joinBy_swap_perm_repeatedRows :
    (∀ row ∈ repeatedRows.rows, nanSpec.ScalarKey row) ∧
      ∃ data swapped, joinBy .mixing nanRows repeatedRows nanSpec firstKnown = .ok data ∧
        joinBy .mixing repeatedRows nanRows nanSpec (fun a b => firstKnown b a) = .ok swapped ∧
        data.rows.length = 4 ∧ data.columns = swapped.columns ∧ data.rows.Perm swapped.rows := by
  have scalar : ∀ row ∈ repeatedRows.rows, nanSpec.ScalarKey row := by
    simp [repeatedRows, nanRows, nanSpec, JoinSpec.ScalarKey, Dataset.identifiers, Row.cell, Value.type]
  obtain ⟨data, swapped, run, runSwapped, columns, perm⟩ :=
    joinBy_swap_perm .mixing .mixing nanRows repeatedRows nanSpec firstKnown rfl scalar fun a b => ⟨_, rfl⟩
  refine ⟨scalar, data, swapped, run, runSwapped, ?_, columns, perm⟩
  cases run
  rfl

end Dataset

end Vtl
