import Vtl.Join
import Vtl.Proofs.Except

namespace Vtl

section Filling

variable {ε : Type} (columns : List Column)

/-- Putting a value under the name of each column, the value being that of the name. -/
theorem value?_foldl_put (cell : String → Value) (row : Row) (name : String) :
    (columns.foldl (fun row column => row.put column.name (cell column.name)) row).value? name =
      if name ∈ columns.map Column.name then some (cell name) else row.value? name := by
  induction columns generalizing row with
  | nil => simp
  | cons column columns ih =>
    rw [List.foldl_cons, ih, Entries.value?_put, List.map_cons]
    by_cases later : name ∈ columns.map Column.name
    · rw [if_pos later, if_pos (List.mem_cons_of_mem _ later)]
    · rw [if_neg later]
      by_cases hit : name = column.name
      · simp [hit]
      · simp [hit, later]

theorem sorted_foldl_put (cell : Column → Value) {row : Row} (sorted : row.Sorted) :
    (columns.foldl (fun row column => row.put column.name (cell column)) row).Sorted := by
  induction columns generalizing row with
  | nil => exact sorted
  | cons column columns ih => exact ih (sorted.put _ _)

/-- Puts the results of a computation under the names of the columns, in order, up to the first one
that fails. -/
def fill (result : String → Except ε Value) (row : Row) : Except ε Row :=
  columns.foldlM (fun row column => do pure (row.put column.name (← result column.name))) row

variable {columns} {result : String → Except ε Value} {row filled : Row}

theorem fill_cons {column : Column} :
    fill (column :: columns) result row =
      (result column.name >>= fun value => fill columns result (row.put column.name value)) := by
  cases value : result column.name with
  | error e => simp [fill, value, bind, Except.bind]
  | ok value => simp [fill, value, bind, Except.bind, pure, Except.pure]

theorem fill_value? (run : fill columns result row = .ok filled) :
    (∀ name ∈ columns.map Column.name, ∃ value,
      result name = .ok value ∧ filled.value? name = some value) ∧
    ∀ name ∉ columns.map Column.name, filled.value? name = row.value? name := by
  induction columns generalizing row with
  | nil => cases run; simp
  | cons column columns ih =>
    rw [fill_cons, bind_eq_ok] at run
    obtain ⟨value, first, rest⟩ := run
    obtain ⟨hit, miss⟩ := ih rest
    refine ⟨?_, ?_⟩
    · intro name member
      by_cases later : name ∈ columns.map Column.name
      · exact hit name later
      · have same : name = column.name := by simpa [later] using member
        refine ⟨value, same ▸ first, ?_⟩
        rw [miss name later, same, Entries.value?_put_self]
    · intro name absent
      rw [List.map_cons, List.mem_cons, not_or] at absent
      rw [miss name absent.2, Entries.value?_put_of_ne _ _ absent.1]

theorem fill_sorted (run : fill columns result row = .ok filled) (sorted : row.Sorted) :
    filled.Sorted := by
  induction columns generalizing row with
  | nil => cases run; exact sorted
  | cons column columns ih =>
    rw [fill_cons, bind_eq_ok] at run
    obtain ⟨value, _, rest⟩ := run
    exact ih rest (sorted.put _ _)

/-- Filling fails with the first failure in the order of the columns. -/
theorem fill_eq_error {e : ε} :
    fill columns result row = .error e ↔
      ∃ before column after, columns = before ++ column :: after ∧
        (∀ earlier ∈ before, ∃ value, result earlier.name = .ok value) ∧
        result column.name = .error e := by
  induction columns generalizing row with
  | nil => simp [fill, pure, Except.pure]
  | cons column columns ih =>
    rw [fill_cons, bind_eq_error]
    constructor
    · rintro (now | ⟨value, first, later⟩)
      · exact ⟨[], column, columns, rfl, by simp, now⟩
      · obtain ⟨before, failing, after, split, fine, fails⟩ := ih.mp later
        refine ⟨column :: before, failing, after, by rw [split, List.cons_append], ?_, fails⟩
        intro earlier member
        rcases List.mem_cons.mp member with same | member
        · exact ⟨value, same ▸ first⟩
        · exact fine earlier member
    · rintro ⟨before, failing, after, split, fine, fails⟩
      cases before with
      | nil =>
        obtain ⟨rfl, rfl⟩ := List.cons.inj split
        exact Or.inl fails
      | cons head before =>
        obtain ⟨rfl, rfl⟩ := List.cons.inj split
        obtain ⟨value, first⟩ := fine column List.mem_cons_self
        exact Or.inr ⟨value, first, ih.mpr ⟨before, failing, after, rfl,
          fun earlier member => fine earlier (List.mem_cons_of_mem _ member), fails⟩⟩

end Filling

namespace JoinSpec

variable {ε : Type} {combine : Value → Value → Except ε Value} {spec : JoinSpec}
  {left right row : Row}

/-- What the row merged from two matching rows holds: a cell for each column of the join and no
other, measures combined and the other identifiers taken from the left. -/
structure Merged (spec : JoinSpec) (combine : Value → Value → Except ε Value)
    (left right row : Row) : Prop where
  sorted : row.Sorted
  names : ∀ name, name ∈ row.map Prod.fst ↔ name ∈ spec.outputColumns.map Column.name
  measures : ∀ column ∈ spec.measures,
    combine (left.cell column.name) (right.cell column.name) = .ok (row.cell column.name)
  identifiers : ∀ column ∈ spec.identifiers, column.name ∉ spec.measures.map Column.name →
    row.cell column.name = left.cell column.name

theorem merge_eq_fill :
    spec.merge combine left right =
      fill spec.measures (fun name => combine (left.cell name) (right.cell name))
        (spec.identifiers.foldl (fun row column => row.put column.name (left.cell column.name)) []) :=
  rfl

theorem merge_merged (run : spec.merge combine left right = .ok row) :
    spec.Merged combine left right row := by
  rw [merge_eq_fill] at run
  obtain ⟨hit, miss⟩ := fill_value? run
  have identity (name : String) := value?_foldl_put spec.identifiers left.cell [] name
  refine ⟨fill_sorted run (sorted_foldl_put _ _ List.Pairwise.nil), ?_, ?_, ?_⟩
  · intro name
    rw [Entries.mem_names_iff, outputColumns, List.map_append, List.mem_append]
    by_cases measure : name ∈ spec.measures.map Column.name
    · obtain ⟨value, _, found⟩ := hit name measure
      exact iff_of_true ⟨value, found⟩ (Or.inr measure)
    · rw [miss name measure, identity]
      by_cases identifier : name ∈ spec.identifiers.map Column.name
      · exact iff_of_true ⟨_, if_pos identifier⟩ (Or.inl identifier)
      · simp [identifier, measure]
  · intro column member
    obtain ⟨value, combined, found⟩ := hit column.name (List.mem_map_of_mem member)
    rw [combined, Row.cell, found, Option.getD_some]
  · intro column member absent
    rw [Row.cell, miss _ absent, identity, if_pos (List.mem_map_of_mem member), Option.getD_some]

/-- A merge fails with the first measure that cannot be combined. -/
theorem merge_eq_error {e : ε} :
    spec.merge combine left right = .error e ↔
      ∃ before column after, spec.measures = before ++ column :: after ∧
        (∀ earlier ∈ before, ∃ value,
          combine (left.cell earlier.name) (right.cell earlier.name) = .ok value) ∧
        combine (left.cell column.name) (right.cell column.name) = .error e := by
  rw [merge_eq_fill, fill_eq_error]

end JoinSpec

end Vtl
