namespace Vtl

/-- Values under names, each name once, in ascending order of the names. -/
abbrev Entries (α : Type) := List (String × α)

namespace Entries

variable {α β : Type}

def value? (entries : Entries α) (name : String) : Option α :=
  match entries with
  | [] => none
  | (other, value) :: rest => if name = other then some value else value? rest name

/-- Stores a value under a name, in place of the one that was there. -/
def put (entries : Entries α) (name : String) (value : α) : Entries α :=
  match entries with
  | [] => [(name, value)]
  | (other, old) :: rest =>
    if name = other then (name, value) :: rest
    else if name < other then (name, value) :: (other, old) :: rest
    else (other, old) :: put rest name value

/-- Stores pairs one after the other, so that of equal names the last one counts. -/
def ofList (pairs : List (String × α)) : Entries α :=
  pairs.foldl (fun entries (name, value) => entries.put name value) []

def mapValues (f : α → β) (entries : Entries α) : Entries β :=
  entries.map fun (name, value) => (name, f value)

@[simp] theorem value?_nil (name : String) : value? ([] : Entries α) name = none := rfl

@[simp] theorem value?_cons (other : String) (value : α) (rest : Entries α) (name : String) :
    value? ((other, value) :: rest) name = if name = other then some value else value? rest name :=
  rfl

theorem value?_put (entries : Entries α) (name other : String) (value : α) :
    (entries.put name value).value? other =
      if other = name then some value else entries.value? other := by
  induction entries with
  | nil => simp [put]
  | cons entry rest ih =>
    obtain ⟨first, old⟩ := entry
    unfold put
    split
    · next same => subst same; by_cases hit : other = name <;> simp [hit]
    · next differs =>
      split
      · simp
      · rw [value?_cons, ih, value?_cons]
        by_cases hit : other = first
        · subst hit; simp [Ne.symm differs]
        · simp [hit]

@[simp] theorem value?_put_self (entries : Entries α) (name : String) (value : α) :
    (entries.put name value).value? name = some value := by
  simp [value?_put]

theorem value?_put_of_ne (entries : Entries α) {name other : String} (value : α)
    (differ : other ≠ name) : (entries.put name value).value? other = entries.value? other := by
  simp [value?_put, differ]

theorem value?_mapValues (f : α → β) (entries : Entries α) (name : String) :
    (entries.mapValues f).value? name = (entries.value? name).map f := by
  induction entries with
  | nil => rfl
  | cons entry rest ih =>
    obtain ⟨first, old⟩ := entry
    simp only [mapValues, List.map_cons, value?_cons] at ih ⊢
    rw [ih]
    split <;> rfl

theorem mem_names_iff {entries : Entries α} {name : String} :
    name ∈ entries.map Prod.fst ↔ ∃ value, entries.value? name = some value := by
  induction entries with
  | nil => simp
  | cons entry rest ih =>
    obtain ⟨first, old⟩ := entry
    rw [List.map_cons, List.mem_cons, ih, value?_cons]
    by_cases hit : name = first
    · simp [hit]
    · simp [hit]

theorem mem_names_put {entries : Entries α} {name other : String} {value : α} :
    other ∈ (entries.put name value).map Prod.fst ↔ other = name ∨ other ∈ entries.map Prod.fst := by
  rw [mem_names_iff, mem_names_iff, value?_put]
  by_cases hit : other = name
  · simp [hit]
  · simp [hit]

theorem mem_names_ofList {pairs : List (String × α)} {name : String} :
    name ∈ (ofList pairs).map Prod.fst ↔ name ∈ pairs.map Prod.fst := by
  have step (entries : Entries α) :
      name ∈ (pairs.foldl (fun entries (pair : String × α) => entries.put pair.1 pair.2) entries).map Prod.fst ↔
        name ∈ pairs.map Prod.fst ∨ name ∈ entries.map Prod.fst := by
    induction pairs generalizing entries with
    | nil => simp
    | cons pair pairs ih =>
      rw [List.foldl_cons, ih, mem_names_put, List.map_cons, List.mem_cons, or_left_comm, or_assoc]
  rw [ofList, step [], List.map_nil, or_iff_left List.not_mem_nil]

section Places

variable {name other first : String} {old : α} {rest : Entries α}

theorem put_of_lt (before : name < first) (value : α) :
    put ((first, old) :: rest) name value = (name, value) :: (first, old) :: rest := by
  rw [put, if_neg (Std.ne_of_lt before), if_pos before]

theorem put_of_gt (behind : first < name) (value : α) :
    put ((first, old) :: rest) name value = (first, old) :: rest.put name value := by
  rw [put, if_neg (Std.ne_of_lt behind).symm, if_neg (Std.not_gt_of_lt behind)]

theorem put_same (value : α) : put ((name, old) :: rest) name value = (name, value) :: rest := by
  rw [put, if_pos rfl]

/-- A name above all others goes to the end. -/
theorem put_of_above {entries : Entries α} (value : α) (above : ∀ other ∈ entries.map Prod.fst, other < name) :
    entries.put name value = entries ++ [(name, value)] := by
  induction entries with
  | nil => rfl
  | cons entry rest ih =>
    obtain ⟨below, tail⟩ := List.forall_mem_cons.mp above
    rw [put_of_gt below, ih tail]
    rfl

theorem put_comm_of_lt (before : name < other) (entries : Entries α) (value further : α) :
    (entries.put name value).put other further = (entries.put other further).put name value := by
  induction entries with
  | nil =>
    have behindName : put [(name, value)] other further = [(name, value), (other, further)] := put_of_gt before _
    have beforeOther : put [(other, further)] name value = [(name, value), (other, further)] := put_of_lt before _
    exact behindName.trans beforeOther.symm
  | cons entry rest ih =>
    obtain ⟨first, old⟩ := entry
    rcases Std.lt_trichotomy name first with ahead | rfl | past
    · rw [put_of_lt ahead, put_of_gt before]
      -- Whatever stands first after the other entry is put, the name comes before it.
      rcases Std.lt_trichotomy other first with otherAhead | rfl | otherPast
      · rw [put_of_lt otherAhead, put_of_lt before]
      · rw [put_same, put_of_lt before]
      · rw [put_of_gt otherPast, put_of_lt ahead]
    · rw [put_same, put_of_gt before, put_of_gt before, put_same]
    · have otherPast : first < other := Std.lt_trans past before
      rw [put_of_gt past, put_of_gt otherPast, put_of_gt otherPast, put_of_gt past, ih]

/-- Entries under different names are put in either order. -/
theorem put_comm (differ : name ≠ other) (entries : Entries α) (value further : α) :
    (entries.put name value).put other further = (entries.put other further).put name value := by
  rcases Std.lt_trichotomy name other with before | same | behind
  · exact put_comm_of_lt before entries value further
  · exact (differ same).elim
  · exact (put_comm_of_lt behind entries further value).symm

end Places

/-- Each name stands once, and names ascend. -/
def Sorted (entries : Entries α) : Prop := (entries.map Prod.fst).Pairwise (· < ·)

namespace Sorted

variable {entries rest : Entries α}

theorem put (sorted : entries.Sorted) (name : String) (value : α) : (entries.put name value).Sorted := by
  induction entries with
  | nil => exact List.pairwise_singleton _ _
  | cons entry rest ih =>
    obtain ⟨first, old⟩ := entry
    obtain ⟨below, tail⟩ := List.pairwise_cons.mp sorted
    rcases Std.lt_trichotomy name first with before | rfl | behind
    · rw [put_of_lt before]
      refine List.pairwise_cons.mpr ⟨?_, sorted⟩
      exact List.forall_mem_cons.mpr ⟨before, fun other later => Std.lt_trans before (below other later)⟩
    · rw [put_same]
      exact sorted
    · rw [put_of_gt behind]
      refine List.pairwise_cons.mpr ⟨?_, ih tail⟩
      intro other member
      rcases mem_names_put.mp member with rfl | later
      · exact behind
      · exact below other later

theorem ofList (pairs : List (String × α)) : (Entries.ofList pairs).Sorted := by
  have step (entries : Entries α) (sorted : entries.Sorted) :
      (pairs.foldl (fun entries (pair : String × α) => entries.put pair.1 pair.2) entries).Sorted := by
    induction pairs generalizing entries with
    | nil => exact sorted
    | cons pair pairs ih => exact ih _ (sorted.put _ _)
  exact step [] .nil

/-- The first name of sorted entries stands nowhere behind. -/
theorem value?_tail {name : String} {value : α} (sorted : Sorted ((name, value) :: rest)) :
    rest.value? name = none := by
  rw [← Option.not_isSome_iff_eq_none, Option.isSome_iff_exists, ← mem_names_iff]
  intro later
  exact Std.lt_irrefl ((List.pairwise_cons.mp sorted).1 name later)

/-- Entries that are sorted already stay as they are. -/
theorem ofList_eq (sorted : entries.Sorted) : Entries.ofList entries = entries := by
  have stored (earlier later : Entries α) (whole : Sorted (earlier ++ later)) :
      later.foldl (fun entries (pair : String × α) => entries.put pair.1 pair.2) earlier = earlier ++ later := by
    induction later generalizing earlier with
    | nil => exact (List.append_nil earlier).symm
    | cons pair later ih =>
      have above : ∀ other ∈ earlier.map Prod.fst, other < pair.1 := by
        rw [Sorted, List.map_append, List.pairwise_append] at whole
        exact fun other member => whole.2.2 other member pair.1 List.mem_cons_self
      rw [List.foldl_cons, put_of_above pair.2 above, ih _ (by simpa using whole), List.append_assoc]
      rfl
  exact stored [] entries sorted

end Sorted

end Entries

end Vtl
