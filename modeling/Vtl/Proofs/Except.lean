import Mathlib.Data.List.Forall2

namespace Vtl

variable {ε α β : Type}

theorem bind_eq_ok {result : Except ε α} {next : α → Except ε β} {value : β} :
    (result >>= next) = .ok value ↔ ∃ first, result = .ok first ∧ next first = .ok value := by
  cases result with
  | error e => simp [bind, Except.bind]
  | ok first => simp [bind, Except.bind]

theorem bind_eq_error {result : Except ε α} {next : α → Except ε β} {e : ε} :
    (result >>= next) = .error e ↔
      result = .error e ∨ ∃ first, result = .ok first ∧ next first = .error e := by
  cases result with
  | error e => simp [bind, Except.bind]
  | ok first => simp [bind, Except.bind]

theorem map_eq_ok {result : Except ε α} {f : α → β} {value : β} :
    result.map f = .ok value ↔ ∃ first, result = .ok first ∧ f first = value := by
  cases result with
  | error e => simp [Except.map]
  | ok first => simp [Except.map]

theorem map_eq_error {result : Except ε α} {f : α → β} {e : ε} : result.map f = .error e ↔ result = .error e := by
  cases result with
  | error e => simp [Except.map]
  | ok first => simp [Except.map]

theorem mapError_eq_ok {result : Except ε α} {f : ε → β} {value : α} :
    result.mapError f = .ok value ↔ result = .ok value := by
  cases result with
  | error e => simp [Except.mapError]
  | ok first => simp [Except.mapError]

theorem mapError_eq_error {result : Except ε α} {f : ε → β} {e : β} :
    result.mapError f = .error e ↔ ∃ first, result = .error first ∧ f first = e := by
  cases result with
  | error first => simp [Except.mapError]
  | ok value => simp [Except.mapError]

theorem mapM_eq_ok {f : α → Except ε β} {xs : List α} {ys : List β} :
    xs.mapM f = .ok ys ↔ List.Forall₂ (fun x y => f x = .ok y) xs ys := by
  induction xs generalizing ys with
  | nil =>
    rw [List.mapM_nil, List.forall₂_nil_left_iff]
    exact ⟨fun same => (Except.ok.inj same).symm, fun empty => by rw [empty]; rfl⟩
  | cons x xs ih =>
    simp only [List.mapM_cons, bind_eq_ok, ih, List.forall₂_cons_left_iff]
    constructor
    · rintro ⟨y, first, ys, rest, whole⟩
      exact ⟨y, ys, first, rest, (Except.ok.inj whole).symm⟩
    · rintro ⟨y, ys, first, rest, rfl⟩
      exact ⟨y, first, ys, rest, rfl⟩

theorem mapM_congr {f g : α → Except ε β} {xs : List α} (same : ∀ x ∈ xs, f x = g x) : xs.mapM f = xs.mapM g := by
  induction xs with
  | nil => rfl
  | cons x xs ih =>
    obtain ⟨here, later⟩ := List.forall_mem_cons.mp same
    rw [List.mapM_cons, List.mapM_cons, here, ih later]

theorem exists_mem_of_forall₂ {related : α → β → Prop} {xs : List α} {ys : List β} {y : β}
    (pairs : List.Forall₂ related xs ys) (member : y ∈ ys) : ∃ x ∈ xs, related x y := by
  induction pairs with
  | nil => cases member
  | @cons x first xs ys made rest ih =>
    rcases List.mem_cons.mp member with same | later
    · exact ⟨x, List.mem_cons_self, same ▸ made⟩
    · obtain ⟨x, known, made⟩ := ih later
      exact ⟨x, List.mem_cons_of_mem _ known, made⟩

/-- What sets two elements of a list apart sets apart what belongs to them. -/
theorem pairwise_of_forall₂ {related : α → β → Prop} {xs : List α} {ys : List β} {apart : α → α → Prop}
    {kept : β → β → Prop} (pairs : List.Forall₂ related xs ys) (pairwise : xs.Pairwise apart)
    (step : ∀ x x' y y', related x y → related x' y' → apart x x' → kept y y') : ys.Pairwise kept := by
  induction pairs with
  | nil => exact .nil
  | @cons x y xs ys first rest ih =>
    obtain ⟨head, tail⟩ := List.pairwise_cons.mp pairwise
    refine List.pairwise_cons.mpr ⟨?_, ih tail⟩
    intro y' member
    obtain ⟨x', known, made⟩ := exists_mem_of_forall₂ rest member
    exact step x x' y y' first made (head x' known)

theorem mem_of_mapM_eq_ok {f : α → Except ε β} {xs : List α} {ys : List β} {y : β}
    (run : xs.mapM f = .ok ys) (member : y ∈ ys) : ∃ x ∈ xs, f x = .ok y := by
  obtain ⟨x, known, made⟩ := exists_mem_of_forall₂ (mapM_eq_ok.mp run) member
  exact ⟨x, known, made⟩

/-- A traversal fails with the error of the first element that has one. -/
theorem mapM_eq_error {f : α → Except ε β} {xs : List α} {e : ε} :
    xs.mapM f = .error e ↔ ∃ before x after, xs = before ++ x :: after ∧ f x = .error e ∧
      ∀ earlier ∈ before, ∃ y, f earlier = .ok y := by
  induction xs with
  | nil => simp [pure, Except.pure]
  | cons x xs ih =>
    rw [List.mapM_cons]
    constructor
    · intro failed
      rcases bind_eq_error.mp failed with here | ⟨y, made, failed⟩
      · exact ⟨[], x, xs, rfl, here, List.forall_mem_nil _⟩
      rcases bind_eq_error.mp failed with later | ⟨ys, _, whole⟩
      · obtain ⟨before, found, after, rfl, fails, earlier⟩ := ih.mp later
        exact ⟨x :: before, found, after, rfl, fails, List.forall_mem_cons.mpr ⟨⟨y, made⟩, earlier⟩⟩
      · cases whole
    · rintro ⟨before, found, after, split, fails, earlier⟩
      cases before with
      | nil =>
        cases split
        exact bind_eq_error.mpr (Or.inl fails)
      | cons first before =>
        cases split
        obtain ⟨⟨y, made⟩, earlier⟩ := List.forall_mem_cons.mp earlier
        have later := ih.mpr ⟨before, found, after, rfl, fails, earlier⟩
        exact bind_eq_error.mpr (Or.inr ⟨y, made, bind_eq_error.mpr (Or.inl later)⟩)

theorem mem_of_mapM_eq_error {f : α → Except ε β} {xs : List α} {e : ε}
    (run : xs.mapM f = .error e) : ∃ x ∈ xs, f x = .error e := by
  obtain ⟨before, x, after, rfl, failed, _⟩ := mapM_eq_error.mp run
  exact ⟨x, by simp, failed⟩

/-- The first selected element that fails, in the order of the whole list. -/
theorem mapM_filter_eq_error {select : α → Bool} {f : α → Except ε β} {xs : List α} {e : ε} :
    (xs.filter select).mapM f = .error e ↔
      ∃ before x after, xs = before ++ x :: after ∧ select x = true ∧ f x = .error e ∧
        ∀ earlier ∈ before, select earlier = true → ∃ y, f earlier = .ok y := by
  rw [mapM_eq_error]
  constructor
  · rintro ⟨before, x, after, split, failed, passed⟩
    obtain ⟨front, rest, rfl, rfl, ofRest⟩ := List.filter_eq_append_iff.mp split
    obtain ⟨skipped, back, rfl, none, selected, _⟩ := List.filter_eq_cons_iff.mp ofRest
    refine ⟨front ++ skipped, x, back, by simp, selected, failed, ?_⟩
    intro earlier member chosen
    rcases List.mem_append.mp member with inFront | inSkipped
    · exact passed earlier (List.mem_filter.mpr ⟨inFront, chosen⟩)
    · exact (none earlier inSkipped chosen).elim
  · rintro ⟨before, x, after, rfl, selected, failed, passed⟩
    refine ⟨before.filter select, x, after.filter select, by simp [selected], failed, ?_⟩
    intro earlier member
    exact passed earlier (List.mem_filter.mp member).1 (List.mem_filter.mp member).2

/-- A loop that appends the results for the elements it selects. -/
theorem forIn_select (select : α → Bool) (f : α → Except ε β) (xs : List α) (done : List β) :
    (forIn xs done fun x ys =>
      if select x then do
        let y ← f x
        pure (.yield (ys ++ [y]))
      else pure (.yield ys)) = (xs.filter select).mapM f >>= fun ys => pure (done ++ ys) := by
  induction xs generalizing done with
  | nil => simp
  | cons x xs ih =>
    rw [List.forIn_cons, List.filter_cons]
    by_cases chosen : select x = true
    · simp only [chosen, if_true, bind_assoc, pure_bind, ih, List.mapM_cons, List.append_assoc,
        List.singleton_append]
    · simp only [chosen, if_false, Bool.false_eq_true, pure_bind, ih]

/-- A loop that appends a list of results for each element. -/
theorem forIn_gather (f : α → Except ε (List β)) (xs : List α) (done : List β) :
    (forIn xs done fun x ys => do
      let group ← f x
      pure (.yield (ys ++ group))) = xs.mapM f >>= fun groups => pure (done ++ groups.flatten) := by
  induction xs generalizing done with
  | nil => simp
  | cons x xs ih =>
    rw [List.forIn_cons]
    simp only [bind_assoc, pure_bind, ih, List.mapM_cons, List.flatten_cons, List.append_assoc]

end Vtl
