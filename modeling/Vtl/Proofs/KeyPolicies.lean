import Mathlib.Data.List.Flatten
import Vtl.Proofs.DateText
import Vtl.Proofs.KeyedArithmetic
import Vtl.Proofs.OperandSwap

namespace Vtl

section Pairs

variable {α β γ : Type} {strict loose : α → β → Bool} (pair : α → β → γ) {xs : List α} {ys : List β}

theorem filter_sublist_filter {strict loose : β → Bool}
    (weaker : ∀ y ∈ ys, strict y = true → loose y = true) : (ys.filter strict).Sublist (ys.filter loose) := by
  have both : ys.filter strict = (ys.filter loose).filter strict := by
    rw [List.filter_filter]
    refine List.filter_congr fun y member => ?_
    cases chosen : strict y with
    | false => rfl
    | true => rw [weaker y member chosen, Bool.and_self]
  rw [both]
  exact List.filter_sublist

/-- Pairs that a weaker agreement admits come in between those of the stronger one. -/
theorem flatMap_filter_sublist (weaker : ∀ x ∈ xs, ∀ y ∈ ys, strict x y = true → loose x y = true) :
    (xs.flatMap fun x => (ys.filter (strict x)).map (pair x)).Sublist
      (xs.flatMap fun x => (ys.filter (loose x)).map (pair x)) :=
  List.Sublist.flatMap_right xs fun x member => (filter_sublist_filter (weaker x member)).map (pair x)

/-- No pair is lost exactly if the two agreements admit the same ones: what is lost shows in the number of
pairs. -/
theorem flatMap_filter_eq_iff (weaker : ∀ x ∈ xs, ∀ y ∈ ys, strict x y = true → loose x y = true) :
    (xs.flatMap fun x => (ys.filter (strict x)).map (pair x)) =
        (xs.flatMap fun x => (ys.filter (loose x)).map (pair x)) ↔
      ∀ x ∈ xs, ∀ y ∈ ys, loose x y = true → strict x y = true := by
  induction xs with
  | nil => simp
  | cons x xs ih =>
    obtain ⟨here, later⟩ := List.forall_mem_cons.mp weaker
    have first := filter_sublist_filter here
    have others := flatMap_filter_sublist pair later
    rw [List.forall_mem_cons, List.flatMap_cons, List.flatMap_cons]
    constructor
    · intro same
      -- Neither part can grow from the stronger agreement to the weaker one without the whole growing.
      have total := congrArg List.length same
      have firstLength := first.length_le
      have othersLength := others.length_le
      simp only [List.length_append, List.length_map] at total
      have firstSame := first.eq_of_length (by omega)
      refine ⟨fun y member chosen => ?_, (ih later).mp (others.eq_of_length (by omega))⟩
      have kept : y ∈ ys.filter (strict x) := firstSame ▸ List.mem_filter.mpr ⟨member, chosen⟩
      exact (List.mem_filter.mp kept).2
    · rintro ⟨firstSame, othersSame⟩
      have equal : ys.filter (strict x) = ys.filter (loose x) :=
        List.filter_congr fun y member => Bool.eq_iff_iff.mpr ⟨here y member, firstSame y member⟩
      rw [equal, (ih later).mpr othersSame]

end Pairs

namespace JoinSpec

/-- The same join with keys of a given kind. -/
def under (spec : JoinSpec) (policy : KeyPolicy) : JoinSpec := { spec with policy }

/-- The texts of the identifiers of a row, one behind the other. -/
def keyText (spec : JoinSpec) (row : Row) : String :=
  String.join ((row.keyUnder spec.identifiers).map Value.text)

/-- The identifiers of two rows differ, but not in their texts. -/
def Collide (spec : JoinSpec) (left right : Row) : Prop :=
  spec.keyText left = spec.keyText right ∧ left.keyUnder spec.identifiers ≠ right.keyUnder spec.identifiers

/-- Whether two rows have keys of a given kind that agree. -/
def agree (spec : JoinSpec) (policy : KeyPolicy) (left right : Row) : Bool :=
  ((spec.under policy).keyOf left).same ((spec.under policy).keyOf right)

variable {spec : JoinSpec} {left right : Row}

theorem agree_typed_iff (scalar : spec.ScalarKey right) :
    spec.agree .typed left right = true ↔ left.keyUnder spec.identifiers = right.keyUnder spec.identifiers := by
  rw [Row.keyUnder, Row.keyUnder, List.map_inj_left]
  exact same_keyOf_iff rfl scalar

theorem agree_concatenated_iff :
    spec.agree .concatenated left right = true ↔ spec.keyText left = spec.keyText right :=
  beq_iff_eq

theorem agree_concatenated_of_typed (scalar : spec.ScalarKey right)
    (same : spec.agree .typed left right = true) : spec.agree .concatenated left right = true := by
  rw [agree_concatenated_iff, keyText, keyText, (agree_typed_iff scalar).mp same]

theorem not_collide_iff (scalar : spec.ScalarKey right) :
    ¬spec.Collide left right ↔
      (spec.agree .concatenated left right = true → spec.agree .typed left right = true) := by
  rw [agree_concatenated_iff, agree_typed_iff scalar, Collide, not_and_not_right]

end JoinSpec

/-- The types whose values are told apart by their texts. -/
def ValueType.plain : List ValueType := [.null, .integer, .date, .boolean]

theorem count_hyphen_toString_le (i : Int) : (toString i).toList.count '-' ≤ 1 := by
  have digits (n : Nat) : (Nat.toDigits 10 n).count '-' = 0 := by
    refine List.count_eq_zero.mpr fun member => ?_
    cases isDigit_of_mem_toDigits member
  rw [toList_toString]
  split <;> simp [digits]

theorem Date.two_le_count_hyphen (date : Date) : 2 ≤ date.text.toList.count '-' := by
  rw [Date.text, String.toList_ofList, Date.chars]
  simp only [List.append_assoc, List.cons_append, List.count_append, List.count_cons_self]
  omega

namespace Value

/-- The integer that a text of digits stands for, with a hyphen in front if it is negative. -/
def integer? (text : String) : Option Int :=
  match text.toList with
  | '-' :: ds => if ds.all Char.isDigit then some (-digitsValue ds) else none
  | ds => if ds.all Char.isDigit then some (digitsValue ds) else none

theorem integer?_toString (n : Int) : integer? (toString n) = some n := by
  have all : (Nat.toDigits 10 n.natAbs).all Char.isDigit = true :=
    List.all_eq_true.mpr fun c member => isDigit_of_mem_toDigits member
  have value := digitsValue_toDigits n.natAbs
  unfold integer?
  rw [toList_toString]
  by_cases nonneg : 0 ≤ n
  · rw [if_pos nonneg]
    split
    · next ds signed =>
      rw [signed] at all
      cases all
    · rw [if_pos all, value]
      exact congrArg some (by omega)
  · simp only [if_neg nonneg, if_pos all, value]
    exact congrArg some (by omega)

/-- The texts of null and of the booleans. -/
def words : List String := ["null", "true", "false"]

/-- The value of a plain type that a text stands for. An integer has one hyphen at most, and a date has at
least two. -/
def ofPlainText? (text : String) : Option Value :=
  if text = "null" then some .null
  else if text = "true" then some (.boolean true)
  else if text = "false" then some (.boolean false)
  else if text.toList.count '-' ≤ 1 then (integer? text).map fun i => .integer (.ofInt i)
  else (Date.read .strict text).map .date

theorem ofPlainText?_of_not_mem_words {text : String} (other : text ∉ words) :
    ofPlainText? text =
      if text.toList.count '-' ≤ 1 then (integer? text).map fun i => .integer (.ofInt i)
      else (Date.read .strict text).map .date := by
  simp only [words, List.mem_cons, List.not_mem_nil, or_false, not_or] at other
  rw [ofPlainText?, if_neg other.1, if_neg other.2.1, if_neg other.2.2]

theorem not_mem_words {α : Type} {read : String → Option α} {text : String} {a : α}
    (unread : ∀ word ∈ words, read word = none) (back : read text = some a) : text ∉ words := by
  intro member
  rw [unread text member] at back
  cases back

/-- Values of the plain types are read back from their texts. -/
theorem ofPlainText?_text {value : Value} (plain : value.type ∈ ValueType.plain) :
    ofPlainText? value.text = some value := by
  cases value with
  | null => rfl
  | boolean b => cases b <;> rfl
  | integer i =>
    have unread : ∀ word ∈ words, integer? word = none := by decide
    have back := integer?_toString i.toInt
    rw [text, ofPlainText?_of_not_mem_words (not_mem_words unread back), if_pos (count_hyphen_toString_le _),
      back, Option.map_some, Int64.ofInt_toInt]
  | date d =>
    have unread : ∀ word ∈ words, Date.read .strict word = none := by decide
    have back := Date.read_text .strict d
    have hyphens := d.two_le_count_hyphen
    rw [text, ofPlainText?_of_not_mem_words (not_mem_words unread back), if_neg (by omega), back,
      Option.map_some]
  | number | string | duration | dataset => simp [ValueType.plain, type] at plain

theorem text_inj {a b : Value} (plain : a.type ∈ ValueType.plain) (alsoPlain : b.type ∈ ValueType.plain) :
    a.text = b.text ↔ a = b := by
  refine ⟨fun same => ?_, congrArg text⟩
  have back := ofPlainText?_text plain
  rw [same, ofPlainText?_text alsoPlain] at back
  exact (Option.some.inj back).symm

end Value

namespace Dataset

variable {ε : Type} {hasher otherHasher : Hasher} {left right : Dataset} {spec : JoinSpec}
  {combine : Value → Value → Except ε Value}

theorem probe_congr {find search : Row → List Row} (same : ∀ l ∈ left.rows, find l = search l) :
    left.probe find spec combine = left.probe search spec combine := by
  have groups (l : Row) (member : l ∈ left.rows) :
      (find l).mapM (spec.merge combine l) = (search l).mapM (spec.merge combine l) := by
    rw [same l member]
  rw [probe, probe, mapM_congr groups]

theorem joinBy_under {policy : KeyPolicy} :
    joinBy hasher left right (spec.under policy) combine =
      left.probe (fun l => right.rows.filter (spec.agree policy l)) spec combine :=
  joinBy_eq_probe

/-- All that a join asks of a key is with which keys it agrees. -/
theorem joinBy_under_congr {policy other : KeyPolicy}
    (same : ∀ l ∈ left.rows, ∀ r ∈ right.rows, spec.agree policy l r = spec.agree other l r) :
    joinBy hasher left right (spec.under policy) combine =
      joinBy otherHasher left right (spec.under other) combine := by
  rw [joinBy_under, joinBy_under]
  exact probe_congr fun l member => List.filter_congr (same l member)

/-- The two kinds of keys differ by collisions only. Rows that typed keys bring together are brought
together by their texts, too, so a join that cannot fail keeps its rows in their order, and it gains some
exactly if there are rows with the same texts and other identifiers. -/
theorem policies_differ_by_collisions (hasher otherHasher : Hasher) (left right : Dataset) (spec : JoinSpec)
    (combine : Value → Value → Except ε Value) (scalar : ∀ row ∈ right.rows, spec.ScalarKey row)
    (total : ∀ a b, ∃ value, combine a b = .ok value) :
    ∃ typed concatenated, joinBy hasher left right (spec.under .typed) combine = .ok typed ∧
      joinBy otherHasher left right (spec.under .concatenated) combine = .ok concatenated ∧
      typed.rows.Sublist concatenated.rows ∧
      (typed = concatenated ↔ ∀ l ∈ left.rows, ∀ r ∈ right.rows, ¬spec.Collide l r) := by
  choose pair merges using @JoinSpec.exists_merge ε spec combine total
  have weaker (l : Row) (_ : l ∈ left.rows) (r : Row) (member : r ∈ right.rows) :
      spec.agree .typed l r = true → spec.agree .concatenated l r = true :=
    JoinSpec.agree_concatenated_of_typed (scalar r member)
  refine ⟨_, _, joinBy_eq_pairs merges, joinBy_eq_pairs merges, flatMap_filter_sublist pair weaker, ?_⟩
  rw [Table.mk.injEq]
  refine (and_iff_right rfl).trans ((flatMap_filter_eq_iff pair weaker).trans ?_)
  refine forall₂_congr fun l _ => forall₂_congr fun r member => ?_
  exact (JoinSpec.not_collide_iff (scalar r member)).symm

/-- The first row of each side has the same text under both identifiers together. So have the rows of `x`, one
of which says that it is null where the others say nothing. -/
def splitRows : Dataset :=
  ⟨[⟨"a", .identifier, .string⟩, ⟨"b", .identifier, .string⟩, ⟨"m", .measure, .integer⟩],
    [[("a", .string "a"), ("b", .string "bc"), ("m", .integer 1)], [("a", .string "x"), ("m", .integer 2)]]⟩

def joinedRows : Dataset :=
  ⟨splitRows.columns,
    [[("a", .string "ab"), ("b", .string "c"), ("m", .integer 10)],
      [("a", .string "x"), ("b", .string "null"), ("m", .integer 20)], [("a", .string "x"), ("m", .integer 30)]]⟩

def splitSpec : JoinSpec := ⟨splitRows.identifiers, [⟨"m", .measure, .integer⟩], .typed, by decide⟩

theorem policies_differ_by_collisions_splitRows :
    (∀ row ∈ joinedRows.rows, splitSpec.ScalarKey row) ∧
      ∃ typed concatenated,
        joinBy .mixing splitRows joinedRows (splitSpec.under .typed) firstKnown = .ok typed ∧
        joinBy .mixing splitRows joinedRows (splitSpec.under .concatenated) firstKnown = .ok concatenated ∧
        typed.rows.length = 1 ∧ concatenated.rows.length = 3 ∧ typed.rows.Sublist concatenated.rows := by
  have scalar : ∀ row ∈ joinedRows.rows, splitSpec.ScalarKey row := by
    simp [joinedRows, splitRows, splitSpec, JoinSpec.ScalarKey, Dataset.identifiers, Row.cell, Value.type]
  obtain ⟨typed, concatenated, run, otherRun, kept, _⟩ :=
    policies_differ_by_collisions .mixing .mixing splitRows joinedRows splitSpec firstKnown scalar
      fun a b => ⟨_, rfl⟩
  have one : (joinBy .mixing splitRows joinedRows (splitSpec.under .typed) firstKnown).toOption.map
      (fun data => data.rows.length) = some 1 := by decide +kernel
  have three : (joinBy .mixing splitRows joinedRows (splitSpec.under .concatenated) firstKnown).toOption.map
      (fun data => data.rows.length) = some 3 := by decide +kernel
  rw [run] at one
  rw [otherRun] at three
  exact ⟨scalar, typed, concatenated, run, otherRun, Option.some.inj one, Option.some.inj three, kept⟩

/-- On a single identifier that holds integers, dates, booleans or nothing, both kinds of keys give the same
join, whether it succeeds or fails. The identifier may even mix them, since no two such values have the same
text. -/
theorem policies_agree_on_plain_identifier (hasher otherHasher : Hasher) (left right : Dataset) (spec : JoinSpec)
    (combine : Value → Value → Except ε Value) (column : Column) (single : spec.identifiers = [column])
    (plain : ∀ row ∈ left.rows ++ right.rows, (Row.cell row column.name).type ∈ ValueType.plain) :
    joinBy hasher left right (spec.under .typed) combine =
      joinBy otherHasher left right (spec.under .concatenated) combine := by
  refine joinBy_under_congr fun l inLeft r inRight => Bool.eq_iff_iff.mpr ?_
  have leftPlain := plain l (List.mem_append_left _ inLeft)
  have rightPlain := plain r (List.mem_append_right _ inRight)
  have scalar : spec.ScalarKey r := by
    intro other member isDataset
    rw [single, List.mem_singleton] at member
    rw [← member, isDataset] at rightPlain
    simp [ValueType.plain] at rightPlain
  have text (row : Row) : spec.keyText row = (row.cell column.name).text := by
    simp [JoinSpec.keyText, Row.keyUnder, single]
  rw [JoinSpec.agree_typed_iff scalar, JoinSpec.agree_concatenated_iff, text, text,
    Value.text_inj leftPlain rightPlain, single, Row.keyUnder_cons, Row.keyUnder_cons, List.cons.injEq]
  exact and_iff_left rfl

/-- Identifiers at the ends of what they may be, and one missing. -/
def plainRows : Dataset :=
  ⟨[⟨"id", .identifier, .integer⟩, ⟨"m", .measure, .integer⟩],
    [[("id", .integer Int64.minValue), ("m", .integer 1)],
      [("id", .date ⟨-262143, 12, 31, by decide⟩), ("m", .integer 2)],
      [("id", .boolean false), ("m", .integer 3)], [("m", .string "four")]]⟩

def plainSpec : JoinSpec := ⟨plainRows.identifiers, [⟨"m", .measure, .integer⟩], .typed, by decide⟩

theorem policies_agree_on_plain_identifier_plainRows :
    (∀ row ∈ plainRows.rows ++ plainRows.rows, (Row.cell row "id").type ∈ ValueType.plain) ∧
      joinBy .mixing plainRows plainRows (plainSpec.under .typed) ArithmeticOp.add.apply =
        .error (.operands (.arithmetic .add) .string .string) ∧
      joinBy .mixing plainRows plainRows (plainSpec.under .typed) ArithmeticOp.add.apply =
        joinBy .mixing plainRows plainRows (plainSpec.under .concatenated) ArithmeticOp.add.apply := by
  have plain : ∀ row ∈ plainRows.rows ++ plainRows.rows, (Row.cell row "id").type ∈ ValueType.plain := by
    decide
  exact ⟨plain, by rfl, policies_agree_on_plain_identifier _ _ _ _ _ _ ⟨"id", .identifier, .integer⟩ rfl plain⟩

end Dataset

end Vtl
