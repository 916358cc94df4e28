import Mathlib.Data.String.Basic
import Mathlib.Order.Compare
import Vtl.Bindings.Load
import Vtl.Operator.Apply

namespace Vtl

/-- The comparison of two values is true. -/
def ComparisonOp.Relates (op : ComparisonOp) (left right : Value) : Prop :=
  op.apply left right = .ok (.boolean true)

/-- The durations with the admitted texts are in one order: less than is transitive, equality is, and
equal durations compare alike with any other one. -/
structure ConsistentDurations (admitted : String → Prop) : Prop where
  less : ∀ a b c, admitted a → admitted b → admitted c →
    ComparisonOp.lt.Relates (.duration a) (.duration b) → ComparisonOp.lt.Relates (.duration b) (.duration c) →
      ComparisonOp.lt.Relates (.duration a) (.duration c)
  equal : ∀ a b c, admitted a → admitted b → admitted c →
    ComparisonOp.eq.Relates (.duration a) (.duration b) → ComparisonOp.eq.Relates (.duration b) (.duration c) →
      ComparisonOp.eq.Relates (.duration a) (.duration c)
  alike : ∀ a b c, admitted a → admitted b → admitted c →
    ComparisonOp.eq.Relates (.duration a) (.duration b) → ∀ op : ComparisonOp,
      op.apply (.duration a) (.duration c) = op.apply (.duration b) (.duration c) ∧
        op.apply (.duration c) (.duration a) = op.apply (.duration c) (.duration b)

/-- A text without a rank that the order of texts puts behind one period and before another one, which is
not longer. By rank the two are the other way round, or equal. -/
def Disorders (shorter longer other : String) : Prop :=
  (∃ m ∈ periodRank? shorter, ∃ n ∈ periodRank? longer, m ≤ n) ∧ periodRank? other = none ∧
    longer < other ∧ other < shorter

instance (shorter longer other : String) : Decidable (Disorders shorter longer other) :=
  inferInstanceAs (Decidable (_ ∧ _))

variable {a b c : String}

theorem ComparisonOp.apply_duration (op : ComparisonOp) (a b : String) :
    op.apply (.duration a) (.duration b) = .ok (.boolean (op.holds (periodOrder a b))) := rfl

theorem duration_less_iff :
    ComparisonOp.lt.Relates (.duration a) (.duration b) ↔ periodOrder a b = .lt := by
  rw [ComparisonOp.Relates, ComparisonOp.apply_duration]
  simp [ComparisonOp.holds]

theorem duration_equal_iff :
    ComparisonOp.eq.Relates (.duration a) (.duration b) ↔ periodOrder a b = .eq := by
  rw [ComparisonOp.Relates, ComparisonOp.apply_duration]
  simp [ComparisonOp.holds]

theorem periodOrder_of_ranks {m n : Nat} (ofLeft : periodRank? a = some m) (ofRight : periodRank? b = some n) :
    periodOrder a b = compare m n := by
  rw [periodOrder, ofLeft, ofRight]

theorem periodOrder_of_unranked (unranked : periodRank? a = none ∨ periodRank? b = none) :
    periodOrder a b = compare a b := by
  rw [periodOrder]
  rcases unranked with ofLeft | ofRight
  · rw [ofLeft]
  · rw [ofRight]
    cases periodRank? a <;> rfl

theorem periodOrder_swap : periodOrder a b = (periodOrder b a).swap := by
  cases ofLeft : periodRank? a with
  | none =>
    rw [periodOrder_of_unranked (.inl ofLeft), periodOrder_of_unranked (.inr ofLeft)]
    exact Std.OrientedCmp.eq_swap
  | some m =>
    cases ofRight : periodRank? b with
    | none =>
      rw [periodOrder_of_unranked (.inr ofRight), periodOrder_of_unranked (.inl ofRight)]
      exact Std.OrientedCmp.eq_swap
    | some n =>
      rw [periodOrder_of_ranks ofLeft ofRight, periodOrder_of_ranks ofRight ofLeft]
      exact Std.OrientedCmp.eq_swap

/-- Two durations are equal if they have the same text or the same rank. -/
theorem periodOrder_eq_iff :
    periodOrder a b = .eq ↔ a = b ∨ ∃ rank, periodRank? a = some rank ∧ periodRank? b = some rank := by
  cases ofLeft : periodRank? a with
  | none => simp [periodOrder_of_unranked (.inl ofLeft)]
  | some m =>
    cases ofRight : periodRank? b with
    | none => simp [periodOrder_of_unranked (.inr ofRight)]
    | some n =>
      rw [periodOrder_of_ranks ofLeft ofRight, compare_eq_iff_eq]
      constructor
      · rintro rfl
        exact .inr ⟨m, rfl, rfl⟩
      · rintro (rfl | ⟨rank, same, again⟩)
        · exact Option.some.inj (ofLeft.symm.trans ofRight)
        · exact (Option.some.inj same).trans (Option.some.inj again).symm

theorem duration_equal_trans (first : ComparisonOp.eq.Relates (.duration a) (.duration b))
    (second : ComparisonOp.eq.Relates (.duration b) (.duration c)) :
    ComparisonOp.eq.Relates (.duration a) (.duration c) := by
  rw [duration_equal_iff, periodOrder_eq_iff] at first second ⊢
  rcases first with rfl | ⟨rank, ofLeft, ofMiddle⟩
  · exact second
  rcases second with rfl | ⟨other, ofMiddleAgain, ofRight⟩
  · exact .inr ⟨rank, ofLeft, ofMiddle⟩
  · rw [ofMiddle] at ofMiddleAgain
    exact .inr ⟨rank, ofLeft, ofRight.trans ofMiddleAgain.symm⟩

theorem periodOrder_isLE_of_ranks {m n : Nat} (ofLeft : periodRank? a = some m) (ofRight : periodRank? b = some n) :
    (periodOrder a b).isLE = true ↔ m ≤ n := by
  rw [periodOrder_of_ranks ofLeft ofRight]
  exact Std.LawfulBCmp.isLE_iff_le

theorem periodOrder_isLE_of_unranked (unranked : periodRank? a = none ∨ periodRank? b = none) :
    (periodOrder a b).isLE = true ↔ a ≤ b := by
  rw [periodOrder_of_unranked unranked]
  exact Std.LawfulBCmp.isLE_iff_le

/-- A text with a rank is none without. -/
theorem lt_of_le_of_ranks {m : Nat} (below : a ≤ b)
    (differ : periodRank? a = some m ∧ periodRank? b = none ∨ periodRank? a = none ∧ periodRank? b = some m) :
    a < b := by
  refine lt_of_le_of_ne below ?_
  rintro rfl
  rcases differ with ⟨ranked, unranked⟩ | ⟨unranked, ranked⟩ <;> cases ranked.symm.trans unranked

/-- Where no text disorders the periods, the order of durations is transitive. Ranks and texts mix only if
two of three durations have a rank, and then the third one would disorder them. -/
theorem periodOrder_isLE_trans {admitted : String → Prop}
    (orderly : ∀ shorter longer other, admitted shorter → admitted longer → admitted other →
      ¬Disorders shorter longer other)
    (isA : admitted a) (isB : admitted b) (isC : admitted c) (first : (periodOrder a b).isLE = true)
    (second : (periodOrder b c).isLE = true) : (periodOrder a c).isLE = true := by
  cases ofA : periodRank? a with
  | none =>
    rw [periodOrder_isLE_of_unranked (.inl ofA)] at first ⊢
    cases ofB : periodRank? b with
    | none => exact first.trans ((periodOrder_isLE_of_unranked (.inl ofB)).mp second)
    | some n =>
      cases ofC : periodRank? c with
      | none => exact first.trans ((periodOrder_isLE_of_unranked (.inr ofC)).mp second)
      | some k =>
        rw [periodOrder_isLE_of_ranks ofB ofC] at second
        by_contra above
        have behind : c < a := not_le.mp above
        have before : a < b := lt_of_le_of_ranks first (.inr ⟨ofA, ofB⟩)
        exact orderly b c a isB isC isA ⟨⟨n, ofB, k, ofC, second⟩, ofA, behind, before⟩
  | some m =>
    cases ofC : periodRank? c with
    | none =>
      rw [periodOrder_isLE_of_unranked (.inr ofC)] at second ⊢
      cases ofB : periodRank? b with
      | none => exact ((periodOrder_isLE_of_unranked (.inr ofB)).mp first).trans second
      | some n =>
        rw [periodOrder_isLE_of_ranks ofA ofB] at first
        by_contra above
        have before : c < a := not_le.mp above
        have behind : b < c := lt_of_le_of_ranks second (.inl ⟨ofB, ofC⟩)
        exact orderly a b c isA isB isC ⟨⟨m, ofA, n, ofB, first⟩, ofC, behind, before⟩
    | some k =>
      rw [periodOrder_isLE_of_ranks ofA ofC]
      cases ofB : periodRank? b with
      | none =>
        rw [periodOrder_isLE_of_unranked (.inr ofB)] at first
        rw [periodOrder_isLE_of_unranked (.inl ofB)] at second
        by_contra above
        have shorter : k ≤ m := (not_le.mp above).le
        have behind : a < b := lt_of_le_of_ranks first (.inl ⟨ofA, ofB⟩)
        have before : b < c := lt_of_le_of_ranks second (.inr ⟨ofB, ofC⟩)
        exact orderly c a b isC isA isB ⟨⟨k, ofC, m, ofA, shorter⟩, ofB, behind, before⟩
      | some n => exact ((periodOrder_isLE_of_ranks ofA ofB).mp first).trans ((periodOrder_isLE_of_ranks ofB ofC).mp second)

/-- A text that disorders two periods makes a circle with them, or tells apart two equal ones. -/
theorem ConsistentDurations.not_disorders {admitted : String → Prop} (consistent : ConsistentDurations admitted)
    {shorter longer other : String} (isShorter : admitted shorter) (isLonger : admitted longer)
    (isOther : admitted other) : ¬Disorders shorter longer other := by
  rintro ⟨⟨m, ofShorter, n, ofLonger, notLonger⟩, unranked, behind, before⟩
  have longerFirst : periodOrder longer other = .lt := by
    rw [periodOrder_of_unranked (.inr unranked), compare_lt_iff_lt]
    exact behind
  have shorterLast : periodOrder shorter other = .gt := by
    rw [periodOrder_of_unranked (.inr unranked), compare_gt_iff_gt]
    exact before
  have ranks := periodOrder_of_ranks ofShorter ofLonger
  rcases Nat.lt_or_eq_of_le notLonger with less | rfl
  · rw [compare_lt_iff_lt.mpr less] at ranks
    have around := consistent.less shorter longer other isShorter isLonger isOther
      (duration_less_iff.mpr ranks) (duration_less_iff.mpr longerFirst)
    rw [duration_less_iff, shorterLast] at around
    cases around
  · rw [compare_eq_iff_eq.mpr rfl] at ranks
    have same := (consistent.alike shorter longer other isShorter isLonger isOther
      (duration_equal_iff.mpr ranks) .lt).1
    have around : ComparisonOp.lt.Relates (.duration shorter) (.duration other) :=
      same.trans (duration_less_iff.mpr longerFirst)
    rw [duration_less_iff, shorterLast] at around
    cases around

theorem ConsistentDurations.of_orderly {admitted : String → Prop}
    (orderly : ∀ shorter longer other, admitted shorter → admitted longer → admitted other →
      ¬Disorders shorter longer other) : ConsistentDurations admitted := by
  let order (a b : Subtype admitted) : Ordering := periodOrder a b
  have ordered : Std.TransCmp order :=
    { eq_swap := periodOrder_swap
      isLE_trans := fun {a b c} => periodOrder_isLE_trans orderly a.2 b.2 c.2 }
  refine ⟨?_, fun a b c _ _ _ => duration_equal_trans, ?_⟩
  · intro a b c isA isB isC first second
    rw [duration_less_iff] at first second ⊢
    exact ordered.lt_trans (a := ⟨a, isA⟩) (b := ⟨b, isB⟩) (c := ⟨c, isC⟩) first second
  · intro a b c isA isB isC same op
    rw [duration_equal_iff] at same
    have left : periodOrder a c = periodOrder b c :=
      ordered.congr_left (a := ⟨a, isA⟩) (b := ⟨b, isB⟩) (c := ⟨c, isC⟩) same
    have right : periodOrder c a = periodOrder c b :=
      ordered.congr_right (a := ⟨c, isC⟩) (b := ⟨a, isA⟩) (c := ⟨b, isB⟩) same
    simp only [ComparisonOp.apply_duration, left, right, and_self]

/-- Durations are compared by one order exactly as far as no text without a rank disorders the periods.
Equality is transitive in any case. -/
theorem durations_consistent_iff (admitted : String → Prop) :
    (ConsistentDurations admitted ↔ ¬∃ shorter longer other, admitted shorter ∧ admitted longer ∧
      admitted other ∧ Disorders shorter longer other) ∧
    ∀ a b c, ComparisonOp.eq.Relates (.duration a) (.duration b) →
      ComparisonOp.eq.Relates (.duration b) (.duration c) → ComparisonOp.eq.Relates (.duration a) (.duration c) := by
  refine ⟨⟨?_, ?_⟩, fun a b c => duration_equal_trans⟩
  · rintro consistent ⟨shorter, longer, other, isShorter, isLonger, isOther, disorders⟩
    exact consistent.not_disorders isShorter isLonger isOther disorders
  · intro none
    refine .of_orderly fun shorter longer other isShorter isLonger isOther disorders => none ?_
    exact ⟨shorter, longer, other, isShorter, isLonger, isOther, disorders⟩

/-- Periods with other texts before, between and behind them. -/
def surroundedPeriods : List String := ["1", "D", "M", "M+", "Q", "z"]

theorem durations_consistent_iff_surrounded :
    (¬∃ shorter longer other, shorter ∈ surroundedPeriods ∧ longer ∈ surroundedPeriods ∧
      other ∈ surroundedPeriods ∧ Disorders shorter longer other) ∧
    ConsistentDurations (· ∈ surroundedPeriods) := by
  have orderly : ∀ shorter ∈ surroundedPeriods, ∀ longer ∈ surroundedPeriods, ∀ other ∈ surroundedPeriods,
      ¬Disorders shorter longer other := by decide +kernel
  have none : ¬∃ shorter longer other, shorter ∈ surroundedPeriods ∧ longer ∈ surroundedPeriods ∧
      other ∈ surroundedPeriods ∧ Disorders shorter longer other := by
    rintro ⟨shorter, longer, other, isShorter, isLonger, isOther, disorders⟩
    exact orderly shorter isShorter longer isLonger other isOther disorders
  exact ⟨none, (durations_consistent_iff _).1.mpr none⟩

/-- The durations that can be loaded are in no order. An unknown period is longer than a year and shorter
than a day, and another one tells apart two spellings of a month. -/
theorem loaded_durations_inconsistent :
    ComparisonOp.lt.Relates (.duration "D") (.duration "A") ∧
      ComparisonOp.lt.Relates (.duration "A") (.duration "B") ∧
      ¬ComparisonOp.lt.Relates (.duration "D") (.duration "B") ∧
      ComparisonOp.eq.Relates (.duration "M") (.duration "m") ∧
      ComparisonOp.lt.Relates (.duration "M") (.duration "P") ∧
      ¬ComparisonOp.lt.Relates (.duration "m") (.duration "P") ∧
      ¬ConsistentDurations fun text => ∃ json, Bindings.loadValue json none = .ok (.duration text) := by
  have loads (text : String) : ∃ json, Bindings.loadValue json none = .ok (.duration text) :=
    ⟨.object [("duration", .string text)], rfl⟩
  have disorders : Disorders "D" "A" "B" := by decide +kernel
  simp only [duration_less_iff, duration_equal_iff]
  refine ⟨by decide +kernel, by decide +kernel, by decide +kernel, by decide +kernel, by decide +kernel,
    by decide +kernel, ?_⟩
  intro consistent
  exact consistent.not_disorders (loads "D") (loads "A") (loads "B") disorders

end Vtl
