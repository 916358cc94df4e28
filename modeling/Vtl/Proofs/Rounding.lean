import Mathlib.Algebra.Order.Field.Power
import Mathlib.Tactic.Linarith
import Mathlib.Tactic.Ring
import Vtl.Number.Numeral

namespace Vtl.Number

/-- The absolute value of a finite number. -/
def size (x : Number) : ℚ := x.significand * 2 ^ x.exponent

/-- The middle between the greatest finite number and `2 ^ 1024`. -/
def overflow : ℚ := 2 ^ 1024 - 2 ^ 970

/-- The number with a sign that a value is rounded to. No finite number is nearer to the value, the
significand is even if another one is as near, and from `overflow` on the number is infinite. -/
structure IsNearest (x : Number) (negative : Bool) (value : ℚ) : Prop where
  sign : x.negative = negative
  beyond : overflow ≤ value → x.magnitude = infinite
  finite : value < overflow → x.isFinite = true
  near : value < overflow → ∀ y : Number, y.isFinite = true → |value - x.size| ≤ |value - y.size|
  even : value < overflow → ∀ y : Number, y.isFinite = true → y.size ≠ x.size →
    |value - x.size| = |value - y.size| → x.significand % 2 = 0

/-- The size that a magnitude has, also beyond the finite ones: a whole number of steps, which double from
one block of magnitudes to the next. -/
def sizeAt (magnitude : ℕ) : ℚ :=
  (magnitude - (magnitude / exponentBit - 1) * exponentBit : ℕ) * 2 ^ ((magnitude / exponentBit - 1 : ℕ) - 1074 : ℤ)

theorem size_eq (x : Number) : x.size = sizeAt x.magnitude := by
  unfold size significand exponent sizeAt
  generalize x.magnitude = m
  split
  · next small =>
    have first : m / exponentBit - 1 = 0 := by simp only [exponentBit] at small ⊢; omega
    rw [first, Nat.zero_mul, Nat.sub_zero]
    rfl
  · next normal =>
    have whole : exponentBit + m % exponentBit = m - (m / exponentBit - 1) * exponentBit := by
      simp only [exponentBit] at normal ⊢
      omega
    have power : (m / exponentBit : ℕ) - 1075 = ((m / exponentBit - 1 : ℕ) - 1074 : ℤ) := by
      simp only [exponentBit] at normal ⊢
      omega
    rw [whole, power]

/-- The significand and the magnitude are even together. -/
theorem significand_mod_two (x : Number) : x.significand % 2 = x.magnitude % 2 := by
  unfold significand
  split
  · rfl
  · simp only [exponentBit]
    omega

/-- The size of a magnitude in its block. The last one is the first one of the next block, where a step is
twice as long. -/
theorem sizeAt_block {block steps : ℕ} (low : block = 0 ∨ exponentBit ≤ steps) (high : steps ≤ 2 * exponentBit) :
    sizeAt (block * exponentBit + steps) = steps * 2 ^ (block - 1074 : ℤ) := by
  rcases high.lt_or_eq with below | rfl
  · have own : (block * exponentBit + steps) / exponentBit - 1 = block := by
      simp only [exponentBit] at low below ⊢
      omega
    rw [sizeAt, own, Nat.add_sub_cancel_left]
  · have own : (block * exponentBit + 2 * exponentBit) / exponentBit - 1 = block + 1 := by
      simp only [exponentBit]
      omega
    have rest : block * exponentBit + 2 * exponentBit - (block + 1) * exponentBit = exponentBit := by
      simp only [exponentBit]
      omega
    have double : (2 : ℚ) ^ ((block + 1 : ℕ) - 1074 : ℤ) = 2 * 2 ^ (block - 1074 : ℤ) := by
      rw [show ((block + 1 : ℕ) - 1074 : ℤ) = 1 + (block - 1074) by omega, zpow_add₀ two_ne_zero, zpow_one]
    rw [sizeAt, own, rest, double]
    push_cast
    ring

theorem sizeAt_strictMono : StrictMono sizeAt := by
  refine strictMono_nat_of_lt_succ fun m => ?_
  let block := m / exponentBit - 1
  have split : m = block * exponentBit + (m - block * exponentBit) := by
    simp only [block, exponentBit]
    omega
  have low : block = 0 ∨ exponentBit ≤ m - block * exponentBit := by
    simp only [block, exponentBit]
    omega
  have high : m - block * exponentBit < 2 * exponentBit := by
    simp only [block, exponentBit]
    omega
  generalize m - block * exponentBit = steps at split low high
  have step : (0 : ℚ) < 2 ^ (block - 1074 : ℤ) := by positivity
  have next : m + 1 = block * exponentBit + (steps + 1) := by omega
  rw [next, split, sizeAt_block low high.le, sizeAt_block (by omega) high]
  push_cast
  linarith

/-- The magnitude that a value is rounded to where magnitudes have no bound. -/
structure RoundsTo (value : ℚ) (m : ℕ) : Prop where
  near : ∀ other, |value - sizeAt m| ≤ |value - sizeAt other|
  even : ∀ other, other ≠ m → |value - sizeAt m| = |value - sizeAt other| → m % 2 = 0

section Between

variable {value : ℚ} {below : ℕ}

/-- No magnitude has a size between those of two neighbours. -/
theorem distance_ge (value : ℚ) (below other : ℕ) :
    value - sizeAt below ≤ |value - sizeAt other| ∨ sizeAt (below + 1) - value ≤ |value - sizeAt other| := by
  rcases Nat.lt_or_ge below other with more | less
  · have size := sizeAt_strictMono.monotone (Nat.succ_le_of_lt more)
    have away := neg_le_abs (value - sizeAt other)
    exact .inr (by linarith)
  · have size := sizeAt_strictMono.monotone less
    have away := le_abs_self (value - sizeAt other)
    exact .inl (by linarith)

/-- A value up to the middle between two magnitudes is rounded down. -/
theorem roundsTo_below (lower : sizeAt below ≤ value) (half : 2 * value ≤ sizeAt below + sizeAt (below + 1))
    (tie : 2 * value = sizeAt below + sizeAt (below + 1) → below % 2 = 0) : RoundsTo value below := by
  have step := sizeAt_strictMono (Nat.lt_succ_self below)
  have distance : |value - sizeAt below| = value - sizeAt below := abs_of_nonneg (by linarith)
  constructor
  · intro other
    rw [distance]
    rcases distance_ge value below other with away | away <;> linarith
  · intro other differ same
    rw [distance] at same
    rcases Nat.lt_or_gt_of_ne differ with less | more
    · have size := sizeAt_strictMono less
      have away := le_abs_self (value - sizeAt other)
      linarith
    · have size := sizeAt_strictMono.monotone (Nat.succ_le_of_lt more)
      have away := neg_le_abs (value - sizeAt other)
      exact tie (by linarith)

/-- A value from the middle between two magnitudes on is rounded up. -/
theorem roundsTo_above (upper : value ≤ sizeAt (below + 1))
    (half : sizeAt below + sizeAt (below + 1) ≤ 2 * value)
    (tie : 2 * value = sizeAt below + sizeAt (below + 1) → below % 2 = 1) : RoundsTo value (below + 1) := by
  have step := sizeAt_strictMono (Nat.lt_succ_self below)
  have distance : |value - sizeAt (below + 1)| = sizeAt (below + 1) - value := by
    rw [abs_of_nonpos (by linarith), neg_sub]
  constructor
  · intro other
    rw [distance]
    rcases distance_ge value below other with away | away <;> linarith
  · intro other differ same
    rw [distance] at same
    rcases Nat.lt_or_gt_of_ne differ with less | more
    · have size := sizeAt_strictMono.monotone (Nat.le_of_lt_succ less)
      have away := le_abs_self (value - sizeAt other)
      have odd := tie (by linarith)
      omega
    · have size := sizeAt_strictMono more
      have away := neg_le_abs (value - sizeAt other)
      linarith

end Between

section Quotients

variable {num den : ℕ}

theorem scaleDown_ratio (power : ℤ) (num den : ℕ) :
    ((scaleDown power num den).1 : ℚ) / (scaleDown power num den).2 = num / den / 2 ^ power := by
  obtain ⟨n, rfl | rfl⟩ := power.eq_nat_or_neg
  · simp [scaleDown, div_div]
  · simp [scaleDown, div_eq_mul_inv, mul_right_comm]

theorem scaleDown_pos (power : ℤ) (num : ℕ) (positive : 0 < den) : 0 < (scaleDown power num den).2 :=
  Nat.mul_pos positive (Nat.pow_pos Nat.two_pos)

/-- The denominator fits into the numerator once a quotient reaches the power that it is divided by. -/
theorem scaleDown_le_iff (power : ℤ) (num : ℕ) (positive : 0 < den) :
    (scaleDown power num den).2 ≤ (scaleDown power num den).1 ↔ (2 : ℚ) ^ power ≤ num / den := by
  have bottom : (0 : ℚ) < (scaleDown power num den).2 := by exact_mod_cast scaleDown_pos power num positive
  have ratio := scaleDown_ratio power num den
  have unit : (0 : ℚ) < 2 ^ power := by positivity
  rw [← @Nat.cast_le ℚ, ← one_le_div₀ bottom, ratio, one_le_div₀ unit]

/-- A quotient lies between two powers of two. -/
theorem binaryOrder_bounds (filled : 0 < num) (positive : 0 < den) :
    (2 : ℚ) ^ binaryOrder num den ≤ num / den ∧ (num / den : ℚ) < 2 ^ (binaryOrder num den + 1) := by
  have bottom : (0 : ℚ) < den := by exact_mod_cast positive
  have numLow : (2 : ℚ) ^ num.log2 ≤ num := by exact_mod_cast Nat.log2_self_le filled.ne'
  have numHigh : (num : ℚ) < 2 ^ (num.log2 + 1) := by exact_mod_cast Nat.lt_log2_self
  have denLow : (2 : ℚ) ^ den.log2 ≤ den := by exact_mod_cast Nat.log2_self_le positive.ne'
  have denHigh : (den : ℚ) < 2 ^ (den.log2 + 1) := by exact_mod_cast Nat.lt_log2_self
  let guess : ℤ := (num.log2 : ℤ) - den.log2
  have above : (num / den : ℚ) < 2 ^ (guess + 1) := by
    rw [div_lt_iff₀ bottom]
    calc (num : ℚ) < 2 ^ (num.log2 + 1) := numHigh
      _ = 2 ^ (guess + 1) * 2 ^ den.log2 := by
        rw [← zpow_natCast, ← zpow_natCast, ← zpow_add₀ two_ne_zero]
        congr 1
        push_cast
        omega
      _ ≤ 2 ^ (guess + 1) * den := by gcongr
  have below : (2 : ℚ) ^ (guess - 1) ≤ num / den := by
    rw [le_div_iff₀ bottom]
    calc (2 : ℚ) ^ (guess - 1) * den ≤ 2 ^ (guess - 1) * 2 ^ (den.log2 + 1) := by gcongr
      _ = 2 ^ num.log2 := by
        rw [← zpow_natCast, ← zpow_natCast, ← zpow_add₀ two_ne_zero]
        congr 1
        push_cast
        omega
      _ ≤ num := numLow
  have reached := scaleDown_le_iff guess num positive
  have order : binaryOrder num den = if (2 : ℚ) ^ guess ≤ num / den then guess else guess - 1 := by
    rw [← if_congr reached rfl rfl]
    rfl
  rw [order]
  split
  · next reaches => exact ⟨reaches, above⟩
  · next misses =>
    rw [sub_add_cancel]
    exact ⟨below, not_le.mp misses⟩

/-- A quotient of steps in a block is rounded to a whole number of steps. -/
theorem roundsTo_block {a b block : ℕ} (positive : 0 < b) (low : block = 0 ∨ exponentBit ≤ a / b)
    (high : a / b < 2 * exponentBit) :
    RoundsTo (a / b * 2 ^ (block - 1074 : ℤ)) (block * exponentBit + roundHalfEven a b) := by
  have bottom : (0 : ℚ) < b := by exact_mod_cast positive
  have whole : (a : ℚ) = b * (a / b : ℕ) + (a % b : ℕ) := by exact_mod_cast (Nat.div_add_mod a b).symm
  have below := sizeAt_block low high.le
  have above := @sizeAt_block block (a / b + 1) (by omega) high
  have unit : (0 : ℚ) < 2 ^ (block - 1074 : ℤ) := by positivity
  generalize (2 : ℚ) ^ (block - 1074 : ℤ) = step at below above unit ⊢
  rw [← Nat.add_assoc] at above
  -- Everything is measured in parts of a step, of which `b` make up a step.
  obtain ⟨grain, filled, rfl⟩ : ∃ grain, 0 < grain ∧ step = b * grain :=
    ⟨step / b, div_pos unit bottom, (mul_div_cancel₀ step bottom.ne').symm⟩
  have value : (a : ℚ) / b * (b * grain) = a * grain := by rw [← mul_assoc, div_mul_cancel₀ _ bottom.ne']
  have twice : 2 * (a * grain) = sizeAt (block * exponentBit + a / b) +
      sizeAt (block * exponentBit + a / b + 1) + (2 * (a % b : ℕ) - b) * grain := by
    rw [below, above]
    nth_rewrite 1 [whole]
    push_cast
    ring
  have half (tie : 2 * (a * grain) = sizeAt (block * exponentBit + a / b) +
      sizeAt (block * exponentBit + a / b + 1)) : 2 * (a % b) = b := by
    have none : (2 * (a % b : ℕ) - b : ℚ) * grain = 0 := by linarith
    have same := sub_eq_zero.mp ((mul_eq_zero.mp none).resolve_right filled.ne')
    exact_mod_cast same
  rw [value]
  rcases roundHalfEven_cases a b with ⟨down, atMost, even⟩ | ⟨up, atLeast, odd⟩
  · have less : (2 * (a % b : ℕ) - b : ℚ) * grain ≤ 0 := by
      refine mul_nonpos_of_nonpos_of_nonneg (sub_nonpos.mpr ?_) filled.le
      exact_mod_cast atMost
    have lower : sizeAt (block * exponentBit + a / b) ≤ a * grain := by
      have rest : (0 : ℚ) ≤ (a % b : ℕ) * grain := mul_nonneg (Nat.cast_nonneg _) filled.le
      rw [below, whole]
      linarith
    rw [down]
    refine roundsTo_below lower (by linarith) fun tie => ?_
    have parity := even (half tie)
    simp only [exponentBit]
    omega
  · have more : 0 ≤ (2 * (a % b : ℕ) - b : ℚ) * grain := by
      refine mul_nonneg (sub_nonneg.mpr ?_) filled.le
      exact_mod_cast atLeast
    have upper : a * grain ≤ sizeAt (block * exponentBit + a / b + 1) := by
      have most : ((a % b : ℕ) : ℚ) ≤ b := by exact_mod_cast (Nat.mod_lt a positive).le
      have rest : ((a % b : ℕ) : ℚ) * grain ≤ b * grain := mul_le_mul_of_nonneg_right most filled.le
      rw [above, whole]
      push_cast
      linarith
    rw [up, ← Nat.add_assoc]
    refine roundsTo_above upper (by linarith) fun tie => ?_
    have parity := odd (half tie)
    simp only [exponentBit]
    omega

/-- How many steps of `2 ^ power` a value has, by its binary order: they fit into a block, and fill the upper
half of it if no shorter steps would. -/
theorem steps_bounds {value : ℚ} {order power : ℤ} {a b : ℕ} (positive : 0 < b)
    (ratio : (a / b : ℚ) = value / 2 ^ power) (low : 2 ^ order ≤ value) (high : value < 2 ^ (order + 1))
    (long : order - 52 ≤ power) :
    a / b < 2 * exponentBit ∧ (power = order - 52 → exponentBit ≤ a / b) := by
  have bottom : (0 : ℚ) < b := by exact_mod_cast positive
  have unit : (0 : ℚ) < 2 ^ power := by positivity
  constructor
  · rw [Nat.div_lt_iff_lt_mul positive]
    suffices (a : ℚ) < (2 * exponentBit : ℕ) * b by exact_mod_cast this
    rw [← div_lt_iff₀ bottom, ratio, div_lt_iff₀ unit]
    calc value < 2 ^ (order + 1) := high
      _ ≤ 2 ^ (53 + power) := zpow_le_zpow_right₀ one_le_two (by omega)
      _ = (2 * exponentBit : ℕ) * 2 ^ power := by
        rw [zpow_add₀ two_ne_zero]
        rfl
  · intro short
    rw [Nat.le_div_iff_mul_le positive]
    suffices (exponentBit : ℚ) * b ≤ a by exact_mod_cast this
    rw [← le_div_iff₀ bottom, ratio, le_div_iff₀ unit]
    calc (exponentBit : ℚ) * 2 ^ power = 2 ^ (52 + power) := by
          rw [zpow_add₀ two_ne_zero]
          rfl
      _ = 2 ^ order := by rw [short, add_sub_cancel]
      _ ≤ value := low

/-- Where a quotient is rounded to. -/
theorem exists_roundsTo (num : ℕ) (positive : 0 < den) :
    ∃ m, RoundsTo (num / den) m ∧ nearest num den = min m infinite := by
  by_cases empty : num = 0
  · have start : sizeAt 0 = 0 := by simp [sizeAt]
    have step := sizeAt_strictMono Nat.zero_lt_one
    have zero : (num / den : ℚ) = 0 := by simp [empty]
    refine ⟨0, roundsTo_below (by linarith) (by linarith) (fun _ => rfl), ?_⟩
    rw [nearest, if_pos empty, Nat.zero_min]
  obtain ⟨low, high⟩ := binaryOrder_bounds (Nat.pos_of_ne_zero empty) positive
  let power : ℤ := if binaryOrder num den < -1022 then -1074 else binaryOrder num den - 52
  let block := (power + 1074).toNat
  have ofBlock : (block - 1074 : ℤ) = power := by
    simp only [block, power]
    split <;> omega
  have ratio := scaleDown_ratio power num den
  have bottom := scaleDown_pos power num positive
  obtain ⟨most, least⟩ := steps_bounds bottom ratio low high (by simp only [power]; split <;> omega)
  have normal : block = 0 ∨ exponentBit ≤ (scaleDown power num den).1 / (scaleDown power num den).2 := by
    by_cases small : binaryOrder num den < -1022
    · exact .inl (by simp [block, power, small])
    · exact .inr (least (if_neg small))
  have rounds := roundsTo_block bottom normal most
  rw [ofBlock, ratio, div_mul_cancel₀ _ (by positivity)] at rounds
  refine ⟨_, rounds, ?_⟩
  rw [nearest, if_neg empty]

end Quotients

/-- `overflow` is the middle between the greatest finite size and the size that infinity would have. -/
theorem two_mul_overflow : 2 * overflow = sizeAt (infinite - 1) + sizeAt infinite := by
  have greatest : sizeAt (infinite - 1) = (2 * exponentBit - 1 : ℕ) * 2 ^ ((1 + 970 : ℕ) : ℤ) :=
    @sizeAt_block 2045 (2 * exponentBit - 1) (by decide) (by decide)
  have first : sizeAt infinite = exponentBit * 2 ^ ((2 + 970 : ℕ) : ℤ) :=
    @sizeAt_block 2046 exponentBit (by decide) (by decide)
  have top : (2 : ℚ) ^ 1024 = 2 ^ 54 * 2 ^ 970 := pow_add 2 54 970
  have odd : ((2 * exponentBit - 1 : ℕ) : ℚ) = 2 ^ 53 - 1 := by norm_num [exponentBit]
  have even : (exponentBit : ℚ) = 2 ^ 52 := by norm_num [exponentBit]
  rw [greatest, first, overflow, top, odd, even, zpow_natCast, zpow_natCast, pow_add, pow_add]
  generalize (2 : ℚ) ^ 970 = unit
  ring

/-- What reaches `overflow` is rounded beyond the finite magnitudes. -/
theorem RoundsTo.infinite_le_iff {value : ℚ} {m : ℕ} (rounds : RoundsTo value m) :
    infinite ≤ m ↔ overflow ≤ value := by
  have middle := two_mul_overflow
  have step : sizeAt (infinite - 1) < sizeAt infinite := sizeAt_strictMono (by decide)
  constructor
  · intro beyond
    by_contra within
    have size := sizeAt_strictMono.monotone beyond
    have near := rounds.near (infinite - 1)
    have away := neg_le_abs (value - sizeAt m)
    have greatest : |value - sizeAt (infinite - 1)| < sizeAt infinite - value :=
      abs_lt.mpr ⟨by linarith, by linarith⟩
    linarith
  · intro reaches
    by_contra within
    have near := rounds.near infinite
    have away := le_abs_self (value - sizeAt m)
    have reach : |value - sizeAt infinite| ≤ value - sizeAt (infinite - 1) :=
      abs_le.mpr ⟨by linarith, by linarith⟩
    have least : infinite - 1 ≤ m := sizeAt_strictMono.le_iff_le.mp (by linarith)
    obtain rfl : m = infinite - 1 := by omega
    -- The greatest finite magnitude is odd, so that a tie leaves it.
    have tie := rounds.even infinite (by decide) (by linarith)
    cases tie

/-- Rounding a quotient gives the number nearest to it. -/
theorem nearest_isNearest (negative : Bool) (num : ℕ) {den : ℕ} (positive : 0 < den) :
    (ofMagnitude negative (nearest num den)).IsNearest negative (num / den) := by
  obtain ⟨m, rounds, result⟩ := exists_roundsTo num positive
  have bound : min m infinite < signBit := Nat.lt_of_le_of_lt (Nat.min_le_right m infinite) (by decide)
  have own : (ofMagnitude negative (min m infinite)).magnitude = min m infinite := magnitude_ofMagnitude bound
  have kept (within : (num / den : ℚ) < overflow) : min m infinite = m := by
    have less := mt rounds.infinite_le_iff.mp (not_le.mpr within)
    omega
  have size (within : (num / den : ℚ) < overflow) :
      (ofMagnitude negative (min m infinite)).size = sizeAt m := by
    rw [size_eq, own, kept within]
  rw [result]
  refine ⟨negative_ofMagnitude bound, fun reaches => ?_, fun within => ?_, fun within y _ => ?_,
    fun within y _ differ same => ?_⟩
  · rw [own]
    exact Nat.min_eq_right (rounds.infinite_le_iff.mpr reaches)
  · have less := mt rounds.infinite_le_iff.mp (not_le.mpr within)
    rw [isFinite, own, kept within]
    exact decide_eq_true (Nat.lt_of_not_le less)
  · rw [size within, size_eq]
    exact rounds.near y.magnitude
  · rw [size within, size_eq] at differ same
    rw [significand_mod_two, own, kept within]
    exact rounds.even y.magnitude (fun equal => differ (congrArg sizeAt equal)) same

/-- No other number of the sign is nearest to the same value. -/
theorem IsNearest.unique {x y : Number} {negative : Bool} {value : ℚ} (first : x.IsNearest negative value)
    (second : y.IsNearest negative value) : x = y := by
  refine eq_of_magnitude (first.sign.trans second.sign.symm) ?_
  rcases le_or_gt overflow value with reaches | within
  · rw [first.beyond reaches, second.beyond reaches]
  have atMost := first.near within y (second.finite within)
  have atLeast := second.near within x (first.finite within)
  have distance : |value - x.size| = |value - y.size| := le_antisymm atMost atLeast
  by_contra differ
  wlog less : x.magnitude < y.magnitude generalizing x y
  · exact this second first atLeast atMost distance.symm (Ne.symm differ) (by omega)
  have bound : y.magnitude < infinite := of_decide_eq_true (second.finite within)
  have sizes : x.size < y.size := by
    rw [size_eq, size_eq]
    exact sizeAt_strictMono less
  have evenX := first.even within y (second.finite within) sizes.ne' distance
  have evenY := second.even within x (first.finite within) sizes.ne distance.symm
  rw [significand_mod_two] at evenX evenY
  -- Between two even magnitudes there is one more, and it is nearer than both.
  have own : (ofMagnitude false (x.magnitude + 1)).magnitude = x.magnitude + 1 :=
    magnitude_ofMagnitude (by simp only [infinite, signBit] at bound ⊢; omega)
  have between := first.near within (ofMagnitude false (x.magnitude + 1))
    (decide_eq_true (by rw [own]; omega))
  rw [size_eq (ofMagnitude _ _), own] at between
  have after : x.size < sizeAt (x.magnitude + 1) := by
    rw [size_eq]
    exact sizeAt_strictMono (Nat.lt_succ_self _)
  have before : sizeAt (x.magnitude + 1) < y.size := by
    rw [size_eq]
    exact sizeAt_strictMono (by omega)
  have middle : 2 * value = x.size + y.size := by
    rcases abs_eq_abs.mp distance with same | opposite <;> linarith
  have nearer : |value - sizeAt (x.magnitude + 1)| < value - x.size := abs_lt.mpr ⟨by linarith, by linarith⟩
  have away := le_abs_self (value - x.size)
  linarith

theorem ofDecimal_isNearest (negative : Bool) (mantissa : ℕ) (power : ℤ) :
    (ofDecimal negative mantissa power).IsNearest negative (mantissa * 10 ^ power) := by
  have positive : 0 < Nat.pow 10 (-power).toNat := Nat.pow_pos (by decide)
  have value : ((mantissa * Nat.pow 10 power.toNat : ℕ) : ℚ) / (Nat.pow 10 (-power).toNat : ℕ) =
      mantissa * 10 ^ power := by
    obtain ⟨n, rfl | rfl⟩ := power.eq_nat_or_neg
    · simp
    · simp [div_eq_mul_inv]
  rw [← value]
  exact nearest_isNearest negative _ positive

end Vtl.Number

namespace Vtl.Numeral

/-- The value that is written. -/
def value (n : Numeral) : ℚ :=
  digitsValue (n.whole ++ n.fraction) * 10 ^ (n.exponent.getD 0 - n.fraction.length)

/-- The number that a numeral is read as is the one nearest to its value. -/
theorem isNearest_iff {n : Numeral} {x : Number} : x.IsNearest n.negative n.value ↔ x = n.nearest := by
  have own : n.nearest.IsNearest n.negative n.value := Number.ofDecimal_isNearest _ _ _
  constructor
  · exact fun other => other.unique own
  · rintro rfl
    exact own

end Vtl.Numeral
