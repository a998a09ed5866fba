import OpenApiClient.Proofs.Double.Interval

/-!
# Shortest digits lie in the interval

The search for the shortest digits of a double goes through finer and finer grids. On the grid with
seventeen digits behind the leading one the points are less than half a last bit apart, so the next
point after the number lies in its interval, and the search ends with a number that does
(`contains_shortest`). So doubles with the same shortest digits have the same magnitude
(`magnitude_eq_of_decimal_eq`).
-/

namespace OpenApiClient.Double

variable {d d' : Double} {i : Interval} {num den n count fuel : Nat} {e power : Int}

def decimal (p : Nat × Int) : ℚ := p.1 * 10 ^ p.2

theorem lt_pow_digitCount (n : Nat) : n < 10 ^ digitCount n :=
  (Nat.length_toDigits_le_iff (by decide) (List.length_pos_iff.mpr Nat.toDigits_ne_nil)).mp
    (Nat.le_refl _)

theorem pow_digitCount_le (hn : 0 < n) : 10 ^ (digitCount n - 1) ≤ n := by
  by_contra hlt
  rcases Nat.eq_zero_or_pos (digitCount n - 1) with hzero | hpos
  · rw [hzero] at hlt
    omega
  · have hle := (Nat.length_toDigits_le_iff (by decide) hpos).mpr (Nat.lt_of_not_le hlt)
    rw [← digitCount] at hle
    omega

theorem zpow_neg_mul_le {k : Nat} (h : den ≤ num * 10 ^ k) :
    (10 : ℚ) ^ (-(k : Int)) * den ≤ num := by
  have hpow : (0 : ℚ) < 10 ^ k := by positivity
  rw [zpow_neg, zpow_natCast, inv_mul_le_iff₀ hpow, mul_comm]
  exact_mod_cast h

/-- The leading digit of a quotient is at the leading power of ten or above it. -/
theorem zpow_leadingPower_le (hnum : 0 < num) (hden : 0 < den) :
    (10 : ℚ) ^ leadingPower num den ≤ num / den := by
  have hdenQ : (0 : ℚ) < den := by exact_mod_cast hden
  rw [le_div_iff₀ hdenQ, leadingPower]
  simp only [Nat.pow_eq]
  split_ifs with hle hnext
  · have hcount : 0 < digitCount (num / den) := List.length_pos_iff.mpr Nat.toDigits_ne_nil
    have hmul : 10 ^ (digitCount (num / den) - 1) * den ≤ num :=
      (Nat.le_div_iff_mul_le hden).mp (pow_digitCount_le (Nat.div_pos hle hden))
    rw [show (digitCount (num / den) : Int) - 1 = ((digitCount (num / den) - 1 : Nat) : Int) by
      omega, zpow_natCast]
    exact_mod_cast hmul
  · exact zpow_neg_mul_le hnext
  · have hlt : den < 10 ^ digitCount (den / num) * num :=
      (Nat.div_lt_iff_lt_mul hnum).mp (lt_pow_digitCount _)
    exact zpow_neg_mul_le (by rw [Nat.mul_comm]; exact hlt.le)

/-! ## Grids -/

namespace Interval

theorem holds_of_onGrid? (h : i.onGrid? e = some n) : i.holds n e = true := by
  unfold onGrid? at h
  dsimp only at h
  split at h
  next hdown hup =>
    have hdown := (Bool.and_eq_true_iff.mp hdown).1
    split_ifs at h <;> cases h <;> assumption
  next hdown _ =>
    cases h
    exact (Bool.and_eq_true_iff.mp hdown).1
  next _ hup =>
    cases h
    exact hup
  next => cases h

/-- The last point of a grid up to the middle of an interval. -/
def gridFloor (i : Interval) (e : Int) : Nat :=
  i.value * Nat.pow 10 (-e).toNat / (i.den * Nat.pow 10 e.toNat)

theorem middle_between (hden : 0 < i.den) (e : Int) :
    (i.gridFloor e : ℚ) * 10 ^ e ≤ i.middle ∧ i.middle < (i.gridFloor e + 1 : Nat) * 10 ^ e := by
  have hdenQ : (0 : ℚ) < i.den := by exact_mod_cast hden
  have hten : (0 : ℚ) < 10 ^ (-e).toNat := by positivity
  have hpow : (10 : ℚ) ^ e.toNat = 10 ^ e * 10 ^ (-e).toNat := pow_toNat_eq (by norm_num) e
  have hscaled : 0 < i.den * 10 ^ e.toNat := Nat.mul_pos hden (Nat.pow_pos (by decide))
  -- the two neighbours of the quotient, over its denominator
  have hdown : i.gridFloor e * (i.den * 10 ^ e.toNat) ≤ i.value * 10 ^ (-e).toNat :=
    Nat.div_mul_le_self _ _
  have hup : i.value * 10 ^ (-e).toNat < (i.gridFloor e + 1) * (i.den * 10 ^ e.toNat) :=
    (Nat.div_lt_iff_lt_mul hscaled).mp (Nat.lt_succ_self _)
  have hdownQ : (i.gridFloor e : ℚ) * 10 ^ e * i.den * 10 ^ (-e).toNat ≤
      i.value * 10 ^ (-e).toNat := by
    calc (i.gridFloor e : ℚ) * 10 ^ e * i.den * 10 ^ (-e).toNat
        = i.gridFloor e * (i.den * 10 ^ e.toNat) := by rw [hpow]; ring
      _ ≤ i.value * 10 ^ (-e).toNat := by exact_mod_cast hdown
  have hupQ : (i.value : ℚ) * 10 ^ (-e).toNat <
      (i.gridFloor e + 1 : Nat) * 10 ^ e * i.den * 10 ^ (-e).toNat := by
    calc (i.value : ℚ) * 10 ^ (-e).toNat
        < (i.gridFloor e + 1 : Nat) * (i.den * 10 ^ e.toNat) := by exact_mod_cast hup
      _ = (i.gridFloor e + 1 : Nat) * 10 ^ e * i.den * 10 ^ (-e).toNat := by rw [hpow]; ring
  rw [middle, le_div_iff₀ hdenQ, div_lt_iff₀ hdenQ]
  exact ⟨le_of_mul_le_mul_right hdownQ hten, lt_of_mul_lt_mul_right hupQ hten.le⟩

/-- If the points of a grid are less than half a last bit apart, the next one is in the interval. -/
theorem onGrid?_ne_none (hden : 0 < i.den) (hlow : i.lowEnd < i.middle)
    (hhigh : i.middle + 10 ^ e < i.highEnd) : i.onGrid? e ≠ none := by
  obtain ⟨hdown, hnext⟩ := middle_between hden e
  have hup : i.holds (i.value * Nat.pow 10 (-e).toNat / (i.den * Nat.pow 10 e.toNat) + 1) e =
      true := by
    rw [← gridFloor, holds_iff hden, Contains]
    push_cast at hnext ⊢
    split_ifs
    · constructor <;> linarith
    · constructor <;> linarith
  unfold onGrid?
  dsimp only
  rw [hup]
  split
  · split_ifs <;> exact Option.some_ne_none _
  · exact Option.some_ne_none _
  · exact Option.some_ne_none _
  next h => cases h

end Interval

/-! ## The search -/

theorem holds_searchGrids (h : ∃ j < fuel, i.onGrid? (power - (count + j : Nat)) ≠ none) :
    i.holds (searchGrids i power count fuel).1 (searchGrids i power count fuel).2 = true := by
  induction fuel generalizing count with
  | zero =>
    obtain ⟨j, hj, -⟩ := h
    exact absurd hj (Nat.not_lt_zero j)
  | succ fuel ih =>
    rw [searchGrids]
    split
    next n hn => exact Interval.holds_of_onGrid? hn
    next hnone =>
      obtain ⟨j, hj, hfound⟩ := h
      -- the grid is not this one, so it is a later one
      cases j with
      | zero => exact absurd hnone hfound
      | succ j =>
        exact ih ⟨j, Nat.lt_of_succ_lt_succ hj, by rwa [Nat.add_right_comm, Nat.add_assoc]⟩

theorem decimal_dropZeros (fuel n : Nat) (e : Int) :
    decimal (dropZeros fuel n e) = decimal (n, e) := by
  induction fuel generalizing n e with
  | zero => rfl
  | succ fuel ih =>
    rw [dropZeros]
    split_ifs with hzero
    · rw [ih]
      simp only [Bool.and_eq_true, decide_eq_true_eq] at hzero
      have hn : (n : ℚ) = (n / 10 : Nat) * 10 := by
        exact_mod_cast (Nat.div_mul_cancel (Nat.dvd_of_mod_eq_zero hzero.2)).symm
      rw [decimal, decimal, hn, zpow_add₀ (by norm_num), zpow_one]
      ring
    · rfl

/-- Seventeen digits behind the leading one are enough. -/
theorem exists_onGrid? (hd : d.magnitude ≠ 0) :
    ∃ j < 19, (interval d).onGrid?
      (leadingPower (interval d).value (interval d).den - (0 + j : Nat)) ≠ none := by
  have hbit := two_zpow_pos d.exponent
  have hpower := zpow_leadingPower_le (value_interval_pos hd) (den_interval_pos d)
  rw [← Interval.middle, middle_interval] at hpower
  refine ⟨17, by decide, Interval.onGrid?_ne_none (den_interval_pos d) (lowEnd_lt_middle hd) ?_⟩
  generalize leadingPower (interval d).value (interval d).den = power at hpower ⊢
  have hm : (d.significand : ℚ) ≤ 2 ^ 53 := by
    exact_mod_cast (significandOf_lt d.magnitude).le
  -- the points of this grid are less than half a last bit apart
  have hgrid : (10 : ℚ) ^ (power - (0 + 17 : Nat)) < 1 / 2 * 2 ^ d.exponent := by
    have hsplit : (10 : ℚ) ^ (power - (0 + 17 : Nat)) = 10 ^ power / 10 ^ 17 := by
      rw [zpow_sub₀ (by norm_num), zpow_natCast]
    have hbound : (d.significand : ℚ) * 2 ^ d.exponent ≤ 2 ^ 53 * 2 ^ d.exponent :=
      mul_le_mul_of_nonneg_right hm hbit.le
    rw [hsplit, div_lt_iff₀ (by positivity)]
    linarith
  rw [middle_interval, highEnd_interval, upperEnd, ← significand_eq, ← exponent_eq]
  linarith

/-- **Soundness.** The shortest digits of a double lie in its interval. -/
theorem contains_shortest (hd : d.magnitude ≠ 0) :
    (interval d).Contains (decimal d.shortest) := by
  rw [shortest, if_neg hd]
  dsimp only
  rw [decimal_dropZeros, decimal, ← Interval.holds_iff (den_interval_pos d)]
  exact holds_searchGrids (exists_onGrid? hd)

theorem decimal_shortest_pos (hd : d.magnitude ≠ 0) : 0 < decimal d.shortest := by
  obtain ⟨magnitude, hmagnitude⟩ := Nat.exists_eq_succ_of_ne_zero hd
  exact (upperEnd_pos magnitude).trans_le
    (bounds_of_contains hmagnitude (contains_shortest hd)).1

theorem decimal_shortest_zero (hd : d.magnitude = 0) : decimal d.shortest = 0 := by
  rw [shortest, if_pos hd, decimal]
  norm_num

/-- Doubles with the same shortest digits have the same magnitude. -/
theorem magnitude_eq_of_decimal_eq (h : decimal d.shortest = decimal d'.shortest) :
    d.magnitude = d'.magnitude := by
  by_cases hd : d.magnitude = 0
  · by_cases hd' : d'.magnitude = 0
    · rw [hd, hd']
    · have hpos := decimal_shortest_pos hd'
      rw [← h, decimal_shortest_zero hd] at hpos
      exact absurd hpos (lt_irrefl 0)
  · by_cases hd' : d'.magnitude = 0
    · have hpos := decimal_shortest_pos hd
      rw [h, decimal_shortest_zero hd'] at hpos
      exact absurd hpos (lt_irrefl 0)
    · exact magnitude_eq_of_contains hd hd' (contains_shortest hd)
        (h ▸ contains_shortest hd')

end OpenApiClient.Double
