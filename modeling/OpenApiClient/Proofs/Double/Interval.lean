import Mathlib.Algebra.Order.Field.Rat
import Mathlib.Order.Monotone.Basic
import Mathlib.Tactic.FieldSimp
import Mathlib.Tactic.Linarith
import Mathlib.Tactic.Positivity
import Mathlib.Tactic.Ring
import OpenApiClient.Double.Shortest

/-!
# Intervals side by side

The reals that round to a double form an interval. In the order of the magnitudes, the interval of a
double begins where that of the double before it ends (`contains_interval_iff`), and of the two
doubles only the one with the even significand has that end for its own. So no number lies in the
intervals of two doubles of different magnitudes (`magnitude_eq_of_contains`).
-/

namespace OpenApiClient.Double

variable {d d' : Double} {x : ℚ}

theorem pow_toNat_eq {b : ℚ} (hb : b ≠ 0) (e : Int) :
    b ^ e.toNat = b ^ e * b ^ (-e).toNat := by
  rcases Int.le_total 0 e with he | he
  · obtain ⟨n, rfl⟩ := Int.eq_ofNat_of_zero_le he
    rw [Int.toNat_natCast, Int.toNat_of_nonpos (by omega), pow_zero, mul_one, zpow_natCast]
  · obtain ⟨n, hn⟩ := Int.eq_ofNat_of_zero_le (Int.neg_nonneg_of_nonpos he)
    rw [hn, Int.toNat_natCast, Int.toNat_of_nonpos he, pow_zero, ← zpow_natCast b n,
      ← zpow_add₀ hb, show e + (n : Int) = 0 by omega, zpow_zero]

/-! ## The ends of the intervals -/

def significandOf (magnitude : Nat) : Nat :=
  if magnitude < Nat.pow 2 52 then magnitude else Nat.pow 2 52 + magnitude % Nat.pow 2 52

def exponentOf (magnitude : Nat) : Int :=
  (max (magnitude / Nat.pow 2 52) 1 : Nat) - 1075

theorem significand_eq (d : Double) : d.significand = significandOf d.magnitude := rfl

theorem exponent_eq (d : Double) : d.exponent = exponentOf d.magnitude := rfl

theorem significandOf_mod_two (magnitude : Nat) : significandOf magnitude % 2 = magnitude % 2 := by
  have hpow : Nat.pow 2 52 = 4503599627370496 := rfl
  unfold significandOf
  rw [hpow]
  split_ifs <;> omega

theorem significandOf_lt (magnitude : Nat) : significandOf magnitude < 2 ^ 53 := by
  have hpow : Nat.pow 2 52 = 4503599627370496 := rfl
  unfold significandOf
  rw [hpow]
  split_ifs <;> omega

/-- The next double has the next significand, or the least one with the next exponent. -/
theorem succ_cases (magnitude : Nat) :
    (significandOf (magnitude + 1) = significandOf magnitude + 1 ∧
        exponentOf (magnitude + 1) = exponentOf magnitude ∧
        (significandOf (magnitude + 1) = 2 ^ 52 → exponentOf (magnitude + 1) = -1074)) ∨
      (significandOf magnitude + 1 = 2 ^ 53 ∧ significandOf (magnitude + 1) = 2 ^ 52 ∧
        exponentOf (magnitude + 1) = exponentOf magnitude + 1 ∧
        exponentOf (magnitude + 1) ≠ -1074) := by
  have hpow : Nat.pow 2 52 = 4503599627370496 := rfl
  unfold significandOf exponentOf
  rw [hpow]
  split_ifs <;> omega

def upperEnd (magnitude : Nat) : ℚ :=
  (significandOf magnitude + 1 / 2) * 2 ^ exponentOf magnitude

theorem two_zpow_pos (e : Int) : (0 : ℚ) < 2 ^ e :=
  zpow_pos two_pos e

theorem upperEnd_lt_succ (magnitude : Nat) : upperEnd magnitude < upperEnd (magnitude + 1) := by
  have hpos := two_zpow_pos (exponentOf magnitude)
  unfold upperEnd
  rcases succ_cases magnitude with ⟨hm, hq, -⟩ | ⟨hm, hm', hq, -⟩
  · rw [hm, hq]
    push_cast
    linarith
  · have hm : (significandOf magnitude : ℚ) = 2 ^ 53 - 1 := by
      rw [eq_sub_iff_add_eq]
      exact_mod_cast hm
    rw [hm, hm', hq, zpow_add₀ two_ne_zero, zpow_one]
    push_cast
    linarith

theorem strictMono_upperEnd : StrictMono upperEnd :=
  strictMono_nat_of_lt_succ upperEnd_lt_succ

theorem upperEnd_pos (magnitude : Nat) : 0 < upperEnd magnitude := by
  have hpos := two_zpow_pos (exponentOf magnitude)
  unfold upperEnd
  positivity

/-! ## Numbers in an interval -/

namespace Interval

variable {i : Interval} {n : Nat} {e : Int}

def lowEnd (i : Interval) : ℚ := i.low / i.den

def middle (i : Interval) : ℚ := i.value / i.den

def highEnd (i : Interval) : ℚ := i.high / i.den

/-- Whether a number lies in an interval, whose ends belong to it if it is closed. -/
def Contains (i : Interval) (x : ℚ) : Prop :=
  if i.closed then i.lowEnd ≤ x ∧ x ≤ i.highEnd else i.lowEnd < x ∧ x < i.highEnd

theorem holds_iff (hden : 0 < i.den) :
    i.holds n e = true ↔ i.Contains (n * 10 ^ e) := by
  have hten : (0 : ℚ) < 10 ^ (-e).toNat := by positivity
  have hdenQ : (0 : ℚ) < i.den := by exact_mod_cast hden
  -- the ends and the number over one denominator
  have hpoint : ((n * Nat.pow 10 e.toNat * i.den : Nat) : ℚ) =
      n * 10 ^ e * (10 ^ (-e).toNat * i.den) := by
    rw [Nat.pow_eq]
    push_cast
    rw [pow_toNat_eq (by norm_num) e]
    ring
  have hend (a : Nat) : ((a * Nat.pow 10 (-e).toNat : Nat) : ℚ) =
      a / i.den * (10 ^ (-e).toNat * i.den) := by
    rw [Nat.pow_eq]
    push_cast
    field_simp
  have hscale : (0 : ℚ) < 10 ^ (-e).toNat * i.den := by positivity
  have hle (a b : Nat) : a ≤ b ↔ (a : ℚ) ≤ b := by exact_mod_cast Iff.rfl
  have hlt (a b : Nat) : a < b ↔ (a : ℚ) < b := by exact_mod_cast Iff.rfl
  rw [holds, Contains, lowEnd, highEnd]
  split_ifs
  · rw [Bool.and_eq_true, decide_eq_true_eq, decide_eq_true_eq, hle, hle, hpoint, hend, hend,
      mul_le_mul_iff_left₀ hscale, mul_le_mul_iff_left₀ hscale]
  · rw [Bool.and_eq_true, decide_eq_true_eq, decide_eq_true_eq, hlt, hlt, hpoint, hend, hend,
      mul_lt_mul_iff_left₀ hscale, mul_lt_mul_iff_left₀ hscale]

end Interval

theorem den_interval_pos (d : Double) : 0 < (interval d).den :=
  Nat.mul_pos (by decide) (Nat.pow_pos (by decide))

/-- A multiple of a fourth of the last bit of a double, over the common denominator. -/
theorem quarters_div (a : Nat) (q : Int) :
    ((a * Nat.pow 2 q.toNat : Nat) : ℚ) / ((4 * Nat.pow 2 (-q).toNat : Nat) : ℚ) =
      a / 4 * 2 ^ q := by
  rw [Nat.pow_eq, Nat.pow_eq]
  push_cast
  rw [pow_toNat_eq two_ne_zero q]
  field_simp

theorem middle_interval (d : Double) :
    (interval d).middle = d.significand * 2 ^ d.exponent := by
  refine (quarters_div _ _).trans ?_
  push_cast
  ring

theorem highEnd_interval (d : Double) : (interval d).highEnd = upperEnd d.magnitude := by
  refine (quarters_div _ _).trans ?_
  rw [upperEnd, ← significand_eq, ← exponent_eq]
  push_cast
  ring

theorem significand_pos (hd : d.magnitude ≠ 0) : 0 < d.significand := by
  unfold significand
  split_ifs
  · exact Nat.pos_of_ne_zero hd
  · exact Nat.add_pos_left (Nat.pow_pos (by decide)) _

theorem value_interval_pos (hd : d.magnitude ≠ 0) : 0 < (interval d).value :=
  Nat.mul_pos (Nat.mul_pos (by decide) (significand_pos hd)) (Nat.pow_pos (by decide))

theorem lowEnd_lt_middle (hd : d.magnitude ≠ 0) : (interval d).lowEnd < (interval d).middle := by
  have hdenQ : (0 : ℚ) < (interval d).den := by exact_mod_cast den_interval_pos d
  have hlow : (interval d).low < (interval d).value := by
    refine Nat.mul_lt_mul_of_pos_right ?_ (Nat.pow_pos (by decide))
    have hm := significand_pos hd
    split_ifs <;> omega
  rw [Interval.lowEnd, Interval.middle, div_lt_div_iff_of_pos_right hdenQ]
  exact_mod_cast hlow

theorem lowEnd_interval {magnitude : Nat} (h : d.magnitude = magnitude + 1) :
    (interval d).lowEnd = upperEnd magnitude := by
  refine (quarters_div _ _).trans ?_
  rw [significand_eq, exponent_eq, h, upperEnd]
  rcases succ_cases magnitude with ⟨hm, hq, hleast⟩ | ⟨hm, hm', hq, hnot⟩
  · -- the double before is a whole last bit away
    have hnear : ¬(significandOf (magnitude + 1) = Nat.pow 2 52 &&
        exponentOf (magnitude + 1) != -1074) = true := by
      simpa using hleast
    rw [if_neg hnear, hm, hq,
      show 4 * (significandOf magnitude + 1) - 2 = 4 * significandOf magnitude + 2 by omega]
    push_cast
    ring
  · -- the double before is half a last bit away
    have hnear : (significandOf (magnitude + 1) = Nat.pow 2 52 &&
        exponentOf (magnitude + 1) != -1074) = true := by
      simpa using ⟨hm', hnot⟩
    have hmQ : (significandOf magnitude : ℚ) = 2 ^ 53 - 1 := by
      rw [eq_sub_iff_add_eq]
      exact_mod_cast hm
    rw [if_pos hnear, hm', hmQ, hq, zpow_add₀ two_ne_zero, zpow_one]
    norm_num
    ring

theorem contains_interval_iff {magnitude : Nat} (h : d.magnitude = magnitude + 1) :
    (interval d).Contains x ↔
      if (magnitude + 1) % 2 = 0 then upperEnd magnitude ≤ x ∧ x ≤ upperEnd (magnitude + 1)
      else upperEnd magnitude < x ∧ x < upperEnd (magnitude + 1) := by
  have hclosed : (interval d).closed = true ↔ (magnitude + 1) % 2 = 0 := by
    rw [← significandOf_mod_two, ← h]
    exact decide_eq_true_iff
  simp only [Interval.Contains, hclosed, lowEnd_interval h, highEnd_interval, h]

/-- The ends of an interval bound what it contains. -/
theorem bounds_of_contains {magnitude : Nat} (h : d.magnitude = magnitude + 1)
    (hx : (interval d).Contains x) : upperEnd magnitude ≤ x ∧ x ≤ upperEnd (magnitude + 1) := by
  rw [contains_interval_iff h] at hx
  split_ifs at hx
  · exact hx
  · exact ⟨hx.1.le, hx.2.le⟩

theorem magnitude_le_of_contains (hd : d.magnitude ≠ 0) (hd' : d'.magnitude ≠ 0)
    (hx : (interval d).Contains x) (hx' : (interval d').Contains x) :
    d.magnitude ≤ d'.magnitude := by
  obtain ⟨m, hm⟩ := Nat.exists_eq_succ_of_ne_zero hd
  obtain ⟨m', hm'⟩ := Nat.exists_eq_succ_of_ne_zero hd'
  obtain ⟨hlow, -⟩ := bounds_of_contains hm hx
  obtain ⟨-, hhigh⟩ := bounds_of_contains hm' hx'
  by_contra hlt
  -- the interval of `d` begins at the end of that of `d'`, and one of the two is open
  have hends : upperEnd m ≤ upperEnd (m' + 1) := hlow.trans hhigh
  have hle : m ≤ m' + 1 := strictMono_upperEnd.le_iff_le.mp hends
  have heq : m = m' + 1 := by omega
  rw [contains_interval_iff hm, heq] at hx
  rw [contains_interval_iff hm'] at hx'
  split_ifs at hx hx'
  · omega
  · exact absurd hx'.2 (not_lt.mpr hx.1)
  · exact absurd hx.1 (not_lt.mpr hx'.2)
  · exact absurd hx'.2 (not_lt.mpr hx.1.le)

/-- **Uniqueness.** A number lies in the intervals of doubles of one magnitude only. -/
theorem magnitude_eq_of_contains (hd : d.magnitude ≠ 0) (hd' : d'.magnitude ≠ 0)
    (hx : (interval d).Contains x) (hx' : (interval d').Contains x) :
    d.magnitude = d'.magnitude :=
  Nat.le_antisymm (magnitude_le_of_contains hd hd' hx hx') (magnitude_le_of_contains hd' hd hx' hx)

end OpenApiClient.Double
