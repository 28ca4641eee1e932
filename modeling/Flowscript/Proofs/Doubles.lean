-- Doubles among the rational numbers. The finite ones have a mantissa of 53
-- bits, or fewer bits at the least exponent, so around each of them there is
-- a gap without another; a number inside the halves of the gap rounds to it.
-- Converting a ratio, a whole number or a decimal number gives a double of
-- this format.
import Flowscript.Number.Binary64
import Mathlib.Algebra.Order.Field.Power
import Mathlib.Algebra.Order.Field.Rat
import Mathlib.Tactic.FieldSimp
import Mathlib.Tactic.Linarith
import Mathlib.Tactic.NormNum
import Mathlib.Tactic.Positivity
import Mathlib.Tactic.Ring

namespace Flowscript.Binary64

/-! ## The format -/

/-- The rational number of a mantissa and an exponent. -/
def magnitude (m : Nat) (q : Int) : ℚ := m * 2 ^ q

/-- The rational number of a sign, a mantissa and an exponent. -/
def value (negative : Bool) (m : Nat) (q : Int) : ℚ :=
  if negative then -magnitude m q else magnitude m q

/-- A mantissa of 53 bits with an exponent in range, or a shorter one with the least exponent. -/
structure Fits (m : Nat) (q : Int) : Prop where
  mantissa_lt : m < 2 ^ 53
  le_exponent : minExponent ≤ q
  exponent_le : q ≤ maxExponent
  least : m < 2 ^ 52 → q = minExponent

/-- The number is one of the format. -/
def IsDouble : Binary64 → Prop
  | .finite _ m q => Fits m q
  | .infinite _ => True
  | .nan => True

theorem fits_zero : Fits 0 minExponent where
  mantissa_lt := by decide
  le_exponent := Int.le_refl _
  exponent_le := by decide
  least := fun _ => rfl

section

variable {m m' : Nat} {q q' : Int}

theorem Fits.full (h : Fits m q) (hq : minExponent < q) : 2 ^ 52 ≤ m := by
  by_contra hlt
  exact absurd (h.least (Nat.lt_of_not_le hlt)) hq.ne'

theorem magnitude_nonneg (m : Nat) (q : Int) : 0 ≤ magnitude m q := by
  unfold magnitude
  positivity

/-- At a greater exponent a mantissa counts several times. -/
theorem magnitude_shift (m : Nat) (q : Int) (k : Nat) :
    magnitude m (q + k) = magnitude (m * 2 ^ k) q := by
  unfold magnitude
  rw [zpow_add₀ two_ne_zero, zpow_natCast]
  push_cast
  ring

theorem magnitude_lt_iff : magnitude m q < magnitude m' q ↔ m < m' := by
  unfold magnitude
  rw [mul_lt_mul_iff_left₀ (by positivity), Nat.cast_lt]

theorem magnitude_le_iff : magnitude m q ≤ magnitude m' q ↔ m ≤ m' := by
  unfold magnitude
  rw [mul_le_mul_iff_left₀ (by positivity), Nat.cast_le]

/-! ## Gaps -/

/-- The doubles of lower exponents end half a step before the first full mantissa. -/
theorem Fits.magnitude_le (h : Fits m q) (hq : q < q') :
    magnitude m q ≤ magnitude (2 ^ 52) q' - 2 ^ q' / 2 := by
  obtain ⟨k, hk⟩ := Int.le.dest (Int.le_sub_one_of_lt hq)
  have hstep : magnitude (2 ^ 52) q' - 2 ^ q' / 2 = magnitude (2 ^ 53 - 1) (q' - 1) := by
    unfold magnitude
    rw [zpow_sub_one₀ two_ne_zero]
    norm_num
    ring
  rw [hstep, ← hk, magnitude_shift, magnitude_le_iff]
  have hm := h.mantissa_lt
  calc m ≤ 2 ^ 53 - 1 := by omega
    _ ≤ (2 ^ 53 - 1) * 2 ^ k := Nat.le_mul_of_pos_right _ (by positivity)

/-- How far it is to the next double below. Below a power of two the doubles lie closer. -/
def gapBelow (m : Nat) (q : Int) : ℚ := if m = 2 ^ 52 ∧ minExponent < q then 2 ^ q / 2 else 2 ^ q

theorem gapBelow_pos (m : Nat) (q : Int) : 0 < gapBelow m q := by
  unfold gapBelow
  split <;> positivity

theorem gapBelow_le (m : Nat) (q : Int) : gapBelow m q ≤ 2 ^ q := by
  have hpos : (0 : ℚ) < 2 ^ q := by positivity
  unfold gapBelow
  split <;> linarith

theorem magnitude_add_one (m : Nat) (q : Int) : magnitude (m + 1) q = magnitude m q + 2 ^ q := by
  unfold magnitude
  push_cast
  ring

/-- No double lies between one and the next above. -/
theorem Fits.gap_above (h : Fits m q) (h' : Fits m' q') (hlt : magnitude m q < magnitude m' q') :
    magnitude m q + 2 ^ q ≤ magnitude m' q' := by
  rw [← magnitude_add_one]
  by_cases hq : q ≤ q'
  · obtain ⟨k, rfl⟩ := Int.le.dest hq
    rw [magnitude_shift] at hlt ⊢
    exact magnitude_le_iff.mpr (magnitude_lt_iff.mp hlt)
  · have hlow : q' < q := Int.lt_of_not_ge hq
    have hle := h'.magnitude_le hlow
    have hfull : magnitude (2 ^ 52) q ≤ magnitude m q :=
      magnitude_le_iff.mpr (h.full (Int.lt_of_le_of_lt h'.le_exponent hlow))
    have hpos : (0 : ℚ) < 2 ^ q := by positivity
    generalize magnitude (2 ^ 52) q = full at *
    linarith

/-- No double lies between one and the next below. -/
theorem Fits.gap_below (h : Fits m q) (h' : Fits m' q') (hlt : magnitude m' q' < magnitude m q) :
    magnitude m' q' ≤ magnitude m q - gapBelow m q := by
  by_cases hq : q ≤ q'
  · obtain ⟨k, rfl⟩ := Int.le.dest hq
    rw [magnitude_shift] at hlt ⊢
    have hnext := magnitude_le_iff (q := q).mpr (magnitude_lt_iff.mp hlt)
    rw [magnitude_add_one] at hnext
    linarith [gapBelow_le m q]
  · have hlow : q' < q := Int.lt_of_not_ge hq
    have hmin : minExponent < q := Int.lt_of_le_of_lt h'.le_exponent hlow
    have hle := h'.magnitude_le hlow
    by_cases hm : m = 2 ^ 52
    · rw [gapBelow, if_pos ⟨hm, hmin⟩, hm]
      exact hle
    · have hmore : 2 ^ 52 + 1 ≤ m := Nat.lt_of_le_of_ne (h.full hmin) (Ne.symm hm)
      have hfull := magnitude_le_iff (q := q).mpr hmore
      rw [magnitude_add_one] at hfull
      have hpos : (0 : ℚ) < 2 ^ q := by positivity
      rw [gapBelow, if_neg fun hboth => hm hboth.1]
      generalize magnitude (2 ^ 52) q = full at *
      linarith

/-! ## Rounding -/

/-- The number lies within half the gaps around a double, or at the end of one where the mantissa is
even. -/
def InReach (m : Nat) (q : Int) (r : ℚ) : Prop :=
  if m % 2 = 0 then magnitude m q - gapBelow m q / 2 ≤ r ∧ r ≤ magnitude m q + 2 ^ q / 2
  else magnitude m q - gapBelow m q / 2 < r ∧ r < magnitude m q + 2 ^ q / 2

variable {r : ℚ}

theorem InReach.bounds (h : InReach m q r) :
    magnitude m q - gapBelow m q / 2 ≤ r ∧ r ≤ magnitude m q + 2 ^ q / 2 := by
  unfold InReach at h
  split at h
  · exact h
  · exact ⟨h.1.le, h.2.le⟩

theorem InReach.strict (h : InReach m q r) (hm : m % 2 ≠ 0) :
    magnitude m q - gapBelow m q / 2 < r ∧ r < magnitude m q + 2 ^ q / 2 := by
  rwa [InReach, if_neg hm] at h

theorem step_le_magnitude (hm : 0 < m) : 2 ^ q ≤ magnitude m q := by
  have hone : magnitude 1 q ≤ magnitude m q := magnitude_le_iff.mpr hm
  have hstep : magnitude 1 q = 2 ^ q := by
    unfold magnitude
    rw [Nat.cast_one, one_mul]
  rwa [hstep] at hone

/-- Any other double, of either sign, is beyond the gap above or the gap below. -/
theorem Fits.apart (h : Fits m q) (hm : 0 < m) (h' : Fits m' q') {negative : Bool}
    (hne : value negative m' q' ≠ magnitude m q) :
    magnitude m q + 2 ^ q ≤ value negative m' q' ∨
      value negative m' q' ≤ magnitude m q - gapBelow m q := by
  cases negative with
  | true =>
    right
    have hsign : value true m' q' = -magnitude m' q' := rfl
    have hstep := step_le_magnitude (q := q) hm
    have hgap := gapBelow_le m q
    have hother := magnitude_nonneg m' q'
    rw [hsign]
    linarith
  | false =>
    have hsign : value false m' q' = magnitude m' q' := rfl
    rw [hsign] at hne ⊢
    rcases lt_or_gt_of_ne hne with hlt | hlt
    · exact Or.inr (h.gap_below h' hlt)
    · exact Or.inl (h.gap_above h' hlt)

/-- What is beyond the gaps is not nearer to a number in reach, and as near only where the mantissa is
even. -/
theorem InReach.nearest (h : InReach m q r) {w : ℚ}
    (hw : magnitude m q + 2 ^ q ≤ w ∨ w ≤ magnitude m q - gapBelow m q) :
    |r - magnitude m q| ≤ |r - w| ∧ (|r - magnitude m q| = |r - w| → m % 2 = 0) := by
  have hpos : (0 : ℚ) < 2 ^ q := by positivity
  have hgap := gapBelow_pos m q
  have hle := gapBelow_le m q
  obtain ⟨hlow, hhigh⟩ := h.bounds
  constructor
  · rcases hw with hw | hw
    · rw [abs_sub_comm r w, abs_of_nonneg (by linarith : 0 ≤ w - r), abs_le]
      constructor <;> linarith
    · rw [abs_of_nonneg (by linarith : 0 ≤ r - w), abs_le]
      constructor <;> linarith
  · intro htie
    by_contra hodd
    obtain ⟨hlow, hhigh⟩ := h.strict hodd
    rcases hw with hw | hw
    · rw [abs_sub_comm r w, abs_of_nonneg (by linarith : 0 ≤ w - r)] at htie
      rcases abs_cases (r - magnitude m q) with ⟨habs, _⟩ | ⟨habs, _⟩ <;> linarith
    · rw [abs_of_nonneg (by linarith : 0 ≤ r - w)] at htie
      rcases abs_cases (r - magnitude m q) with ⟨habs, _⟩ | ⟨habs, _⟩ <;> linarith

/-- From here on a number is too large for every finite double. -/
def overflow : ℚ := magnitude (2 ^ 54 - 1) (maxExponent - 1)

/-- Reading a number gives a finite double: none is nearer, and where another one is as near, the
mantissa is even. -/
structure RoundsTo (r : ℚ) (negative : Bool) (m : Nat) (q : Int) : Prop where
  fits : Fits m q
  lt_overflow : |r| < overflow
  nearest : ∀ {negative' m' q'}, Fits m' q' → |r - value negative m q| ≤ |r - value negative' m' q'|
  even : ∀ {negative' m' q'}, Fits m' q' → value negative' m' q' ≠ value negative m q →
    |r - value negative m q| = |r - value negative' m' q'| → m % 2 = 0

theorem magnitude_mono (hm : m ≤ m') (hq : q ≤ q') : magnitude m q ≤ magnitude m' q' := by
  obtain ⟨k, rfl⟩ := Int.le.dest hq
  rw [magnitude_shift, magnitude_le_iff]
  exact hm.trans (Nat.le_mul_of_pos_right _ (by positivity))

/-- The middle between a double and the next above. -/
theorem magnitude_middle (m : Nat) (q : Int) :
    magnitude m q + 2 ^ q / 2 = magnitude (2 * m + 1) (q - 1) := by
  unfold magnitude
  rw [zpow_sub_one₀ two_ne_zero]
  push_cast
  ring

theorem Fits.middle_le_overflow (h : Fits m q) : magnitude m q + 2 ^ q / 2 ≤ overflow := by
  have hm := h.mantissa_lt
  have hq := h.exponent_le
  rw [magnitude_middle]
  exact magnitude_mono (by omega) (by omega)

theorem Fits.magnitude_lt_overflow (h : Fits m q) : magnitude m q < overflow := by
  have hpos : (0 : ℚ) < 2 ^ q := by positivity
  linarith [h.middle_le_overflow]

/-- A number in reach of the greatest double is still below, as its mantissa is odd. -/
theorem InReach.lt_overflow (h : InReach m q r) (hfits : Fits m q) : r < overflow := by
  obtain ⟨_, hhigh⟩ := h.bounds
  by_cases hm : m % 2 = 0
  · have hlt := hfits.mantissa_lt
    have hq := hfits.exponent_le
    have hnext : magnitude m q + 2 ^ q / 2 < overflow := by
      rw [magnitude_middle]
      calc magnitude (2 * m + 1) (q - 1)
          < magnitude (2 ^ 54 - 1) (q - 1) := magnitude_lt_iff.mpr (by omega)
        _ ≤ overflow := magnitude_mono le_rfl (by omega)
    linarith
  · linarith [(h.strict hm).2, hfits.middle_le_overflow]

theorem abs_value (negative : Bool) (m : Nat) (q : Int) :
    |value negative m q| = magnitude m q := by
  unfold value
  split
  · rw [abs_neg, abs_of_nonneg (magnitude_nonneg m q)]
  · exact abs_of_nonneg (magnitude_nonneg m q)

/-- A double reads as itself. -/
theorem Fits.roundsTo_value (h : Fits m q) (negative : Bool) :
    RoundsTo (value negative m q) negative m q where
  fits := h
  lt_overflow := by
    rw [abs_value]
    exact h.magnitude_lt_overflow
  nearest := fun _ => by
    rw [sub_self, abs_zero]
    exact abs_nonneg _
  even := fun {_ _ _} _ hne htie => by
    rw [sub_self, abs_zero] at htie
    exact absurd (sub_eq_zero.mp (abs_eq_zero.mp htie.symm)).symm hne

theorem value_not (negative : Bool) (m : Nat) (q : Int) :
    value (!negative) m q = -value negative m q := by
  cases negative with
  | true => exact (neg_neg _).symm
  | false => rfl

theorem InReach.pos (h : InReach m q r) (hm : 0 < m) : 0 < r := by
  have hpos : (0 : ℚ) < 2 ^ q := by positivity
  linarith [h.bounds.1, gapBelow_le m q, step_le_magnitude (q := q) hm]

theorem InReach.roundsTo_pos (h : InReach m q r) (hfits : Fits m q) (hm : 0 < m) :
    RoundsTo r false m q where
  fits := hfits
  lt_overflow := by
    rw [abs_of_pos (h.pos hm)]
    exact h.lt_overflow hfits
  nearest := fun {negative' m' q'} hfits' => by
    by_cases hsame : value negative' m' q' = value false m q
    · rw [hsame]
    · exact (h.nearest (hfits.apart hm hfits' hsame)).1
  even := fun hfits' hne => (h.nearest (hfits.apart hm hfits' hne)).2

/-- Reading does not depend on the sign. -/
theorem RoundsTo.neg {negative : Bool} (h : RoundsTo r negative m q) :
    RoundsTo (-r) (!negative) m q := by
  have hflip (negative' : Bool) (m' : Nat) (q' : Int) :
      |-r - value negative' m' q'| = |r - value (!negative') m' q'| := by
    rw [value_not, sub_neg_eq_add, ← abs_neg, neg_sub, sub_neg_eq_add, add_comm]
  refine ⟨h.fits, ?_, fun {negative' m' q'} hfits' => ?_, fun {negative' m' q'} hfits' hne htie => ?_⟩
  · rw [abs_neg]
    exact h.lt_overflow
  · rw [hflip, hflip, Bool.not_not]
    exact h.nearest hfits'
  · rw [hflip, hflip, Bool.not_not] at htie
    refine h.even hfits' (fun hsame => hne ?_) htie
    rw [value_not, neg_eq_iff_eq_neg] at hsame
    rw [hsame, value_not]

/-- A number in reach of a double reads as the double, with either sign. -/
theorem InReach.roundsTo (h : InReach m q r) (hfits : Fits m q) (hm : 0 < m) (negative : Bool) :
    RoundsTo (if negative then -r else r) negative m q := by
  have hpos := h.roundsTo_pos hfits hm
  cases negative with
  | true => exact hpos.neg
  | false => exact hpos

end

/-! ## Conversions -/

section

variable {num den : Nat} {q : Int}

theorem scaleRatio_pos (hden : 0 < den) (num : Nat) (q : Int) : 0 < (scaleRatio num den q).2 := by
  unfold scaleRatio
  split
  · exact Nat.mul_pos hden (Nat.pow_pos (by decide))
  · exact hden

theorem scaleRatio_eq (num den : Nat) (q : Int) :
    ((scaleRatio num den q).1 : ℚ) / (scaleRatio num den q).2 = num / den / 2 ^ q := by
  unfold scaleRatio
  split
  · next hq =>
    obtain ⟨k, rfl⟩ := Int.eq_ofNat_of_zero_le hq
    simp only [Int.toNat_natCast, Nat.pow_eq, zpow_natCast]
    push_cast
    rw [div_div]
  · next hq =>
    obtain ⟨k, hk⟩ := Int.eq_ofNat_of_zero_le (a := -q) (by omega)
    have hpower : (2 : ℚ) ^ q = (2 ^ k)⁻¹ := by
      rw [← neg_neg q, hk, zpow_neg, zpow_natCast]
    rw [hk, hpower]
    simp only [Int.toNat_natCast, Nat.pow_eq]
    push_cast
    rw [div_inv_eq_mul, div_mul_eq_mul_div]

theorem div_lt_iff_ratio (num : Nat) (hden : 0 < den) (k : Nat) :
    num / den < k ↔ (num : ℚ) / den < k := by
  have hpos : (0 : ℚ) < den := by exact_mod_cast hden
  rw [Nat.div_lt_iff_lt_mul hden, div_lt_iff₀ hpos]
  exact_mod_cast Iff.rfl

theorem log2_bounds {n : Nat} (hn : n ≠ 0) :
    (2 : ℚ) ^ (n.log2 : Int) ≤ n ∧ (n : ℚ) < 2 ^ ((n.log2 : Int) + 1) := by
  have hlow := Nat.log2_self_le hn
  have hhigh := Nat.lt_log2_self (n := n)
  constructor
  · rw [zpow_natCast]
    exact_mod_cast hlow
  · have hpower : (2 : ℚ) ^ ((n.log2 : Int) + 1) = 2 ^ (n.log2 + 1) := by
      exact_mod_cast zpow_natCast (2 : ℚ) (n.log2 + 1)
    rw [hpower]
    exact_mod_cast hhigh

/-- The ratio lies between the powers of two that its logarithms tell. -/
theorem ratio_bounds (hnum : num ≠ 0) (hden : 0 < den) :
    (2 : ℚ) ^ ((num.log2 : Int) - den.log2 - 1) < num / den ∧
      (num : ℚ) / den < 2 ^ ((num.log2 : Int) - den.log2 + 1) := by
  obtain ⟨hnumLow, hnumHigh⟩ := log2_bounds hnum
  obtain ⟨hdenLow, hdenHigh⟩ := log2_bounds hden.ne'
  have hdenPos : (0 : ℚ) < den := by exact_mod_cast hden
  have hnumPos : (0 : ℚ) < num := by exact_mod_cast Nat.pos_of_ne_zero hnum
  constructor
  · calc (2 : ℚ) ^ ((num.log2 : Int) - den.log2 - 1)
        = 2 ^ (num.log2 : Int) / 2 ^ ((den.log2 : Int) + 1) := by
          rw [← zpow_sub₀ two_ne_zero, sub_sub]
      _ < num / den := div_lt_div₀' hnumLow hdenHigh hnumPos hdenPos
  · calc (num : ℚ) / den
        < 2 ^ ((num.log2 : Int) + 1) / 2 ^ (den.log2 : Int) :=
          div_lt_div₀ hnumHigh hdenLow (by positivity) (by positivity)
      _ = 2 ^ ((num.log2 : Int) - den.log2 + 1) := by
          rw [← zpow_sub₀ two_ne_zero, sub_add_eq_add_sub]

/-- The exponent at which a ratio has a mantissa of 53 bits, whether it is in range or not. -/
def fullExponent (num den : Nat) : Int :=
  let q : Int := (Nat.log2 num : Int) - (Nat.log2 den : Int) - 52
  let scaled := scaleRatio num den q
  if scaled.1 / scaled.2 < Nat.pow 2 52 then q - 1 else q

theorem fullExponent_spec (hnum : num ≠ 0) (hden : 0 < den) :
    2 ^ 52 ≤ (num : ℚ) / den / 2 ^ fullExponent num den ∧
      (num : ℚ) / den / 2 ^ fullExponent num den < 2 ^ 53 := by
  obtain ⟨hlow, hhigh⟩ := ratio_bounds hnum hden
  unfold fullExponent
  generalize hq : (num.log2 : Int) - den.log2 - 52 = q
  have hpos : (0 : ℚ) < 2 ^ q := by positivity
  have hlow : 2 ^ 51 < (num : ℚ) / den / 2 ^ q := by
    have hexp : ((51 : Nat) : Int) + q = num.log2 - den.log2 - 1 := by omega
    rwa [lt_div_iff₀ hpos, ← zpow_natCast, ← zpow_add₀ two_ne_zero, hexp]
  have hhigh : (num : ℚ) / den / 2 ^ q < 2 ^ 53 := by
    have hexp : ((53 : Nat) : Int) + q = num.log2 - den.log2 + 1 := by omega
    rwa [div_lt_iff₀ hpos, ← zpow_natCast, ← zpow_add₀ two_ne_zero, hexp]
  have hfloor := div_lt_iff_ratio (scaleRatio num den q).1 (scaleRatio_pos hden num q) (2 ^ 52)
  rw [scaleRatio_eq] at hfloor
  push_cast at hfloor
  dsimp only
  split
  · next hsmall =>
    have hsmall := hfloor.mp hsmall
    have hdouble : (num : ℚ) / den / 2 ^ (q - 1) = 2 * ((num : ℚ) / den / 2 ^ q) := by
      rw [zpow_sub_one₀ two_ne_zero]
      field_simp
    rw [hdouble]
    constructor <;> linarith
  · next hlarge => exact ⟨not_lt.mp fun hsmall => hlarge (hfloor.mpr hsmall), hhigh⟩

/-- At the exponent the ratio has a whole part below 53 bits, and not below 52 unless the exponent is
the least. -/
theorem targetExponent_spec (hnum : num ≠ 0) (hden : 0 < den) :
    minExponent ≤ targetExponent num den ∧
      (num : ℚ) / den / 2 ^ targetExponent num den < 2 ^ 53 ∧
      (targetExponent num den ≠ minExponent →
        2 ^ 52 ≤ (num : ℚ) / den / 2 ^ targetExponent num den) := by
  obtain ⟨hlow, hhigh⟩ := fullExponent_spec hnum hden
  have hmax : targetExponent num den = max (fullExponent num den) minExponent := rfl
  rw [hmax]
  refine ⟨le_max_right _ _, ?_, fun hne => ?_⟩
  · refine lt_of_le_of_lt ?_ hhigh
    gcongr
    · norm_num
    · exact le_max_left _ _
  · rcases max_choice (fullExponent num den) minExponent with hfull | hleast
    · rw [hfull]
      exact hlow
    · exact absurd hleast hne

/-- Rounding adds at most one to the whole part. -/
theorem roundRatio_bounds (num den : Nat) :
    num / den ≤ roundRatio num den ∧ roundRatio num den ≤ num / den + 1 := by
  unfold roundRatio
  dsimp only
  split
  · omega
  split
  · omega
  split <;> omega

/-- A ratio is rounded to a number of the format. -/
theorem isDouble_ofRatio (negative : Bool) (num : Nat) (hden : 0 < den) :
    (ofRatio negative num den).IsDouble := by
  unfold ofRatio
  split
  · exact fits_zero
  next hnum =>
  obtain ⟨hmin, hhigh, hlow⟩ := targetExponent_spec hnum hden
  have hpos := scaleRatio_pos hden num (targetExponent num den)
  have hround := roundRatio_bounds (scaleRatio num den (targetExponent num den)).1
    (scaleRatio num den (targetExponent num den)).2
  rw [← scaleRatio_eq] at hhigh hlow
  dsimp only
  generalize scaleRatio num den (targetExponent num den) = scaled at *
  generalize targetExponent num den = q at *
  have hfloor : scaled.1 / scaled.2 < 2 ^ 53 := by
    rw [div_lt_iff_ratio _ hpos]
    exact_mod_cast hhigh
  have hfull : q ≠ minExponent → 2 ^ 52 ≤ scaled.1 / scaled.2 := by
    intro hne
    have hnot := not_lt.mpr (hlow hne)
    rw [← Nat.not_lt, div_lt_iff_ratio _ hpos]
    exact_mod_cast hnot
  generalize roundRatio scaled.1 scaled.2 = m at *
  by_cases hcarry : m = Nat.pow 2 53
  · rw [if_pos hcarry]
    dsimp only
    split
    · trivial
    · next hrange => exact ⟨by decide, by omega, by omega, fun hlt => absurd hlt (by decide)⟩
  · rw [if_neg hcarry]
    dsimp only
    split
    · trivial
    · next hrange =>
      have hlt : m < 2 ^ 53 := Nat.lt_of_le_of_ne (by omega) hcarry
      refine ⟨hlt, hmin, by omega, fun hshort => ?_⟩
      by_contra hne
      have hlong := hfull hne
      omega

theorem isDouble_zero (negative : Bool) : (zero negative).IsDouble := fits_zero

theorem isDouble_ofInt (n : Int) : (ofInt n).IsDouble := isDouble_ofRatio _ _ Nat.one_pos

theorem isDouble_ofDecimal (negative : Bool) (digits : Nat) (exponent : Int) :
    (ofDecimal negative digits exponent).IsDouble := by
  unfold ofDecimal
  dsimp only
  split
  · exact isDouble_zero negative
  split
  · trivial
  split
  · exact isDouble_zero negative
  split
  · exact isDouble_ofRatio _ _ Nat.one_pos
  · exact isDouble_ofRatio _ _ (Nat.pow_pos (by decide))

end

/-! ## Correct rounding -/

section

variable {num den : Nat} {m : Nat} {q : Int} {s : ℚ}

/-- Rounding goes to a whole number within a half, and to an even one from the middle of two. -/
theorem roundRatio_near (num : Nat) (hden : 0 < den) :
    |(num : ℚ) / den - roundRatio num den| ≤ 1 / 2 ∧
      (|(num : ℚ) / den - roundRatio num den| = 1 / 2 → roundRatio num den % 2 = 0) := by
  have hpos : (0 : ℚ) < den := by exact_mod_cast hden
  have hsplit : (num : ℚ) / den = (num / den : Nat) + (num % den : Nat) / den := by
    have hdiv : (num : ℚ) = den * (num / den : Nat) + (num % den : Nat) := by
      exact_mod_cast (Nat.div_add_mod num den).symm
    rw [div_eq_iff hpos.ne', hdiv]
    field_simp
  have hnonneg : (0 : ℚ) ≤ (num % den : Nat) / den := by positivity
  have hless : ((num % den : Nat) : ℚ) / den < 1 := by
    rw [div_lt_one hpos]
    exact_mod_cast Nat.mod_lt num hden
  have hhalf : 2 * (num % den) < den ↔ ((num % den : Nat) : ℚ) / den < 1 / 2 := by
    rw [div_lt_div_iff₀ hpos two_pos, one_mul, mul_comm]
    exact_mod_cast Iff.rfl
  have hmore : den < 2 * (num % den) ↔ 1 / 2 < ((num % den : Nat) : ℚ) / den := by
    rw [div_lt_div_iff₀ two_pos hpos, one_mul, mul_comm]
    exact_mod_cast Iff.rfl
  rw [hsplit]
  unfold roundRatio
  dsimp only
  generalize ((num % den : Nat) : ℚ) / den = part at *
  generalize num / den = whole at *
  split
  · rename_i hsmall
    have hsmall := hhalf.mp hsmall
    rw [add_sub_cancel_left, abs_of_nonneg hnonneg]
    exact ⟨hsmall.le, fun htie => absurd htie hsmall.ne⟩
  split
  · rename_i hlarge
    have hlarge := hmore.mp hlarge
    have hgap : (whole : ℚ) + part - (whole + 1 : Nat) = -(1 - part) := by
      push_cast
      ring
    rw [hgap, abs_neg, abs_of_pos (by linarith)]
    exact ⟨by linarith, fun htie => by linarith⟩
  · rename_i hsmall hlarge
    have htie : part = 1 / 2 := by
      have hsmall := mt hhalf.mpr hsmall
      have hlarge := mt hmore.mpr hlarge
      linarith
    split
    · rename_i heven
      rw [add_sub_cancel_left, htie]
      exact ⟨by norm_num, fun _ => heven⟩
    · rename_i hodd
      have hgap : (whole : ℚ) + part - (whole + 1 : Nat) = -(1 / 2) := by
        push_cast
        rw [htie]
        ring
      rw [hgap]
      exact ⟨by norm_num, fun _ => by omega⟩

/-- A number is in reach of the mantissa that it is rounded to. -/
theorem inReach_of_near (hnear : |s - m| ≤ 1 / 2) (htie : |s - m| = 1 / 2 → m % 2 = 0)
    (hlow : q ≠ minExponent → 2 ^ 52 ≤ s) : InReach m q (s * 2 ^ q) := by
  have hpos : (0 : ℚ) < 2 ^ q := by positivity
  have hsplit : s * 2 ^ q = magnitude m q + (s - m) * 2 ^ q := by
    unfold magnitude
    ring
  rw [hsplit]
  unfold InReach
  split
  · obtain ⟨hbelow, habove⟩ := abs_le.mp hnear
    refine ⟨?_, by nlinarith⟩
    unfold gapBelow
    split
    · rename_i hfull
      have hexact : (m : ℚ) ≤ s := by
        rw [hfull.1]
        exact_mod_cast hlow hfull.2.ne'
      nlinarith
    · nlinarith
  · rename_i hodd
    have hgap : gapBelow m q = 2 ^ q := by
      refine if_neg fun hfull => hodd ?_
      rw [hfull.1]
      rfl
    obtain ⟨hbelow, habove⟩ := abs_lt.mp (lt_of_le_of_ne hnear fun h => hodd (htie h))
    rw [hgap]
    constructor <;> nlinarith

/-- A mantissa that is rounded up to 54 bits is the least of the next exponent. -/
theorem inReach_of_carry (hq : minExponent ≤ q) (hnear : |s - (2 ^ 53 : Nat)| ≤ 1 / 2)
    (hlt : s < 2 ^ 53) : InReach (2 ^ 52) (q + 1) (s * 2 ^ q) := by
  have hpos : (0 : ℚ) < 2 ^ q := by positivity
  have hgap : gapBelow (2 ^ 52) (q + 1) = 2 ^ q := by
    rw [gapBelow, if_pos ⟨rfl, by omega⟩, zpow_add_one₀ two_ne_zero, mul_div_assoc,
      div_self two_ne_zero, mul_one]
  have hfull : magnitude (2 ^ 52) (q + 1) = 2 ^ 53 * 2 ^ q := by
    rw [magnitude, zpow_add_one₀ two_ne_zero]
    push_cast
    ring
  obtain ⟨hbelow, _⟩ := abs_le.mp hnear
  push_cast at hbelow
  unfold InReach
  rw [if_pos (by decide), hgap, hfull, zpow_add_one₀ two_ne_zero]
  constructor <;> nlinarith

/-- A mantissa of 54 bits, or of 53 bits at a greater exponent, is out of range. -/
theorem overflow_le_of_carry (hq : maxExponent ≤ q) (hnear : |s - (2 ^ 53 : Nat)| ≤ 1 / 2) :
    overflow ≤ s * 2 ^ q := by
  have hpos : (0 : ℚ) < 2 ^ q := by positivity
  obtain ⟨hbelow, _⟩ := abs_le.mp hnear
  push_cast at hbelow
  calc overflow ≤ magnitude (2 ^ 54 - 1) (q - 1) := magnitude_mono le_rfl (by omega)
    _ = (2 ^ 53 - 1 / 2) * 2 ^ q := by
      rw [magnitude, zpow_sub_one₀ two_ne_zero]
      push_cast
      ring
    _ ≤ s * 2 ^ q := by nlinarith

theorem overflow_le_of_full (hq : maxExponent < q) (hlow : 2 ^ 52 ≤ s) : overflow ≤ s * 2 ^ q := by
  have hpos : (0 : ℚ) < 2 ^ q := by positivity
  calc overflow ≤ magnitude (2 ^ 54) (q - 2) := magnitude_mono (by decide) (by omega)
    _ = 2 ^ 52 * 2 ^ q := by
      have hshift := magnitude_shift (2 ^ 52) (q - 2) 2
      rw [Nat.cast_ofNat, sub_add_cancel] at hshift
      rw [magnitude] at hshift
      rw [← Nat.pow_add] at hshift
      rw [← hshift]
      push_cast
      rfl
    _ ≤ s * 2 ^ q := by nlinarith

/-- Rounding a number from one on gives the double that is nearest, or an infinite one where the
number is too large. -/
theorem ofRatio_cases (negative : Bool) (hden : 0 < den) (hle : den ≤ num) :
    (∃ m q, ofRatio negative num den = .finite negative m q ∧ Fits m q ∧ 0 < m ∧
      InReach m q (num / den)) ∨
    ofRatio negative num den = .infinite negative ∧ overflow ≤ num / den := by
  have hnum : num ≠ 0 := by omega
  have hone : (1 : ℚ) ≤ num / den := by
    rw [one_le_div (by exact_mod_cast hden)]
    exact_mod_cast hle
  have hdouble := isDouble_ofRatio negative num hden
  obtain ⟨hmin, hhigh, hlow⟩ := targetExponent_spec hnum hden
  obtain ⟨hnear, htie⟩ := roundRatio_near (scaleRatio num den (targetExponent num den)).1
    (scaleRatio_pos hden num (targetExponent num den))
  rw [scaleRatio_eq] at hnear htie
  unfold ofRatio at hdouble ⊢
  rw [if_neg hnum] at hdouble ⊢
  dsimp only at hdouble ⊢
  generalize targetExponent num den = q at *
  generalize roundRatio _ _ = m at *
  have hpos : (0 : ℚ) < 2 ^ q := by positivity
  have hscaled : (num : ℚ) / den = num / den / 2 ^ q * 2 ^ q := (div_mul_cancel₀ _ hpos.ne').symm
  have hlarge : 1 ≤ (num : ℚ) / den / 2 ^ q := by
    by_cases hq : q = minExponent
    · rw [one_le_div hpos]
      refine le_trans ?_ hone
      rw [hq]
      exact zpow_le_one_of_nonpos₀ one_le_two (by decide)
    · exact le_trans (by norm_num) (hlow hq)
  rw [hscaled]
  generalize (num : ℚ) / den / 2 ^ q = s at *
  by_cases hcarry : m = Nat.pow 2 53
  · rw [if_pos hcarry] at hdouble ⊢
    dsimp only at hdouble ⊢
    rw [hcarry] at hnear
    split
    · exact Or.inr ⟨rfl, overflow_le_of_carry (by omega) hnear⟩
    · rename_i hrange
      rw [if_neg hrange] at hdouble
      exact Or.inl ⟨_, _, rfl, hdouble, by decide, inReach_of_carry hmin hnear hhigh⟩
  · rw [if_neg hcarry] at hdouble ⊢
    dsimp only at hdouble ⊢
    split
    · rename_i hrange
      have hfull := hlow (by
        unfold maxExponent at hrange
        unfold minExponent
        omega)
      exact Or.inr ⟨rfl, overflow_le_of_full hrange hfull⟩
    · rename_i hrange
      rw [if_neg hrange] at hdouble
      have hm : 0 < m := by
        have hbelow := (abs_le.mp hnear).2
        have hcast : (0 : ℚ) < m := by linarith
        exact_mod_cast hcast
      exact Or.inl ⟨_, _, rfl, hdouble, hm, inReach_of_near hnear htie hlow⟩

/-- What reading a number gives: the double that is nearest, or an infinite one where the number is
too large. -/
inductive Reads (r : ℚ) : Binary64 → Prop where
  | finite {negative : Bool} {m : Nat} {q : Int} (h : RoundsTo r negative m q) :
      Reads r (.finite negative m q)
  | infinite {negative : Bool} (hsign : negative = true ↔ r < 0) (h : overflow ≤ |r|) :
      Reads r (.infinite negative)

/-- The double of a whole number is what reading the number gives. -/
theorem reads_ofInt (n : Int) : Reads n (ofInt n) := by
  by_cases hn : n = 0
  · have hzero := fits_zero.roundsTo_value false
    have hvalue : value false 0 minExponent = (n : ℚ) := by
      simp [value, magnitude, hn]
    rw [hvalue] at hzero
    rw [hn] at hzero ⊢
    exact .finite hzero
  have hsize : ((n.natAbs : Nat) : ℚ) / (1 : Nat) = |(n : ℚ)| := by
    rw [Nat.cast_one, div_one, Nat.cast_natAbs, Int.cast_abs]
  have hsign : decide (n < 0) = true ↔ (n : ℚ) < 0 := by
    rw [decide_eq_true_iff, Int.cast_lt_zero]
  unfold ofInt
  rcases ofRatio_cases (decide (n < 0)) Nat.one_pos (Int.natAbs_pos.mpr hn) with
    ⟨m, q, hfinite, hfits, hm, hreach⟩ | ⟨hinfinite, hover⟩
  · have hround := hreach.roundsTo hfits hm (decide (n < 0))
    have hvalue : (if decide (n < 0) = true then -|(n : ℚ)| else |(n : ℚ)|) = n := by
      split
      · rename_i hneg
        rw [abs_of_neg (hsign.mp hneg), neg_neg]
      · rename_i hpos
        exact abs_of_nonneg (not_lt.mp (mt hsign.mpr hpos))
    rw [hsize, hvalue] at hround
    rw [hfinite]
    exact .finite hround
  · rw [hsize] at hover
    rw [hinfinite]
    exact .infinite hsign hover

/-- Every whole number of up to 53 bits is a double, and so is the next one. -/
theorem exists_fits_of_le {n : Nat} (h : n ≤ 2 ^ 53) : ∃ m q, Fits m q ∧ magnitude m q = n := by
  by_cases hzero : n = 0
  · refine ⟨0, minExponent, fits_zero, ?_⟩
    simp [magnitude, hzero]
  by_cases hlast : n = 2 ^ 53
  · refine ⟨2 ^ 52, 1, ⟨by decide, by decide, by decide, fun hlt => absurd hlt (by decide)⟩, ?_⟩
    rw [magnitude, hlast]
    norm_num
  · have hlog : n.log2 ≤ 52 := by
      have hlt : n.log2 < 53 := (Nat.log2_lt hzero).mpr (by omega)
      omega
    obtain ⟨k, hk⟩ : ∃ k, k + n.log2 = 52 := ⟨52 - n.log2, by omega⟩
    have hlow : 2 ^ 52 ≤ n * 2 ^ k := by
      calc 2 ^ 52 = 2 ^ n.log2 * 2 ^ k := by rw [← Nat.pow_add, Nat.add_comm, hk]
        _ ≤ n * 2 ^ k := Nat.mul_le_mul_right _ (Nat.log2_self_le hzero)
    have hhigh : n * 2 ^ k < 2 ^ 53 := by
      calc n * 2 ^ k < 2 ^ (n.log2 + 1) * 2 ^ k :=
            Nat.mul_lt_mul_of_pos_right Nat.lt_log2_self (Nat.two_pow_pos k)
        _ = 2 ^ 53 := by
            rw [← Nat.pow_add]
            congr 1
            omega
    have hmin : minExponent = -1074 := rfl
    have hmax : maxExponent = 971 := rfl
    refine ⟨n * 2 ^ k, -(k : Int), ⟨hhigh, by omega, by omega, fun hlt => by omega⟩, ?_⟩
    rw [← magnitude_shift, neg_add_cancel, magnitude, zpow_zero, mul_one]

/-- A number that is a double is read as itself. -/
theorem RoundsTo.eq_of_fits {r : ℚ} {negative negative' : Bool} {m m' : Nat} {q q' : Int}
    (h : RoundsTo r negative m q) (hfits : Fits m' q') (hr : value negative' m' q' = r) :
    value negative m q = r := by
  have hnear : |r - value negative m q| ≤ |r - value negative' m' q'| := h.nearest hfits
  rw [hr, sub_self, abs_zero] at hnear
  exact (sub_eq_zero.mp (abs_eq_zero.mp (le_antisymm hnear (abs_nonneg _)))).symm

end

end Flowscript.Binary64
