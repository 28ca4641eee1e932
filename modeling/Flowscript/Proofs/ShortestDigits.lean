-- The digits that are written for a double. They are tried against the
-- interval of numbers that round to it, and seventeen of them always suffice:
-- then the decimal numbers lie closer to each other than the doubles do. So
-- whatever digits are found, the decimal number reads back as the double.
import Flowscript.Number.Shortest
import Flowscript.Proofs.Doubles
import Mathlib.Data.Nat.Cast.Order.Field

namespace Flowscript.Shortest

open Binary64 (magnitude gapBelow InReach Fits minExponent)

/-! ## Digits -/

theorem width_pos (n : Nat) : 0 < width n := Nat.length_toDigits_pos

theorem width_le_iff {n k : Nat} (hk : 0 < k) : width n ≤ k ↔ n < 10 ^ k :=
  Nat.length_toDigits_le_iff (by decide) hk

theorem lt_pow_width (n : Nat) : n < 10 ^ width n := (width_le_iff (width_pos n)).mp (Nat.le_refl _)

theorem pow_width_le {n : Nat} (hn : 0 < n) : 10 ^ (width n - 1) ≤ n := by
  by_cases hone : width n - 1 = 0
  · rw [hone]
    exact hn
  · have hlonger : ¬ width n ≤ width n - 1 := by omega
    rw [width_le_iff (Nat.pos_of_ne_zero hone)] at hlonger
    exact Nat.le_of_not_lt hlonger

/-- A number has as many digits as the powers of ten around it tell. -/
theorem width_eq {n k : Nat} (hk : 0 < k) (hlow : 10 ^ (k - 1) ≤ n) (hhigh : n < 10 ^ k) :
    width n = k := by
  have hle := (width_le_iff hk).mpr hhigh
  by_contra hne
  have hless : n < 10 ^ (k - 1) := by
    by_cases hone : k - 1 = 0
    · have hpos := width_pos n
      omega
    · exact (width_le_iff (Nat.pos_of_ne_zero hone)).mp (by omega)
  omega

theorem width_mul_ten {n : Nat} (hn : 0 < n) : width (10 * n) = width n + 1 := by
  have hsplit := Nat.toDigits_append_toDigits (b := 10) (d := 0) (by decide) hn (by decide)
  have hlength := congrArg List.length hsplit
  rw [List.length_append] at hlength
  exact hlength.symm

/-- Trailing zeros count in the width only. -/
theorem dropZeros_spec (fuel : Nat) {n : Nat} (hn : 0 < n) :
    ∃ k, n = dropZeros fuel n * 10 ^ k ∧ width n = width (dropZeros fuel n) + k ∧
      0 < dropZeros fuel n := by
  induction fuel generalizing n with
  | zero => exact ⟨0, by rw [dropZeros]; omega, rfl, hn⟩
  | succ fuel ih =>
    rw [dropZeros]
    split
    · next hzero =>
      have hmod : n % 10 = 0 := by simpa [hn.ne'] using hzero
      have hten : n = 10 * (n / 10) := by omega
      obtain ⟨k, hn', hwidth, hpos⟩ := ih (n := n / 10) (by omega)
      refine ⟨k + 1, ?_, ?_, hpos⟩
      · calc n = 10 * (n / 10) := hten
          _ = 10 * (dropZeros fuel (n / 10) * 10 ^ k) := by rw [← hn']
          _ = dropZeros fuel (n / 10) * 10 ^ (k + 1) := by ring
      · calc width n = width (10 * (n / 10)) := by rw [← hten]
          _ = width (n / 10) + 1 := width_mul_ten (by omega)
          _ = width (dropZeros fuel (n / 10)) + (k + 1) := by rw [hwidth, Nat.add_assoc]
    · exact ⟨0, by omega, rfl, hn⟩

/-! ## The first digit -/

/-- A ratio of at least one has the first digit of its whole part. -/
theorem whole_bounds {num den : Nat} (hden : 0 < den) (hle : den ≤ num) :
    (10 : ℚ) ^ (width (num / den) - 1) ≤ num / den ∧ (num : ℚ) / den < 10 ^ width (num / den) := by
  have hpos : 0 < num / den := Nat.div_pos hle hden
  constructor
  · calc (10 : ℚ) ^ (width (num / den) - 1) ≤ ((num / den : Nat) : ℚ) := by
          exact_mod_cast pow_width_le hpos
      _ ≤ num / den := Nat.cast_div_le
  · have hlt := (Binary64.div_lt_iff_ratio num hden (10 ^ width (num / den))).mp (lt_pow_width _)
    exact_mod_cast hlt

theorem zpow_neg_le_iff {num den : Nat} (hden : 0 < den) (k : Nat) :
    (10 : ℚ) ^ (-(k : Int)) ≤ num / den ↔ (den : ℚ) ≤ num * 10 ^ k := by
  have hpos : (0 : ℚ) < den := by exact_mod_cast hden
  rw [zpow_neg, zpow_natCast, le_div_iff₀ hpos, inv_mul_le_iff₀ (by positivity), mul_comm]

/-- A ratio lies between the power of ten of its first digit and the next one. -/
theorem leadingPower_spec {num den : Nat} (hnum : 0 < num) (hden : 0 < den) :
    (10 : ℚ) ^ leadingPower num den ≤ num / den ∧
      (num : ℚ) / den < 10 ^ (leadingPower num den + 1) := by
  unfold leadingPower
  split
  · next hle =>
    obtain ⟨hlow, hhigh⟩ := whole_bounds hden hle
    have hwidth := width_pos (num / den)
    have hfirst : (width (num / den) : Int) - 1 = ((width (num / den) - 1 : Nat) : Int) := by omega
    rw [sub_add_cancel, hfirst, zpow_natCast, zpow_natCast]
    exact ⟨hlow, hhigh⟩
  · next hlt =>
    obtain ⟨hlow, hhigh⟩ := whole_bounds hnum (Nat.le_of_not_le hlt)
    have hwidth := width_pos (den / num)
    generalize width (den / num) = w at *
    have hnumPos : (0 : ℚ) < num := by exact_mod_cast hnum
    have hfirst : -((w : Int) - 1) = -((w - 1 : Nat) : Int) := by omega
    rw [le_div_iff₀ hnumPos] at hlow
    rw [div_lt_iff₀ hnumPos] at hhigh
    dsimp only
    split
    · next hexact =>
      have hexact : (den : ℚ) ≤ num * 10 ^ (w - 1) := by exact_mod_cast hexact
      rw [hfirst, zpow_neg_le_iff hden]
      refine ⟨hexact, ?_⟩
      have hdenPos : (0 : ℚ) < den := by exact_mod_cast hden
      calc (num : ℚ) / den ≤ 10 ^ (-((w - 1 : Nat) : Int)) := by
            rwa [zpow_neg, zpow_natCast, div_le_iff₀ hdenPos, le_inv_mul_iff₀ (by positivity)]
        _ < 10 ^ (-((w - 1 : Nat) : Int) + 1) :=
          zpow_lt_zpow_right₀ (by norm_num) (lt_add_one _)
    · next hless =>
      have hless : (num : ℚ) * 10 ^ (w - 1) < den := by exact_mod_cast Nat.lt_of_not_le hless
      have hnext : -(w : Int) + 1 = -((w - 1 : Nat) : Int) := by omega
      rw [hnext, zpow_neg_le_iff hden, ← not_le, zpow_neg_le_iff hden, not_le]
      exact ⟨by linarith, hless⟩

/-! ## Comparing decimal and binary numbers -/

theorem pow_toNat {b : ℚ} (hb : b ≠ 0) (k : Int) : b ^ k.toNat = b ^ k * b ^ (-k).toNat := by
  rcases Int.le_total 0 k with hk | hk
  · obtain ⟨n, rfl⟩ := Int.eq_ofNat_of_zero_le hk
    rw [Int.toNat_natCast, Int.toNat_of_nonpos (by omega), pow_zero, mul_one, zpow_natCast]
  · obtain ⟨n, hn⟩ := Int.eq_ofNat_of_zero_le (a := -k) (by omega)
    rw [Int.toNat_of_nonpos hk, hn, Int.toNat_natCast, pow_zero, ← neg_neg k, hn, zpow_neg,
      zpow_natCast, inv_mul_cancel₀ (pow_ne_zero n hb)]

/-- What both numbers are multiplied by. -/
def commonScale (s a : Int) : ℚ := 10 ^ (-s).toNat * 2 ^ (-a).toNat

theorem commonScale_pos (s a : Int) : 0 < commonScale s a := by
  unfold commonScale
  positivity

theorem align_eq (d : Nat) (s : Int) (x : Nat) (a : Int) :
    ((align d s x a).1 : ℚ) = d * 10 ^ s * commonScale s a ∧
      ((align d s x a).2 : ℚ) = magnitude x a * commonScale s a := by
  unfold align commonScale magnitude
  simp only [Nat.pow_eq]
  push_cast
  rw [pow_toNat (by norm_num : (10 : ℚ) ≠ 0) s, pow_toNat (by norm_num : (2 : ℚ) ≠ 0) a]
  constructor <;> ring

theorem align_le_iff {d x : Nat} {s a : Int} :
    (align d s x a).1 ≤ (align d s x a).2 ↔ (d : ℚ) * 10 ^ s ≤ magnitude x a := by
  obtain ⟨hdecimal, hbinary⟩ := align_eq d s x a
  rw [← Nat.cast_le (α := ℚ), hdecimal, hbinary, mul_le_mul_iff_left₀ (commonScale_pos s a)]

theorem align_ge_iff {d x : Nat} {s a : Int} :
    (align d s x a).2 ≤ (align d s x a).1 ↔ magnitude x a ≤ (d : ℚ) * 10 ^ s := by
  obtain ⟨hdecimal, hbinary⟩ := align_eq d s x a
  rw [← Nat.cast_le (α := ℚ), hdecimal, hbinary, mul_le_mul_iff_left₀ (commonScale_pos s a)]

theorem magnitude_quarter (x : Nat) (q : Int) : magnitude x (q - 2) = x / 4 * 2 ^ q := by
  unfold magnitude
  rw [zpow_sub₀ two_ne_zero]
  norm_num
  ring

/-- The quarters are the ends of the interval around the double. -/
theorem quarters_eq {m : Nat} (hm : 0 < m) (q : Int) :
    magnitude (quarters m q).1 (q - 2) = magnitude m q - gapBelow m q / 2 ∧
      magnitude (quarters m q).2 (q - 2) = magnitude m q + 2 ^ q / 2 := by
  rw [magnitude_quarter, magnitude_quarter]
  unfold quarters gapBelow magnitude
  simp only [Nat.pow_eq]
  constructor
  · split
    · rw [Nat.cast_sub (by omega)]
      push_cast
      ring
    · rw [Nat.cast_sub (by omega)]
      push_cast
      ring
  · push_cast
    ring

/-- The test accepts the decimal numbers in reach of the double. -/
theorem readsBack_iff {m : Nat} (hm : 0 < m) (q : Int) (d : Nat) (s : Int) :
    readsBack m q d s = true ↔ InReach m q (d * 10 ^ s) := by
  obtain ⟨hlow, hhigh⟩ := quarters_eq hm q
  have hfirst : (align d s (quarters m q).1 (q - 2)).1 = (align d s (quarters m q).2 (q - 2)).1 := rfl
  unfold readsBack InReach
  dsimp only
  rw [← hlow, ← hhigh]
  split
  · rw [Bool.and_eq_true, decide_eq_true_iff, decide_eq_true_iff, align_ge_iff, hfirst, align_le_iff]
  · rw [Bool.and_eq_true, decide_eq_true_iff, decide_eq_true_iff, ← Nat.not_le, ← Nat.not_le,
      align_le_iff, hfirst, align_ge_iff, not_le, not_le]

/-! ## Digits that are found -/

/-- The decimal number that a number of digits at a power of ten gives. -/
def Decimal.value (d : Decimal) : ℚ := d.digits * 10 ^ (d.exponent - width d.digits + 1)

/-- The digits of which the last counts `10 ^ s` and that come next below a double. -/
def lowDigits (m : Nat) (q s : Int) : Nat := (align 1 s m q).2 / (align 1 s m q).1

theorem lowDigits_bounds (m : Nat) (q s : Int) :
    (lowDigits m q s : ℚ) * 10 ^ s ≤ magnitude m q ∧
      magnitude m q < (lowDigits m q s + 1 : Nat) * 10 ^ s := by
  obtain ⟨hunit, hvalue⟩ := align_eq 1 s m q
  have hscale := commonScale_pos s q
  have hpower : (0 : ℚ) < 10 ^ s := by positivity
  have hpos : 0 < (align 1 s m q).1 := by
    have hcast : (0 : ℚ) < (align 1 s m q).1 := by
      rw [hunit]
      positivity
    exact_mod_cast hcast
  have hratio : ((align 1 s m q).2 : ℚ) / (align 1 s m q).1 = magnitude m q / 10 ^ s := by
    rw [hunit, hvalue, Nat.cast_one, one_mul, mul_div_mul_right _ _ hscale.ne']
  constructor
  · rw [← le_div_iff₀ hpower, ← hratio]
    exact Nat.cast_div_le
  · rw [← div_lt_iff₀ hpower, ← hratio]
    exact (Binary64.div_lt_iff_ratio _ hpos _).mp (Nat.lt_succ_self _)

variable {m n : Nat} {q power : Int}

/-- Where the double has its first digit at the power, the digits next below are as many as are
asked for. -/
theorem width_lowDigits (hn : 0 < n) (hlow : 10 ^ power ≤ magnitude m q)
    (hhigh : magnitude m q < 10 ^ (power + 1)) :
    10 ^ (n - 1) ≤ lowDigits m q (power - n + 1) ∧ lowDigits m q (power - n + 1) < 10 ^ n := by
  obtain ⟨hbelow, habove⟩ := lowDigits_bounds m q (power - n + 1)
  have hunit : (0 : ℚ) < 10 ^ (power - n + 1) := by positivity
  have hfirst : (10 : ℚ) ^ power = (10 ^ (n - 1) : Nat) * 10 ^ (power - n + 1) := by
    push_cast
    rw [← zpow_natCast, ← zpow_add₀ (by norm_num)]
    congr 1
    omega
  have hnext : (10 : ℚ) ^ (power + 1) = (10 ^ n : Nat) * 10 ^ (power - n + 1) := by
    push_cast
    rw [← zpow_natCast, ← zpow_add₀ (by norm_num)]
    congr 1
    omega
  generalize lowDigits m q (power - n + 1) = low at *
  constructor
  · have hlt : ((10 ^ (n - 1) : Nat) : ℚ) < (low + 1 : Nat) := by
      rw [← mul_lt_mul_iff_left₀ hunit, ← hfirst]
      linarith
    exact Nat.le_of_lt_succ (by exact_mod_cast hlt)
  · have hlt : (low : ℚ) < (10 ^ n : Nat) := by
      rw [← mul_lt_mul_iff_left₀ hunit, ← hnext]
      linarith
    exact_mod_cast hlt

/-- Digits of the length asked for, or a one behind which as many zeros stand, mean what they mean at
the given power. -/
theorem value_of_width {x : Nat} (hn : 0 < n) (hlow : 10 ^ (n - 1) ≤ x) (hhigh : x ≤ 10 ^ n) :
    Decimal.value ⟨x, if width x > n then power + 1 else power⟩ = x * 10 ^ (power - n + 1) := by
  unfold Decimal.value
  dsimp only
  by_cases hlt : x < 10 ^ n
  · have hwidth := width_eq hn hlow hlt
    rw [hwidth, if_neg (Nat.lt_irrefl n)]
  · have hwidth : width x = n + 1 := by
      refine width_eq (Nat.succ_pos n) (Nat.le_of_not_lt hlt) (Nat.lt_of_le_of_lt hhigh ?_)
      exact Nat.pow_lt_pow_right (by decide) (Nat.lt_succ_self n)
    rw [hwidth, if_pos (Nat.lt_succ_self n)]
    congr 2
    omega

/-- Digits that are found are in reach of the double. -/
theorem inReach_of_withDigits (hm : 0 < m) (hn : 0 < n) (hlow : 10 ^ power ≤ magnitude m q)
    (hhigh : magnitude m q < 10 ^ (power + 1)) {d : Decimal} (h : withDigits m q power n = some d) :
    InReach m q d.value := by
  obtain ⟨hfirst, hlast⟩ := width_lowDigits hn hlow hhigh
  have hpick : ∀ x, x = lowDigits m q (power - n + 1) ∨ x = lowDigits m q (power - n + 1) + 1 →
      readsBack m q x (power - n + 1) = true →
      InReach m q (Decimal.value ⟨x, if width x > n then power + 1 else power⟩) := by
    intro x hx hback
    rw [value_of_width hn (by omega) (by omega)]
    exact (readsBack_iff hm q x _).mp hback
  unfold withDigits at h
  dsimp only at h
  rw [← lowDigits] at h
  split at h
  · next hlowBack hhighBack =>
    cases h
    split
    · exact hpick _ (Or.inl rfl) hlowBack
    · exact hpick _ (Or.inr rfl) hhighBack
  · next hlowBack _ =>
    cases h
    exact hpick _ (Or.inl rfl) hlowBack
  · next _ hhighBack =>
    cases h
    exact hpick _ (Or.inr rfl) hhighBack
  · cases h

/-! ## Seventeen digits -/

theorem inReach_of_lt {r : ℚ} (hlow : magnitude m q - gapBelow m q / 2 < r)
    (hhigh : r < magnitude m q + 2 ^ q / 2) : InReach m q r := by
  unfold InReach
  split
  · exact ⟨hlow.le, hhigh.le⟩
  · exact ⟨hlow, hhigh⟩

/-- Seventeen digits are closer to each other than doubles of that size. -/
theorem unit_lt_gapBelow (h : Fits m q) (hlow : 10 ^ power ≤ magnitude m q) :
    (10 : ℚ) ^ (power - 17 + 1) < gapBelow m q := by
  have hstep : (0 : ℚ) < 2 ^ q := by positivity
  have hunit : (10 : ℚ) ^ (power - 17 + 1) = 10 ^ power / 10 ^ 16 := by
    rw [← zpow_natCast, ← zpow_sub₀ (by norm_num)]
    congr 1
    omega
  have hm : (m : ℚ) < 2 ^ 53 := by exact_mod_cast h.mantissa_lt
  rw [hunit, div_lt_iff₀ (by positivity)]
  refine lt_of_le_of_lt hlow ?_
  unfold magnitude gapBelow
  split
  · next hleast =>
    rw [hleast.1]
    push_cast
    generalize (2 : ℚ) ^ q = step at *
    norm_num
    linarith
  · generalize (2 : ℚ) ^ q = step at *
    calc (m : ℚ) * step < 2 ^ 53 * step := by gcongr
      _ ≤ step * 10 ^ 16 := by
        norm_num
        linarith

/-- With seventeen digits one of the two neighbours of a double is in its reach. -/
theorem isSome_withDigits (h : Fits m q) (hm : 0 < m) (hlow : 10 ^ power ≤ magnitude m q) :
    (withDigits m q power 17).isSome = true := by
  obtain ⟨hbelow, habove⟩ := lowDigits_bounds m q (power - 17 + 1)
  have hunit := unit_lt_gapBelow h hlow
  have hgap := Binary64.gapBelow_le m q
  have hback : readsBack m q (lowDigits m q (power - 17 + 1)) (power - 17 + 1) = true ∨
      readsBack m q (lowDigits m q (power - 17 + 1) + 1) (power - 17 + 1) = true := by
    rw [readsBack_iff hm, readsBack_iff hm]
    push_cast at habove ⊢
    generalize (10 : ℚ) ^ (power - 17 + 1) = unit at *
    generalize (lowDigits m q (power - 17 + 1) : ℚ) = low at *
    by_cases hnear : magnitude m q - low * unit ≤ unit / 2
    · exact Or.inl (inReach_of_lt (by linarith) (by linarith))
    · exact Or.inr (inReach_of_lt (by linarith) (by linarith))
  unfold withDigits
  dsimp only
  rw [Nat.cast_ofNat, ← lowDigits]
  split
  · rfl
  · rfl
  · rfl
  · next hlowBack hhighBack =>
    rw [hlowBack, hhighBack] at hback
    simp at hback

/-- The power of ten of the first digit of a double. -/
def firstPower (m : Nat) (q : Int) : Int :=
  if 0 ≤ q then leadingPower (m * Nat.pow 2 q.toNat) 1 else leadingPower m (Nat.pow 2 (-q).toNat)

theorem firstPower_spec (hm : 0 < m) (q : Int) :
    10 ^ firstPower m q ≤ magnitude m q ∧ magnitude m q < 10 ^ (firstPower m q + 1) := by
  unfold firstPower
  simp only [Nat.pow_eq]
  split
  · next hq =>
    obtain ⟨k, rfl⟩ := Int.eq_ofNat_of_zero_le hq
    have hratio : magnitude m k = (m * 2 ^ k : Nat) / (1 : Nat) := by
      unfold magnitude
      push_cast
      rw [zpow_natCast, div_one]
    rw [hratio]
    exact leadingPower_spec (by positivity) Nat.one_pos
  · next hq =>
    obtain ⟨k, hk⟩ := Int.eq_ofNat_of_zero_le (a := -q) (by omega)
    have hratio : magnitude m q = m / (2 ^ k : Nat) := by
      unfold magnitude
      push_cast
      rw [← neg_neg q, hk, zpow_neg, zpow_natCast, div_eq_mul_inv]
    rw [hratio, hk]
    exact leadingPower_spec hm (by positivity)

/-- Digits are found for every double. -/
theorem exists_withDigits (h : Fits m q) (hm : 0 < m) :
    ∃ d, ((List.range 17).findSome? fun k => withDigits m q (firstPower m q) (k + 1)) = some d := by
  rw [← Option.isSome_iff_exists, List.findSome?_isSome_iff]
  exact ⟨16, by decide, isSome_withDigits h hm (firstPower_spec hm q).1⟩

theorem value_pos_iff (d : Decimal) : 0 < d.value ↔ 0 < d.digits := by
  unfold Decimal.value
  rw [mul_pos_iff_of_pos_right (by positivity), Nat.cast_pos]

/-- A decimal number is the same without the zeros at the end of its digits. -/
theorem value_dropZeros (fuel : Nat) {d : Decimal} (hd : 0 < d.digits) :
    Decimal.value ⟨dropZeros fuel d.digits, d.exponent⟩ = d.value := by
  obtain ⟨k, hdigits, hwidth, _⟩ := dropZeros_spec fuel hd
  unfold Decimal.value
  dsimp only
  generalize dropZeros fuel d.digits = short at *
  have hcast : (d.digits : ℚ) = short * 10 ^ (k : Int) := by
    rw [zpow_natCast]
    exact_mod_cast hdigits
  rw [hcast, hwidth, mul_assoc, ← zpow_add₀ (by norm_num)]
  congr 2
  push_cast
  omega

/-- The decimal number that is written for a double is in its reach. -/
theorem decimal_spec (h : Fits m q) (hm : 0 < m) :
    0 < (decimal m q).digits ∧ InReach m q (decimal m q).value := by
  obtain ⟨d, hd⟩ := exists_withDigits h hm
  obtain ⟨hlow, hhigh⟩ := firstPower_spec hm q
  obtain ⟨k, _, hfound⟩ := List.exists_of_findSome?_eq_some hd
  have hreach := inReach_of_withDigits hm (Nat.succ_pos k) hlow hhigh hfound
  have hpos := (value_pos_iff d).mp (hreach.pos hm)
  have hdecimal : decimal m q = ⟨dropZeros 17 d.digits, d.exponent⟩ := by
    unfold decimal
    dsimp only
    rw [← firstPower, hd]
  obtain ⟨_, _, _, hdigits⟩ := dropZeros_spec 17 hpos
  rw [hdecimal, value_dropZeros 17 hpos]
  exact ⟨hdigits, hreach⟩

end Flowscript.Shortest
