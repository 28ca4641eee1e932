-- Whole numbers spelled with decimal digits alone. The digits of every script
-- lie apart from blanks, signs and underscores, so nothing is cut off and
-- nothing is left behind: the text is read as the number that it spells,
-- unless it has too many digits.
import Flowscript.Value.Number
import Mathlib.Data.List.TakeDrop
import Mathlib.Data.List.TakeWhile

namespace Flowscript

namespace Text

/-! ## Digits are neither blanks nor marks -/

/-- The zeros of the scripts lie in four stretches. The blanks lie between these. -/
theorem zeroCodes_stretch {z : Nat} (h : z ∈ zeroCodes) :
    z = 0x30 ∨ (0x660 ≤ z ∧ z ≤ 0x1090) ∨ (0x17e0 ≤ z ∧ z ≤ 0x1c50) ∨ 0xa620 ≤ z := by
  have hall : (zeroCodes.all fun z => z = 0x30 ∨ (0x660 ≤ z ∧ z ≤ 0x1090) ∨
      (0x17e0 ≤ z ∧ z ≤ 0x1c50) ∨ 0xa620 ≤ z) = true := by decide
  simpa using List.all_eq_true.mp hall z h

theorem exists_zeroCode {c : Char} (h : isDecimal c = true) :
    ∃ z ∈ zeroCodes, z ≤ c.toNat ∧ c.toNat ≤ z + 9 := by
  unfold isDecimal decimalValue? at h
  rw [Option.isSome_map, List.find?_isSome] at h
  simpa using h

theorem isBlank_of_isDecimal {c : Char} (h : isDecimal c = true) : isBlank c = false := by
  obtain ⟨z, hz, hlow, hhigh⟩ := exists_zeroCode h
  have hplace := zeroCodes_stretch hz
  by_contra hblank
  simp only [isBlank, Bool.not_eq_false, Bool.or_eq_true, Bool.and_eq_true, decide_eq_true_eq,
    beq_iff_eq] at hblank
  omega

theorem ne_of_isDecimal {c d : Char} (h : isDecimal c = true) (hd : isDecimal d = false) :
    c ≠ d := by
  rintro rfl
  rw [h] at hd
  cases hd

theorem stripChars_of_forall {p : Char → Bool} {cs : List Char} (h : ∀ c ∈ cs, p c = false) :
    stripChars p cs = cs := by
  have hdrop : ∀ l : List Char, (∀ c ∈ l, p c = false) → l.dropWhile p = l := by
    intro l hl
    cases l with
    | nil => rfl
    | cons c rest => rw [List.dropWhile_cons, hl c (by simp)]; rfl
  unfold stripChars dropEndWhile
  rw [hdrop cs h, hdrop cs.reverse fun c hc => h c (List.mem_reverse.mp hc), List.reverse_reverse]

end Text

namespace Numeral

open Text

/-! ## Reading digits -/

section

variable {cs : List Char} (h : ∀ c ∈ cs, isDecimal c = true)
include h

theorem takeSign_digits : takeSign cs = (false, cs) := by
  cases cs with
  | nil => rfl
  | cons c rest =>
    have hc := h c (by simp)
    have hminus : c ≠ '-' := ne_of_isDecimal hc (by decide)
    have hplus : c ≠ '+' := ne_of_isDecimal hc (by decide)
    unfold takeSign
    split <;> simp_all

theorem withoutUnderscores_digits : withoutUnderscores cs = cs := by
  unfold withoutUnderscores
  rw [List.filter_eq_self]
  intro c hc
  simpa using ne_of_isDecimal (h c hc) (by decide : isDecimal '_' = false)

theorem underscoresFit_digits (before : Bool) : underscoresFit before cs = true := by
  induction cs generalizing before with
  | nil => rfl
  | cons c rest ih =>
    have hmark : c ≠ '_' := ne_of_isDecimal (h c (by simp)) (by decide)
    have hrest := ih (fun d hd => h d (List.mem_cons_of_mem _ hd)) (isDecimal c)
    unfold underscoresFit
    split <;> simp_all

theorem span_digits : cs.span (fun c => isDecimal c || c = '_') = (cs, []) := by
  have hall : ∀ c ∈ cs, (isDecimal c || decide (c = '_')) = true := fun c hc => by simp [h c hc]
  rw [List.span_eq_takeWhile_dropWhile, List.takeWhile_eq_self_iff.mpr hall,
    List.dropWhile_eq_nil_iff.mpr hall]

theorem readWhole_digits (hne : cs ≠ []) :
    readWhole (String.ofList cs) =
      if maxDigits < cs.length then .error (.tooLong cs.length) else .ok (digitsValue cs : Int) := by
  have hstrip : stripChars isOuterBlank cs = cs := by
    apply stripChars_of_forall
    intro c hc
    simp [isOuterBlank, isBlank_of_isDecimal (h c hc)]
  have hsome : cs.isEmpty = false := by simpa using hne
  unfold readWhole
  simp only [String.toList_ofList, hstrip, takeSign_digits h, span_digits h,
    withoutUnderscores_digits h, underscoresFit_digits h, hsome, Bool.not_true, Bool.or_false,
    Bool.false_eq_true, if_false, List.isEmpty_nil]
  rfl

end

end Numeral

/-- A text of decimal digits is the number that they spell, or is refused for their number. -/
theorem wholeOfText_digits {s : String} (hne : s ≠ "")
    (h : ∀ c ∈ s.toList, Text.isDecimal c = true) :
    wholeOfText s =
      if Numeral.maxDigits < s.toList.length then .error (.tooLong s.toList.length)
      else .ok (Text.digitsValue s.toList : Int) := by
  have hchars : s.toList ≠ [] := by simpa using hne
  have hread := Numeral.readWhole_digits h hchars
  rw [String.ofList_toList] at hread
  unfold wholeOfText
  rw [hread]
  by_cases hlong : Numeral.maxDigits < s.toList.length <;> simp only [hlong, if_true, if_false]

end Flowscript
