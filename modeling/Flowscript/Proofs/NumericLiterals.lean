-- Numbers in the code of a script. A numeric literal is a whole part without
-- leading zeros, a fraction behind a point and an exponent, of which some may
-- be left out; in front of it a sign may stand. A literal spells a rational
-- number, and a script has the double next to it. A whole number is written
-- as a literal that spells exactly that number, and a finite double as one
-- that reads back as the double.
import Flowscript.Proofs.ShortestDigits
import Flowscript.Proofs.Spelling

namespace Flowscript.NumericLiteral

/-! ## Literals -/

/-- The whole number of digits that take all the characters. -/
def digits? (cs : List Char) : Option Nat :=
  if !cs.isEmpty && cs.all Char.isDigit then some (Nat.ofDigitChars 10 cs 0) else none

/-- An exponent behind its mark, where a sign may stand in front of the digits. -/
def exponent? : List Char → Option Int
  | [] => some 0
  | mark :: rest =>
    if mark = 'e' || mark = 'E' then
      match rest with
      | '-' :: cs => (digits? cs).map fun n : Nat => -(n : Int)
      | '+' :: cs => (digits? cs).map fun n : Nat => (n : Int)
      | cs => (digits? cs).map fun n : Nat => (n : Int)
    else none

/-- The digits behind a point, and what follows them. -/
def fraction : List Char → List Char × List Char
  | '.' :: rest => (rest.takeWhile Char.isDigit, rest.dropWhile Char.isDigit)
  | rest => ([], rest)

/-- The number of digits of which the last counts a power of ten. -/
def scaled (cs : List Char) (e : Int) : ℚ := (Nat.ofDigitChars 10 cs 0 : ℚ) * 10 ^ e

/-- Whether digits may stand before the point: only a zero on its own begins with one. -/
def isWhole (cs : List Char) : Bool := cs == ['0'] || cs.head? != some '0'

/-- The number that a literal without a sign spells. There has to be a digit before the point or
behind it. -/
def unsigned? (cs : List Char) : Option ℚ :=
  let whole := cs.takeWhile Char.isDigit
  let (behind, rest) := fraction (cs.dropWhile Char.isDigit)
  if isWhole whole && !(whole ++ behind).isEmpty then
    (exponent? rest).map fun e => scaled (whole ++ behind) (e - behind.length)
  else none

/-- The number that a literal spells, with or without a sign, before a script rounds it to a
double. -/
def value? (s : String) : Option ℚ :=
  match s.toList with
  | '-' :: cs => (unsigned? cs).map fun r => -r
  | '+' :: cs => unsigned? cs
  | cs => unsigned? cs

/-! ## Reading digits -/

/-- What follows does not go on with a digit. -/
def Ends (rest : List Char) : Prop := ∀ c, rest.head? = some c → c.isDigit = false

theorem ends_nil : Ends [] := fun _ hc => nomatch hc

variable {whole behind rest : List Char}

theorem takeWhile_digits (h : ∀ c ∈ whole, c.isDigit = true) (hrest : Ends rest) :
    (whole ++ rest).takeWhile Char.isDigit = whole ∧
      (whole ++ rest).dropWhile Char.isDigit = rest := by
  have hstop : rest.takeWhile Char.isDigit = [] ∧ rest.dropWhile Char.isDigit = rest := by
    cases rest with
    | nil => exact ⟨rfl, rfl⟩
    | cons c cs =>
      have hc := hrest c rfl
      rw [List.takeWhile_cons, List.dropWhile_cons, hc]
      exact ⟨rfl, rfl⟩
  rw [List.takeWhile_append_of_pos h, List.dropWhile_append_of_pos h, hstop.1, hstop.2,
    List.append_nil]
  exact ⟨rfl, rfl⟩

theorem unsigned?_fraction (hne : whole ≠ []) (hwhole : ∀ c ∈ whole, c.isDigit = true)
    (hleading : isWhole whole = true) (hbehind : ∀ c ∈ behind, c.isDigit = true) (hrest : Ends rest)
    {e : Int} (he : exponent? rest = some e) :
    unsigned? (whole ++ '.' :: (behind ++ rest)) =
      some (scaled (whole ++ behind) (e - behind.length)) := by
  have hpoint : Ends ('.' :: (behind ++ rest)) := by
    intro c hc
    cases hc
    rfl
  obtain ⟨htake, hdrop⟩ := takeWhile_digits hwhole hpoint
  obtain ⟨htake', hdrop'⟩ := takeWhile_digits hbehind hrest
  have hfraction : fraction ('.' :: (behind ++ rest)) = (behind, rest) :=
    Prod.ext htake' hdrop'
  unfold unsigned?
  rw [htake, hdrop, hfraction]
  dsimp only
  rw [he, hleading]
  simp [hne]

theorem unsigned?_whole (hne : whole ≠ []) (hwhole : ∀ c ∈ whole, c.isDigit = true)
    (hleading : isWhole whole = true) (hrest : Ends rest) (hpoint : rest.head? ≠ some '.') {e : Int}
    (he : exponent? rest = some e) : unsigned? (whole ++ rest) = some (scaled whole e) := by
  obtain ⟨htake, hdrop⟩ := takeWhile_digits hwhole hrest
  have hfraction : fraction rest = ([], rest) := by
    unfold fraction
    split
    · exact absurd rfl hpoint
    · rfl
  unfold unsigned?
  rw [htake, hdrop, hfraction]
  dsimp only
  rw [he, hleading]
  simp [hne]

/-- Without a sign in front a literal is read as it is. -/
theorem value?_of_unsigned? {cs : List Char} {r : ℚ} (h : unsigned? cs = some r) :
    value? (String.ofList cs) = some r := by
  unfold value?
  rw [String.toList_ofList]
  split
  · cases h
  · cases h
  · exact h

theorem value?_of_negative {cs : List Char} {r : ℚ} (h : unsigned? cs = some r) :
    value? ("-" ++ String.ofList cs) = some (-r) := by
  have hsign : ("-" ++ String.ofList cs).toList = '-' :: cs := by simp
  unfold value?
  rw [hsign]
  exact congrArg (Option.map fun r => -r) h

/-! ## Whole numbers -/

theorem isWhole_toDigits (n : Nat) : isWhole (Nat.toDigits 10 n) = true := by
  by_cases hn : n = 0
  · rw [hn]
    rfl
  · have hhead := Json.head?_toDigits hn
    simp [isWhole, hhead]

theorem scaled_toDigits (n : Nat) (e : Int) : scaled (Nat.toDigits 10 n) e = n * 10 ^ e := by
  rw [scaled, Nat.ofDigitChars_ten_toDigits]

theorem unsigned?_toDigits (n : Nat) : unsigned? (Nat.toDigits 10 n) = some (n : ℚ) := by
  have hwhole := unsigned?_whole Nat.toDigits_ne_nil (fun _ => isDigit_of_mem_toDigits)
    (isWhole_toDigits n) ends_nil (by simp) (rfl : exponent? [] = some 0)
  rw [List.append_nil] at hwhole
  rw [hwhole, scaled_toDigits, zpow_zero, mul_one]

/-- A whole number is a literal of that number. -/
theorem value?_toString (k : Int) : value? (toString k) = some (k : ℚ) := by
  cases k with
  | ofNat n =>
    have htext : toString (Int.ofNat n) = String.ofList (Nat.toDigits 10 n) := by
      rw [← Json.toList_ofNat, String.ofList_toList]
    rw [htext]
    exact value?_of_unsigned? (unsigned?_toDigits n)
  | negSucc n =>
    have htext : toString (Int.negSucc n) = "-" ++ String.ofList (Nat.toDigits 10 (n + 1)) := by
      rw [← String.toList_inj, Json.toList_negSucc]
      simp
    rw [htext, value?_of_negative (unsigned?_toDigits (n + 1)), Int.cast_negSucc]

/-! ## Decimal numbers -/

open Shortest (Decimal width zeros isPositional exponentText)

theorem toList_zeros (k : Nat) : (zeros k).toList = List.replicate k '0' := String.toList_ofList

theorem ofDigitChars_zeros (k init : Nat) :
    Nat.ofDigitChars 10 (List.replicate k '0') init = init * 10 ^ k := by
  induction k generalizing init with
  | zero => exact (Nat.mul_one init).symm
  | succ k ih =>
    rw [List.replicate_succ, Nat.ofDigitChars_cons, ih]
    simp only [Nat.sub_self, Nat.add_zero]
    ring

/-- Zeros at the end move the digits before them. -/
theorem scaled_append_zeros (cs : List Char) (k : Nat) (e : Int) :
    scaled (cs ++ List.replicate k '0') e = scaled cs (e + k) := by
  unfold scaled
  rw [Nat.ofDigitChars_append, ofDigitChars_zeros, zpow_add₀ (by norm_num), zpow_natCast]
  push_cast
  ring

/-- Zeros in front count nothing. -/
theorem scaled_zeros_append (k : Nat) (cs : List Char) (e : Int) :
    scaled (List.replicate k '0' ++ cs) e = scaled cs e := by
  unfold scaled
  rw [Nat.ofDigitChars_append, ofDigitChars_zeros, Nat.zero_mul]

theorem digits?_toDigits (k n : Nat) :
    digits? (List.replicate k '0' ++ Nat.toDigits 10 n) = some n := by
  have hdigits : (List.replicate k '0' ++ Nat.toDigits 10 n).all Char.isDigit = true := by
    rw [List.all_append, List.all_eq_true.mpr fun _ => isDigit_of_mem_toDigits, Bool.and_true]
    simp
  have hne : (List.replicate k '0' ++ Nat.toDigits 10 n).isEmpty = false := by
    simp [Nat.toDigits_ne_nil]
  unfold digits?
  rw [hdigits, hne, Nat.ofDigitChars_append, ofDigitChars_zeros, Nat.zero_mul,
    Nat.ofDigitChars_ten_toDigits]
  rfl

/-- An exponent has a sign and its digits, with a zero in front of a single one. -/
theorem toList_exponentText (e : Int) :
    ∃ k, (exponentText e).toList =
      (if e < 0 then '-' else '+') :: (List.replicate k '0' ++ Nat.toDigits 10 e.natAbs) := by
  have hsize : (toString e.natAbs).toList = Nat.toDigits 10 e.natAbs := by
    rw [Nat.toString_eq_repr, Nat.toList_repr]
  have hsign : (if e < 0 then "-" else "+").toList = [if e < 0 then '-' else '+'] := by
    split <;> rfl
  unfold exponentText
  dsimp only
  rw [String.toList_append, hsign, List.singleton_append]
  by_cases hsingle : (toString e.natAbs).length < 2
  · refine ⟨1, ?_⟩
    rw [if_pos hsingle, String.toList_append, hsize]
    rfl
  · refine ⟨0, ?_⟩
    rw [if_neg hsingle, hsize]
    rfl

theorem exponent?_exponentText (e : Int) : exponent? ('e' :: (exponentText e).toList) = some e := by
  obtain ⟨k, hk⟩ := toList_exponentText e
  rw [hk]
  split
  · next hneg =>
    have hvalue : exponent? ('e' :: '-' :: (List.replicate k '0' ++ Nat.toDigits 10 e.natAbs)) =
        (digits? (List.replicate k '0' ++ Nat.toDigits 10 e.natAbs)).map
          fun n : Nat => -(n : Int) := rfl
    rw [hvalue, digits?_toDigits, Option.map_some]
    congr 1
    omega
  · next hpos =>
    have hvalue : exponent? ('e' :: '+' :: (List.replicate k '0' ++ Nat.toDigits 10 e.natAbs)) =
        (digits? (List.replicate k '0' ++ Nat.toDigits 10 e.natAbs)).map
          fun n : Nat => (n : Int) := rfl
    rw [hvalue, digits?_toDigits, Option.map_some]
    congr 1
    omega

theorem isDigit_zeros {k : Nat} : ∀ c ∈ List.replicate k '0', c.isDigit = true := by
  intro c hc
  rw [List.eq_of_mem_replicate hc]
  rfl

theorem isWhole_of_head? {cs : List Char} (h : cs.head? ≠ some '0') : isWhole cs = true := by
  simp [isWhole, h]

variable {n : Nat}

/-- Digits that all stand behind the point. -/
theorem unsigned?_behind (n k : Nat) :
    unsigned? ('0' :: '.' :: (List.replicate k '0' ++ Nat.toDigits 10 n)) =
      some ((n : ℚ) * 10 ^ (-(k : Int) - width n)) := by
  have hbehind : ∀ c ∈ List.replicate k '0' ++ Nat.toDigits 10 n, c.isDigit = true :=
    List.forall_mem_append.mpr ⟨isDigit_zeros, fun _ => isDigit_of_mem_toDigits⟩
  have hvalue := unsigned?_fraction (List.cons_ne_nil '0' []) (by simp) rfl hbehind ends_nil
    (rfl : exponent? [] = some 0)
  rw [List.append_nil, ← List.append_assoc, List.singleton_append, List.singleton_append,
    ← List.replicate_succ, scaled_zeros_append, scaled_toDigits, List.length_append,
    List.length_replicate] at hvalue
  rw [hvalue, width]
  congr 3
  omega

/-- Digits that all stand before the point. -/
theorem unsigned?_before (hn : 0 < n) (k : Nat) :
    unsigned? (Nat.toDigits 10 n ++ List.replicate k '0' ++ ['.', '0']) =
      some ((n : ℚ) * 10 ^ k) := by
  have hwhole : ∀ c ∈ Nat.toDigits 10 n ++ List.replicate k '0', c.isDigit = true :=
    List.forall_mem_append.mpr ⟨fun _ => isDigit_of_mem_toDigits, isDigit_zeros⟩
  have hhead : isWhole (Nat.toDigits 10 n ++ List.replicate k '0') = true := by
    apply isWhole_of_head?
    rw [List.head?_append_of_ne_nil _ Nat.toDigits_ne_nil]
    exact Json.head?_toDigits hn.ne'
  have hzero : ∀ c ∈ ['0'], c.isDigit = true := by simp
  have hvalue := unsigned?_fraction (by simp [Nat.toDigits_ne_nil]) hwhole hhead hzero ends_nil
    (rfl : exponent? [] = some 0)
  have hzeros : Nat.toDigits 10 n ++ List.replicate k '0' ++ ['0'] =
      Nat.toDigits 10 n ++ List.replicate (k + 1) '0' := by
    rw [List.replicate_succ', List.append_assoc]
  have hpower : (0 : Int) - (['0'].length : Nat) + (k + 1 : Nat) = k := by
    rw [List.length_singleton]
    omega
  rw [hzeros, scaled_append_zeros, hpower, scaled_toDigits, zpow_natCast] at hvalue
  exact hvalue

/-- Digits around the point. -/
theorem unsigned?_around (hn : 0 < n) {k : Nat} (hk : 0 < k) {rest : List Char} (hrest : Ends rest)
    {e : Int} (he : exponent? rest = some e) :
    unsigned? ((Nat.toDigits 10 n).take k ++ '.' :: ((Nat.toDigits 10 n).drop k ++ rest)) =
      some ((n : ℚ) * 10 ^ (e - (width n - k : Nat))) := by
  have hhead : isWhole ((Nat.toDigits 10 n).take k) = true := by
    apply isWhole_of_head?
    rw [List.head?_take, if_neg hk.ne']
    exact Json.head?_toDigits hn.ne'
  have hne : (Nat.toDigits 10 n).take k ≠ [] := by
    simp [Nat.toDigits_ne_nil, hk.ne']
  have hwhole : ∀ c ∈ (Nat.toDigits 10 n).take k, c.isDigit = true :=
    fun _ hc => isDigit_of_mem_toDigits (List.mem_of_mem_take hc)
  have hbehind : ∀ c ∈ (Nat.toDigits 10 n).drop k, c.isDigit = true :=
    fun _ hc => isDigit_of_mem_toDigits (List.mem_of_mem_drop hc)
  have hvalue := unsigned?_fraction hne hwhole hhead hbehind hrest he
  rw [List.take_append_drop, scaled_toDigits, List.length_drop] at hvalue
  exact hvalue

theorem toList_toString (n : Nat) : (toString n).toList = Nat.toDigits 10 n := by
  rw [Nat.toString_eq_repr, Nat.toList_repr]

theorem length_toString (n : Nat) : (toString n).length = width n := by
  rw [← String.length_toList, toList_toString]
  rfl

theorem ends_exponent (cs : List Char) : Ends ('e' :: cs) := by
  intro c hc
  cases hc
  rfl

/-- With an exponent, one digit stands before the point, and the point is left out behind a single
one. -/
theorem unsigned?_exponent (hn : 0 < n) (e : Int) :
    unsigned? ((Nat.toDigits 10 n).take 1 ++
      (if width n = 1 then [] else '.' :: (Nat.toDigits 10 n).drop 1) ++
        'e' :: (exponentText e).toList) = some ((n : ℚ) * 10 ^ (e - width n + 1)) := by
  have hwidth := Shortest.width_pos n
  split
  · next hsingle =>
    have hall : (Nat.toDigits 10 n).take 1 = Nat.toDigits 10 n := List.take_of_length_le hsingle.le
    rw [hall, List.append_nil, unsigned?_whole Nat.toDigits_ne_nil
      (fun _ => isDigit_of_mem_toDigits) (isWhole_toDigits n) (ends_exponent _) (by simp)
      (exponent?_exponentText e), scaled_toDigits, hsingle]
    congr 3
    omega
  · rw [List.append_assoc, List.cons_append, unsigned?_around hn Nat.one_pos (ends_exponent _)
      (exponent?_exponentText e)]
    congr 3
    omega

/-- The characters of a decimal number in the four ways to write it. -/
theorem toList_text (d : Decimal) :
    d.text.toList =
      if isPositional d.exponent then
        if d.exponent < 0 then '0' :: '.' :: (List.replicate ((-d.exponent).toNat - 1) '0' ++
          Nat.toDigits 10 d.digits)
        else if width d.digits ≤ d.exponent.toNat + 1 then Nat.toDigits 10 d.digits ++
          List.replicate (d.exponent.toNat + 1 - width d.digits) '0' ++ ['.', '0']
        else (Nat.toDigits 10 d.digits).take (d.exponent.toNat + 1) ++
          '.' :: (Nat.toDigits 10 d.digits).drop (d.exponent.toNat + 1)
      else (Nat.toDigits 10 d.digits).take 1 ++
        (if width d.digits = 1 then [] else '.' :: (Nat.toDigits 10 d.digits).drop 1) ++
          'e' :: (exponentText d.exponent).toList := by
  unfold Decimal.text
  dsimp only
  rw [length_toString]
  split
  · split
    · simp [toList_zeros]
    · split
      · simp [toList_zeros]
      · simp
  · split <;> simp

/-- The text of a decimal number is a literal of that number. -/
theorem unsigned?_text {d : Decimal} (hd : 0 < d.digits) :
    unsigned? d.text.toList = some d.value := by
  have hwidth := Shortest.width_pos d.digits
  rw [toList_text]
  unfold Decimal.value
  split
  · split
    · next hneg =>
      have hpower : -(((-d.exponent).toNat - 1 : Nat) : Int) - width d.digits =
          d.exponent - width d.digits + 1 := by omega
      rw [unsigned?_behind, hpower]
    · next hpos =>
      split
      · next hlong =>
        have hpower : ((d.exponent.toNat + 1 - width d.digits : Nat) : Int) =
            d.exponent - width d.digits + 1 := by omega
        rw [unsigned?_before hd, ← zpow_natCast, hpower]
      · next hshort =>
        have hpower : 0 - ((width d.digits - (d.exponent.toNat + 1) : Nat) : Int) =
            d.exponent - width d.digits + 1 := by omega
        have hvalue := unsigned?_around hd (Nat.succ_pos d.exponent.toNat) ends_nil
          (rfl : exponent? [] = some 0)
        rw [List.append_nil, hpower] at hvalue
        exact hvalue
  · exact unsigned?_exponent hd d.exponent

/-! ## Doubles -/

open Binary64 (Fits RoundsTo)

theorem value?_signed (negative : Bool) {s : String} {r : ℚ} (h : unsigned? s.toList = some r) :
    value? ((if negative then "-" else "") ++ s) = some (if negative then -r else r) := by
  rw [← String.ofList_toList (s := s)]
  cases negative with
  | true => exact value?_of_negative h
  | false =>
    rw [if_neg Bool.false_ne_true, String.empty_append]
    exact value?_of_unsigned? h

/-- A finite double is written as a literal that reads back as the double. -/
theorem value?_double (negative : Bool) {m : Nat} {q : Int} (h : Fits m q)
    (spelling : Binary64.Spelling) :
    ∃ r, value? ((Binary64.finite negative m q).text spelling) = some r ∧
      RoundsTo r negative m q := by
  unfold Binary64.text
  dsimp only
  by_cases hm : m = 0
  · have hzero : unsigned? "0.0".toList = some 0 := by
      have hvalue := unsigned?_behind 0 0
      rwa [Nat.cast_zero, zero_mul] at hvalue
    have hround := h.roundsTo_value negative
    rw [Binary64.value, Binary64.magnitude, hm, Nat.cast_zero, zero_mul] at hround
    rw [hm, if_pos rfl]
    exact ⟨_, value?_signed negative hzero, hround⟩
  · have hpos := Nat.pos_of_ne_zero hm
    obtain ⟨hdigits, hreach⟩ := Shortest.decimal_spec h hpos
    rw [if_neg hm]
    exact ⟨_, value?_signed negative (unsigned?_text hdigits), hreach.roundsTo h hpos negative⟩

end Flowscript.NumericLiteral
