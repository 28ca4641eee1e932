-- The spelling of texts and numbers in JSON. A text is read back character by
-- character from its escapes, those of two units included, and a whole number
-- from its digits, as long as nothing stands behind them that could belong to
-- them.
import Flowscript.Json.Reader
import Flowscript.Proofs.Characters

namespace Flowscript.Json

/-! ## Escapes -/

theorem hexValue?_hexDigit : ∀ n < 16, hexValue? (Text.hexDigit n) = some n := by decide

/-- Four digits spell the unit that they were written for. -/
theorem unitValue?_hexDigits {n : Nat} (h : n < 0x10000) :
    ∃ a b c d, Text.hexDigits 4 n = [a, b, c, d] ∧ unitValue? a b c d = some n := by
  refine ⟨_, _, _, _, rfl, ?_⟩
  unfold unitValue?
  rw [hexValue?_hexDigit _ (by omega), hexValue?_hexDigit _ (by omega),
    hexValue?_hexDigit _ (by omega), hexValue?_hexDigit _ (by omega)]
  simp only [Option.bind_eq_bind, Option.bind_some, Option.pure_def, Option.some.injEq]
  omega

/-- Something always follows an escape, if only the closing quote. -/
theorem readNext_unitEscape {n : Nat} (h : n < 0x10000) (start : Nat) {tail : List Char}
    (htail : tail ≠ []) : readNext start (unitEscape n ++ tail) = readUnit n tail := by
  obtain ⟨next, rest, rfl⟩ := List.exists_cons_of_ne_nil htail
  obtain ⟨a, b, c, d, hdigits, hvalue⟩ := unitValue?_hexDigits h
  simp only [unitEscape, hdigits, List.cons_append, List.nil_append, readNext, hvalue]

theorem readNext_plain {c : Char} (hquote : c ≠ '"') (hslash : c ≠ '\\') (start : Nat)
    (tail : List Char) :
    readNext start (c :: tail) =
      if c.toNat < 0x20 then .error (.malformed .controlCharacter (tail.length + 1))
      else .ok (.char c tail) := by
  rw [readNext.eq_def]
  split <;> simp_all

/-- The code of a character is no half of a pair. -/
theorem not_surrogate (c : Char) : isHighUnit c.toNat = false ∧ isLowUnit c.toNat = false := by
  have hvalid : c.toNat < 0xd800 ∨ 0xdfff < c.toNat ∧ c.toNat < 0x110000 := c.valid
  simp only [isHighUnit, isLowUnit, Bool.and_eq_false_iff, decide_eq_false_iff_not]
  omega

theorem readUnit_toNat {c : Char} (tail : List Char) :
    readUnit c.toNat tail = .ok (.char c tail) := by
  obtain ⟨hhigh, hlow⟩ := not_surrogate c
  have hchar : unitChar c.toNat = c := by
    simp [unitChar, hhigh, hlow, Char.ofNat_toNat]
  unfold readUnit
  split
  · simp [hhigh, hchar]
  · rw [hchar]

/-- The two halves of a character that needs a pair give it back. -/
theorem readUnit_pair {c : Char} (h : 0x10000 ≤ c.toNat) {tail : List Char} (htail : tail ≠ []) :
    readUnit (0xd800 + (c.toNat - 0x10000) / 0x400)
      (unitEscape (0xdc00 + (c.toNat - 0x10000) % 0x400) ++ tail) = .ok (.char c tail) := by
  have hvalid : c.toNat < 0xd800 ∨ 0xdfff < c.toNat ∧ c.toNat < 0x110000 := c.valid
  have hhigh : isHighUnit (0xd800 + (c.toNat - 0x10000) / 0x400) = true := by
    simp only [isHighUnit, Bool.and_eq_true, decide_eq_true_eq]
    omega
  have hlow : isLowUnit (0xdc00 + (c.toNat - 0x10000) % 0x400) = true := by
    simp only [isLowUnit, Bool.and_eq_true, decide_eq_true_eq]
    omega
  have hpair : pairChar (0xd800 + (c.toNat - 0x10000) / 0x400)
      (0xdc00 + (c.toNat - 0x10000) % 0x400) = c := by
    have hcode : 0x10000 + (0xd800 + (c.toNat - 0x10000) / 0x400 - 0xd800) * 0x400 +
        (0xdc00 + (c.toNat - 0x10000) % 0x400 - 0xdc00) = c.toNat := by omega
    rw [pairChar, hcode, Char.ofNat_toNat]
  have hsmall : 0xdc00 + (c.toNat - 0x10000) % 0x400 < 0x10000 := by omega
  obtain ⟨next, rest, rfl⟩ := List.exists_cons_of_ne_nil htail
  obtain ⟨e, f, g, k, hdigits, hvalue⟩ := unitValue?_hexDigits hsmall
  simp only [unitEscape, hdigits, List.cons_append, List.nil_append, readUnit, hhigh, hvalue, hlow,
    hpair, if_true]

/-- A written character is read back, and what stands behind it is left. -/
theorem readNext_escapeChar (start : Nat) (c : Char) {tail : List Char} (htail : tail ≠ []) :
    readNext start (escapeChar c ++ tail) = .ok (.char c tail) := by
  unfold escapeChar
  by_cases hquote : c = '"'
  · subst hquote; rfl
  by_cases hslash : c = '\\'
  · subst hslash; rfl
  by_cases hfeed : c = '\n'
  · subst hfeed; rfl
  by_cases hreturn : c = '\r'
  · subst hreturn; rfl
  by_cases htab : c = '\t'
  · subst htab; rfl
  by_cases hback : c = '\x08'
  · subst hback; rfl
  by_cases hform : c = '\x0c'
  · subst hform; rfl
  rw [if_neg hquote, if_neg hslash, if_neg hfeed, if_neg hreturn, if_neg htab, if_neg hback,
    if_neg hform]
  by_cases hplain : (0x20 ≤ c.toNat && c.toNat < 0x7f) = true
  · rw [if_pos hplain, List.singleton_append, readNext_plain hquote hslash]
    simp only [Bool.and_eq_true, decide_eq_true_eq] at hplain
    rw [if_neg (by omega)]
  rw [if_neg hplain]
  by_cases hsmall : c.toNat < 0x10000
  · rw [if_pos hsmall, readNext_unitEscape hsmall start htail, readUnit_toNat]
  · have hvalid : c.toNat < 0xd800 ∨ 0xdfff < c.toNat ∧ c.toNat < 0x110000 := c.valid
    have hhigh : 0xd800 + (c.toNat - 0x10000) / 0x400 < 0x10000 := by omega
    rw [if_neg hsmall, List.append_assoc,
      readNext_unitEscape hhigh start (by simp [unitEscape]), readUnit_pair (by omega) htail]

/-- Every character is written by at least one, or else its reading would start behind it. -/
theorem escapeChar_ne_nil (c : Char) : escapeChar c ≠ [] := by
  intro hnil
  have hread := readNext_escapeChar 0 c (List.cons_ne_nil '"' [])
  rw [hnil] at hread
  cases hread

/-! ## Texts -/

theorem readChars_escaped (start : Nat) (cs rest : List Char) (fuel : Nat)
    (hfuel : cs.length < fuel) :
    readChars start fuel (cs.flatMap escapeChar ++ '"' :: rest) = .ok (cs, rest) := by
  induction cs generalizing fuel with
  | nil =>
    obtain ⟨fuel, rfl⟩ := Nat.exists_eq_add_one.mpr hfuel
    rfl
  | cons c cs ih =>
    obtain ⟨fuel, rfl⟩ := Nat.exists_eq_add_one.mpr (Nat.zero_lt_of_lt hfuel)
    have hmore : cs.flatMap escapeChar ++ '"' :: rest ≠ [] := by simp
    rw [List.flatMap_cons, List.append_assoc, readChars,
      readNext_escapeChar start c hmore]
    show (readChars start fuel (cs.flatMap escapeChar ++ '"' :: rest) >>= _) = _
    rw [ih fuel (by simpa using hfuel)]
    rfl

theorem length_le_escaped (cs : List Char) : cs.length ≤ (cs.flatMap escapeChar).length := by
  induction cs with
  | nil => simp
  | cons c cs ih =>
    have hpos := List.length_pos_of_ne_nil (escapeChar_ne_nil c)
    rw [List.flatMap_cons, List.length_append, List.length_cons]
    omega

/-- A text is read back behind its opening quote. -/
theorem readText_quote (s : String) (rest : List Char) :
    readText (s.toList.flatMap escapeChar ++ '"' :: rest) = .ok (s, rest) := by
  have hlength := length_le_escaped s.toList
  unfold readText
  rw [readChars_escaped]
  · simp [Except.map]
  · simp only [List.length_append, List.length_cons]
    omega

theorem toList_quote (s : String) :
    (quote s).toList = '"' :: (s.toList.flatMap escapeChar ++ ['"']) := by
  simp [quote]

/-! ## Numbers -/

/-- Nothing follows, or what may stand behind a value inside a list or an object. -/
def Stops (rest : List Char) : Prop :=
  ∀ c, rest.head? = some c → c = ',' ∨ c = ']' ∨ c = '\x7d'

theorem Stops.isDigit {rest : List Char} (h : Stops rest) (c : Char)
    (hc : rest.head? = some c) : c.isDigit = false := by
  rcases h c hc with rfl | rfl | rfl <;> rfl

/-- A digit is none of the other characters. -/
theorem ne_of_isDigit {d : Char} (hd : d.isDigit = true) {c : Char} (hc : c.isDigit = false) :
    d ≠ c := by
  rintro rfl
  rw [hc] at hd
  cases hd

theorem decimalValue?_of_isDigit {c : Char} (h : c.isDigit = true) :
    Text.decimalValue? c = some (c.toNat - '0'.toNat) := by
  have hrange : '0'.toNat ≤ c.toNat ∧ c.toNat ≤ '9'.toNat := by
    simpa [Char.isDigit, Char.le_def, UInt32.le_iff_toNat_le] using h
  unfold Text.decimalValue? Text.zeroCodes
  rw [List.find?_cons_of_pos]
  · rfl
  · simpa using hrange

theorem digitsValue_toDigits (n : Nat) : Text.digitsValue (Nat.toDigits 10 n) = n := by
  have hfold : Text.digitsValue (Nat.toDigits 10 n) =
      Nat.ofDigitChars 10 (Nat.toDigits 10 n) 0 := by
    apply List.foldl_ext
    intro sofar c hc
    rw [decimalValue?_of_isDigit (isDigit_of_mem_toDigits hc), Option.getD_some, Nat.mul_comm]
  rw [hfold, Nat.ofDigitChars_ten_toDigits]

/-- Only zero is written with a leading zero. -/
theorem head?_toDigits {n : Nat} (h : n ≠ 0) : (Nat.toDigits 10 n).head? ≠ some '0' := by
  have hsingle : ∀ d < 10, d ≠ 0 → Nat.digitChar d ≠ '0' := by decide
  induction n using Nat.strongRecOn with
  | ind n ih =>
    by_cases hsmall : n < 10
    · rw [Nat.toDigits_of_lt_base hsmall]
      simpa using hsingle n hsmall h
    · rw [Nat.toDigits_of_base_le (by decide) (by omega),
        List.head?_append_of_ne_nil _ Nat.toDigits_ne_nil]
      exact ih (n / 10) (by omega) (by omega)

/-- A number begins with a digit. -/
theorem exists_digit (m : Nat) :
    ∃ d ds, Nat.toDigits 10 m = d :: ds ∧ d.isDigit = true := by
  obtain ⟨d, ds, hdigits⟩ := List.exists_cons_of_ne_nil (Nat.toDigits_ne_nil (b := 10) (n := m))
  exact ⟨d, ds, hdigits, isDigit_of_mem_toDigits (by rw [hdigits]; simp)⟩

theorem readWhole?_toDigits (n : Nat) {rest : List Char} (h : Stops rest) :
    readWhole? (Nat.toDigits 10 n ++ rest) = some (Nat.toDigits 10 n, rest) := by
  by_cases hzero : n = 0
  · subst hzero
    rfl
  · have hspan : takeDigits (Nat.toDigits 10 n ++ rest) = (Nat.toDigits 10 n, rest) :=
      span_toDigits n h.isDigit
    have hhead := head?_toDigits hzero
    obtain ⟨d, ds, hdigits, _⟩ := exists_digit n
    rw [hdigits] at hspan hhead ⊢
    have hd : d ≠ '0' := by simpa using hhead
    rw [List.cons_append] at hspan ⊢
    unfold readWhole?
    split
    · simp_all
    · rw [hspan]

theorem readFraction_stops {rest : List Char} (h : Stops rest) :
    readFraction rest = (none, rest) := by
  unfold readFraction
  split
  · simpa using h '.' rfl
  · rfl

theorem readExponent_stops {rest : List Char} (h : Stops rest) :
    readExponent rest = (none, rest) := by
  unfold readExponent
  split
  · rfl
  · rename_i e rest
    rcases h e rfl with rfl | rfl | rfl <;> rfl

theorem toList_ofNat (m : Nat) : (toString (Int.ofNat m)).toList = Nat.toDigits 10 m := by
  show (toString m).toList = _
  rw [Nat.toString_eq_repr, Nat.toList_repr]

theorem toList_negSucc (m : Nat) :
    (toString (Int.negSucc m)).toList = '-' :: Nat.toDigits 10 (m + 1) := by
  show ("-" ++ toString (m + 1)).toList = _
  rw [String.toList_append, Nat.toString_eq_repr, Nat.toList_repr]
  rfl

theorem readNumber_digits (negative : Bool) {m : Nat}
    (hlength : (Nat.toDigits 10 m).length ≤ 4300) {rest : List Char} (h : Stops rest) :
    readNumber ((if negative then ['-'] else []) ++ (Nat.toDigits 10 m ++ rest)) =
      .ok (.int (Binary64.signed negative m), rest) := by
  have hfits : ¬ Numeral.maxDigits < (Nat.toDigits 10 m).length := Nat.not_lt.mpr hlength
  obtain ⟨d, ds, hdigits, hd⟩ := exists_digit m
  unfold readNumber
  split
  rename_i minus body hsign
  obtain ⟨rfl, rfl⟩ : minus = negative ∧ body = Nat.toDigits 10 m ++ rest := by
    cases negative with
    | true =>
      cases hsign
      exact ⟨rfl, rfl⟩
    | false =>
      split at hsign
      · rename_i hcs
        rw [hdigits] at hcs
        cases hcs
        cases hd
      · cases hsign
        exact ⟨rfl, rfl⟩
  rw [readWhole?_toDigits m h]
  dsimp only
  rw [readFraction_stops h]
  dsimp only
  rw [readExponent_stops h]
  refine (if_pos rfl).trans ?_
  rw [if_neg hfits, digitsValue_toDigits]

/-- A whole number of at most the allowed digits is read back. -/
theorem readNumber_toString {n : Int} (hlength : (Nat.toDigits 10 n.natAbs).length ≤ 4300)
    {rest : List Char} (h : Stops rest) :
    readNumber ((toString n).toList ++ rest) = .ok (.int n, rest) := by
  cases n with
  | ofNat m =>
    rw [toList_ofNat]
    exact readNumber_digits false hlength h
  | negSucc m =>
    rw [toList_negSucc]
    exact readNumber_digits true hlength h

/-! ## Words -/

theorem keywords_letters : keywords =
    [(['n', 'u', 'l', 'l'], .null), (['t', 'r', 'u', 'e'], .bool true),
      (['f', 'a', 'l', 's', 'e'], .bool false), (['N', 'a', 'N'], .real .nan),
      (['I', 'n', 'f', 'i', 'n', 'i', 't', 'y'], .real (.infinite false)),
      (['-', 'I', 'n', 'f', 'i', 'n', 'i', 't', 'y'], .real (.infinite true))] := rfl

/-- No word begins with a digit, or with a minus in front of one. -/
theorem readKeyword?_digit {d : Char} (hd : d.isDigit = true) (cs : List Char) :
    readKeyword? (d :: cs) = none ∧ readKeyword? ('-' :: d :: cs) = none := by
  have hne : ∀ c : Char, c.isDigit = false → (c == d) = false :=
    fun c hc => beq_eq_false_iff_ne.mpr (ne_of_isDigit hd hc).symm
  simp [readKeyword?, keywords_letters, List.isPrefixOf?, hne]

end Flowscript.Json
