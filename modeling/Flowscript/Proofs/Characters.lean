-- The characters of what is written into code: numbers, dates and names are
-- made of a few harmless characters, literals of printable ones, and comments
-- have no blanks but single spaces.
import Flowscript.Json.Printer
import Flowscript.Moment
import Flowscript.Plan.Names
import Flowscript.Proofs.Lines
import Flowscript.Text.Remark
import Flowscript.Value.Number
import Mathlib.Data.List.TakeDrop

namespace Flowscript

open Text (Unbroken)

/-! ## Numbers -/

theorem isDigit_of_mem_toDigits {n : Nat} {c : Char} (h : c ∈ Nat.toDigits 10 n) :
    c.isDigit = true :=
  Nat.isDigit_of_mem_toDigits (by decide) (by decide) h

theorem toDigits_injective {m n : Nat} (h : Nat.toDigits 10 m = Nat.toDigits 10 n) : m = n := by
  have hread := congrArg (Nat.ofDigitChars 10 · 0) h
  simpa only [Nat.ofDigitChars_ten_toDigits] using hread

/-- The digits of a number end where something else begins. -/
theorem span_toDigits (n : Nat) {rest : List Char}
    (h : ∀ c, rest.head? = some c → c.isDigit = false) :
    (Nat.toDigits 10 n ++ rest).span Char.isDigit = (Nat.toDigits 10 n, rest) := by
  have hdigits : ∀ c ∈ Nat.toDigits 10 n, c.isDigit = true := fun _ => isDigit_of_mem_toDigits
  rw [List.span_eq_takeWhile_dropWhile, List.takeWhile_append_of_pos hdigits,
    List.dropWhile_append_of_pos hdigits]
  cases rest with
  | nil => simp
  | cons c rest => simp [h c rfl]

/-- The text has no characters but those of a class. -/
def MadeOf (p : Char → Bool) (s : String) : Prop := ∀ c ∈ s.toList, p c = true

instance (p : Char → Bool) (s : String) : Decidable (MadeOf p s) :=
  decidable_of_iff (s.toList.all p = true) List.all_eq_true

/-- A class of characters that has those of numbers. -/
structure Numerals (p : Char → Bool) : Prop where
  digit : ∀ c : Char, c.isDigit = true → p c = true
  mark : ['-', '+', '.', 'e'].all p = true

section

variable {p : Char → Bool}

theorem MadeOf.append {s t : String} (hs : MadeOf p s) (ht : MadeOf p t) : MadeOf p (s ++ t) := by
  intro c hc
  rw [String.toList_append] at hc
  exact (List.mem_append.mp hc).elim (hs c) (ht c)

theorem madeOf_ofList {cs : List Char} (h : ∀ c ∈ cs, p c = true) : MadeOf p (String.ofList cs) := by
  intro c hc
  rw [String.toList_ofList] at hc
  exact h c hc

theorem madeOf_take {s : String} (h : MadeOf p s) (n : Nat) :
    MadeOf p (String.ofList (s.toList.take n)) :=
  madeOf_ofList fun c hc => h c (List.mem_of_mem_take hc)

theorem madeOf_drop {s : String} (h : MadeOf p s) (n : Nat) :
    MadeOf p (String.ofList (s.toList.drop n)) :=
  madeOf_ofList fun c hc => h c (List.mem_of_mem_drop hc)

theorem madeOf_digits (hp : ∀ c : Char, c.isDigit = true → p c = true) (n : Nat) :
    MadeOf p (toString n) := by
  intro c hc
  rw [Nat.toString_eq_repr, Nat.toList_repr] at hc
  exact hp c (isDigit_of_mem_toDigits hc)

variable (hp : Numerals p)

include hp

theorem madeOf_fixed {cs : List Char}
    (h : (cs.all fun c => c.isDigit || ['-', '+', '.', 'e'].contains c) = true) :
    MadeOf p (String.ofList cs) := by
  apply madeOf_ofList
  intro c hc
  rcases Bool.or_eq_true_iff.mp (List.all_eq_true.mp h c hc) with hdigit | hmark
  · exact hp.digit c hdigit
  · exact List.all_eq_true.mp hp.mark c (List.contains_iff_mem.mp hmark)

theorem madeOf_int (n : Int) : MadeOf p (toString n) := by
  have hsign : MadeOf p "-" := madeOf_fixed hp (by decide)
  cases n with
  | ofNat n => exact madeOf_digits hp.digit n
  | negSucc n => exact hsign.append (madeOf_digits hp.digit (n + 1))

theorem madeOf_zeros (n : Nat) : MadeOf p (Shortest.zeros n) :=
  madeOf_ofList fun c hc => by rw [List.eq_of_mem_replicate hc]; exact hp.digit '0' rfl

theorem madeOf_exponentText (e : Int) : MadeOf p (Shortest.exponentText e) := by
  unfold Shortest.exponentText
  apply MadeOf.append
  · split <;> exact madeOf_fixed hp (by decide)
  · split
    · exact (madeOf_fixed hp (by decide)).append (madeOf_digits hp.digit _)
    · exact madeOf_digits hp.digit _

theorem madeOf_decimal (d : Shortest.Decimal) : MadeOf p d.text := by
  have hdigits := madeOf_digits hp.digit d.digits
  unfold Shortest.Decimal.text
  dsimp only
  split
  · split
    · exact ((madeOf_fixed hp (by decide)).append (madeOf_zeros hp _)).append hdigits
    · split
      · exact (hdigits.append (madeOf_zeros hp _)).append (madeOf_fixed hp (by decide))
      · exact ((madeOf_take hdigits _).append (madeOf_fixed hp (by decide))).append
          (madeOf_drop hdigits _)
  · refine (((madeOf_take hdigits _).append ?_).append (madeOf_fixed hp (by decide))).append
      (madeOf_exponentText hp _)
    split
    · exact madeOf_fixed hp (by decide)
    · exact (madeOf_fixed hp (by decide)).append (madeOf_drop hdigits _)

theorem madeOf_real {sp : Binary64.Spelling} (hi : MadeOf p sp.infinity) (hn : MadeOf p sp.nan)
    (x : Binary64) : MadeOf p (x.text sp) := by
  have hsign : ∀ negative : Bool, MadeOf p (if negative then "-" else "") := by
    intro negative
    cases negative <;> exact madeOf_fixed hp (by decide)
  cases x with
  | finite negative m q =>
    refine (hsign negative).append ?_
    split
    · exact madeOf_fixed hp (by decide)
    · exact madeOf_decimal hp _
  | infinite negative => exact (hsign negative).append hi
  | nan => exact hn

end

/-! ## Numbers, dates and names -/

/-- The characters of numbers, dates and names. -/
def isInert (c : Char) : Bool :=
  c.isAlphanum || c = '_' || c = '.' || c = '+' || c = '-' || c = ':'

/-- The text has no characters but those of numbers, dates and names. -/
def Inert (s : String) : Prop := ∀ c ∈ s.toList, isInert c = true

instance (s : String) : Decidable (Inert s) := inferInstanceAs (Decidable (MadeOf isInert s))

theorem Inert.append {s t : String} (hs : Inert s) (ht : Inert t) : Inert (s ++ t) :=
  MadeOf.append hs ht

theorem inert_ofList {cs : List Char} (h : ∀ c ∈ cs, isInert c = true) :
    Inert (String.ofList cs) := madeOf_ofList h

theorem numerals_isInert : Numerals isInert where
  digit c hc := by simp [isInert, Char.isAlphanum, hc]
  mark := by decide

theorem inert_digits (n : Nat) : Inert (toString n) := madeOf_digits numerals_isInert.digit n

theorem inert_int (n : Int) : Inert (toString n) := madeOf_int numerals_isInert n

theorem inert_real {sp : Binary64.Spelling} (hi : Inert sp.infinity) (hn : Inert sp.nan)
    (x : Binary64) : Inert (x.text sp) := madeOf_real numerals_isInert hi hn x

theorem inert_padded (width n : Nat) : Inert (Moment.padded width n) :=
  (inert_ofList fun c hc => by rw [List.eq_of_mem_replicate hc]; rfl).append (inert_digits n)

theorem inert_fractionText (microseconds : Nat) : Inert (Moment.fractionText microseconds) := by
  unfold Moment.fractionText
  split
  · decide
  · exact Inert.append (by decide) (inert_padded 6 _)

theorem inert_offsetText (offset : Offset) : Inert (Moment.offsetText offset) := by
  unfold Moment.offsetText
  refine Inert.append (((Inert.append ?_ (inert_padded 2 _)).append (by decide)).append
    (inert_padded 2 _)) ?_
  · split <;> decide
  · split
    · decide
    · exact (Inert.append (by decide) (inert_padded 2 _)).append (inert_fractionText _)

theorem inert_moment (m : Moment) : Inert m.text := by
  unfold Moment.text
  refine Inert.append (Inert.append ?_ ?_) ?_
  · exact ((((((((((inert_padded 4 _).append (by decide)).append (inert_padded 2 _)).append
      (by decide)).append (inert_padded 2 _)).append (by decide)).append
      (inert_padded 2 _)).append (by decide)).append (inert_padded 2 _)).append
      (by decide)).append (inert_padded 2 _)
  · exact inert_fractionText _
  · split
    · exact inert_offsetText _
    · decide

/-- The characters of function names. -/
def isNameChar (c : Char) : Bool := c.isAlphanum || c = '_'

theorem isInert_of_isNameChar {c : Char} (h : isNameChar c = true) : isInert c = true := by
  rcases Bool.or_eq_true_iff.mp h with h | h
  · simp [isInert, h]
  · rw [of_decide_eq_true h]
    rfl

theorem isNameChar_of_isDigit {c : Char} (h : c.isDigit = true) : isNameChar c = true := by
  simp [isNameChar, Char.isAlphanum, h]

theorem isNameChar_safeChar (c : Char) : isNameChar (safeChar c) = true := by
  unfold safeChar
  split
  · rename_i h
    exact h
  · rfl

theorem madeOf_safeIdentifier (id : String) : MadeOf isNameChar (safeIdentifier id) := by
  unfold safeIdentifier
  split
  · decide
  · apply madeOf_ofList
    intro c hc
    obtain ⟨d, _, rfl⟩ := List.mem_map.mp hc
    exact isNameChar_safeChar d

/-! ## Literals -/

/-- Whether a character is a printable one of ASCII. -/
def isPrintable (c : Char) : Bool := 0x20 ≤ c.toNat && c.toNat < 0x7f

theorem isLineBreak_of_isPrintable {c : Char} (h : isPrintable c = true) :
    Text.isLineBreak c = false := by
  simp only [isPrintable, Bool.and_eq_true, decide_eq_true_eq] at h
  simp only [Text.isLineBreak, Bool.or_eq_false_iff, Bool.and_eq_false_iff, decide_eq_false_iff_not,
    beq_eq_false_iff_ne]
  omega

theorem isPrintable_of_isInert {c : Char} (h : isInert c = true) : isPrintable c = true := by
  have hcode : isInert c = ((decide (65 ≤ c.val ∧ c.val ≤ 90) || 97 ≤ c.val && c.val ≤ 122 ||
      48 ≤ c.val && c.val ≤ 57) || c = '_' || c = '.' || c = '+' || c = '-' || c = ':') := rfl
  have hval : c.val.toNat = c.toNat := rfl
  have hrange : ∀ {a b : UInt32}, 0x20 ≤ a.toNat → b.toNat < 0x7f → a ≤ c.val ∧ c.val ≤ b →
      isPrintable c = true := by
    intro a b ha hb hc
    simp only [UInt32.le_iff_toNat_le, hval] at hc
    simp only [isPrintable, Bool.and_eq_true, decide_eq_true_eq]
    omega
  simp only [hcode, Bool.or_eq_true, Bool.and_eq_true, decide_eq_true_eq] at h
  rcases h with ((((((h | h) | h) | rfl) | rfl) | rfl) | rfl) | rfl
  · exact hrange (by decide) (by decide) h
  · exact hrange (by decide) (by decide) h
  · exact hrange (by decide) (by decide) h
  all_goals rfl

theorem Inert.unbroken {s : String} (h : Inert s) : Unbroken s :=
  fun c hc => isLineBreak_of_isPrintable (isPrintable_of_isInert (h c hc))

theorem isInert_hexDigit {n : Nat} (h : n < 16) : isInert (Text.hexDigit n) = true := by
  have hall : ∀ n < 16, isInert (Text.hexDigit n) = true := by decide
  exact hall n h

theorem isInert_hexDigits {width n : Nat} {c : Char} (h : c ∈ Text.hexDigits width n) :
    isInert c = true := by
  induction width generalizing n with
  | zero => cases h
  | succ width ih =>
    rcases List.mem_append.mp h with h | h
    · exact ih h
    · rw [List.mem_singleton.mp h]
      exact isInert_hexDigit (Nat.mod_lt _ (by decide))

theorem isPrintable_unitEscape {n : Nat} {c : Char} (h : c ∈ Json.unitEscape n) :
    isPrintable c = true := by
  rcases List.mem_cons.mp h with rfl | h
  · rfl
  rcases List.mem_cons.mp h with rfl | h
  · rfl
  · exact isPrintable_of_isInert (isInert_hexDigits h)

/-- What a character becomes between double quotes: an escape of two characters, itself, or one or
two escapes of code units. -/
inductive Escaped (c : Char) : List Char → Prop where
  | short {d : Char} (hd : isPrintable d = true) : Escaped c ['\\', d]
  | self (hquote : c ≠ '"') (hslash : c ≠ '\\') (hc : isPrintable c = true) : Escaped c [c]
  | unit (n : Nat) : Escaped c (Json.unitEscape n)
  | pair (n m : Nat) : Escaped c (Json.unitEscape n ++ Json.unitEscape m)

theorem escaped_escapeChar (c : Char) : Escaped c (Json.escapeChar c) := by
  refine iteInduction (fun _ => .short rfl) fun hquote => ?_
  refine iteInduction (fun _ => .short rfl) fun hslash => ?_
  iterate 5 refine iteInduction (fun _ => .short rfl) fun _ => ?_
  refine iteInduction (fun hc => .self hquote hslash hc) fun _ => ?_
  exact iteInduction (fun _ => .unit _) fun _ => .pair _ _

theorem Escaped.isPrintable {x c : Char} {l : List Char} (h : Escaped x l) (hc : c ∈ l) :
    isPrintable c = true := by
  cases h with
  | short hd =>
    rcases List.mem_cons.mp hc with rfl | hc
    · rfl
    · rwa [List.mem_singleton.mp hc]
  | self _ _ hx => rwa [List.mem_singleton.mp hc]
  | unit n => exact isPrintable_unitEscape hc
  | pair n m => exact (List.mem_append.mp hc).elim isPrintable_unitEscape isPrintable_unitEscape

theorem unbroken_quote (s : String) : Unbroken (Json.quote s) := by
  intro c hc
  unfold Json.quote at hc
  rw [String.toList_ofList, List.cons_append, List.mem_cons, List.mem_append, List.mem_flatMap,
    List.mem_singleton] at hc
  rcases hc with rfl | ⟨x, _, hx⟩ | rfl
  · rfl
  · exact isLineBreak_of_isPrintable ((escaped_escapeChar x).isPrintable hx)
  · rfl

theorem mem_joinWith {sep : String} {xs : List String} {c : Char}
    (h : c ∈ (Text.joinWith sep xs).toList) : c ∈ sep.toList ∨ ∃ x ∈ xs, c ∈ x.toList := by
  induction xs with
  | nil => cases h
  | cons x rest ih =>
    cases rest with
    | nil => exact Or.inr ⟨x, by simp, h⟩
    | cons y rest =>
      rw [Text.joinWith, String.toList_append, String.toList_append] at h
      · simp only [List.mem_append] at h
        rcases h with (h | h) | h
        · exact Or.inr ⟨x, by simp, h⟩
        · exact Or.inl h
        · refine (ih h).imp_right ?_
          rintro ⟨z, hz, hc⟩
          exact ⟨z, List.mem_cons_of_mem _ hz, hc⟩
      · simp

/-! ## Comments -/

theorem mem_of_mem_consHead {c x : Char} {ps : List (List Char)} {w : List Char}
    (hw : w ∈ Text.consHead c ps) (hx : x ∈ w) : x = c ∨ ∃ p ∈ ps, x ∈ p := by
  cases ps with
  | nil =>
    rw [List.mem_singleton.mp hw] at hx
    exact Or.inl (List.mem_singleton.mp hx)
  | cons p rest =>
    rcases List.mem_cons.mp hw with rfl | hw
    · exact (List.mem_cons.mp hx).imp_right fun hx => ⟨p, by simp, hx⟩
    · exact Or.inr ⟨w, List.mem_cons_of_mem _ hw, hx⟩

theorem isBlank_of_mem_wordChars {cs w : List Char} {c : Char} (hw : w ∈ Text.wordChars cs)
    (hc : c ∈ w) : Text.isBlank c = false := by
  induction cs generalizing w c with
  | nil => cases hw
  | cons d rest ih =>
    unfold Text.wordChars at hw
    split at hw
    · exact ih hw hc
    · rename_i hd
      have hd : Text.isBlank d = false := by simpa using hd
      split at hw
      · rw [List.mem_singleton.mp hw] at hc
        rwa [List.mem_singleton.mp hc]
      · split at hw
        · rcases List.mem_cons.mp hw with rfl | hw
          · rwa [List.mem_singleton.mp hc]
          · exact ih hw hc
        · rcases mem_of_mem_consHead hw hc with rfl | ⟨p, hp, hc⟩
          · exact hd
          · exact ih hp hc

theorem mem_partClosers {cs : List Char} {c : Char} (h : c ∈ Text.partClosers cs) :
    c = ' ' ∨ c ∈ cs := by
  fun_induction Text.partClosers cs with
  | case1 rest ih =>
    simp only [List.mem_cons] at h ⊢
    rcases h with rfl | rfl | rfl | h
    · exact Or.inr (Or.inl rfl)
    · exact Or.inl rfl
    · exact Or.inr (Or.inr (Or.inl rfl))
    · exact (ih h).imp_right fun h => Or.inr (Or.inr h)
  | case2 d rest _ ih =>
    simp only [List.mem_cons] at h ⊢
    rcases h with rfl | h
    · exact Or.inr (Or.inl rfl)
    · exact (ih h).imp_right Or.inr
  | case3 => cases h

/-- The only blank in the text of a comment is the space. -/
theorem isBlank_of_mem_remark {s : String} {c : Char} (h : c ∈ (Text.remark s).toList) :
    c = ' ' ∨ Text.isBlank c = false := by
  unfold Text.remark Text.words at h
  rw [String.toList_ofList] at h
  rcases mem_partClosers h with h | h
  · exact Or.inl h
  rcases mem_joinWith h with h | ⟨x, hx, h⟩
  · exact Or.inl (by simpa using h)
  · obtain ⟨w, hw, rfl⟩ := List.mem_map.mp hx
    rw [String.toList_ofList] at h
    exact Or.inr (isBlank_of_mem_wordChars hw h)

theorem unbroken_remark (s : String) : Unbroken (Text.remark s) := by
  intro c hc
  rcases isBlank_of_mem_remark hc with rfl | hc
  · rfl
  · simp only [Text.isBlank, Bool.or_eq_false_iff, Bool.and_eq_false_iff, decide_eq_false_iff_not,
      beq_eq_false_iff_ne] at hc
    simp only [Text.isLineBreak, Bool.or_eq_false_iff, Bool.and_eq_false_iff,
      decide_eq_false_iff_not, beq_eq_false_iff_ne]
    omega

end Flowscript
