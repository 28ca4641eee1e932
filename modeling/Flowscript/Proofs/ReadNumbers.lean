-- Numbers that are read. Whatever text a number is read from, be it a numeral
-- that a user wrote or a JSON text with values inside values, its doubles are
-- those of the format and its whole numbers have few enough digits to be
-- printed again.
import Flowscript.Json.Reader
import Flowscript.Proofs.Doubles
import Flowscript.Proofs.Printing

namespace Flowscript

open Binary64

/-! ## Numerals -/

theorem Numeral.isDouble_readUnsigned? {negative : Bool} {cs : List Char} {x : Binary64}
    (h : Numeral.readUnsigned? negative cs = some x) : x.IsDouble := by
  unfold readUnsigned? at h
  split at h
  split at h
  split at h
  · cases h
  · obtain ⟨e, _, rfl⟩ := Option.map_eq_some_iff.mp h
    exact isDouble_ofDecimal _ _ _

theorem Numeral.isDouble_of_mem_specials {negative : Bool} {e : String × Binary64}
    (h : e ∈ specials negative) : e.2.IsDouble := by
  simp only [specials, List.mem_cons, List.not_mem_nil, or_false] at h
  rcases h with rfl | rfl | rfl <;> trivial

theorem Numeral.isDouble_readReal? {s : String} {x : Binary64} (h : Numeral.readReal? s = some x) :
    x.IsDouble := by
  unfold readReal? at h
  dsimp only at h
  split at h
  · cases h
  split at h
  · next special hspecial =>
    cases h
    obtain ⟨before, after, hsplit, _⟩ := List.lookup_eq_some_iff.mp hspecial
    exact isDouble_of_mem_specials (hsplit ▸ List.mem_append_right _ (List.mem_cons_self ..))
  · exact isDouble_readUnsigned? h

/-! ## Digits -/

theorem Text.decimalValue?_le (c : Char) : (decimalValue? c).getD 0 ≤ 9 := by
  unfold decimalValue?
  cases hfind : zeroCodes.find? fun z => z ≤ c.toNat && c.toNat ≤ z + 9 with
  | none => exact Nat.zero_le 9
  | some z =>
    have hz := List.find?_some hfind
    simp only [Bool.and_eq_true, decide_eq_true_eq] at hz
    simp only [Option.map_some, Option.getD_some]
    omega

theorem Text.digitsValue_lt (cs : List Char) : digitsValue cs < 10 ^ cs.length := by
  induction cs using List.reverseRecOn with
  | nil => exact Nat.one_pos
  | append_singleton cs c ih =>
    have hc := decimalValue?_le c
    have hsnoc : digitsValue (cs ++ [c]) = digitsValue cs * 10 + (decimalValue? c).getD 0 := by
      rw [digitsValue, List.foldl_append]
      rfl
    rw [hsnoc, List.length_append, List.length_singleton, Nat.pow_succ]
    omega

theorem natAbs_signed (negative : Bool) (m : Nat) : (signed negative m).natAbs = m := by
  cases negative with
  | true => exact Int.natAbs_neg m
  | false => rfl

theorem isShort_iff {n : Int} : isShort n = true ↔ n.natAbs < 10 ^ Numeral.maxDigits := by
  unfold isShort
  rw [decide_eq_true_iff]
  exact Nat.length_toDigits_le_iff (by decide) (by decide)

/-- A whole number of few enough digits can be printed again. -/
theorem isShort_digits (negative : Bool) {digits : List Char}
    (h : ¬ Numeral.maxDigits < digits.length) :
    isShort (signed negative (Text.digitsValue digits)) = true := by
  refine isShort_iff.mpr ?_
  rw [natAbs_signed]
  calc Text.digitsValue digits < 10 ^ digits.length := Text.digitsValue_lt digits
    _ ≤ 10 ^ Numeral.maxDigits := Nat.pow_le_pow_right (by decide) (Nat.le_of_not_lt h)

theorem isShort_wholeOfText {s : String} {n : Int} (h : wholeOfText s = .ok n) :
    isShort n = true := by
  unfold wholeOfText at h
  split at h
  · rename_i k hread
    cases h
    unfold Numeral.readWhole at hread
    dsimp only at hread
    split at hread
    · cases hread
    split at hread
    · cases hread
    rename_i hlength
    split at hread
    · cases hread
    cases hread
    exact isShort_digits _ hlength
  · cases h
  · cases h

theorem scaled_lt {m a k b : Nat} (hm : m < 2 ^ a) (hk : k ≤ b) : m * 2 ^ k < 2 ^ (a + b) :=
  calc m * 2 ^ k < 2 ^ a * 2 ^ k := Nat.mul_lt_mul_of_pos_right hm (Nat.two_pow_pos k)
    _ = 2 ^ (a + k) := (Nat.pow_add 2 a k).symm
    _ ≤ 2 ^ (a + b) := Nat.pow_le_pow_right (by decide) (Nat.add_le_add_left hk a)

/-- The greatest double has a few hundred digits before the point. -/
theorem isShort_truncate {x : Binary64} (hx : x.IsDouble) {n : Int} (h : x.truncate? = some n) :
    isShort n = true := by
  cases x with
  | infinite negative => cases h
  | nan => cases h
  | finite negative m q =>
    cases h
    have hm : m < 2 ^ 53 := Fits.mantissa_lt hx
    have hmax : q ≤ maxExponent := Fits.exponent_le hx
    have hscaled : (if 0 ≤ q then m * Nat.pow 2 q.toNat else m / Nat.pow 2 (-q).toNat) <
        2 ^ (53 + maxExponent.toNat) := by
      split
      · exact scaled_lt hm (Int.toNat_le_toNat hmax)
      · calc m / Nat.pow 2 (-q).toNat ≤ m := Nat.div_le_self m _
          _ = m * 2 ^ 0 := (Nat.mul_one m).symm
          _ < 2 ^ (53 + maxExponent.toNat) := scaled_lt hm (Nat.zero_le _)
    refine isShort_iff.mpr ?_
    rw [natAbs_signed]
    calc _ < 2 ^ (53 + maxExponent.toNat) := hscaled
      _ ≤ 10 ^ (53 + maxExponent.toNat) := Nat.pow_le_pow_left (by decide) _
      _ ≤ 10 ^ Numeral.maxDigits := Nat.pow_le_pow_right (by decide) (by decide)

/-! ## Values -/

/-- Every whole number in the value is as asked, and every double is one of the format. -/
inductive Value.HasNumbers (whole : Int → Prop) : Value → Prop where
  | null : HasNumbers whole .null
  | bool (b : Bool) : HasNumbers whole (.bool b)
  | int {n : Int} (hn : whole n) : HasNumbers whole (.int n)
  | real {x : Binary64} (hx : x.IsDouble) : HasNumbers whole (.real x)
  | text (s : String) : HasNumbers whole (.text s)
  | list {items : List Value} (hitems : ∀ v ∈ items, HasNumbers whole v) :
      HasNumbers whole (.list items)
  | object {fields : Fields} (hfields : ∀ f ∈ fields, HasNumbers whole f.2) :
      HasNumbers whole (.object fields)

/-- Every double in the value is one of the format. -/
abbrev Value.HasDoubles : Value → Prop := HasNumbers fun _ => True

/-- The value can be read from a text: its doubles are those of the format, and its whole numbers
have few enough digits to be read and printed. -/
abbrev Value.Readable : Value → Prop := HasNumbers fun n => isShort n = true

open Value (HasDoubles Readable)

theorem Value.Readable.hasDoubles {v : Value} (h : Readable v) : HasDoubles v := by
  induction h with
  | null => exact .null
  | bool b => exact .bool b
  | int _ => exact .int trivial
  | real hx => exact .real hx
  | text s => exact .text s
  | list _ ih => exact .list ih
  | object _ ih => exact .object ih

/-- What can be read can be printed. -/
theorem Value.Readable.isPrintable {v : Value} (h : Readable v) : v.isPrintable = true := by
  induction h with
  | int hn => exact hn
  | list _ ih => exact isPrintable_list.mpr ih
  | object _ ih => exact isPrintable_object.mpr ih
  | null | bool _ | real _ | text _ => rfl

theorem Fields.readable_put {fields : Fields} (h : ∀ f ∈ fields, Readable f.2)
    (e : String × Value) (he : Readable e.2) : ∀ f ∈ put e.1 e.2 fields, Readable f.2 := by
  induction fields with
  | nil =>
    intro f hf
    rw [put, List.mem_singleton] at hf
    rw [hf]
    exact he
  | cons g rest ih =>
    obtain ⟨hg, hrest⟩ := List.forall_mem_cons.mp h
    rw [put]
    split
    · exact List.forall_mem_cons.mpr ⟨he, hrest⟩
    · exact List.forall_mem_cons.mpr ⟨hg, ih hrest⟩

theorem Fields.readable_ofEntries {entries : List (String × Value)}
    (h : ∀ f ∈ entries, Readable f.2) : ∀ f ∈ ofEntries entries, Readable f.2 := by
  suffices hfold : ∀ fields : Fields, (∀ f ∈ fields, Readable f.2) →
      ∀ f ∈ entries.foldl (fun fields e => put e.1 e.2 fields) fields, Readable f.2 from
    hfold [] fun _ hf => absurd hf List.not_mem_nil
  induction entries with
  | nil => exact fun _ hfields => hfields
  | cons e rest ih =>
    obtain ⟨he, hrest⟩ := List.forall_mem_cons.mp h
    exact fun fields hfields => ih hrest _ (readable_put hfields e he)

namespace Json

theorem readable_readKeyword? {cs : List Char} {found : Value × List Char}
    (h : readKeyword? cs = some found) : Readable found.1 := by
  obtain ⟨⟨word, v⟩, hmem, hword⟩ := List.exists_of_findSome?_eq_some h
  obtain ⟨rest, _, rfl⟩ := Option.map_eq_some_iff.mp hword
  simp only [keywords, List.mem_cons, Prod.mk.injEq, List.not_mem_nil, or_false] at hmem
  rcases hmem with ⟨_, rfl⟩ | ⟨_, rfl⟩ | ⟨_, rfl⟩ | ⟨_, rfl⟩ | ⟨_, rfl⟩ | ⟨_, rfl⟩
  · exact .null
  · exact .bool true
  · exact .bool false
  · exact .real trivial
  · exact .real trivial
  · exact .real trivial

theorem readable_readNumber {cs rest : List Char} {v : Value} (h : readNumber cs = .ok (v, rest)) :
    Readable v := by
  unfold readNumber at h
  split at h
  split at h
  · cases h
  · split at h
    split at h
    split at h
    · split at h
      · cases h
      · rename_i hlength
        cases h
        exact .int (isShort_digits _ hlength)
    · cases h
      exact .real (isDouble_ofDecimal _ _ _)

/-- What is read with so many steps can be read again, be it a value, items or fields. -/
structure ReadsReadable (fuel : Nat) : Prop where
  value : ∀ {cs v rest}, readValue fuel cs = .ok (v, rest) → Readable v
  items : ∀ {cs vs rest}, readItems fuel cs = .ok (vs, rest) → ∀ v ∈ vs, Readable v
  fields : ∀ {cs fs rest}, readFields fuel cs = .ok (fs, rest) → ∀ f ∈ fs, Readable f.2

theorem ReadsReadable.readValue_succ {fuel : Nat} (h : ReadsReadable fuel) {cs rest : List Char}
    {v : Value} (hread : readValue (fuel + 1) cs = .ok (v, rest)) : Readable v := by
  rw [readValue.eq_def] at hread
  dsimp only at hread
  split at hread
  · obtain ⟨⟨s, _⟩, _, hread⟩ := except_map_eq_ok.mp hread
    cases hread
    exact .text s
  · split at hread
    · cases hread
      exact .list fun _ hv => absurd hv List.not_mem_nil
    · obtain ⟨⟨items, _⟩, hitems, hread⟩ := except_map_eq_ok.mp hread
      cases hread
      exact .list (h.items hitems)
  · split at hread
    · cases hread
      exact .object fun _ hf => absurd hf List.not_mem_nil
    · obtain ⟨⟨entries, _⟩, hentries, hread⟩ := except_map_eq_ok.mp hread
      cases hread
      exact .object (Fields.readable_ofEntries (h.fields hentries))
  · split at hread
    · next hword =>
      cases hread
      exact readable_readKeyword? hword
    · exact readable_readNumber hread

theorem ReadsReadable.readItems_succ {fuel : Nat} (h : ReadsReadable fuel) {cs rest : List Char}
    {vs : List Value} (hread : readItems (fuel + 1) cs = .ok (vs, rest)) :
    ∀ v ∈ vs, Readable v := by
  rw [readItems] at hread
  obtain ⟨⟨v, _⟩, hv, hread⟩ := except_bind_eq_ok.mp hread
  dsimp only at hread
  split at hread
  · cases hread
    exact List.forall_mem_singleton.mpr (h.value hv)
  · obtain ⟨⟨more, _⟩, hmore, hread⟩ := except_bind_eq_ok.mp hread
    cases hread
    exact List.forall_mem_cons.mpr ⟨h.value hv, h.items hmore⟩
  · cases hread

theorem ReadsReadable.readFields_succ {fuel : Nat} (h : ReadsReadable fuel) {cs rest : List Char}
    {fs : List (String × Value)} (hread : readFields (fuel + 1) cs = .ok (fs, rest)) :
    ∀ f ∈ fs, Readable f.2 := by
  rw [readFields.eq_def] at hread
  dsimp only at hread
  split at hread
  · obtain ⟨⟨name, _⟩, _, hread⟩ := except_bind_eq_ok.mp hread
    dsimp only at hread
    split at hread
    · obtain ⟨⟨v, _⟩, hv, hread⟩ := except_bind_eq_ok.mp hread
      dsimp only at hread
      split at hread
      · cases hread
        exact List.forall_mem_singleton.mpr (h.value hv)
      · obtain ⟨⟨more, _⟩, hmore, hread⟩ := except_bind_eq_ok.mp hread
        cases hread
        exact List.forall_mem_cons.mpr ⟨h.value hv, h.fields hmore⟩
      · cases hread
    · cases hread
  · cases hread

theorem readsReadable (fuel : Nat) : ReadsReadable fuel := by
  induction fuel with
  | zero =>
    constructor
    · intro cs v rest h
      cases h
    · intro cs vs rest h
      cases h
    · intro cs fs rest h
      cases h
  | succ fuel ih => exact ⟨ih.readValue_succ, ih.readItems_succ, ih.readFields_succ⟩

/-- A text has doubles of the format only, and no whole number of too many digits. -/
theorem readable_parse {s : String} {v : Value} (h : parse s = .ok v) : Readable v := by
  unfold parse at h
  split at h
  · next w hread =>
    cases h
    unfold readAll at hread
    split at hread
    · cases hread
    obtain ⟨⟨w, rest⟩, hvalue, hread⟩ := except_bind_eq_ok.mp hread
    dsimp only at hread
    split at hread
    · cases hread
      exact (readsReadable _).value hvalue
    · cases hread
  · cases h
  · cases h

end Json

/-! ## Values as numbers -/

theorem Value.isDouble_realOfInt {n : Int} {x : Binary64} (h : realOfInt n = .ok x) :
    x.IsDouble := by
  unfold realOfInt at h
  split at h
  · cases h
  · cases h
    exact isDouble_ofInt n

/-- The double that a value stands for is one of the format. -/
theorem Value.HasDoubles.isDouble_toReal {v : Value} {x : Binary64} (hv : HasDoubles v)
    (h : v.toReal = .ok x) : x.IsDouble := by
  cases hv with
  | null => cases h
  | bool b => exact isDouble_realOfInt h
  | int _ => exact isDouble_realOfInt h
  | real hx =>
    cases h
    exact hx
  | text s =>
    simp only [toReal] at h
    split at h
    · next x hread =>
      cases h
      exact Numeral.isDouble_readReal? hread
    · cases h
  | list _ => cases h
  | object _ => cases h

/-- The whole number that a readable value stands for can be printed. -/
theorem Value.Readable.isShort_toWhole {v : Value} {n : Int} (hv : Readable v)
    (h : v.toWhole = .ok n) : isShort n = true := by
  cases hv with
  | null => cases h
  | bool b =>
    cases h
    cases b <;> rfl
  | int hn =>
    cases h
    exact hn
  | real hx =>
    rename_i x
    cases x with
    | finite negative m q =>
      cases h
      exact isShort_truncate hx rfl
    | infinite negative => cases h
    | nan => cases h
  | text s => exact isShort_wholeOfText h
  | list _ => cases h
  | object _ => cases h

end Flowscript
