-- Values and their JSON text. A value without numbers of double precision is
-- read back from the literal that stands for it, at any depth and with its
-- fields in their order. So a graph may be given as an object or as the text
-- of the object.
import Flowscript.Bundle.Basic
import Flowscript.Proofs.Spelling

namespace Flowscript.Json

/-! ## Values -/

/-- A value without numbers of double precision. Its whole numbers have at most 4300 digits, and
none of its objects has two fields of one name. -/
inductive Plain : Value → Prop
  | null : Plain .null
  | bool (b : Bool) : Plain (.bool b)
  | int (n : Int) (digits : (Nat.toDigits 10 n.natAbs).length ≤ 4300) : Plain (.int n)
  | text (s : String) : Plain (.text s)
  | list (items : List Value) (each : ∀ v ∈ items, Plain v) : Plain (.list items)
  | object (fields : Fields) (names : (fields.map Prod.fst).Nodup)
      (each : ∀ f ∈ fields, Plain f.2) : Plain (.object fields)

/-- The characters of a value. -/
def chars (v : Value) : List Char := (write spaced v).toList

/-- The characters begin with one that opens a value: no blank, no end of a list and no byte order
mark. -/
def Opens (cs : List Char) : Prop :=
  ∃ c more, cs = c :: more ∧ isSpace c = false ∧ c ≠ ']' ∧ c ≠ '\ufeff'

/-- A value is read back from its characters, whatever ends it, if only the fuel covers them. -/
structure ReadsBack (v : Value) : Prop where
  opens : Opens (chars v)
  reads : ∀ (fuel : Nat) (rest : List Char), (chars v).length ≤ fuel → Stops rest →
    readValue fuel (chars v ++ rest) = .ok (v, rest)

/-- There are characters, so there is fuel for a first step. -/
theorem readsBack_of_step {v : Value} (hopens : Opens (chars v))
    (hreads : ∀ (fuel : Nat) (rest : List Char), (chars v).length ≤ fuel + 1 → Stops rest →
      readValue (fuel + 1) (chars v ++ rest) = .ok (v, rest)) : ReadsBack v := by
  refine ⟨hopens, fun fuel rest hfuel hrest => ?_⟩
  obtain ⟨c, more, hchars, _⟩ := hopens
  cases fuel with
  | zero => simp [hchars] at hfuel
  | succ fuel => exact hreads fuel rest hfuel hrest

theorem skip_blank (cs : List Char) : skip (' ' :: cs) = skip cs := rfl

theorem skip_cons {c : Char} (h : isSpace c = false) (cs : List Char) :
    skip (c :: cs) = c :: cs := by
  simp [skip, h]

theorem Opens.skip_append {cs : List Char} (h : Opens cs) (rest : List Char) :
    skip (cs ++ rest) = cs ++ rest := by
  obtain ⟨c, more, rfl, hc, _⟩ := h
  exact skip_cons hc _

/-! ## Words, numbers and texts -/

theorem readValue_word {c : Char} {cs : List Char} {found : Value × List Char} (fuel : Nat)
    (hopen : c ∉ ['"', '[', '\x7b']) (h : readKeyword? (c :: cs) = some found) :
    readValue (fuel + 1) (c :: cs) = .ok found := by
  rw [readValue.eq_def]
  split <;> simp_all

theorem readValue_number {c : Char} {cs : List Char} (fuel : Nat)
    (hopen : c ∉ ['"', '[', '\x7b']) (h : readKeyword? (c :: cs) = none) :
    readValue (fuel + 1) (c :: cs) = readNumber (c :: cs) := by
  rw [readValue.eq_def]
  split <;> simp_all

theorem readsBack_null : ReadsBack .null :=
  readsBack_of_step ⟨_, _, rfl, rfl, by decide, by decide⟩ fun fuel _ _ _ =>
    readValue_word fuel (by decide) rfl

theorem readsBack_bool (b : Bool) : ReadsBack (.bool b) := by
  cases b with
  | true =>
    exact readsBack_of_step ⟨_, _, rfl, rfl, by decide, by decide⟩ fun fuel _ _ _ =>
      readValue_word fuel (by decide) rfl
  | false =>
    exact readsBack_of_step ⟨_, _, rfl, rfl, by decide, by decide⟩ fun fuel _ _ _ =>
      readValue_word fuel (by decide) rfl

theorem readsBack_int {n : Int} (h : (Nat.toDigits 10 n.natAbs).length ≤ 4300) :
    ReadsBack (.int n) := by
  cases n with
  | ofNat m =>
    obtain ⟨d, ds, hdigits, hd⟩ := exists_digit m
    have hchars : chars (.int (.ofNat m)) = d :: ds := (toList_ofNat m).trans hdigits
    have hspace : isSpace d = false := by simp [isSpace, ne_of_isDigit hd]
    refine readsBack_of_step ⟨d, ds, hchars, hspace, ne_of_isDigit hd rfl, ne_of_isDigit hd rfl⟩ ?_
    intro fuel rest _ hrest
    have hread := readNumber_toString h hrest
    rw [toList_ofNat, hdigits] at hread
    rw [hchars, ← hread]
    refine readValue_number fuel ?_ (readKeyword?_digit hd _).1
    simp [ne_of_isDigit hd]
  | negSucc m =>
    obtain ⟨d, ds, hdigits, hd⟩ := exists_digit (m + 1)
    have hchars : chars (.int (.negSucc m)) = '-' :: d :: ds := by
      rw [← hdigits]
      exact toList_negSucc m
    refine readsBack_of_step ⟨'-', d :: ds, hchars, rfl, by decide, by decide⟩ ?_
    intro fuel rest _ hrest
    have hread := readNumber_toString h hrest
    rw [toList_negSucc, hdigits] at hread
    rw [hchars, ← hread]
    exact readValue_number fuel (by decide) (readKeyword?_digit hd _).2

theorem readsBack_text (s : String) : ReadsBack (.text s) := by
  have hchars : chars (.text s) = '"' :: (s.toList.flatMap escapeChar ++ ['"']) := toList_quote s
  refine readsBack_of_step ⟨_, _, hchars, rfl, by decide, by decide⟩ fun fuel rest _ _ => ?_
  rw [hchars, List.cons_append, List.append_assoc, List.singleton_append, readValue,
    readText_quote]
  rfl

/-! ## Lists -/

/-- The characters of items with what stands between them. -/
def itemChars (items : List Value) : List Char :=
  (Text.joinWith ", " (writeItems spaced items)).toList

theorem chars_list (items : List Value) :
    chars (.list items) = '[' :: (itemChars items ++ [']']) := by
  simp [chars, write, itemChars, spaced]

theorem itemChars_singleton (v : Value) : itemChars [v] = chars v := rfl

theorem itemChars_cons (v w : Value) (vs : List Value) :
    itemChars (v :: w :: vs) = chars v ++ ',' :: ' ' :: itemChars (w :: vs) := by
  simp [itemChars, writeItems, Text.joinWith, chars]

theorem opens_itemChars {v : Value} (h : Opens (chars v)) (vs : List Value) :
    Opens (itemChars (v :: vs)) := by
  obtain ⟨c, more, hchars, hc⟩ := h
  cases vs with
  | nil => exact ⟨c, more, hchars, hc⟩
  | cons w vs => exact ⟨c, _, by rw [itemChars_cons, hchars, List.cons_append], hc⟩

theorem readItems_chars (v : Value) (vs : List Value) (each : ∀ w ∈ v :: vs, ReadsBack w)
    (fuel : Nat) (rest : List Char) (hfuel : (itemChars (v :: vs)).length ≤ fuel) :
    readItems (fuel + 1) (itemChars (v :: vs) ++ ']' :: rest) = .ok (v :: vs, rest) := by
  induction vs generalizing v fuel with
  | nil =>
    rw [itemChars_singleton] at hfuel ⊢
    rw [readItems, (each v (by simp)).reads fuel _ hfuel (by simp [Stops])]
    rfl
  | cons w vs ih =>
    have hopens := opens_itemChars (each w (by simp)).opens vs
    rw [itemChars_cons, List.length_append, List.length_cons, List.length_cons] at hfuel
    rw [itemChars_cons, List.append_assoc, List.cons_append, List.cons_append, readItems,
      (each v (by simp)).reads fuel _ (by omega) (by simp [Stops])]
    obtain ⟨fuel, rfl⟩ : ∃ k, fuel = k + 1 := ⟨fuel - 1, by omega⟩
    show (readItems (fuel + 1) (skip (' ' :: (itemChars (w :: vs) ++ ']' :: rest))) >>= _) = _
    rw [skip_blank, hopens.skip_append,
      ih w (fun x hx => each x (List.mem_cons_of_mem _ hx)) fuel (by omega)]
    rfl

theorem readsBack_list {items : List Value} (each : ∀ v ∈ items, ReadsBack v) :
    ReadsBack (.list items) := by
  refine readsBack_of_step ⟨_, _, chars_list items, rfl, by decide, by decide⟩ ?_
  intro fuel rest hfuel _
  rw [chars_list, List.length_cons, List.length_append, List.length_singleton] at hfuel
  rw [chars_list, List.cons_append, List.append_assoc, List.singleton_append]
  cases items with
  | nil => rfl
  | cons v vs =>
    have hopens := opens_itemChars (each v (by simp)).opens vs
    obtain ⟨fuel, rfl⟩ : ∃ k, fuel = k + 1 := ⟨fuel - 1, by omega⟩
    have hitems := readItems_chars v vs each fuel rest (by omega)
    rw [readValue, hopens.skip_append]
    obtain ⟨c, more, hchars, _, hclose, _⟩ := hopens
    rw [hchars, List.cons_append] at hitems ⊢
    split
    · simp_all
    · rw [hitems]
      rfl

/-! ## Objects -/

/-- The characters of fields with what stands between them. -/
def fieldChars (fields : Fields) : List Char :=
  (Text.joinWith ", " (writeFields spaced fields)).toList

theorem chars_object (fields : Fields) :
    chars (.object fields) = '\x7b' :: (fieldChars fields ++ ['\x7d']) := by
  simp [chars, write, fieldChars, spaced]

theorem fieldChars_singleton (f : String × Value) :
    fieldChars [f] = (quote f.1).toList ++ ':' :: ' ' :: chars f.2 := by
  simp [fieldChars, writeFields, Text.joinWith, chars, spaced]

theorem fieldChars_cons (f g : String × Value) (fs : Fields) :
    fieldChars (f :: g :: fs) =
      (quote f.1).toList ++ ':' :: ' ' :: (chars f.2 ++ ',' :: ' ' :: fieldChars (g :: fs)) := by
  simp [fieldChars, writeFields, Text.joinWith, chars, spaced]

/-- Fields begin with the quote of the first name. -/
theorem exists_fieldChars (f : String × Value) (fs : Fields) :
    ∃ more, fieldChars (f :: fs) = '"' :: more := by
  cases fs with
  | nil => exact ⟨_, by rw [fieldChars_singleton, toList_quote, List.cons_append]⟩
  | cons g fs => exact ⟨_, by rw [fieldChars_cons, toList_quote, List.cons_append]⟩

/-- A field is read up to what stands behind it, and that decides whether more are to come. -/
theorem readFields_step {f : String × Value} (hf : ReadsBack f.2) {fuel : Nat}
    (hfuel : (chars f.2).length ≤ fuel) {rest : List Char} (hrest : Stops rest) :
    readFields (fuel + 1) ((quote f.1).toList ++ ':' :: ' ' :: (chars f.2 ++ rest)) =
      match skip rest with
      | '\x7d' :: rest => .ok ([f], rest)
      | ',' :: rest => do
        let (more, rest) ← readFields fuel (skip rest)
        .ok (f :: more, rest)
      | rest => stopAt .comma rest := by
  have hname := readText_quote f.1 (':' :: ' ' :: (chars f.2 ++ rest))
  rw [toList_quote, List.cons_append, List.append_assoc, List.singleton_append, readFields, hname]
  show (readValue fuel (skip (' ' :: (chars f.2 ++ rest))) >>= _) = _
  rw [skip_blank, hf.opens.skip_append, hf.reads fuel rest hfuel hrest]
  rfl

theorem readFields_chars (f : String × Value) (fs : Fields)
    (each : ∀ g ∈ f :: fs, ReadsBack g.2) (fuel : Nat) (rest : List Char)
    (hfuel : (fieldChars (f :: fs)).length ≤ fuel) :
    readFields (fuel + 1) (fieldChars (f :: fs) ++ '\x7d' :: rest) = .ok (f :: fs, rest) := by
  induction fs generalizing f fuel with
  | nil =>
    simp only [fieldChars_singleton, List.length_append, List.length_cons] at hfuel
    rw [fieldChars_singleton, List.append_assoc, List.cons_append, List.cons_append,
      readFields_step (each f (by simp)) (by omega) (by simp [Stops])]
    rfl
  | cons g fs ih =>
    simp only [fieldChars_cons, List.length_append, List.length_cons] at hfuel
    have hskip : skip (fieldChars (g :: fs) ++ '\x7d' :: rest) =
        fieldChars (g :: fs) ++ '\x7d' :: rest := by
      obtain ⟨more, hquote⟩ := exists_fieldChars g fs
      rw [hquote]
      rfl
    rw [fieldChars_cons, List.append_assoc, List.cons_append, List.cons_append, List.append_assoc,
      readFields_step (each f (by simp)) (by omega) (by simp [Stops])]
    obtain ⟨fuel, rfl⟩ : ∃ k, fuel = k + 1 := ⟨fuel - 1, by omega⟩
    show (readFields (fuel + 1)
      (skip (' ' :: (fieldChars (g :: fs) ++ '\x7d' :: rest))) >>= _) = _
    rw [skip_blank, hskip, ih g (fun x hx => each x (List.mem_cons_of_mem _ hx)) fuel (by omega)]
    rfl

theorem put_of_notMem {k : String} {v : Value} {fields : Fields} (h : k ∉ fields.map Prod.fst) :
    Fields.put k v fields = fields ++ [(k, v)] := by
  induction fields with
  | nil => rfl
  | cons f fs ih =>
    obtain ⟨name, w⟩ := f
    simp only [List.map_cons, List.mem_cons, not_or] at h
    rw [Fields.put, if_neg (Ne.symm h.1), ih h.2, List.cons_append]

theorem foldl_put {before fields : Fields} (h : ((before ++ fields).map Prod.fst).Nodup) :
    fields.foldl (fun fields e => Fields.put e.1 e.2 fields) before = before ++ fields := by
  induction fields generalizing before with
  | nil => simp
  | cons f fs ih =>
    have hnew : f.1 ∉ before.map Prod.fst := by
      rw [List.map_append, List.nodup_append] at h
      exact fun hmem => h.2.2 f.1 hmem f.1 (by simp) rfl
    rw [List.foldl_cons, put_of_notMem hnew, ih (by simpa using h)]
    simp

/-- Fields of different names all stay where they are. -/
theorem ofEntries_of_nodup {fields : Fields} (h : (fields.map Prod.fst).Nodup) :
    Fields.ofEntries fields = fields :=
  @foldl_put [] fields h

theorem readsBack_object {fields : Fields} (names : (fields.map Prod.fst).Nodup)
    (each : ∀ f ∈ fields, ReadsBack f.2) : ReadsBack (.object fields) := by
  refine readsBack_of_step ⟨_, _, chars_object fields, rfl, by decide, by decide⟩ ?_
  intro fuel rest hfuel _
  rw [chars_object, List.length_cons, List.length_append, List.length_singleton] at hfuel
  rw [chars_object, List.cons_append, List.append_assoc, List.singleton_append]
  cases fields with
  | nil => rfl
  | cons f fs =>
    obtain ⟨more, hquote⟩ := exists_fieldChars f fs
    obtain ⟨fuel, rfl⟩ : ∃ k, fuel = k + 1 := by
      simp only [hquote, List.length_cons] at hfuel
      exact ⟨fuel - 1, by omega⟩
    have hfields := readFields_chars f fs each fuel rest (by omega)
    rw [hquote, List.cons_append] at hfields ⊢
    rw [readValue]
    show (readFields (fuel + 1) ('"' :: (more ++ '\x7d' :: rest))).map _ = _
    rw [hfields]
    simp only [Except.map, ofEntries_of_nodup names]

/-! ## The round trip -/

theorem readsBack_of_plain {v : Value} (h : Plain v) : ReadsBack v := by
  induction h with
  | null => exact readsBack_null
  | bool b => exact readsBack_bool b
  | int n digits => exact readsBack_int digits
  | text s => exact readsBack_text s
  | list items _ ih => exact readsBack_list ih
  | object fields names _ ih => exact readsBack_object names ih

/-- The literal of a plain value is JSON text for it. -/
theorem parse_literal {v : Value} (h : Plain v) : parse (literal v) = .ok v := by
  have hback := readsBack_of_plain h
  obtain ⟨c, more, hchars, hspace, _, hmark⟩ := hback.opens
  have hread := hback.reads (2 * (chars v).length + 2) [] (by omega) (by simp [Stops])
  have hall : readAll (chars v) = .ok v := by
    rw [List.append_nil, hchars] at hread
    rw [hchars, readAll, skip_cons hspace, hread]
    · rfl
    · rintro rest hcons
      exact hmark (List.cons.inj hcons).1
  have hliteral : (literal v).toList = chars v := rfl
  rw [parse, hliteral, hall]

end Flowscript.Json

namespace Flowscript

open Json (Plain literal parse_literal)

theorem Graph.ofValue_literal {fields : Fields} (h : Plain (.object fields)) :
    ofValue (.text (literal (.object fields))) = ofValue (.object fields) := by
  show ofText (literal (.object fields)) = ofObject (.object fields)
  rw [ofText, parse_literal h]

namespace Compiler

/-- A graph may be given as an object or as the JSON text of the object, as long as it has no
numbers of double precision and no whole numbers of more than 4300 digits: both ways give the same
graph or the same refusal, and compiling them gives the same report. -/
theorem a_graph_and_its_text_are_the_same (fields : Fields) (h : Plain (.object fields)) :
    Graph.ofValue (.text (literal (.object fields))) = Graph.ofValue (.object fields) ∧
    ∀ (k : Compiler) (options : Value) (j : Judgement),
      k.compileValues (.text (literal (.object fields))) options j =
        k.compileValues (.object fields) options j := by
  refine ⟨Graph.ofValue_literal h, fun k options j => ?_⟩
  unfold compileValues
  rw [Graph.ofValue_literal h]

/-- A node whose settings have nested and empty lists and a number beyond any machine word. -/
def nestedNode : Value := .object [("id", .text "n"), ("type", .text "x"), ("data", .object [
  ("big", .int 123456789012345678901234567890),
  ("deep", .list [.bool true, .bool false, .null, .list [], .object []])])]

/-- An object with characters of every kind of escape in a name. -/
def escapedFields : Fields := [("id", .int (-120)),
  ("name", .text "\"a\" \\ / \x08\x0c\n\r\t \x01\x7f é 😀"), ("nodes", .list [nestedNode])]

/-- A graph with escapes and nested settings is the same from its text. -/
theorem an_escaped_graph_from_its_text :
    Graph.ofValue (.text (literal (.object escapedFields))) =
      .ok ⟨"-120", "\"a\" \\ / \x08\x0c\n\r\t \x01\x7f é 😀", none, [⟨"n", "x", [
        ("big", .int 123456789012345678901234567890),
        ("deep", .list [.bool true, .bool false, .null, .list [], .object []])]⟩], []⟩ := by
  have hdeep : Plain (.list [.bool true, .bool false, .null, .list [], .object []]) := by
    apply Plain.list
    simp only [List.forall_mem_cons]
    exact ⟨.bool _, .bool _, .null, .list _ (by simp), .object _ (by simp) (by simp), by simp⟩
  have hnode : Plain nestedNode := by
    apply Plain.object
    · decide
    simp only [List.forall_mem_cons]
    refine ⟨.text _, .text _, .object _ (by decide) ?_, by simp⟩
    simp only [List.forall_mem_cons]
    exact ⟨.int _ (by decide), hdeep, by simp⟩
  have hplain : Plain (.object escapedFields) := by
    apply Plain.object
    · decide
    simp only [escapedFields, List.forall_mem_cons]
    exact ⟨.int _ (by decide), .text _, .list _ (by simpa using hnode), by simp⟩
  rw [(a_graph_and_its_text_are_the_same escapedFields hplain).1]
  rfl

end Compiler

end Flowscript
