-- Tokens of the generated code: words, strings and signs, without blanks and
-- comments. Tokens are found along the modes of the lexer. A text between
-- double quotes is one token, and whatever value an expression carries, the
-- words of its code have none of the characters by which the words that are
-- looked for are known.
import Flowscript.Proofs.Lexer

namespace Flowscript.Lexer

/-! ## The scanner -/

/-- A token: a word, a string with its marks, or another character that is no blank. -/
inductive Token where
  | word (cs : List Char)
  | quoted (cs : List Char)
  | sign (c : Char)
deriving DecidableEq, Repr

/-- The characters of words. -/
def isWord (c : Char) : Bool := c.isAlphanum || c = '_' || c = '$'

/-- The mode behind a character of code. -/
def Mode.afterCode (c : Char) : Mode :=
  if c = '"' || c = '\'' then .string c else if c = '/' then .slash else .code

/-- The mode behind a character. -/
def Mode.after (mode : Mode) (c : Char) : Mode :=
  match mode with
  | .code => .afterCode c
  | .slash => if c = '/' then .remark else if c = '*' then .block else .afterCode c
  | .string mark => if c = mark then .code else if c = '\\' then .escape mark else .string mark
  | .escape mark => .string mark
  | .remark => if endsLine c then .code else .remark
  | .block => if c = '*' then .star else .block
  | .star => if c = '/' then .code else if c = '*' then .star else .block

/-- Where the scanner stands: the mode, and the characters of the word or string that has begun. -/
structure Cursor where
  mode : Mode
  held : List Char
deriving DecidableEq, Repr

/-- The start of a line of code. -/
def Cursor.start : Cursor := ⟨.code, []⟩

/-- The word that ends with the characters held, if there is one. -/
def heldWord (held : List Char) : List Token := if held.isEmpty then [] else [.word held]

theorem mem_heldWord {held : List Char} {t : Token} (h : t ∈ heldWord held) : t = .word held := by
  unfold heldWord at h
  split at h
  · cases h
  · exact List.mem_singleton.mp h

/-- The tokens that a character of code completes. -/
def codeTokens (held : List Char) (c : Char) : List Token :=
  if isWord c then []
  else heldWord held ++
    if Text.isBlank c || c = '"' || c = '\'' || c = '/' then [] else [.sign c]

/-- What is held behind a character of code. -/
def codeHeld (held : List Char) (c : Char) : List Char :=
  if isWord c then held ++ [c] else if c = '"' || c = '\'' then [c] else []

/-- The tokens that a character completes. A slash that opens no comment is a sign. -/
def Cursor.tokens (k : Cursor) (c : Char) : List Token :=
  match k.mode with
  | .code => codeTokens k.held c
  | .slash => if c = '/' || c = '*' then [] else .sign '/' :: codeTokens [] c
  | .string mark => if c = mark then [.quoted (k.held ++ [c])] else []
  | _ => []

/-- What is held behind a character. -/
def Cursor.heldAfter (k : Cursor) (c : Char) : List Char :=
  match k.mode with
  | .code => codeHeld k.held c
  | .slash => if c = '/' || c = '*' then [] else codeHeld [] c
  | .string mark => if c = mark then [] else k.held ++ [c]
  | .escape _ => k.held ++ [c]
  | _ => []

/-- The scanner behind a character. -/
def Cursor.after (k : Cursor) (c : Char) : Cursor := ⟨k.mode.after c, k.heldAfter c⟩

/-- Scans characters in order. -/
def scan : Cursor → List Char → Cursor × List Token
  | k, [] => (k, [])
  | k, c :: cs =>
    let (t, tokens) := scan (k.after c) cs
    (t, k.tokens c ++ tokens)

/-- The tokens of a text, as they are where a line feed follows it. -/
def tokens (text : String) : List Token := (scan .start (text ++ "\n").toList).2

/-- The arguments of the calls of a function: wherever its name stands in front of an opening
bracket, the tokens up to the next closing one. -/
def argumentsOf (name : List Char) : List Token → List (List Token)
  | [] => []
  | t :: rest =>
    if t = .word name && rest.head? = some (.sign '(') then
      rest.tail.takeWhile (· ≠ .sign ')') :: argumentsOf name rest
    else argumentsOf name rest

example : tokens "f(\"a)\", ['b\\'']); // (" =
    [.word ['f'], .sign '(', .quoted ['"', 'a', ')', '"'], .sign ',', .sign '[',
      .quoted ['\'', 'b', '\\', '\'', '\''], .sign ']', .sign ')', .sign ';'] := by decide

/-! ## Scanning in parts -/

/-- Scanning the characters leads from one place to another and gives these tokens. -/
def Scans (k : Cursor) (cs : List Char) (ts : List Token) (t : Cursor) : Prop := scan k cs = (t, ts)

theorem scans_nil (k : Cursor) : Scans k [] [] k := rfl

theorem scans_cons {k t : Cursor} {c : Char} {cs : List Char} {ts : List Token} :
    Scans k (c :: cs) ts t ↔ ∃ us, Scans (k.after c) cs us t ∧ ts = k.tokens c ++ us := by
  unfold Scans
  rw [scan]
  constructor
  · intro h
    obtain ⟨hcursor, htokens⟩ := Prod.mk.inj h
    exact ⟨_, Prod.ext hcursor rfl, htokens.symm⟩
  · rintro ⟨us, hus, rfl⟩
    rw [hus]

theorem Scans.append {k t u : Cursor} {cs ds : List Char} {ts us : List Token}
    (h : Scans k cs ts t) (h' : Scans t ds us u) : Scans k (cs ++ ds) (ts ++ us) u := by
  induction cs generalizing k ts with
  | nil =>
    cases h
    exact h'
  | cons c cs ih =>
    obtain ⟨rest, hrest, rfl⟩ := scans_cons.mp h
    exact scans_cons.mpr ⟨_, ih hrest, List.append_assoc ..⟩

theorem Scans.joined {k t u : Cursor} {x y : String} {ts us : List Token}
    (hx : Scans k x.toList ts t) (hy : Scans t y.toList us u) :
    Scans k (x ++ y).toList (ts ++ us) u := by
  rw [String.toList_append]
  exact hx.append hy

theorem scans_fixed {k t : Cursor} {cs : List Char} {ts : List Token} (h : scan k cs = (t, ts)) :
    Scans k (String.ofList cs).toList ts t := by
  rw [String.toList_ofList]
  exact h

/-- Behind a character that is in no word, nothing of the word before it is left but the token. -/
theorem Scans.apart {c : Char} {cs : List Char} {ts : List Token} {t : Cursor}
    (hc : isWord c = false) (h : Scans .start (c :: cs) ts t) (held : List Char) :
    Scans ⟨.code, held⟩ (c :: cs) (heldWord held ++ ts) t := by
  have hafter : Cursor.after ⟨.code, held⟩ c = Cursor.start.after c := by
    simp [Cursor.after, Cursor.heldAfter, codeHeld, Cursor.start, hc]
  have htokens : Cursor.tokens ⟨.code, held⟩ c = heldWord held ++ Cursor.start.tokens c := by
    simp [Cursor.tokens, codeTokens, Cursor.start, hc, heldWord]
  obtain ⟨us, hus, rfl⟩ := scans_cons.mp h
  exact scans_cons.mpr ⟨us, by rw [hafter]; exact hus, by rw [htokens, List.append_assoc]⟩

theorem scans_word {held cs : List Char} (h : ∀ c ∈ cs, isWord c = true) :
    Scans ⟨.code, held⟩ cs [] ⟨.code, held ++ cs⟩ := by
  induction cs generalizing held with
  | nil =>
    rw [List.append_nil]
    exact scans_nil _
  | cons c cs ih =>
    have hc := h c (by simp)
    have hne : ∀ d, isWord d = false → c ≠ d := by
      rintro d hd rfl
      rw [hc] at hd
      cases hd
    have hrest := @ih (held ++ [c]) fun d hd => h d (List.mem_cons_of_mem _ hd)
    rw [List.append_assoc] at hrest
    refine scans_cons.mpr ⟨[], ?_, by simp [Cursor.tokens, codeTokens, hc]⟩
    simpa [Cursor.after, Mode.after, Mode.afterCode, Cursor.heldAfter, codeHeld, hc, hne '"' rfl,
      hne '\'' rfl, hne '/' rfl] using hrest

theorem isWord_of_isNameChar {c : Char} (h : isNameChar c = true) : isWord c = true := by
  unfold isWord
  rw [Bool.or_eq_true]
  exact Or.inl h

/-! ## Strings -/

/-- The escape of a character goes on with the string. -/
theorem scans_string {held : List Char} {c : Char} (hquote : c ≠ '"') (hslash : c ≠ '\\') :
    Scans ⟨.string '"', held⟩ [c] [] ⟨.string '"', held ++ [c]⟩ := by
  simp [Scans, scan, Cursor.after, Mode.after, Cursor.tokens, Cursor.heldAfter, hquote, hslash]

theorem scans_inert {held cs : List Char} (h : ∀ c ∈ cs, isInert c = true) :
    Scans ⟨.string '"', held⟩ cs [] ⟨.string '"', held ++ cs⟩ := by
  induction cs generalizing held with
  | nil =>
    rw [List.append_nil]
    exact scans_nil _
  | cons c cs ih =>
    have hc := h c (by simp)
    have hfirst : Scans ⟨.string '"', held⟩ [c] [] ⟨.string '"', held ++ [c]⟩ := by
      refine scans_string ?_ ?_
      · rintro rfl
        cases hc
      · rintro rfl
        cases hc
    have hrest := hfirst.append (ih fun d hd => h d (List.mem_cons_of_mem _ hd))
    rwa [List.append_assoc] at hrest

theorem scans_unitEscape (held : List Char) (n : Nat) :
    Scans ⟨.string '"', held⟩ (Json.unitEscape n) [] ⟨.string '"', held ++ Json.unitEscape n⟩ := by
  have hstart : Scans ⟨.string '"', held⟩ ['\\', 'u'] [] ⟨.string '"', held ++ ['\\', 'u']⟩ := by
    simp [Scans, scan, Cursor.after, Mode.after, Cursor.tokens, Cursor.heldAfter]
  have hall := hstart.append (scans_inert fun c hc => isInert_hexDigits hc :
    Scans _ (Text.hexDigits 4 n) [] _)
  rwa [List.append_assoc] at hall

theorem scans_escaped {held : List Char} {c : Char} {l : List Char} (h : Escaped c l) :
    Scans ⟨.string '"', held⟩ l [] ⟨.string '"', held ++ l⟩ := by
  cases h with
  | short hd => simp [Scans, scan, Cursor.after, Mode.after, Cursor.tokens, Cursor.heldAfter]
  | self hquote hslash _ => exact scans_string hquote hslash
  | unit n => exact scans_unitEscape held n
  | pair n m =>
    have hboth := (scans_unitEscape held n).append (scans_unitEscape _ m)
    rwa [List.append_assoc] at hboth

/-- A text between double quotes is one token. -/
theorem scans_quote (x : String) :
    Scans .start (Json.quote x).toList [.quoted (Json.quote x).toList] .start := by
  have hinner : ∀ (cs held : List Char), Scans ⟨.string '"', held⟩ (cs.flatMap Json.escapeChar) []
      ⟨.string '"', held ++ cs.flatMap Json.escapeChar⟩ := by
    intro cs
    induction cs with
    | nil =>
      intro held
      rw [List.flatMap_nil, List.append_nil]
      exact scans_nil _
    | cons c cs ih =>
      intro held
      have hboth := (scans_escaped (escaped_escapeChar c)).append (ih (held ++ Json.escapeChar c))
      rw [List.append_assoc] at hboth
      exact hboth
  have hopen : Scans .start ['"'] [] ⟨.string '"', ['"']⟩ := rfl
  have hclose : ∀ held, Scans ⟨.string '"', held⟩ ['"'] [.quoted (held ++ ['"'])] .start := by
    intro held
    simp [Scans, scan, Cursor.after, Mode.after, Cursor.tokens, Cursor.heldAfter, Cursor.start]
  unfold Json.quote
  rw [String.toList_ofList]
  have hall := (hopen.append (hinner x.toList _)).append (hclose _)
  simpa using hall

/-! ## Words and strings of a class -/

/-- The value has the text, as a text or as the name of a field in it. -/
inductive Mentions : Value → String → Prop where
  | text (s : String) : Mentions (.text s) s
  | item {items : List Value} {v : Value} {s : String} (hv : v ∈ items) (h : Mentions v s) :
      Mentions (.list items) s
  | name {fields : Fields} {k : String} {v : Value} (he : (k, v) ∈ fields) :
      Mentions (.object fields) k
  | field {fields : Fields} {k : String} {v : Value} {s : String} (he : (k, v) ∈ fields)
      (h : Mentions v s) : Mentions (.object fields) s

section

variable {p : Char → Bool} {Q : List Char → Prop}

/-- The words have no characters but those of a class, and the strings are of another class. -/
def Token.VoicedIn (p : Char → Bool) (Q : List Char → Prop) : Token → Prop
  | .word cs => cs.all p = true
  | .quoted cs => Q cs
  | .sign _ => True

/-- The text is read in code, its words have no characters but those of a class, and its strings are
of another class. The word that it starts with may have begun before it. -/
def Voiced (p : Char → Bool) (Q : List Char → Prop) (x : String) : Prop :=
  ∀ held, held.all p = true → ∃ ts held', Scans ⟨.code, held⟩ x.toList ts ⟨.code, held'⟩ ∧
    held'.all p = true ∧ ∀ t ∈ ts, t.VoicedIn p Q

/-- The text is read in code, and its words have no characters but those of a class. -/
abbrev Spoken (p : Char → Bool) (x : String) : Prop := Voiced p (fun _ => True) x

theorem Voiced.append {x y : String} (hx : Voiced p Q x) (hy : Voiced p Q y) :
    Voiced p Q (x ++ y) := by
  intro held hheld
  obtain ⟨ts, held', hscan, hheld', hts⟩ := hx held hheld
  obtain ⟨us, held'', hscan', hheld'', hus⟩ := hy held' hheld'
  refine ⟨ts ++ us, held'', ?_, hheld'', fun t ht => (List.mem_append.mp ht).elim (hts t) (hus t)⟩
  rw [String.toList_append]
  exact hscan.append hscan'

theorem voicedIn_heldWord {held : List Char} (h : held.all p = true) :
    ∀ t ∈ heldWord held, t.VoicedIn p Q := by
  intro t ht
  rw [mem_heldWord ht]
  exact h

/-- Whether a character of code opens neither a string nor, with another one, a comment. -/
def isPlain (c : Char) : Bool := c ≠ '"' && c ≠ '\'' && c ≠ '/'

theorem voiced_of_isPlain {x : String}
    (h : ∀ c ∈ x.toList, isPlain c = true ∧ (isWord c = true → p c = true)) : Voiced p Q x := by
  unfold Voiced
  generalize x.toList = cs at h
  induction cs with
  | nil => exact fun held hheld => ⟨[], held, scans_nil _, hheld, List.forall_mem_nil _⟩
  | cons c cs ih =>
    intro held hheld
    obtain ⟨hplain, hword⟩ := h c (by simp)
    simp only [isPlain, Bool.and_eq_true, decide_eq_true_eq] at hplain
    obtain ⟨⟨hquote, hmark⟩, hslash⟩ := hplain
    have hmode : Mode.after .code c = .code := by
      simp [Mode.after, Mode.afterCode, hquote, hmark, hslash]
    have hrest := ih fun d hd => h d (List.mem_cons_of_mem _ hd)
    cases hw : isWord c with
    | true =>
      obtain ⟨ts, held', hscan, hheld', hts⟩ := hrest (held ++ [c]) (by simp [hheld, hword hw])
      refine ⟨ts, held', scans_cons.mpr ⟨ts, ?_, ?_⟩, hheld', hts⟩
      · simpa [Cursor.after, hmode, Cursor.heldAfter, codeHeld, hw] using hscan
      · simp [Cursor.tokens, codeTokens, hw]
    | false =>
      obtain ⟨ts, held', hscan, hheld', hts⟩ := hrest [] rfl
      refine ⟨_, held', scans_cons.mpr ⟨ts, ?_, rfl⟩, hheld', fun t ht => ?_⟩
      · simpa [Cursor.after, hmode, Cursor.heldAfter, codeHeld, hw, hquote, hmark] using hscan
      · simp only [Cursor.tokens, codeTokens, hw, Bool.false_eq_true, if_false,
          List.mem_append] at ht
        rcases ht with (ht | ht) | ht
        · exact voicedIn_heldWord hheld t ht
        · split at ht
          · cases ht
          · rw [List.mem_singleton.mp ht]
            trivial
        · exact hts t ht

/-- Signs have no words. -/
theorem voiced_signs {x : String} (h : (x.toList.all fun c => isPlain c && !isWord c) = true) :
    Voiced p Q x := by
  apply voiced_of_isPlain
  intro c hc
  obtain ⟨hplain, hsign⟩ := Bool.and_eq_true_iff.mp (List.all_eq_true.mp h c hc)
  refine ⟨hplain, fun hword => ?_⟩
  rw [hword] at hsign
  cases hsign

theorem voiced_quote {x : String} (hx : Q (Json.quote x).toList) : Voiced p Q (Json.quote x) := by
  intro held hheld
  have hquote := scans_quote x
  obtain ⟨cs, hcs⟩ : ∃ cs, (Json.quote x).toList = '"' :: cs := by
    unfold Json.quote
    rw [String.toList_ofList]
    exact ⟨_, rfl⟩
  rw [hcs] at hquote hx
  refine ⟨heldWord held ++ [.quoted ('"' :: cs)], [], ?_, rfl, fun t ht => ?_⟩
  · rw [hcs]
    exact hquote.apart rfl held
  · rcases List.mem_append.mp ht with ht | ht
    · exact voicedIn_heldWord hheld t ht
    · rw [List.mem_singleton.mp ht]
      exact hx

theorem voiced_joinWith {sep : String} (hsep : Voiced p Q sep) {xs : List String}
    (h : ∀ x ∈ xs, Voiced p Q x) : Voiced p Q (Text.joinWith sep xs) := by
  induction xs with
  | nil => exact voiced_of_isPlain (List.forall_mem_nil _)
  | cons x rest ih =>
    cases rest with
    | nil => exact h x (by simp)
    | cons y rest =>
      rw [Text.joinWith]
      · exact ((h x (by simp)).append hsep).append (ih fun z hz => h z (List.mem_cons_of_mem _ hz))
      · simp

theorem isPlain_of_isInert {c : Char} (h : isInert c = true) : isPlain c = true := by
  have hne : ∀ d, isInert d = false → c ≠ d := by
    rintro d hd rfl
    rw [h] at hd
    cases hd
  simp [isPlain, hne '"' rfl, hne '\'' rfl, hne '/' rfl]

theorem voiced_of_inert {x : String} (hx : Inert x) (hp : MadeOf p x) : Voiced p Q x :=
  voiced_of_isPlain fun c hc => ⟨isPlain_of_isInert (hx c hc), fun _ => hp c hc⟩

/-- The letters of the literals that are words. -/
def literalLetters : List Char := ['n', 'u', 'l', 't', 'r', 'e', 'f', 'a', 's', 'I', 'i', 'y', 'N']

/-- A class of characters that has those of numbers and of the words among literals. -/
structure Letters (p : Char → Bool) : Prop extends Numerals p where
  letter : literalLetters.all p = true

theorem Letters.madeOf (hp : Letters p) {x : String}
    (h : x.toList.all literalLetters.contains = true) : MadeOf p x := by
  intro c hc
  exact List.all_eq_true.mp hp.letter c (List.contains_iff_mem.mp (List.all_eq_true.mp h c hc))

mutual

theorem voiced_write (hp : Letters p) :
    ∀ v : Value, (∀ s, Mentions v s → Q (Json.quote s).toList) → Voiced p Q (Json.write Json.spaced v)
  | .null, _ => by rw [Json.write]; exact voiced_of_inert (by decide) (hp.madeOf (by decide))
  | .bool true, _ => by rw [Json.write]; exact voiced_of_inert (by decide) (hp.madeOf (by decide))
  | .bool false, _ => by rw [Json.write]; exact voiced_of_inert (by decide) (hp.madeOf (by decide))
  | .int n, _ => by
    rw [Json.write]
    exact voiced_of_inert (inert_int n) (madeOf_int hp.toNumerals n)
  | .real x, _ => by
    rw [Json.write]
    exact voiced_of_inert (inert_real (by decide) (by decide) x)
      (madeOf_real hp.toNumerals (hp.madeOf (by decide)) (hp.madeOf (by decide)) x)
  | .text s, hQ => by rw [Json.write]; exact voiced_quote (hQ s (.text s))
  | .list items, hQ => by
    rw [Json.write]
    exact ((voiced_signs (by decide)).append (voiced_joinWith (voiced_signs (by decide))
      (voiced_writeItems hp items fun _ hv s hs => hQ s (.item hv hs)))).append
        (voiced_signs (by decide))
  | .object fields, hQ => by
    rw [Json.write]
    exact ((voiced_signs (by decide)).append (voiced_joinWith (voiced_signs (by decide))
      (voiced_writeFields hp fields fun _ _ he =>
        ⟨hQ _ (.name he), fun s hs => hQ s (.field he hs)⟩))).append (voiced_signs (by decide))

theorem voiced_writeItems (hp : Letters p) : ∀ items : List Value,
    (∀ v ∈ items, ∀ s, Mentions v s → Q (Json.quote s).toList) →
      ∀ x ∈ Json.writeItems Json.spaced items, Voiced p Q x
  | [], _ => by rw [Json.writeItems]; simp
  | v :: rest, hQ => by
    rw [Json.writeItems]
    intro x hx
    rcases List.mem_cons.mp hx with rfl | hx
    · exact voiced_write hp v (hQ v (by simp))
    · exact voiced_writeItems hp rest (fun w hw => hQ w (List.mem_cons_of_mem _ hw)) x hx

theorem voiced_writeFields (hp : Letters p) : ∀ fields : List (String × Value),
    (∀ k v, (k, v) ∈ fields →
      Q (Json.quote k).toList ∧ ∀ s, Mentions v s → Q (Json.quote s).toList) →
      ∀ x ∈ Json.writeFields Json.spaced fields, Voiced p Q x
  | [], _ => by rw [Json.writeFields]; simp
  | (k, v) :: rest, hQ => by
    rw [Json.writeFields]
    intro x hx
    rcases List.mem_cons.mp hx with rfl | hx
    · obtain ⟨hk, hv⟩ := hQ k v (by simp)
      exact ((voiced_quote hk).append (voiced_signs (by decide))).append (voiced_write hp v hv)
    · exact voiced_writeFields hp rest (fun k w he => hQ k w (List.mem_cons_of_mem _ he)) x hx

end

theorem voiced_literal (hp : Letters p) {v : Value}
    (hQ : ∀ s, Mentions v s → Q (Json.quote s).toList) : Voiced p Q (Json.literal v) :=
  voiced_write hp v hQ

theorem spoken_quote (x : String) : Spoken p (Json.quote x) := voiced_quote trivial

theorem spoken_literal (hp : Letters p) (v : Value) : Spoken p (Json.literal v) :=
  voiced_literal hp fun _ _ => trivial

end

/-- The characters that quiet words do without. -/
def telltales : List Char := ['A', 'P', 'L', 'd', '_']

/-- The characters of quiet words. -/
def isQuiet (c : Char) : Bool := !telltales.contains c

theorem letters_isQuiet : Letters isQuiet where
  digit := by
    intro c hc
    have hne : telltales.all (fun d => !d.isDigit) = true := by decide
    have hnew : c ∉ telltales := by
      intro hmem
      have hdigit := List.all_eq_true.mp hne c hmem
      simp [hc] at hdigit
    simpa [isQuiet] using hnew
  mark := by decide
  letter := by decide

theorem spoken_fixed {cs : List Char}
    (h : (cs.all fun c => isPlain c && isQuiet c) = true) :
    Spoken isQuiet (String.ofList cs) := by
  refine voiced_of_isPlain fun c hc => ?_
  rw [String.toList_ofList] at hc
  have hboth := List.all_eq_true.mp h c hc
  rw [Bool.and_eq_true] at hboth
  exact ⟨hboth.1, fun _ => hboth.2⟩

/-- The words of an expression are quiet, whatever value it carries. -/
theorem spoken_expr (e : Expr) : Spoken isQuiet e.code := by
  have hliteral := spoken_literal letters_isQuiet
  cases e with
  | literal v => exact hliteral v
  | ofText v =>
    rcases Expr.code_ofText v with hcode | ⟨_, hcode⟩
    · rw [hcode]
      exact ((spoken_fixed rfl).append (spoken_quote (Expr.textOf v))).append (spoken_fixed rfl)
    · rw [hcode]
      exact spoken_quote (Expr.textOf v)
  | contextValue v =>
    exact ((spoken_fixed rfl).append (spoken_quote (Expr.contextPath v))).append (spoken_fixed rfl)
  | resolved v => exact ((spoken_fixed rfl).append (hliteral v)).append (spoken_fixed rfl)

end Flowscript.Lexer
