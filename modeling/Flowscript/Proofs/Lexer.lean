-- A lexer for the generated code. It tells strings and comments from the rest
-- and keeps a stack of the brackets that are still to be closed. Literals,
-- numbers and names leave it as it was; the text of a comment never leads it
-- out of the comment.
import Flowscript.Code.Line
import Flowscript.Proofs.Characters

namespace Flowscript.Lexer

open Text (Unbroken noBreaks)

/-! ## The lexer -/

/-- Where the lexer stands: in code, behind a slash that may open a comment, in a string or behind
a backslash in one, in a comment up to the end of the line, in a comment between marks, or behind a
star in such a comment. -/
inductive Mode where
  | code
  | slash
  | string (mark : Char)
  | escape (mark : Char)
  | remark
  | block
  | star
deriving DecidableEq, Repr

/-- The mode, and what closes each open bracket, the innermost first. -/
structure State where
  mode : Mode
  closers : List Char
deriving DecidableEq, Repr

/-- What closes a bracket. -/
def closerOf? (c : Char) : Option Char :=
  if c = '(' then some ')'
  else if c = '[' then some ']'
  else if c = '\x7b' then some '\x7d'
  else none

/-- Whether a character closes a bracket. -/
def isCloser (c : Char) : Bool := c = ')' || c = ']' || c = '\x7d'

/-- Whether a character ends a line. -/
def endsLine (c : Char) : Bool := c = '\n' || c = '\r' || c = '\u2028' || c = '\u2029'

/-- Reads a character of code. A bracket has to be closed by its own closer. -/
def stepCode (closers : List Char) (c : Char) : Option State :=
  if c = '"' || c = '\'' then some ⟨.string c, closers⟩
  else if c = '/' then some ⟨.slash, closers⟩
  else match closerOf? c with
    | some closer => some ⟨.code, closer :: closers⟩
    | none =>
      if isCloser c then match closers with
        | [] => none
        | closer :: rest => if c = closer then some ⟨.code, rest⟩ else none
      else some ⟨.code, closers⟩

/-- Reads a character. A string may not go past the end of its line. -/
def step (s : State) (c : Char) : Option State :=
  match s.mode with
  | .code => stepCode s.closers c
  | .slash =>
    if c = '/' then some ⟨.remark, s.closers⟩
    else if c = '*' then some ⟨.block, s.closers⟩
    else stepCode s.closers c
  | .string mark =>
    if c = mark then some ⟨.code, s.closers⟩
    else if c = '\\' then some ⟨.escape mark, s.closers⟩
    else if c = '\n' || c = '\r' then none
    else some s
  | .escape mark => some ⟨.string mark, s.closers⟩
  | .remark => if endsLine c then some ⟨.code, s.closers⟩ else some s
  | .block => if c = '*' then some ⟨.star, s.closers⟩ else some s
  | .star =>
    if c = '/' then some ⟨.code, s.closers⟩
    else if c = '*' then some s
    else some ⟨.block, s.closers⟩

/-- Reads characters in order. -/
def read : State → List Char → Option State
  | s, [] => some s
  | s, c :: cs => match step s c with
    | some t => read t cs
    | none => none

/-- The lexer gets through the text and ends in code, with every string and comment ended and every
bracket closed. -/
def Closed (text : String) : Prop := read ⟨.code, []⟩ text.toList = some ⟨.code, []⟩

instance (text : String) : Decidable (Closed text) :=
  inferInstanceAs (Decidable (read ⟨.code, []⟩ text.toList = some ⟨.code, []⟩))

example : Closed "f(\"a)\", ['b\\'']); // (\n" := by decide

example : ¬ Closed "/* f( */ \x7b g(\x7d )" := by decide

/-! ## Reading in parts -/

theorem read_append (s : State) (cs ds : List Char) :
    read s (cs ++ ds) = (read s cs).bind fun t => read t ds := by
  induction cs generalizing s with
  | nil => rfl
  | cons c cs ih =>
    simp only [List.cons_append, read]
    cases step s c with
    | none => rfl
    | some t => exact ih t

theorem read_append_of {s t : State} {cs : List Char} (h : read s cs = some t) (ds : List Char) :
    read s (cs ++ ds) = read t ds := by
  rw [read_append, h]
  rfl

theorem read_of_steps {s : State} {cs : List Char} (h : ∀ c ∈ cs, step s c = some s) :
    read s cs = some s := by
  induction cs with
  | nil => rfl
  | cons c cs ih =>
    rw [read, h c (by simp)]
    exact ih fun d hd => h d (List.mem_cons_of_mem _ hd)

/-- The text stands on one line, is read in code and leaves the lexer as it was. -/
structure Neutral (x : String) : Prop where
  read_eq : ∀ closers, read ⟨.code, closers⟩ x.toList = some ⟨.code, closers⟩
  unbroken : Unbroken x

theorem Neutral.append {x y : String} (hx : Neutral x) (hy : Neutral y) : Neutral (x ++ y) where
  read_eq closers := by
    rw [String.toList_append, read_append_of (hx.read_eq closers)]
    exact hy.read_eq closers
  unbroken := hx.unbroken.append hy.unbroken

/-- Fixed text between brackets is read with a closer more. -/
theorem Neutral.between {x : String} (hx : Neutral x) {opening closing : List Char} {closer : Char}
    (ho : ∀ closers, read ⟨.code, closers⟩ opening = some ⟨.code, closer :: closers⟩)
    (hc : ∀ closers, read ⟨.code, closer :: closers⟩ closing = some ⟨.code, closers⟩)
    (hob : noBreaks opening = true) (hcb : noBreaks closing = true) :
    Neutral (String.ofList opening ++ x ++ String.ofList closing) where
  read_eq closers := by
    rw [String.toList_append, String.toList_append, String.toList_ofList, String.toList_ofList,
      List.append_assoc, read_append_of (ho closers), read_append_of (hx.read_eq _)]
    exact hc closers
  unbroken := ((Text.unbroken_ofList hob).append hx.unbroken).append (Text.unbroken_ofList hcb)

theorem neutral_joinWith {sep : String} (hsep : Neutral sep) {xs : List String}
    (h : ∀ x ∈ xs, Neutral x) : Neutral (Text.joinWith sep xs) := by
  induction xs with
  | nil => exact ⟨fun _ => rfl, fun _ hc => nomatch hc⟩
  | cons x rest ih =>
    cases rest with
    | nil => exact h x (by simp)
    | cons y rest =>
      rw [Text.joinWith]
      · exact ((h x (by simp)).append hsep).append (ih fun z hz => h z (List.mem_cons_of_mem _ hz))
      · simp

/-! ## Numbers and names -/

theorem stepCode_of_isInert {c : Char} (h : isInert c = true) (closers : List Char) :
    stepCode closers c = some ⟨.code, closers⟩ := by
  have hne : ∀ d, isInert d = false → c ≠ d := by
    rintro d hd rfl
    rw [h] at hd
    cases hd
  simp [stepCode, closerOf?, isCloser, hne '"' rfl, hne '\'' rfl, hne '/' rfl, hne '(' rfl,
    hne '[' rfl, hne '\x7b' rfl, hne ')' rfl, hne ']' rfl, hne '\x7d' rfl]

theorem neutral_of_inert {x : String} (h : Inert x) : Neutral x where
  read_eq closers := read_of_steps fun c hc => stepCode_of_isInert (h c hc) closers
  unbroken := h.unbroken

/-! ## Literals -/

theorem step_string {c : Char} (closers : List Char) (hq : c ≠ '"') (hb : c ≠ '\\')
    (hp : isPrintable c = true) : step ⟨.string '"', closers⟩ c = some ⟨.string '"', closers⟩ := by
  have hn : c ≠ '\n' := by
    rintro rfl
    cases hp
  have hr : c ≠ '\r' := by
    rintro rfl
    cases hp
  simp [step, hq, hb, hn, hr]

theorem read_unitEscape (n : Nat) (closers : List Char) :
    read ⟨.string '"', closers⟩ (Json.unitEscape n) = some ⟨.string '"', closers⟩ := by
  have hdigits : read ⟨.string '"', closers⟩ (Text.hexDigits 4 n) = some ⟨.string '"', closers⟩ := by
    apply read_of_steps
    intro c hc
    have hc := isInert_hexDigits hc
    refine step_string closers ?_ ?_ (isPrintable_of_isInert hc)
    · rintro rfl
      cases hc
    · rintro rfl
      cases hc
  exact hdigits

/-- The escape of a character does not end the string that it stands in. -/
theorem read_escaped {c : Char} {l : List Char} (h : Escaped c l) (closers : List Char) :
    read ⟨.string '"', closers⟩ l = some ⟨.string '"', closers⟩ := by
  cases h with
  | short hd => rfl
  | self hquote hslash hc =>
    rw [read, step_string closers hquote hslash hc]
    rfl
  | unit n => exact read_unitEscape n closers
  | pair n m =>
    rw [read_append_of (read_unitEscape n closers)]
    exact read_unitEscape m closers

theorem neutral_quote (x : String) : Neutral (Json.quote x) := by
  have hinner : ∀ (cs : List Char) closers, read ⟨.string '"', closers⟩
      (cs.flatMap Json.escapeChar) = some ⟨.string '"', closers⟩ := by
    intro cs closers
    induction cs with
    | nil => rfl
    | cons c cs ih => rw [List.flatMap_cons, read_append_of (read_escaped (escaped_escapeChar c) closers), ih]
  refine ⟨fun closers => ?_, unbroken_quote x⟩
  unfold Json.quote
  rw [String.toList_ofList, List.cons_append]
  show read ⟨.string '"', closers⟩ _ = _
  rw [read_append_of (hinner _ closers)]
  rfl

theorem neutral_comma : Neutral Json.spaced.item := ⟨fun _ => rfl, by decide⟩

mutual

theorem neutral_write : ∀ v : Value, Neutral (Json.write Json.spaced v)
  | .null => by rw [Json.write]; exact neutral_of_inert (by decide)
  | .bool true => by rw [Json.write]; exact neutral_of_inert (by decide)
  | .bool false => by rw [Json.write]; exact neutral_of_inert (by decide)
  | .int n => by rw [Json.write]; exact neutral_of_inert (inert_int n)
  | .real x => by
    rw [Json.write]
    exact neutral_of_inert (inert_real (by decide) (by decide) x)
  | .text s => by rw [Json.write]; exact neutral_quote s
  | .list items => by
    rw [Json.write]
    exact (neutral_joinWith neutral_comma (neutral_writeItems items)).between
      (fun _ => rfl) (fun _ => rfl) rfl rfl
  | .object fields => by
    rw [Json.write]
    exact (neutral_joinWith neutral_comma (neutral_writeFields fields)).between
      (fun _ => rfl) (fun _ => rfl) rfl rfl

theorem neutral_writeItems :
    ∀ items : List Value, ∀ x ∈ Json.writeItems Json.spaced items, Neutral x
  | [] => by rw [Json.writeItems]; simp
  | v :: rest => by
    rw [Json.writeItems]
    intro x hx
    rcases List.mem_cons.mp hx with rfl | hx
    · exact neutral_write v
    · exact neutral_writeItems rest x hx

theorem neutral_writeFields :
    ∀ fields : List (String × Value), ∀ x ∈ Json.writeFields Json.spaced fields, Neutral x
  | [] => by rw [Json.writeFields]; simp
  | (k, v) :: rest => by
    rw [Json.writeFields]
    intro x hx
    rcases List.mem_cons.mp hx with rfl | hx
    · exact ((neutral_quote k).append ⟨fun _ => rfl, by decide⟩).append (neutral_write v)
    · exact neutral_writeFields rest x hx

end

theorem neutral_literal (v : Value) : Neutral (Json.literal v) := neutral_write v

theorem neutral_expr (e : Expr) : Neutral e.code := by
  cases e with
  | literal v => exact neutral_literal v
  | ofText v =>
    rcases Expr.code_ofText v with hcode | ⟨_, hcode⟩
    · rw [hcode]
      exact (neutral_quote (Expr.textOf v)).between (fun _ => rfl) (fun _ => rfl) rfl rfl
    · rw [hcode]
      exact neutral_quote (Expr.textOf v)
  | contextValue v =>
    exact (neutral_quote (Expr.contextPath v)).between (fun _ => rfl) (fun _ => rfl) rfl rfl
  | resolved v => exact (neutral_literal v).between (fun _ => rfl) (fun _ => rfl) rfl rfl

/-! ## Comments -/

theorem endsLine_of_isLineBreak {c : Char} (h : Text.isLineBreak c = false) : endsLine c = false := by
  have hne : ∀ d, Text.isLineBreak d = true → c ≠ d := by
    rintro d hd rfl
    rw [hd] at h
    cases h
  simp [endsLine, hne '\n' rfl, hne '\r' rfl, hne '\u2028' rfl, hne '\u2029' rfl]

/-- A comment up to the end of the line goes on as long as the line does. -/
theorem read_remark {x : String} (h : Unbroken x) (closers : List Char) :
    read ⟨.remark, closers⟩ x.toList = some ⟨.remark, closers⟩ :=
  read_of_steps fun c hc => by simp [step, endsLine_of_isLineBreak (h c hc)]

/-- Nothing in the text of a comment closes it: the lexer stays inside, also where it starts behind a
star, unless the text itself starts with a slash. -/
theorem read_partClosers (cs : List Char) (closers : List Char) :
    (∃ mode, read ⟨.block, closers⟩ (Text.partClosers cs) = some ⟨mode, closers⟩ ∧
      (mode = .block ∨ mode = .star)) ∧
    (cs.head? ≠ some '/' → ∃ mode, read ⟨.star, closers⟩ (Text.partClosers cs) =
      some ⟨mode, closers⟩ ∧ (mode = .block ∨ mode = .star)) := by
  fun_induction Text.partClosers cs with
  | case1 rest ih => exact ⟨ih.1, fun _ => ih.1⟩
  | case2 c rest hne ih =>
    by_cases hc : c = '*'
    · subst hc
      have hhead : rest.head? ≠ some '/' := by
        intro hhead
        cases rest with
        | nil => cases hhead
        | cons d rest =>
          cases hhead
          exact hne rest rfl rfl
      exact ⟨ih.2 hhead, fun _ => ih.2 hhead⟩
    · constructor
      · simpa [read, step, hc] using ih.1
      · intro hhead
        have hslash : c ≠ '/' := fun he => hhead (by rw [he]; rfl)
        simpa [read, step, hc, hslash] using ih.1
  | case3 => exact ⟨⟨.block, rfl, Or.inl rfl⟩, fun _ => ⟨.star, rfl, Or.inr rfl⟩⟩

end Flowscript.Lexer
