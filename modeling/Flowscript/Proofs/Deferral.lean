-- Strings that wait for the run. A text with a placeholder is deferred where
-- the code around it resolves the text when the script runs. What is deferred
-- stays so whatever stands before and behind that code, so it is enough to
-- look at the expressions of a body one by one: only a plain literal can
-- leave a placeholder to the script as it is.
import Flowscript.Proofs.Leftmost
import Flowscript.Proofs.PropertyReads
import Flowscript.Proofs.Spelling

namespace Flowscript

/-! ## Placeholders in a text -/

theorem Json.quote_injective {s t : String} (h : Json.quote s = Json.quote t) : s = t := by
  have hchars := congrArg String.toList h
  rw [toList_quote, toList_quote, List.cons.injEq] at hchars
  have hs := readText_quote s []
  rw [hchars.2, readText_quote] at hs
  cases hs
  rfl

namespace Placeholder

/-- A placeholder starts with a mark that opens one. -/
theorem exists_opening {s : String} (h : occursIn s = true) :
    ['\x7b', '\x7b'] <:+: s.toList ∨ ['$', '\x7b'] <:+: s.toList := by
  obtain ⟨⟨style, inner⟩, _, hin⟩ := occursIn_iff.mp h
  cases style with
  | braces => exact Or.inl ((List.prefix_append ..).isInfix.trans hin)
  | dollar => exact Or.inr ((List.prefix_append ..).isInfix.trans hin)

theorem occursIn_eq_false_of_notMem {s : String} (h : '\x7b' ∉ s.toList) : occursIn s = false := by
  cases hs : occursIn s with
  | false => rfl
  | true =>
    rcases exists_opening hs with hin | hin <;> exact absurd (hin.subset (by simp)) h

theorem occursIn_fixed {cs : List Char} (h : cs.contains '\x7b' = false) :
    occursIn (String.ofList cs) = false :=
  occursIn_eq_false_of_notMem (by rw [String.toList_ofList]; simpa using h)

theorem opensHole_of_occursIn {s : String} (h : occursIn s = true) :
    Expr.opensHole s.toList = true := by
  have hopens : ∀ {c : Char} {cs : List Char}, c = '\x7b' ∨ c = '$' → [c, '\x7b'] <:+: cs →
      Expr.opensHole cs = true := by
    intro c cs hc hin
    induction cs with
    | nil => simp at hin
    | cons d cs ih =>
      rw [Expr.opensHole, Bool.or_eq_true]
      rcases List.infix_cons_iff.mp hin with hstart | hrest
      · obtain ⟨rest, hrest⟩ := hstart
        cases hrest
        exact Or.inl (by rcases hc with rfl | rfl <;> rfl)
      · exact Or.inr (ih hrest)
  exact (exists_opening h).elim (hopens (Or.inl rfl)) (hopens (Or.inr rfl))

end Placeholder

open Lexer (Token tokens lineTokens Cursor scan Scans heldWord Voiced Joined Heard Written Mentions)

/-! ## Deferred strings -/

/-- A string between these tokens is resolved when the script runs: it is the argument of a call that
resolves it, or stands in a value that is such an argument, or in rows whose cells are resolved. -/
inductive Deferred (q : Token) (before after : List Token) : Prop where
  | template (hb : tokens "resolveTemplate(" <:+ before) (ha : tokens ", context)" <+: after) :
      Deferred q before after
  | contextValue (hb : tokens "getContextValue(context, " <:+ before) (ha : tokens ")" <+: after) :
      Deferred q before after
  | object {v : Value} {inner inner' : List Token}
      (hv : tokens (Json.literal v) = inner ++ q :: inner')
      (hb : tokens "resolveObject(" ++ inner <:+ before)
      (ha : inner' ++ tokens ", context)" <+: after) : Deferred q before after
  | rows {rows : List Value} {inner inner' : List Token}
      (hv : tokens (Json.literal (.list rows)) = inner ++ q :: inner')
      (hb : tokens "const rows = " ++ inner <:+ before)
      (ha : inner' ++ tokens (Text.joinLines (Recipe.rowsOpening :: Recipe.cellLines)) <+: after) :
      Deferred q before after

theorem Deferred.within {q : Token} {before after : List Token} (h : Deferred q before after)
    (first last : List Token) : Deferred q (first ++ before) (after ++ last) := by
  have hfirst := List.suffix_append first before
  have hlast := List.prefix_append after last
  cases h with
  | template hb ha => exact .template (hb.trans hfirst) (ha.trans hlast)
  | contextValue hb ha => exact .contextValue (hb.trans hfirst) (ha.trans hlast)
  | object hv hb ha => exact .object hv (hb.trans hfirst) (ha.trans hlast)
  | rows hv hb ha => exact .rows hv (hb.trans hfirst) (ha.trans hlast)

/-- The token that a text becomes in the code. -/
def quoteToken (s : String) : Token := .quoted (Json.quote s).toList

theorem quoteToken_injective {s t : String} (h : quoteToken s = quoteToken t) : s = t :=
  Json.quote_injective (String.toList_injective (Token.quoted.inj h))

theorem isBare_quoteToken (s : String) : (quoteToken s).isBare = false := by
  rw [quoteToken, Json.toList_quote]
  rfl

/-- Wherever a text with a placeholder stands among the tokens, it is deferred or one of the texts
that are allowed. -/
def Defers (A : String → Prop) (ts : List Token) : Prop :=
  ∀ before s after, ts = before ++ quoteToken s :: after → Placeholder.occursIn s = true →
    Deferred (quoteToken s) before after ∨ A s

section

variable {A : String → Prop}

/-- A token of two runs stands in the second or in the first. -/
theorem split_append {ts us before after : List Token} {q : Token}
    (h : ts ++ us = before ++ q :: after) :
    (∃ b, before = ts ++ b ∧ us = b ++ q :: after) ∨ ∃ a, ts = before ++ q :: a ∧ after = a ++ us := by
  rcases List.append_eq_append_iff.mp h with ⟨b, hb, hus⟩ | ⟨c, hts, hc⟩
  · exact Or.inl ⟨b, hb, hus⟩
  · cases c with
    | nil => exact Or.inl ⟨[], by simpa using hts.symm, hc.symm⟩
    | cons d a =>
      obtain ⟨rfl, rfl⟩ := List.cons.inj hc
      exact Or.inr ⟨a, hts, rfl⟩

theorem joined_defers : Joined (Defers A) where
  nil := by
    intro before s after h
    cases (List.append_eq_nil_iff.mp h.symm).2
  append := by
    intro ts us hts hus before s after h hs
    rcases split_append h with ⟨b, rfl, rfl⟩ | ⟨a, rfl, rfl⟩
    · refine (hus b s after rfl hs).imp_left fun hd => ?_
      simpa using hd.within ts []
    · refine (hts before s a rfl hs).imp_left fun hd => ?_
      simpa using hd.within [] us

theorem defers_of_isBare {ts : List Token} (h : ts.all Token.isBare = true) : Defers A ts := by
  rintro before s after rfl _
  have hbare := List.all_eq_true.mp h (quoteToken s) (by simp)
  rw [isBare_quoteToken] at hbare
  cases hbare

/-- Between bare tokens, a string stands among those in the middle. -/
theorem split_between {bs mid as before after : List Token} {q : Token}
    (hbs : bs.all Token.isBare = true) (has : as.all Token.isBare = true) (hq : q.isBare = false)
    (h : bs ++ mid ++ as = before ++ q :: after) :
    ∃ b a, mid = b ++ q :: a ∧ before = bs ++ b ∧ after = a ++ as := by
  have hnot : ∀ {ts : List Token}, ts.all Token.isBare = true → q ∉ ts := by
    intro ts hts hmem
    rw [List.all_eq_true.mp hts q hmem] at hq
    cases hq
  rcases split_append h with ⟨b, rfl, rfl⟩ | ⟨a, hbm, rfl⟩
  · exact absurd (by simp) (hnot has)
  · rcases split_append hbm with ⟨b, rfl, rfl⟩ | ⟨c, rfl, rfl⟩
    · exact ⟨b, a, rfl, rfl, rfl⟩
    · exact absurd (by simp) (hnot hbs)

/-! ## Tokens of expressions -/

theorem tokens_eq_lineTokens (l : String) : tokens l = lineTokens l := by
  unfold tokens lineTokens
  rw [String.toList_append]
  rfl

/-- Behind code the end of the text completes the word that it ends with. -/
theorem tokens_of_scans {g : String} {ts : List Token} {held : List Char}
    (h : Scans .start g.toList ts ⟨.code, held⟩) : tokens g = ts ++ heldWord held := by
  have hfeed : Scans ⟨.code, held⟩ ['\n'] (heldWord held ++ []) .start := Scans.apart rfl rfl held
  rw [tokens_eq_lineTokens, lineTokens, h.append hfeed, List.append_nil]

theorem heard_of_voiced {D : List Token → Prop} {p : Char → Bool} {Q : List Char → Prop} {g : String}
    (hg : Voiced p Q g) (hD : D (tokens g)) : Heard D g := by
  obtain ⟨ts, held, hscan, _⟩ := hg [] rfl
  exact ⟨ts, held, hscan, tokens_of_scans hscan ▸ hD⟩

/-- Code between fixed texts that lead from code to code brings its own tokens between theirs. -/
theorem tokens_between {p : Char → Bool} {Q : List Char → Prop} {b g a : String}
    (hb : (scan .start b.toList).1 = .start) (hg : Voiced p Q g)
    (ha : (a.toList.head?.any fun c => !Lexer.isWord c) = true) :
    tokens (b ++ g ++ a) = tokens b ++ tokens g ++ tokens a := by
  obtain ⟨c, hhead, hc⟩ := (Option.any_eq_true ..).mp ha
  obtain ⟨cs, ha⟩ := List.head?_eq_some_iff.mp hhead
  rw [Bool.not_eq_true'] at hc
  obtain ⟨ts, held, hscan, _⟩ := hg [] rfl
  have hbefore : Scans .start b.toList (scan .start b.toList).2 .start := Prod.ext hb rfl
  have hafter : Scans .start (c :: (cs ++ ['\n'])) (tokens a) (scan .start (a.toList ++ ['\n'])).1 := by
    rw [tokens_eq_lineTokens, ← List.cons_append, ← ha]
    rfl
  have hall := (hbefore.append hscan).append (hafter.apart hc held)
  rw [tokens_of_scans hbefore, tokens_of_scans hscan, tokens_eq_lineTokens, lineTokens]
  have hchars : (b ++ g ++ a).toList ++ ['\n'] = b.toList ++ g.toList ++ c :: (cs ++ ['\n']) := by
    simp [ha]
  rw [hchars, hall]
  simp [heldWord]

theorem letters_any : Lexer.Letters fun _ => true := ⟨⟨fun _ _ => rfl, rfl⟩, rfl⟩

theorem spoken_anyLiteral (v : Value) : Lexer.Spoken (fun _ => true) (Json.literal v) :=
  Lexer.spoken_literal letters_any v

theorem tokens_quote (s : String) : tokens (Json.quote s) = [quoteToken s] :=
  tokens_of_scans (Lexer.scans_quote s)

/-- The strings of a literal are the texts and the names in its value. -/
theorem defers_literal {v : Value}
    (h : ∀ s, Mentions v s → Placeholder.occursIn s = true → A s) :
    Defers A (tokens (Json.literal v)) := by
  have hvoiced : Voiced (fun _ => true) (fun cs => ∃ s, Mentions v s ∧ cs = (Json.quote s).toList)
      (Json.literal v) := Lexer.voiced_literal letters_any fun s hs => ⟨s, hs, rfl⟩
  obtain ⟨ts, held, hscan, _, hts⟩ := hvoiced [] rfl
  intro before s after hsplit hs
  have hmem : quoteToken s ∈ ts ++ heldWord held := by
    rw [← tokens_of_scans hscan, hsplit]
    simp
  rcases List.mem_append.mp hmem with hmem | hmem
  · obtain ⟨t, ht, he⟩ := hts _ hmem
    obtain rfl : s = t := quoteToken_injective (congrArg Token.quoted he)
    exact Or.inr (h s ht hs)
  · cases Lexer.mem_heldWord hmem

/-- The expression leaves no placeholder to the script as it is, but for texts that are allowed. -/
def Settled (A : String → Prop) (e : Expr) : Prop := Defers A (tokens e.code)

theorem settled_literal {v : Value} (h : ∀ s, Mentions v s → Placeholder.occursIn s = true → A s) :
    Settled A (.literal v) := defers_literal h

/-- Fixed code around an expression defers the strings of the expression. -/
theorem defers_around {p : Char → Bool} {Q : List Char → Prop} {b g a : String}
    (hb : (scan .start b.toList).1 = .start) (hg : Voiced p Q g)
    (ha : (a.toList.head?.any fun c => !Lexer.isWord c) = true)
    (hbefore : (tokens b).all Token.isBare = true) (hafter : (tokens a).all Token.isBare = true)
    (h : ∀ s inner inner', tokens g = inner ++ quoteToken s :: inner' →
      Deferred (quoteToken s) (tokens b ++ inner) (inner' ++ tokens a)) :
    Defers A (tokens (b ++ g ++ a)) := by
  intro before s after hsplit _
  rw [tokens_between hb hg ha] at hsplit
  obtain ⟨inner, inner', hmid, rfl, rfl⟩ :=
    split_between hbefore hafter (isBare_quoteToken s) hsplit
  exact Or.inl (h s inner inner' hmid)

theorem of_tokens_quote {s t : String} {inner inner' : List Token}
    (h : tokens (Json.quote t) = inner ++ quoteToken s :: inner') : inner = [] ∧ inner' = [] := by
  rw [tokens_quote] at h
  rcases List.singleton_eq_append_iff.mp h with ⟨hinner, hrest⟩ | ⟨_, hrest⟩
  · exact ⟨hinner, (List.cons.inj hrest).2⟩
  · cases hrest

theorem settled_fixed {s : String} (h : Placeholder.occursIn s = false) :
    Settled A (.literal (.text s)) := by
  refine settled_literal fun t ht hin => ?_
  cases ht
  rw [h] at hin
  cases hin

theorem settled_ofText (v : Value) : Settled A (.ofText v) := by
  unfold Settled
  rcases Expr.code_ofText v with hcode | ⟨hopens, hcode⟩
  · rw [hcode]
    refine defers_around (p := fun _ => true) (by decide) (Lexer.spoken_quote _) (by decide)
      (by decide) (by decide) ?_
    intro s inner inner' h
    obtain ⟨rfl, rfl⟩ := of_tokens_quote h
    exact .template (by simp) (by simp)
  · rw [hcode]
    refine settled_fixed ?_
    cases hin : Placeholder.occursIn (Expr.textOf v) with
    | false => rfl
    | true => exact absurd (Placeholder.opensHole_of_occursIn hin) hopens

theorem settled_contextValue (v : Value) : Settled A (.contextValue v) := by
  refine defers_around (p := fun _ => true) (by decide) (Lexer.spoken_quote _) (by decide)
    (by decide) (by decide) ?_
  intro s inner inner' h
  obtain ⟨rfl, rfl⟩ := of_tokens_quote h
  exact .contextValue (by simp) (by simp)

theorem settled_resolved (v : Value) : Settled A (.resolved v) := by
  refine defers_around (by decide) (spoken_anyLiteral v) (by decide) (by decide) (by decide) ?_
  exact fun s inner inner' h => .object h (List.suffix_refl _) (List.prefix_refl _)

/-! ## Lines and steps -/

/-- Inert text has no strings. -/
theorem heard_of_inert {g : String} (h : Inert g) : Heard (Defers A) g := by
  have hvoiced : Voiced (fun _ => true) (fun _ => False) g := Lexer.voiced_of_inert h fun _ _ => rfl
  refine heard_of_voiced hvoiced (defers_of_isBare (List.all_eq_true.mpr fun t ht => ?_))
  obtain ⟨ts, held, hscan, _, hts⟩ := hvoiced [] rfl
  rw [tokens_of_scans hscan] at ht
  rcases List.mem_append.mp ht with ht | ht
  · cases t with
    | quoted cs => exact (hts _ ht).elim
    | word cs => rfl
    | sign c => rfl
  · rw [Lexer.mem_heldWord ht]
    rfl

theorem written_lineCode {parts : List Part} (h : ∀ e, .expr e ∈ parts → Settled A e) :
    Written (Defers A) (spell (parts.map Part.fixed?)) (lineCode parts) := by
  induction parts with
  | nil => exact .nil
  | cons p rest ih =>
    have hrest := ih fun e he => h e (List.mem_cons_of_mem _ he)
    rw [lineCode_cons]
    cases p with
    | text s =>
      have htext := @Written.text _ s.toList _ _ hrest
      rwa [String.ofList_toList] at htext
    | expr e => exact .gap (heard_of_voiced (Lexer.spoken_expr e) (h e (by simp))) hrest
    | number k => exact .gap (heard_of_inert (inert_int k)) hrest

/-- A line without strings in its fixed text defers what stands in its gaps. -/
theorem defers_of_written {words : List (List Char)} {s : Spelling} {l : String}
    (h : Written (Defers A) s l)
    (hs : Lexer.passes (fun t => t.tame words && t.isBare) .start s = true) :
    Defers A (lineTokens l) := by
  have hbare : ∀ ts : List Token, (ts.all fun t => t.tame words && t.isBare) = true →
      Defers A ts := by
    intro ts hts
    refine defers_of_isBare (List.all_eq_true.mpr fun t ht => ?_)
    exact (Bool.and_eq_true_iff.mp (List.all_eq_true.mp hts t ht)).2
  obtain ⟨ts, hscan, hts⟩ := h.scans joined_defers hbare .start hs
  rw [(Lexer.scans_line.mp hscan).2]
  exact hts

theorem defers_of_scripted {words : List (List Char)} {lines : List String}
    (h : Lexer.Scripted words (Defers A) lines) : ∀ l ∈ lines, Defers A (lineTokens l) := by
  obtain ⟨ss, hlines, hss⟩ := h
  exact Lexer.forall_of_spellings (fun hl => defers_of_written hl) hlines hss

theorem defers_line {n : PlannedNode} {c : Choices} {steps : List Step}
    (hbody : (n.recipe.body n c).outcome = .ok steps) {parts : List Part}
    (hline : .line parts ∈ steps) (h : ∀ e, .expr e ∈ parts → Settled A e) :
    Defers A (lineTokens (lineCode parts)) :=
  defers_of_written (written_lineCode h)
    (Lexer.passes_trialShapes n.saves n.kind? _ (shape_mem_of_body hbody hline))

/-- Every expression in the step is settled. -/
def StepSettled (A : String → Prop) : Step → Prop
  | .line parts => ∀ e, .expr e ∈ parts → Settled A e
  | .slot _ => True
  | .deeper => True
  | .back => True

/-- Every expression in the steps is settled. -/
def StepsSettled (A : String → Prop) (steps : List Step) : Prop := ∀ st ∈ steps, StepSettled A st

/-- The steps of a body defer what their expressions and the snippets in their slots defer. -/
theorem defers_steps {n : PlannedNode} {c : Choices} {snippet : SlotKind → List String}
    {body steps : List Step} (hbody : (n.recipe.body n c).outcome = .ok body)
    (hsub : ∀ st ∈ steps, st ∈ body) (h : StepsSettled A steps)
    (hslot : ∀ kind, .slot kind ∈ steps → ∀ l ∈ snippet kind, Defers A (lineTokens l)) :
    Defers A (steps.flatMap (Lexer.stepTokens snippet)) := by
  refine joined_defers.flatMap fun st hst => ?_
  cases st with
  | line parts => exact defers_line hbody (hsub _ hst) (h _ hst)
  | slot kind => exact joined_defers.flatMap (hslot kind hst)
  | deeper => exact joined_defers.nil
  | back => exact joined_defers.nil

section

variable {steps steps' : List Step} {st : Step}

@[simp]
theorem stepsSettled_nil : StepsSettled A [] := List.forall_mem_nil _

@[simp]
theorem stepsSettled_cons : StepsSettled A (st :: steps) ↔ StepSettled A st ∧ StepsSettled A steps :=
  List.forall_mem_cons

@[simp]
theorem stepsSettled_append :
    StepsSettled A (steps ++ steps') ↔ StepsSettled A steps ∧ StepsSettled A steps' :=
  List.forall_mem_append

@[simp]
theorem stepSettled_slot (kind : SlotKind) : StepSettled A (.slot kind) := trivial

@[simp]
theorem stepSettled_deeper : StepSettled A .deeper := trivial

@[simp]
theorem stepSettled_back : StepSettled A .back := trivial

@[simp]
theorem stepSettled_line {parts : List Part} :
    StepSettled A (.line parts) ↔ ∀ e, .expr e ∈ parts → Settled A e := Iff.rfl

@[simp]
theorem stepSettled_remark (text : String) : StepSettled A (Recipe.remark text) := by
  simp [Recipe.remark]

@[simp]
theorem stepSettled_constant (name : String) (e : Expr) :
    StepSettled A (Recipe.constant name e) ↔ Settled A e := by
  simp [Recipe.constant]

@[simp]
theorem stepsSettled_code (lines : List String) : StepsSettled A (Recipe.code lines) := by
  intro st hst
  obtain ⟨l, _, rfl⟩ := List.mem_map.mp hst
  simp

theorem stepsSettled_map {α : Type} {f : α → Step} {items : List α} :
    StepsSettled A (items.map f) ↔ ∀ a ∈ items, StepSettled A (f a) := List.forall_mem_map

theorem stepsSettled_resultSteps {result status : String} {fields : List (String × Part)}
    (hresult : Placeholder.occursIn result = true → A result)
    (hstatus : Placeholder.occursIn status = false)
    (hfields : ∀ f ∈ fields, ∀ e, f.2 = .expr e → Settled A e) :
    StepsSettled A (Recipe.resultSteps result status fields) := by
  have htype : Settled A (.literal (.text result)) := by
    refine settled_literal fun s hs => ?_
    cases hs
    exact hresult
  have hend : Settled A (.literal (.text status)) := by
    refine settled_literal fun s hs hin => ?_
    cases hs
    rw [hstatus] at hin
    cases hin
  unfold Recipe.resultSteps
  simp only [stepsSettled_append, stepsSettled_code, stepsSettled_cons, stepSettled_deeper,
    stepSettled_back, stepsSettled_nil, stepSettled_line, stepsSettled_map, true_and, and_true]
  refine ⟨⟨?_, ?_⟩, ?_⟩
  · simpa using htype
  · intro f hf e he
    simp only [List.mem_cons, reduceCtorEq, false_or, or_false, List.not_mem_nil] at he
    exact hfields f hf e he.symm
  · simpa using hend

end

end

end Flowscript
