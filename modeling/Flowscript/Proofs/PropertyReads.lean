-- Reads of script properties in the code. A snippet that reads properties in
-- a row asks for just their names, and in the function of a node no other
-- line asks for any.
import Flowscript.Proofs.FunctionTokens

namespace Flowscript

open Lexer (Token argumentsOf getProperty lineTokens notMem_of_avoids tokens)

/-! ## Slots of a body -/

/-- The steps leave these slots open, in order. -/
def slots (steps : List Step) : List SlotKind :=
  steps.filterMap fun
    | .slot kind => some kind
    | .line _ => none
    | .deeper => none
    | .back => none

theorem slot_mem {steps : List Step} {kind : SlotKind} (h : kind ∈ slots steps) :
    .slot kind ∈ steps := by
  obtain ⟨st, hst, hkind⟩ := List.mem_filterMap.mp h
  cases st with
  | slot k =>
    cases hkind
    exact hst
  | line parts => cases hkind
  | deeper => cases hkind
  | back => cases hkind

theorem slots_append (steps steps' : List Step) : slots (steps ++ steps') = slots steps ++ slots steps' :=
  List.filterMap_append ..

theorem slots_eq_nil {steps : List Step} (h : ∀ st ∈ steps, ∃ parts, st = .line parts) :
    slots steps = [] := by
  refine List.filterMap_eq_nil_iff.mpr fun st hst => ?_
  obtain ⟨parts, rfl⟩ := h st hst
  rfl

theorem slots_map {α : Type} {f : α → Step} {items : List α}
    (h : ∀ a, ∃ parts, f a = .line parts) : slots (items.map f) = [] := by
  refine slots_eq_nil fun st hst => ?_
  obtain ⟨a, _, rfl⟩ := List.mem_map.mp hst
  exact h a

theorem slots_code (lines : List String) : slots (Recipe.code lines) = [] :=
  slots_map fun _ => ⟨_, rfl⟩

theorem slots_optionalFields (config : Fields) (target : String) (keys : List (String × String)) :
    slots (Recipe.optionalFields config target keys) = [] := by
  refine slots_eq_nil fun st hst => ?_
  obtain ⟨key, _, hst⟩ := List.mem_filterMap.mp hst
  obtain ⟨v, _, rfl⟩ := Option.map_eq_some_iff.mp hst
  exact ⟨_, rfl⟩

theorem slots_resultSteps (result status : String) (fields : List (String × Part)) :
    slots (Recipe.resultSteps result status fields) = [] := by
  unfold Recipe.resultSteps
  simp only [slots_append, slots_code]
  rw [slots_map]
  · rfl
  · exact fun _ => ⟨_, rfl⟩

/-! ## Reads -/

/-- The arguments of the reads of script properties, in order. -/
def propertyReads (text : String) : List (List Token) :=
  argumentsOf "getProperty".toList (tokens text)

/-- The names of properties as they are written in the code. -/
def literals (names : List Value) : List (List Token) :=
  names.map fun v => [.quoted (Json.literal v).toList]

theorem argumentsOf_append {name : List Char} {ts : List Token} (h : .word name ∉ ts)
    (us : List Token) : argumentsOf name (ts ++ us) = argumentsOf name us := by
  induction ts with
  | nil => rfl
  | cons t ts ih =>
    have ht : ¬ t = .word name := fun he => h (by simp [he])
    rw [List.cons_append, argumentsOf]
    simp only [ht, decide_false, Bool.false_and, Bool.false_eq_true, if_false]
    exact ih fun hmem => h (List.mem_cons_of_mem _ hmem)

/-- The tokens ask for these properties, whatever follows them. -/
def Asks (ts : List Token) (args : List (List Token)) : Prop :=
  ∀ us, argumentsOf getProperty (ts ++ us) = args ++ argumentsOf getProperty us

theorem Asks.append {ts us : List Token} {args args' : List (List Token)} (h : Asks ts args)
    (h' : Asks us args') : Asks (ts ++ us) (args ++ args') := by
  intro rest
  rw [List.append_assoc, h, h', List.append_assoc]

theorem asks_of_avoids {words : List (List Char)} (hname : getProperty ∈ words) {ts : List Token}
    (h : ∀ t ∈ ts, t.avoids words = true) : Asks ts [] :=
  fun us => argumentsOf_append (notMem_of_avoids hname h) us

theorem asks_lines {words : List (List Char)} (hname : getProperty ∈ words) {lines : List String}
    (h : ∀ l ∈ lines, Lexer.Tame words l) : Asks (lines.flatMap lineTokens) [] := by
  refine asks_of_avoids hname fun t ht => ?_
  obtain ⟨l, hl, ht⟩ := List.mem_flatMap.mp ht
  exact (h l hl).avoids.tokens t ht

/-- A property is asked for by the literal of its name, which is one token where it is a text. -/
theorem asks_readLine {start : String} (hstart : Lexer.Opens start) (s : String) :
    Asks (lineTokens (Lexer.readLine start (.text s))) (literals [.text s]) := by
  obtain ⟨ts, hscan, hts⟩ := hstart
  have hname : Lexer.Scans .start (Json.literal (.text s)).toList
      [.quoted (Json.literal (.text s)).toList] ⟨.code, []⟩ := by
    rw [Json.literal, Json.write]
    exact Lexer.scans_quote s
  obtain ⟨_, htokens⟩ := Lexer.scans_line.mp (Lexer.scans_readLine hscan hname)
  have hstore : .word getProperty ∉ Lexer.storeTokens := by decide +kernel
  intro us
  rw [htokens]
  simp only [List.append_assoc, List.cons_append]
  have hwatched : getProperty ∈ Lexer.watched := List.mem_cons_self ..
  have hstart := notMem_of_avoids hwatched fun t ht => Lexer.Token.avoids_of_tame (hts t ht)
  rw [argumentsOf_append hstart, argumentsOf_append hstore]
  rfl

theorem asks_readLines {starts texts : List String} (hlength : starts.length = texts.length)
    (hstarts : ∀ start ∈ starts, Lexer.Opens start) :
    Asks ((List.zipWith Lexer.readLine starts (texts.map .text)).flatMap lineTokens)
      (literals (texts.map .text)) := by
  induction texts generalizing starts with
  | nil =>
    rw [List.map_nil, List.zipWith_nil_right]
    exact fun _ => rfl
  | cons s rest ih =>
    cases starts with
    | nil => cases hlength
    | cons start starts =>
      obtain ⟨hstart, hstarts⟩ := List.forall_mem_cons.mp hstarts
      exact (asks_readLine hstart s).append (ih (by simpa using hlength) hstarts)

theorem asks_of_readsInARow {texts : List String} {lines : List String}
    (h : Lexer.ReadsInARow (texts.map .text) lines) :
    Asks (lines.flatMap lineTokens) (literals (texts.map .text)) := by
  obtain ⟨before, starts, after, rfl, hlength, hstarts, hothers⟩ := h
  have hwatched : getProperty ∈ Lexer.watched := List.mem_cons_self ..
  obtain ⟨hbefore, hafter⟩ := List.forall_mem_append.mp hothers
  have hall := ((asks_lines hwatched hbefore).append
    (asks_readLines (by simpa using hlength) hstarts)).append (asks_lines hwatched hafter)
  simpa only [List.flatMap_append, List.nil_append, List.append_nil] using hall

theorem propertyReads_of_asks {text : String} {args : List (List Token)}
    (h : Asks (tokens text) args) : propertyReads text = args := by
  have hall := h []
  rw [List.append_nil] at hall
  exact hall.trans (List.append_nil _)

theorem tokens_joinLines {lines : List String} (h : ∀ l ∈ lines, Lexer.Complete l) :
    tokens (Text.joinLines lines) = lines.flatMap lineTokens := by
  unfold tokens
  by_cases hne : lines = []
  · subst hne
    rfl
  · rw [Text.toList_joinLines_feed hne]
    exact congrArg Prod.snd (Lexer.scans_lineFed h)

theorem asks_steps {snippet : SlotKind → List String} {args : SlotKind → List (List Token)}
    {steps : List Step}
    (hline : ∀ parts, .line parts ∈ steps → Asks (lineTokens (lineCode parts)) [])
    (hslot : ∀ kind, .slot kind ∈ steps → Asks ((snippet kind).flatMap lineTokens) (args kind)) :
    Asks (steps.flatMap (Lexer.stepTokens snippet)) ((slots steps).flatMap args) := by
  induction steps with
  | nil => exact fun _ => rfl
  | cons st rest ih =>
    have hrest := ih (fun parts hparts => hline parts (List.mem_cons_of_mem _ hparts))
      fun kind hkind => hslot kind (List.mem_cons_of_mem _ hkind)
    cases st with
    | line parts => exact (hline parts (by simp)).append hrest
    | slot kind => exact (hslot kind (by simp)).append hrest
    | deeper => exact hrest
    | back => exact hrest

theorem getProperty_mem_foreign (saves : Bool) (k : Option Kind) :
    getProperty ∈ Lexer.foreign saves k := by
  refine List.mem_filter.mpr ⟨List.mem_cons_self .., decide_eq_true fun hmem => ?_⟩
  obtain ⟨s, _, hs⟩ := List.mem_map.mp hmem
  cases s <;> cases hs

/-- The slot for credentials is the only place of a function where properties are asked for. -/
theorem asks_body {n : PlannedNode} {c : Choices} {f : Facts} {body : List Step}
    {names : List Value} (hfacts : n.recipe.facts n c = .ok f)
    (hbody : (n.recipe.body n c).outcome = .ok body)
    (hready : ∀ kind, .slot kind ∈ body →
      (Snippet.lines kind f).outcome = .ok (Snippet.linesOr f kind))
    (hauth : Asks ((Snippet.linesOr f .auth).flatMap lineTokens) (literals names)) :
    Asks (body.flatMap (Lexer.stepTokens (Snippet.linesOr f)))
      ((slots body).flatMap fun kind => if kind = .auth then literals names else []) := by
  have husual := Lexer.usual_of_facts hfacts
  have hwatched : getProperty ∈ Lexer.watched := List.mem_cons_self ..
  refine asks_steps (fun parts hparts => ?_) fun kind hkind => ?_
  · exact asks_of_avoids (getProperty_mem_foreign ..) (Lexer.tame_body hbody hparts).avoids.tokens
  · have hlines := hready kind hkind
    cases kind with
    | auth => exact hauth
    | error => exact asks_lines hwatched (Lexer.tame_errorLines husual)
    | rateLimit =>
      exact asks_lines (List.mem_cons_self ..)
        (Lexer.tame_rateLimitLines (except_mapError_eq_ok.mp hlines))
    | dedup => exact asks_lines hwatched (Lexer.tame_dedupLines husual hlines)

end Flowscript
