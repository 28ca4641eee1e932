-- The names that a script declares for the scripts beside it, and which of
-- them are functions. A declaration counts where it stands outside all
-- brackets, so what the lexer reads between the brackets of a function adds
-- no name, whatever it says.
import Flowscript.Proofs.FunctionTokens
import Flowscript.Proofs.Script

namespace Flowscript.Lexer

open Recipe (code)
open Text (lineFed)

/-! ## Declarations -/

/-- The words behind which a name is declared. -/
def declarers : List (List Char) :=
  [['f', 'u', 'n', 'c', 't', 'i', 'o', 'n'], ['c', 'l', 'a', 's', 's'],
    ['c', 'o', 'n', 's', 't'], ['l', 'e', 't'], ['v', 'a', 'r']]

/-- Where a reader of tokens stands: how many brackets are open, and whether the next word is
declared. -/
structure Place where
  depth : Nat
  declaring : Bool
deriving DecidableEq, Repr

/-- The place behind a token. Only outside all brackets a name is declared for other scripts. -/
def Place.after (s : Place) : Token → Place
  | .word w => ⟨s.depth, s.depth = 0 && declarers.contains w⟩
  | .quoted _ => ⟨s.depth, false⟩
  | .sign c =>
    if (closerOf? c).isSome then ⟨s.depth + 1, false⟩
    else if isCloser c then ⟨s.depth - 1, false⟩
    else ⟨s.depth, false⟩

/-- The names that a token declares. -/
def Place.names (s : Place) : Token → List (List Char)
  | .word w => if s.declaring then [w] else []
  | .quoted _ => []
  | .sign _ => []

/-- Reads tokens in order and gathers the names. -/
def gather : Place → List Token → Place × List (List Char)
  | s, [] => (s, [])
  | s, t :: ts =>
    let (u, names) := gather (s.after t) ts
    (u, s.names t ++ names)

/-- The names that a script declares outside all brackets, in order. -/
def globals (text : String) : List String :=
  (gather ⟨0, false⟩ (tokens text)).2.map String.ofList

example : globals "function f(a) \x7b let b = a; \x7d // let x\nlet c = function (d) \x7b\x7d;" =
    ["f", "c"] := by decide

/-- The word in front of the name of a function. -/
def functionWord : List Char := ['f', 'u', 'n', 'c', 't', 'i', 'o', 'n']

/-- The name of the function that a token declares, with the tokens behind it. -/
def Place.functions (s : Place) : Token → List Token → List (List Char)
  | .word w, .word name :: .sign c :: _ =>
    if s.depth = 0 ∧ w = functionWord ∧ c = '(' then [name] else []
  | _, _ => []

/-- Reads tokens in order and gathers the names of functions. -/
def gatherFunctions : Place → List Token → List (List Char)
  | _, [] => []
  | s, t :: ts => s.functions t ts ++ gatherFunctions (s.after t) ts

/-- The names of the functions that a script declares outside all brackets, in order. -/
def functions (text : String) : List String :=
  (gatherFunctions ⟨0, false⟩ (tokens text)).map String.ofList

example : functions "function f(a) \x7b function g() \x7b\x7d \x7d const h = f(1); class C \x7b\x7d" =
    ["f"] := by decide

/-! ## Reading in parts -/

/-- Where a reader of characters stands: the scanner, and the reader of its tokens. -/
structure Post where
  cursor : Cursor
  place : Place

namespace Post

/-- At the start of a line outside all brackets. -/
def outside : Post := ⟨.start, ⟨0, false⟩⟩

/-- At the start of a line of a comment that stands outside all brackets. -/
def comment : Post := ⟨⟨.block, []⟩, ⟨0, false⟩⟩

/-- At the start of a line with a bracket open and `more` within it. -/
def within (more : Nat) : Post := ⟨.start, ⟨more + 1, false⟩⟩

end Post

theorem gather_append (s : Place) (ts us : List Token) :
    gather s (ts ++ us) = ((gather (gather s ts).1 us).1,
      (gather s ts).2 ++ (gather (gather s ts).1 us).2) := by
  induction ts generalizing s with
  | nil => rfl
  | cons t ts ih => simp only [List.cons_append, gather, ih, List.append_assoc]

theorem Place.functions_eq {s : Place} {t : Token} {ts : List Token} {name : List Char}
    (h : name ∈ s.functions t ts) : s.depth = 0 ∧ t = .word functionWord ∧
      ∃ us, ts = .word name :: .sign '(' :: us ∧ s.functions t ts = [name] := by
  unfold Place.functions at h ⊢
  split at h
  · split at h
    · rename_i hcond
      cases List.mem_singleton.mp h
      obtain ⟨hdepth, rfl, rfl⟩ := hcond
      exact ⟨hdepth, rfl, _, rfl, by simp [hdepth]⟩
    · cases h
  · cases h

/-- The name that a script declares as a function is one of the names that it declares. -/
theorem gatherFunctions_sublist (s : Place) (ts : List Token) :
    (gatherFunctions s ts).Sublist (gather ⟨s.depth, false⟩ ts).2 := by
  have hmore : ∀ (s : Place) (us : List Token),
      (gather ⟨s.depth, false⟩ us).2.Sublist (gather s us).2 := by
    intro s us
    cases us with
    | nil => exact .slnil
    | cons t us =>
      have hplace : Place.after ⟨s.depth, false⟩ t = s.after t := by cases t <;> rfl
      have hnone : Place.names ⟨s.depth, false⟩ t = [] := by cases t <;> rfl
      simp only [gather, hplace, hnone, List.nil_append]
      exact List.sublist_append_right ..
  induction ts generalizing s with
  | nil => exact .slnil
  | cons t ts ih =>
    have hplace : Place.after ⟨s.depth, false⟩ t = s.after t := by cases t <;> rfl
    have hnone : Place.names ⟨s.depth, false⟩ t = [] := by cases t <;> rfl
    simp only [gather, gatherFunctions, hplace, hnone, List.nil_append]
    rcases hnames : s.functions t ts with _ | ⟨name, rest⟩
    · exact (ih _).trans (hmore _ _)
    · obtain ⟨hdepth, rfl, us, rfl, hone⟩ := Place.functions_eq (hnames ▸ List.mem_cons_self)
      cases hnames.symm.trans hone
      have hafter : s.after (.word functionWord) = ⟨0, true⟩ := by
        simp [Place.after, hdepth, functionWord, declarers]
      rw [hafter]
      exact (ih ⟨0, true⟩).cons_cons name

theorem gatherFunctions_behind (s : Place) (ts us : List Token) :
    gatherFunctions (gather s ts).1 us ⊆ gatherFunctions s (ts ++ us) := by
  induction ts generalizing s with
  | nil => exact List.Subset.refl _
  | cons t ts ih => exact List.subset_append_of_subset_right _ (ih _)

theorem gatherFunctions_front (s : Place) (ts us : List Token) :
    gatherFunctions s ts ⊆ gatherFunctions s (ts ++ us) := by
  induction ts generalizing s with
  | nil => exact List.nil_subset _
  | cons t ts ih =>
    refine List.append_subset.mpr ⟨fun name hname => ?_, ?_⟩
    · obtain ⟨hdepth, rfl, vs, rfl, _⟩ := Place.functions_eq hname
      refine List.mem_append_left _ ?_
      simp [Place.functions, hdepth]
    · exact List.subset_append_of_subset_right _ (ih _)

theorem functions_sublist (text : String) : (functions text).Sublist (globals text) :=
  (gatherFunctions_sublist ⟨0, false⟩ _).map _

/-- The characters lead from one post to another and declare these names. -/
def Declares (s : Post) (cs : List Char) (names : List (List Char)) (t : Post) : Prop :=
  ∃ ts, Scans s.cursor cs ts t.cursor ∧ gather s.place ts = (t.place, names)

theorem declares_nil (s : Post) : Declares s [] [] s := ⟨[], scans_nil _, rfl⟩

theorem Declares.append {s t u : Post} {cs ds : List Char} {names more : List (List Char)}
    (h : Declares s cs names t) (h' : Declares t ds more u) :
    Declares s (cs ++ ds) (names ++ more) u := by
  obtain ⟨ts, hscan, hnames⟩ := h
  obtain ⟨us, hscan', hmore⟩ := h'
  refine ⟨ts ++ us, hscan.append hscan', ?_⟩
  rw [gather_append, hnames, hmore]

/-- A file of lines that declare names declares just these. -/
theorem Declares.globals_eq {ls : List String} {names : List (List Char)}
    (h : Declares .outside (lineFed ls) names .outside) :
    globals (Text.joinLines ls ++ "\n") = names.map String.ofList := by
  obtain ⟨ts, hscan, hnames⟩ := h
  have hplace : gather ⟨0, false⟩ ts = (⟨0, false⟩, names) := hnames
  unfold globals
  rw [hscan.tokens_eq, hplace]

/-- A line that declares a function declares it for the script, where what stands in front of it ends
outside all brackets. -/
theorem Declares.mem_functions {front : List String} {names : List (List Char)} {x : String}
    {name : List Char} {us : List Token} (h : Declares .outside (lineFed front) names .outside)
    (hx : lineTokens x = .word functionWord :: .word name :: .sign '(' :: us) (back : List String) :
    String.ofList name ∈ functions (Text.joinLines (front ++ x :: back) ++ "\n") := by
  obtain ⟨ts, hscan, hnames⟩ := h
  have hplace : (gather ⟨0, false⟩ ts).1 = ⟨0, false⟩ := congrArg Prod.fst hnames
  have hline : Scans .start (x.toList ++ ['\n']) (lineTokens x) _ := rfl
  have hrest : Scans (scan .start (x.toList ++ ['\n'])).1 (lineFed back ++ "\n".toList) _ _ := rfl
  have hall : Scans .start _ _ _ := hscan.append (hline.append hrest)
  have hchars : (Text.joinLines (front ++ x :: back) ++ "\n" ++ "\n").toList =
      lineFed front ++ (x.toList ++ ['\n'] ++ (lineFed back ++ "\n".toList)) := by
    rw [String.toList_append, Text.toList_joinLines_feed (by simp), Text.lineFed_append,
      Text.lineFed_cons]
    simp
  unfold functions tokens
  rw [hchars, hall]
  refine List.mem_map_of_mem (gatherFunctions_behind _ _ _ ?_)
  rw [hplace, hx]
  exact List.mem_append_left _ (by simp [Place.functions])

/-! ## Reading between brackets -/

theorem mode_of_stepCode {closers : List Char} {c : Char} {t : State}
    (h : stepCode closers c = some t) : t.mode = .afterCode c := by
  unfold stepCode at h
  unfold Mode.afterCode
  grind

/-- The scanner follows the modes of the lexer. -/
theorem mode_of_step {s t : State} {c : Char} (h : step s c = some t) :
    t.mode = s.mode.after c := by
  have hcode := @mode_of_stepCode s.closers c t
  unfold step at h
  unfold Mode.after
  grind

theorem gather_heldWord (depth : Nat) (held : List Char) :
    gather ⟨depth + 1, false⟩ (heldWord held) = (⟨depth + 1, false⟩, []) := by
  unfold heldWord
  split
  · rfl
  · simp [gather, Place.after, Place.names]

/-- What a character of code does to the open brackets. -/
theorem stepCode_cases {closers : List Char} {c : Char} {t : State}
    (h : stepCode closers c = some t) :
    (closerOf? c = none ∧ isCloser c = false ∧ t.closers = closers) ∨
      (∃ closer, closerOf? c = some closer ∧ t.closers = closer :: closers) ∨
      (closerOf? c = none ∧ isCloser c = true ∧ ∃ closer, closers = closer :: t.closers) := by
  unfold stepCode at h
  split at h
  · cases h
    exact Or.inl (by grind [closerOf?, isCloser])
  split at h
  · cases h
    exact Or.inl (by grind [closerOf?, isCloser])
  split at h
  · rename_i closer hopen
    cases h
    exact Or.inr (Or.inl ⟨closer, hopen, rfl⟩)
  rename_i hopen
  split at h
  · rename_i hclose
    split at h
    · cases h
    split at h
    · cases h
      exact Or.inr (Or.inr ⟨hopen, hclose, _, rfl⟩)
    · cases h
  · rename_i hclose
    cases h
    exact Or.inl ⟨hopen, by simpa using hclose, rfl⟩

/-- Brackets are signs of their own. -/
theorem codeTokens_of_bracket {c : Char} (h : (closerOf? c).isSome = true ∨ isCloser c = true)
    (held : List Char) : codeTokens held c = heldWord held ++ [.sign c] := by
  have hc : c = '(' ∨ c = '[' ∨ c = '\x7b' ∨ c = ')' ∨ c = ']' ∨ c = '\x7d' := by
    grind [closerOf?, isCloser]
  rcases hc with rfl | rfl | rfl | rfl | rfl | rfl <;> rfl

theorem gather_codeTokens {closers held : List Char} {c : Char} {t : State}
    (h : stepCode closers c = some t) (depth : Nat) :
    gather ⟨depth + closers.length + 1, false⟩ (codeTokens held c) =
      (⟨depth + t.closers.length + 1, false⟩, []) := by
  rcases stepCode_cases h with ⟨hopen, hclose, hsame⟩ | ⟨closer, hopen, hmore⟩ |
    ⟨hopen, hclose, closer, hless⟩
  · have hsign : gather ⟨depth + closers.length + 1, false⟩ [.sign c] =
        (⟨depth + closers.length + 1, false⟩, []) := by
      simp [gather, Place.after, Place.names, hopen, hclose]
    rw [hsame, codeTokens]
    split
    · rfl
    · rw [gather_append, gather_heldWord]
      split
      · rfl
      · rw [hsign]
        rfl
  · rw [codeTokens_of_bracket (Or.inl (by rw [hopen]; rfl)), gather_append, gather_heldWord, hmore]
    simp [gather, Place.after, Place.names, hopen, Nat.add_assoc]
  · rw [codeTokens_of_bracket (Or.inr hclose), gather_append, gather_heldWord, hless]
    simp [gather, Place.after, Place.names, hopen, hclose, Nat.add_assoc]

/-- With a bracket open, a character declares nothing, and the depth follows the brackets that are
still to be closed. -/
theorem declares_step {closers : List Char} {k : Cursor} {c : Char} {t : State}
    (h : step ⟨k.mode, closers⟩ c = some t) (depth : Nat) :
    (k.after c).mode = t.mode ∧ gather ⟨depth + closers.length + 1, false⟩ (k.tokens c) =
      (⟨depth + t.closers.length + 1, false⟩, []) := by
  refine ⟨(mode_of_step h).symm, ?_⟩
  obtain ⟨mode, held⟩ := k
  cases mode with
  | code => exact gather_codeTokens h depth
  | slash =>
    simp only [step, Cursor.tokens] at h ⊢
    split at h
    · cases h
      simp [*, gather]
    split at h
    · cases h
      simp [*, gather]
    · rename_i hslash hstar
      have hsign : Place.after ⟨depth + closers.length + 1, false⟩ (.sign '/') =
          ⟨depth + closers.length + 1, false⟩ := rfl
      simp only [hslash, hstar, decide_false, Bool.or_self, Bool.false_eq_true, if_false, gather,
        hsign, gather_codeTokens h depth]
      rfl
  | escape mark =>
    cases h
    rfl
  | string | remark | block | star =>
    simp only [step, Cursor.tokens] at h ⊢
    grind [gather, Place.after, Place.names]

theorem declares_read {closers : List Char} {k : Cursor} {cs : List Char} {t : State}
    (h : read ⟨k.mode, closers⟩ cs = some t) (depth : Nat) :
    ∃ u, u.mode = t.mode ∧ Declares ⟨k, ⟨depth + closers.length + 1, false⟩⟩ cs []
      ⟨u, ⟨depth + t.closers.length + 1, false⟩⟩ := by
  induction cs generalizing k closers with
  | nil =>
    cases h
    exact ⟨k, rfl, declares_nil _⟩
  | cons c cs ih =>
    rw [read] at h
    split at h
    · rename_i s hstep
      obtain ⟨hmode, hgather⟩ := declares_step hstep depth
      have hs : s = ⟨(k.after c).mode, s.closers⟩ := by rw [hmode]
      rw [hs] at h
      obtain ⟨u, hu, ts, hscan, hnames⟩ := ih h
      refine ⟨u, hu, k.tokens c ++ ts, scans_cons.mpr ⟨ts, hscan, rfl⟩, ?_⟩
      show gather ⟨depth + closers.length + 1, false⟩ _ = _
      rw [gather_append, hgather, hnames]
      rfl
    · cases h

/-- Behind the end of a line nothing is held. -/
theorem after_feed {k : Cursor} (h : (k.after '\n').mode = .code) : k.after '\n' = .start := by
  obtain ⟨mode, held⟩ := k
  cases mode with
  | code => rfl
  | slash => rfl
  | remark => rfl
  | string mark =>
    simp only [Cursor.after, Mode.after] at h ⊢
    grind [Cursor.heldAfter, Cursor.start]
  | escape mark => cases h
  | block => cases h
  | star => cases h

/-- Lines that the lexer reads from code to code declare nothing where a bracket is open around
them. -/
theorem declares_within {closers closers' : List Char} {ls : List String}
    (h : read ⟨.code, closers⟩ (lineFed ls) = some ⟨.code, closers'⟩) :
    Declares (.within closers.length) (lineFed ls) [] (.within closers'.length) := by
  obtain ⟨u, hu, hdeclares⟩ := declares_read (k := .start) h 0
  simp only [Nat.zero_add] at hdeclares
  have hstart : u = .start := by
    obtain ⟨ts, hscan, -⟩ := hdeclares
    rcases List.eq_nil_or_concat ls with rfl | ⟨init, l, rfl⟩
    · cases hscan
      rfl
    · have hfed : lineFed (init.concat l) = (lineFed init ++ l.toList) ++ ['\n'] := by
        simp [lineFed]
      have hfirst : Scans .start (lineFed init ++ l.toList) _ _ := rfl
      have hlast : Scans _ ['\n'] _ ((scan .start (lineFed init ++ l.toList)).1.after '\n') := rfl
      rw [hfed] at hscan
      have hend := congrArg Prod.fst (hscan.symm.trans (hfirst.append hlast))
      rw [show u = _ from hend] at hu ⊢
      exact after_feed hu
  subst hstart
  exact hdeclares

/-! ## Steps of writing -/

/-- The lines that the steps write lead from one post to another and declare these names, whatever
the indent is. -/
def StepsDeclare (s : Post) (steps : List Step) (names : List (List Char)) (t : Post) : Prop :=
  ∀ indent, Declares s (lineFed (((Sheet.empty indent).takeAll steps).lines false)) names t

theorem lines_takeAll_line (indent : Int) (x : String) :
    ((Sheet.empty indent).takeAll (code [x])).lines false = (Item.ofText indent x).print false := by
  rw [takeAll_code]
  exact List.flatMap_singleton ..

/-- Lines of code at the left edge are printed as they are. -/
theorem lines_takeAll_code (ls : List String) :
    ((Sheet.empty 0).takeAll (code ls)).lines false = ls := by
  rw [takeAll_code]
  show (ls.map (Item.ofText 0)).flatMap _ = ls
  rw [List.flatMap_map]
  simp only [print_left, List.flatMap_singleton']

theorem StepsDeclare.append {s t u : Post} {steps steps' : List Step}
    {names names' : List (List Char)} (h : StepsDeclare s steps names t)
    (h' : StepsDeclare t steps' names' u) :
    StepsDeclare s (steps ++ steps') (names ++ names') u := by
  intro indent
  rw [lines_takeAll_append, Text.lineFed_append]
  exact (h indent).append (h' _)

theorem StepsDeclare.before {s t u : Post} {steps steps' : List Step} {names : List (List Char)}
    (h : StepsDeclare s steps [] t) (h' : StepsDeclare t steps' names u) :
    StepsDeclare s (steps ++ steps') names u := h.append h'

theorem StepsDeclare.cons {s t u : Post} {steps steps' : List Step} {name : List Char}
    {names : List (List Char)} (h : StepsDeclare s steps [name] t)
    (h' : StepsDeclare t steps' names u) :
    StepsDeclare s (steps ++ steps') (name :: names) u := h.append h'

theorem StepsDeclare.deeper (s : Post) : StepsDeclare s [.deeper] [] s := fun _ => declares_nil s

theorem StepsDeclare.back (s : Post) : StepsDeclare s [.back] [] s := fun _ => declares_nil s

/-- What is read between brackets declares nothing. -/
theorem StepsRead.declare {closers closers' : List Char} {steps : List Step} {marks : List String}
    (h : StepsRead ⟨.code, closers⟩ steps marks ⟨.code, closers'⟩) :
    StepsDeclare (.within closers.length) steps [] (.within closers'.length) :=
  fun indent => declares_within (h.lines indent).read_eq

/-- A line and the lines behind it. At the post of the line leading spaces change nothing. -/
theorem StepsDeclare.line {s t u : Post} {x : String} {rest : List String}
    {names more : List (List Char)} (hafter : s.cursor.after ' ' = s.cursor)
    (htokens : s.cursor.tokens ' ' = []) (hx : Declares s (x.toList ++ ['\n']) names t)
    (h : StepsDeclare t (code rest) more u) :
    StepsDeclare s (code (x :: rest)) (names ++ more) u := by
  obtain ⟨ts, hscan, hnames⟩ := hx
  have hfirst : StepsDeclare s (code [x]) names t := by
    intro indent
    rw [lines_takeAll_line]
    exact ⟨ts, hscan.print hafter htokens _, hnames⟩
  exact hfirst.append h

/-- Fixed lines can be read from their characters. -/
theorem StepsDeclare.fixed {k k' : Cursor} {p p' : Place} {u : Post} {cs : List Char}
    {rest : List String} {ts : List Token} {names more : List (List Char)}
    (hafter : k.after ' ' = k) (htokens : k.tokens ' ' = [])
    (hscan : scan k (cs ++ ['\n']) = (k', ts)) (hnames : gather p ts = (p', names))
    (h : StepsDeclare ⟨k', p'⟩ (code rest) more u) :
    StepsDeclare ⟨k, p⟩ (code (String.ofList cs :: rest)) (names ++ more) u := by
  refine .line hafter htokens ⟨ts, ?_, hnames⟩ h
  rw [String.toList_ofList]
  exact hscan

theorem StepsDeclare.comment {cs : List Char} (hcs : scan ⟨.block, []⟩ cs = (⟨.block, []⟩, []))
    {x : String} {rest : List String} {names : List (List Char)} {u : Post}
    (h : StepsDeclare .comment (code rest) names u) :
    StepsDeclare .comment (code ((String.ofList cs ++ Text.remark x) :: rest)) names u :=
  StepsDeclare.line (t := .comment) rfl rfl ⟨[], scans_comment hcs x, rfl⟩ h

theorem StepsDeclare.nil (s : Post) : StepsDeclare s (code []) [] s := fun _ => declares_nil s

theorem StepsDeclare.ofCode {s t : Post} {ls : List String} {names : List (List Char)}
    (h : StepsDeclare s (code ls) names t) : Declares s (lineFed ls) names t := by
  have hall := h 0
  rwa [lines_takeAll_code] at hall

/-- A function declares its own name, whatever stands between its brackets. -/
theorem StepsDeclare.function {opening : List Step} {name : List Char} {rest : List Step}
    {marks : List String} (hopen : StepsDeclare .outside opening [name] (.within 0))
    (h : EndsIn (fun closers => ⟨.code, closers⟩) rest marks) :
    StepsDeclare .outside (opening ++ ([.deeper] ++ rest)) [name] .outside := by
  obtain ⟨inside, rfl, hinside⟩ := h
  have hclose : StepsDeclare (.within 0) (code ["\x7d"]) [] .outside :=
    .fixed rfl rfl rfl rfl (.nil _)
  exact hopen.append (.before (.deeper _) (.before (hinside []).declare (.before (.back _) hclose)))

/-- A line that declares a function, among the steps that write a file. -/
theorem StepsDeclare.mem_functions {before : List Step} {names : List (List Char)} {x : String}
    {name : List Char} {us : List Token} (h : StepsDeclare .outside before names .outside)
    (hx : lineTokens x = .word functionWord :: .word name :: .sign '(' :: us) (rest : List Step) :
    String.ofList name ∈
      functions (((Sheet.empty 0).takeAll (before ++ (code [x] ++ rest))).render false ++ "\n") := by
  obtain ⟨l, hl⟩ : ∃ l, (Item.ofText ((Sheet.empty 0).takeAll before).indent x).print false = [l] :=
    ⟨_, rfl⟩
  have htokens : lineTokens l = lineTokens x := by
    have hprint := lineTokens_print (if x = "" then 0 else ((Sheet.empty 0).takeAll before).indent) x
    rw [show (Item.line _ x).print false = [l] from hl] at hprint
    simpa using hprint
  unfold Sheet.render
  rw [lines_takeAll_append, lines_takeAll_append, lines_takeAll_line, hl]
  exact (h 0).mem_functions (htokens.trans hx) _

/-- Tokens of a part stand among the tokens of the whole. -/
theorem Scans.infix_scan {k t u : Cursor} {cs ds : List Char} {ts us : List Token}
    (h : Scans k cs ts t) (h' : Scans t ds us u) (es : List Char) :
    us <:+: (scan k (cs ++ (ds ++ es))).2 := by
  have hrest : Scans u es _ _ := rfl
  have hall := h.append (h'.append hrest)
  rw [hall]
  exact ⟨ts, _, List.append_assoc ..⟩

/-- The tokens of a line that starts in code stand in the script. -/
theorem StepsDeclare.infix_tokens {before : List Step} {names : List (List Char)} {t : Post}
    (h : StepsDeclare .outside before names t) (ht : t.cursor = .start) (x : String)
    (rest : List Step) : lineTokens x <:+:
      tokens (((Sheet.empty 0).takeAll (before ++ (code [x] ++ rest))).render false ++ "\n") := by
  obtain ⟨ts, hscan, -⟩ := h 0
  rw [ht] at hscan
  have hbefore := lines_takeAll_append 0 before (code [x] ++ rest)
  have hline := lines_takeAll_append ((Sheet.empty 0).takeAll before).indent (code [x]) rest
  rw [hline, lines_takeAll_line] at hbefore
  have hx : Scans .start (x.toList ++ ['\n']) (lineTokens x) _ := rfl
  have hprint := hx.print rfl rfl
    (if x = "" then 0 else ((Sheet.empty 0).takeAll before).indent)
  have hne : ((Sheet.empty 0).takeAll (before ++ (code [x] ++ rest))).lines false ≠ [] := by
    rw [hbefore]
    simp [Item.ofText, Item.print]
  unfold tokens Sheet.render
  rw [String.toList_append, Text.toList_joinLines_feed hne, hbefore, Text.lineFed_append,
    Text.lineFed_append, List.append_assoc, List.append_assoc]
  exact hscan.infix_scan hprint _

end Flowscript.Lexer
