-- Reading what is written. A derivation follows the steps of writing line by
-- line; it says in which state the lexer is at each line and which lines are
-- landmarks. Indents do not matter, and a slot may be filled with anything
-- that leaves the lexer as it was and holds no landmark.
import Flowscript.Proofs.Landmarks
import Flowscript.Proofs.Lexer
import Flowscript.Recipe.Basic

namespace Flowscript

/-! ## Steps of writing -/

theorem lineCode_cons (p : Part) (parts : List Part) :
    lineCode (p :: parts) = p.code ++ lineCode parts := by
  simp [lineCode, String.join_cons]

@[simp]
theorem lineCode_text (x : String) : lineCode [.text x] = x := by
  simp [lineCode, Part.code]

theorem takeAll_append (sheet : Sheet) (steps steps' : List Step) :
    sheet.takeAll (steps ++ steps') = (sheet.takeAll steps).takeAll steps' := by
  simp [Sheet.takeAll]

/-- Lines of code are written at the indent of the sheet, which stays. -/
theorem takeAll_code (sheet : Sheet) (lines : List String) :
    sheet.takeAll (Recipe.code lines) = sheet.writeAll lines := by
  induction lines generalizing sheet with
  | nil => simp [Sheet.takeAll, Recipe.code, Sheet.writeAll, Sheet.add]
  | cons l rest ih =>
    have hstep : sheet.takeAll (Recipe.code (l :: rest)) =
        (sheet.write l).takeAll (Recipe.code rest) := by
      simp [Sheet.takeAll, Recipe.code, Sheet.take]
    rw [hstep, ih]
    simp [Sheet.writeAll, Sheet.write, Sheet.add]

/-- Where writing goes on depends only on where it began. -/
theorem indent_take (sheet : Sheet) (st : Step) :
    (sheet.take st).indent = ((Sheet.empty sheet.indent).take st).indent := by
  cases st <;> rfl

theorem indent_takeAll (sheet : Sheet) (steps : List Step) :
    (sheet.takeAll steps).indent = ((Sheet.empty sheet.indent).takeAll steps).indent := by
  induction steps generalizing sheet with
  | nil => rfl
  | cons st rest ih =>
    show ((sheet.take st).takeAll rest).indent =
      (((Sheet.empty sheet.indent).take st).takeAll rest).indent
    rw [ih, indent_take, ← ih]

/-- A step does the same to any sheet of one indent, so what was there can be left out. -/
theorem items_takeAll (sheet : Sheet) (steps : List Step) :
    (sheet.takeAll steps).items =
      sheet.items ++ ((Sheet.empty sheet.indent).takeAll steps).items := by
  induction steps generalizing sheet with
  | nil => exact (List.append_nil _).symm
  | cons st rest ih =>
    have hitems : (sheet.take st).items =
        sheet.items ++ ((Sheet.empty sheet.indent).take st).items := by
      cases st with
      | line parts => rfl
      | slot kind => rfl
      | deeper => exact (List.append_nil _).symm
      | back => exact (List.append_nil _).symm
    have hall := ih (sheet.take st)
    rw [hitems, indent_take, List.append_assoc, ← ih ((Sheet.empty sheet.indent).take st)] at hall
    exact hall

/-- Steps are written at the indent that the steps before them lead to. -/
theorem lines_takeAll_append (indent : Int) (steps steps' : List Step) :
    ((Sheet.empty indent).takeAll (steps ++ steps')).lines false =
      ((Sheet.empty indent).takeAll steps).lines false ++
        ((Sheet.empty ((Sheet.empty indent).takeAll steps).indent).takeAll steps').lines false := by
  rw [takeAll_append, Sheet.lines, items_takeAll, List.flatMap_append]
  rfl

namespace Lexer

open Text (Unbroken noBreaks)

/-! ## Texts -/

/-- Reading the text, which stands on one line, leads from one state to another. -/
structure Reads (s : State) (x : String) (t : State) : Prop where
  read_eq : read s x.toList = some t
  unbroken : Unbroken x

theorem Reads.append {s t u : State} {x y : String} (hx : Reads s x t) (hy : Reads t y u) :
    Reads s (x ++ y) u where
  read_eq := by rw [String.toList_append, read_append_of hx.read_eq, hy.read_eq]
  unbroken := hx.unbroken.append hy.unbroken

theorem Reads.fixed {s t : State} {cs : List Char} (h : read s cs = some t)
    (hb : noBreaks cs = true) : Reads s (String.ofList cs) t where
  read_eq := by rw [String.toList_ofList, h]
  unbroken := Text.unbroken_ofList hb

theorem neutral_fixed {cs : List Char}
    (h : ∀ closers, read ⟨.code, closers⟩ cs = some ⟨.code, closers⟩) (hb : noBreaks cs = true) :
    Neutral (String.ofList cs) where
  read_eq closers := (Reads.fixed (h closers) hb).read_eq
  unbroken := (Reads.fixed (h []) hb).unbroken

theorem Neutral.reads {x : String} (h : Neutral x) {closers : List Char} :
    Reads ⟨.code, closers⟩ x ⟨.code, closers⟩ := ⟨h.read_eq closers, h.unbroken⟩

theorem Reads.remark {x : String} (h : Unbroken x) {closers : List Char} :
    Reads ⟨.remark, closers⟩ x ⟨.remark, closers⟩ := ⟨read_remark h closers, h⟩

/-! ## Derivations -/

/-- A state in which a line may begin: leading spaces do not change it. -/
def State.isCalm (s : State) : Bool :=
  match s.mode with
  | .code | .block => true
  | _ => false

/-- The parts of a line lead from one state to another. An expression or a number stands in code. -/
inductive PartsRead : State → List Part → State → Prop where
  | nil {s : State} : PartsRead s [] s
  | fixed {s t u : State} {cs : List Char} {parts : List Part} (hr : read s cs = some t)
      (hb : noBreaks cs = true) (h : PartsRead t parts u) :
      PartsRead s (.text (String.ofList cs) :: parts) u
  | joined {s t u : State} {cs : List Char} {x : String} {parts : List Part}
      (hr : read s cs = some t) (hb : noBreaks cs = true) (h : PartsRead t (.text x :: parts) u) :
      PartsRead s (.text (String.ofList cs ++ x) :: parts) u
  | expr {closers : List Char} {e : Expr} {parts : List Part} {u : State}
      (h : PartsRead ⟨.code, closers⟩ parts u) : PartsRead ⟨.code, closers⟩ (.expr e :: parts) u
  | number {closers : List Char} {n : Int} {parts : List Part} {u : State}
      (h : PartsRead ⟨.code, closers⟩ parts u) : PartsRead ⟨.code, closers⟩ (.number n :: parts) u
  | text {s t u : State} {x : String} {parts : List Part} (hx : Reads s x t)
      (h : PartsRead t parts u) : PartsRead s (.text x :: parts) u
  | spliced {s t u : State} {x y : String} {parts : List Part} (hx : Reads s x t)
      (h : PartsRead t (.text y :: parts) u) : PartsRead s (.text (x ++ y) :: parts) u

/-- The line is no landmark, which already its first characters tell. -/
inductive Plain : List Part → Prop where
  | empty : Plain [.text ""]
  | fixed {cs : List Char} {parts : List Part} (h : startsPlain cs = true) :
      Plain (.text (String.ofList cs) :: parts)
  | joined {cs : List Char} {x : String} {parts : List Part} (h : startsPlain cs = true) :
      Plain (.text (String.ofList cs ++ x) :: parts)

/-- The lines of the steps lead from one state to another and have these landmarks, and slots stand
in code. -/
inductive StepsRead : State → List Step → List String → State → Prop where
  | nil {s : State} : StepsRead s [] [] s
  | line {s t u v : State} {parts : List Part} {rest : List Step} {marks : List String}
      (hs : s.isCalm = true) (hq : Plain parts) (hp : PartsRead s parts t)
      (hn : step t '\n' = some u) (h : StepsRead u rest marks v) :
      StepsRead s (.line parts :: rest) marks v
  | mark {s t u v : State} {x : String} {rest : List Step} {marks : List String}
      (hs : s.isCalm = true) (hx : Landmark x) (hp : Reads s x t)
      (hn : step t '\n' = some u) (h : StepsRead u rest marks v) :
      StepsRead s (.line [.text x] :: rest) (x :: marks) v
  | slot {closers : List Char} {kind : SlotKind} {rest : List Step} {marks : List String} {v : State}
      (h : StepsRead ⟨.code, closers⟩ rest marks v) :
      StepsRead ⟨.code, closers⟩ (.slot kind :: rest) marks v
  | deeper {s v : State} {rest : List Step} {marks : List String} (h : StepsRead s rest marks v) :
      StepsRead s (.deeper :: rest) marks v
  | back {s v : State} {rest : List Step} {marks : List String} (h : StepsRead s rest marks v) :
      StepsRead s (.back :: rest) marks v

theorem StepsRead.append {s t u : State} {steps steps' : List Step} {marks marks' : List String}
    (h : StepsRead s steps marks t) (h' : StepsRead t steps' marks' u) :
    StepsRead s (steps ++ steps') (marks ++ marks') u := by
  induction h with
  | nil => exact h'
  | line hs hq hp hn _ ih => exact .line hs hq hp hn (ih h')
  | mark hs hx hp hn _ ih => exact .mark hs hx hp hn (ih h')
  | slot _ ih => exact .slot (ih h')
  | deeper _ ih => exact .deeper (ih h')
  | back _ ih => exact .back (ih h')

/-- Steps without a landmark in front of others. -/
theorem StepsRead.before {s t u : State} {steps steps' : List Step} {marks : List String}
    (h : StepsRead s steps [] t) (h' : StepsRead t steps' marks u) :
    StepsRead s (steps ++ steps') marks u := h.append h'

/-- Steps with landmarks in front of steps without. -/
theorem StepsRead.followedBy {s t u : State} {steps steps' : List Step} {marks : List String}
    (h : StepsRead s steps marks t) (h' : StepsRead t steps' [] u) :
    StepsRead s (steps ++ steps') marks u := by
  have happend := h.append h'
  rwa [List.append_nil] at happend

/-- The steps are read in code, leave the lexer as it was and have no landmark. -/
def StepsNeutral (steps : List Step) : Prop :=
  ∀ closers, StepsRead ⟨.code, closers⟩ steps [] ⟨.code, closers⟩

theorem StepsNeutral.append {steps steps' : List Step} (h : StepsNeutral steps)
    (h' : StepsNeutral steps') : StepsNeutral (steps ++ steps') :=
  fun closers => (h closers).append (h' closers)

theorem neutral_blank : StepsNeutral (Recipe.code [""]) := by
  intro closers
  repeat' constructor

/-! ## Lines with margins -/

/-- A line at the left edge is printed as it is. -/
theorem print_left (x : String) : (Item.ofText 0 x).print false = [x] := by
  have hmargin : margin 0 = "" := rfl
  simp only [Item.ofText, ite_self, Item.print, hmargin, String.empty_append]
  split
  · rename_i he
    rw [he]
  · rfl

theorem PartsRead.reads {s t : State} {parts : List Part} (h : PartsRead s parts t) :
    Reads s (lineCode parts) t := by
  induction h with
  | nil => exact ⟨rfl, by decide⟩
  | fixed hr hb _ ih =>
    rw [lineCode_cons]
    exact (Reads.fixed hr hb).append ih
  | joined hr hb _ ih =>
    rw [lineCode_cons, Part.code] at ih ⊢
    rw [String.append_assoc]
    exact (Reads.fixed hr hb).append ih
  | @expr _ e _ _ _ ih =>
    rw [lineCode_cons]
    exact (neutral_expr e).reads.append ih
  | @number _ n _ _ _ ih =>
    rw [lineCode_cons]
    exact (neutral_of_inert (inert_int n)).reads.append ih
  | text hx _ ih =>
    rw [lineCode_cons]
    exact hx.append ih
  | spliced hx _ ih =>
    rw [lineCode_cons, Part.code] at ih ⊢
    rw [String.append_assoc]
    exact hx.append ih

theorem Plain.isLandmark_eq_false {parts : List Part} (h : Plain parts) :
    isLandmark (lineCode parts) = false := by
  cases h with
  | empty =>
    rw [lineCode_text]
    exact isLandmark_empty
  | fixed h =>
    rw [lineCode_cons]
    exact isLandmark_of_startsPlain h _
  | joined h =>
    rw [lineCode_cons, Part.code, String.append_assoc]
    exact isLandmark_of_startsPlain h _

theorem reads_margin {s : State} (hs : s.isCalm = true) (indent : Int) :
    Reads s (margin indent) s := by
  have hspace : ∀ c ∈ List.replicate (2 * indent.toNat) ' ', step s c = some s := by
    intro c hc
    rw [List.eq_of_mem_replicate hc]
    obtain ⟨mode, closers⟩ := s
    cases mode with
    | code => rfl
    | block => rfl
    | slash => cases hs
    | string mark => cases hs
    | escape mark => cases hs
    | remark => cases hs
    | star => cases hs
  refine .fixed (read_of_steps hspace) ?_
  simp [noBreaks, Text.isLineBreak]

/-- The lines lead from one state to another, each followed by a line feed, and have these
landmarks. -/
structure LinesRead (s : State) (ls : List String) (marks : List String) (t : State) : Prop where
  read_eq : read s (Text.lineFed ls) = some t
  unbroken : ∀ l ∈ ls, Unbroken l
  landmarks_eq : landmarks ls = marks

theorem LinesRead.nil {s : State} : LinesRead s [] [] s := ⟨rfl, by simp, rfl⟩

theorem LinesRead.append {s t u : State} {ls ls' marks marks' : List String}
    (h : LinesRead s ls marks t) (h' : LinesRead t ls' marks' u) :
    LinesRead s (ls ++ ls') (marks ++ marks') u where
  read_eq := by rw [Text.lineFed_append, read_append_of h.read_eq, h'.read_eq]
  unbroken l hl := (List.mem_append.mp hl).elim (h.unbroken l) (h'.unbroken l)
  landmarks_eq := by rw [landmarks_append, h.landmarks_eq, h'.landmarks_eq]

/-- A file of lines that lead from code to code is lexically closed. -/
theorem LinesRead.closed {ls marks : List String}
    (h : LinesRead ⟨.code, []⟩ ls marks ⟨.code, []⟩) : Closed (Text.joinLines ls ++ "\n") := by
  by_cases hne : ls = []
  · subst hne
    decide
  · unfold Closed
    rw [Text.toList_joinLines_feed hne]
    exact h.read_eq

/-- The items of a sheet lead from one state to another and have these landmarks, whatever their
indents are. -/
inductive ItemsRead : State → List Item → List String → State → Prop where
  | nil {s : State} : ItemsRead s [] [] s
  | line {s t u v : State} {indent : Int} {x : String} {rest : List Item} {marks : List String}
      (hs : s.isCalm = true) (hq : isLandmark x = false) (hx : Reads s x t)
      (hn : step t '\n' = some u) (h : ItemsRead u rest marks v) :
      ItemsRead s (.line indent x :: rest) marks v
  | mark {s t u v : State} {indent : Int} {x : String} {rest : List Item} {marks : List String}
      (hs : s.isCalm = true) (hq : Landmark x) (hx : Reads s x t)
      (hn : step t '\n' = some u) (h : ItemsRead u rest marks v) :
      ItemsRead s (.line indent x :: rest) (x :: marks) v
  | slot {closers : List Char} {indent : Int} {kind : SlotKind} {rest : List Item}
      {marks : List String} {v : State} (h : ItemsRead ⟨.code, closers⟩ rest marks v) :
      ItemsRead ⟨.code, closers⟩ (.slot indent kind :: rest) marks v

theorem ItemsRead.append {s t u : State} {items items' : List Item} {marks marks' : List String}
    (h : ItemsRead s items marks t) (h' : ItemsRead t items' marks' u) :
    ItemsRead s (items ++ items') (marks ++ marks') u := by
  induction h with
  | nil => exact h'
  | line hs hq hx hn _ ih => exact .line hs hq hx hn (ih h')
  | mark hs hq hx hn _ ih => exact .mark hs hq hx hn (ih h')
  | slot _ ih => exact .slot (ih h')

theorem ItemsRead.unbroken {s t : State} {items : List Item} {marks : List String}
    (h : ItemsRead s items marks t) {indent : Int} {x : String}
    (hmem : .line indent x ∈ items) : Unbroken x := by
  induction h with
  | nil => cases hmem
  | line hs hq hx hn _ ih =>
    rcases List.mem_cons.mp hmem with he | hmem
    · cases he
      exact hx.unbroken
    · exact ih hmem
  | mark hs hq hx hn _ ih =>
    rcases List.mem_cons.mp hmem with he | hmem
    · cases he
      exact hx.unbroken
    · exact ih hmem
  | slot _ ih =>
    rcases List.mem_cons.mp hmem with he | hmem
    · cases he
    · exact ih hmem

theorem StepsRead.takeAll {s t : State} {steps : List Step} {marks : List String}
    (h : StepsRead s steps marks t) (sheet : Sheet) :
    ∃ items, (sheet.takeAll steps).items = sheet.items ++ items ∧ ItemsRead s items marks t := by
  induction h generalizing sheet with
  | nil => exact ⟨[], by simp [Sheet.takeAll], .nil⟩
  | @line s t u v parts rest marks hs hq hp hn _ ih =>
    obtain ⟨items, hitems, hread⟩ := ih (sheet.take (.line parts))
    refine ⟨.ofText sheet.indent (lineCode parts) :: items, ?_,
      .line hs hq.isLandmark_eq_false hp.reads hn hread⟩
    rw [Sheet.takeAll, List.foldl_cons, ← Sheet.takeAll, hitems]
    simp [Sheet.take, Sheet.write, Sheet.add]
  | @mark s t u v x rest marks hs hx hp hn _ ih =>
    obtain ⟨items, hitems, hread⟩ := ih (sheet.take (.line [.text x]))
    refine ⟨.ofText sheet.indent x :: items, ?_, .mark hs hx hp hn hread⟩
    rw [Sheet.takeAll, List.foldl_cons, ← Sheet.takeAll, hitems]
    simp [Sheet.take, Sheet.write, Sheet.add]
  | @slot closers kind rest marks v _ ih =>
    obtain ⟨items, hitems, hread⟩ := ih (sheet.take (.slot kind))
    refine ⟨.slot sheet.indent kind :: items, ?_, .slot hread⟩
    rw [Sheet.takeAll, List.foldl_cons, ← Sheet.takeAll, hitems]
    simp [Sheet.take, Sheet.leaveSlot, Sheet.add]
  | deeper _ ih => exact ih (sheet.take .deeper)
  | back _ ih => exact ih (sheet.take .back)

theorem itemsRead_of_code {s t : State} {lines marks : List String}
    (h : StepsRead s (Recipe.code lines) marks t) (indent : Int) :
    ItemsRead s (lines.map (Item.ofText indent)) marks t := by
  obtain ⟨items, hitems, hread⟩ := h.takeAll (Sheet.empty indent)
  rw [takeAll_code] at hitems
  have heq : lines.map (Item.ofText indent) = items := hitems
  rwa [heq]

/-- Filling slots with lines that leave the lexer as it was changes nothing for the lexer and brings
no landmark. -/
theorem ItemsRead.fill {s t : State} {items : List Item} {marks : List String}
    (h : ItemsRead s items marks t) {kind : SlotKind} {lines : List String}
    (hlines : StepsNeutral (Recipe.code lines)) :
    ItemsRead s (items.flatMap (·.fill kind lines)) marks t := by
  induction h with
  | nil => exact .nil
  | line hs hq hx hn _ ih => exact .line hs hq hx hn ih
  | mark hs hq hx hn _ ih => exact .mark hs hq hx hn ih
  | @slot closers indent k rest marks v _ ih =>
    rw [List.flatMap_cons, Item.fill]
    split
    · exact (itemsRead_of_code (hlines closers) indent).append ih
    · exact .slot ih

theorem linesRead_line {s t u : State} {x : String} (hs : s.isCalm = true) (hx : Reads s x t)
    (hn : step t '\n' = some u) (indent : Int) :
    LinesRead s ((Item.line indent x).print false) (if isLandmark x then [unindent x] else []) u := by
  rw [Item.print]
  split
  · rename_i he
    subst he
    refine ⟨?_, by simpa using hx.unbroken, by rw [landmarks_cons, landmarks_nil, List.append_nil]⟩
    rw [Text.lineFed_cons, read_append_of hx.read_eq, read, hn]
    rfl
  · have hprint := (reads_margin hs indent).append hx
    refine ⟨?_, by simpa using hprint.unbroken, ?_⟩
    · rw [Text.lineFed_cons, read_append_of hprint.read_eq, read, hn]
      rfl
    · rw [landmarks_cons, landmarks_nil, List.append_nil, isLandmark_margin, unindent_margin]

/-- The printed lines of items that can be read can be read, with the same landmarks. -/
theorem ItemsRead.lines {s t : State} {items : List Item} {marks : List String}
    (h : ItemsRead s items marks t) : LinesRead s (items.flatMap (·.print false)) marks t := by
  induction h with
  | nil => exact .nil
  | @line s t u v indent x rest marks hs hq hx hn _ ih =>
    have hline := linesRead_line hs hx hn indent
    rw [hq] at hline
    exact hline.append ih
  | @mark s t u v indent x rest marks hs hq hx hn _ ih =>
    have hline := linesRead_line hs hx hn indent
    rw [hq.1, hq.2] at hline
    exact hline.append ih
  | slot _ ih => exact ih

/-- Lines of code at the left edge are printed as they are. -/
theorem StepsRead.ofCode {s t : State} {ls marks : List String}
    (h : StepsRead s (Recipe.code ls) marks t) : LinesRead s ls marks t := by
  have hlines := (itemsRead_of_code h 0).lines
  rw [List.flatMap_map] at hlines
  simpa only [print_left, List.flatMap_singleton'] using hlines

theorem StepsRead.lines {s t : State} {steps : List Step} {marks : List String}
    (h : StepsRead s steps marks t) (indent : Int) :
    LinesRead s (((Sheet.empty indent).takeAll steps).lines false) marks t := by
  obtain ⟨items, hitems, hread⟩ := h.takeAll (Sheet.empty indent)
  unfold Sheet.lines
  rw [hitems]
  exact hread.lines

end Lexer

end Flowscript
