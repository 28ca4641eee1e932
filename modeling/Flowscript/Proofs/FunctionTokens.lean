-- The tokens of a node's function. Behind its comment every line of a
-- function starts and ends in code, so its tokens are those of the
-- declaration, of the body with the snippets in its slots, and of the last
-- bracket.
import Flowscript.Proofs.Markers
import Flowscript.Proofs.Words

namespace Flowscript.Lexer

open Text (lineFed)

/-! ## The comment and the declaration -/

/-- The text of a comment has no tokens: the scanner stays inside, also where it starts behind a star,
unless the text itself starts with a slash. -/
theorem scans_partClosers (cs : List Char) :
    (∃ mode, Scans ⟨.block, []⟩ (Text.partClosers cs) [] ⟨mode, []⟩ ∧
      (mode = .block ∨ mode = .star)) ∧
    (cs.head? ≠ some '/' → ∃ mode, Scans ⟨.star, []⟩ (Text.partClosers cs) [] ⟨mode, []⟩ ∧
      (mode = .block ∨ mode = .star)) := by
  have hstep : ∀ {k t u : Cursor} {c : Char} {ds : List Char}, k.tokens c = [] → k.after c = t →
      Scans t ds [] u → Scans k (c :: ds) [] u := by
    rintro k t u c ds htokens rfl hds
    exact scans_cons.mpr ⟨[], hds, by rw [htokens]; rfl⟩
  fun_induction Text.partClosers cs with
  | case1 rest ih =>
    obtain ⟨mode, hmode, hinside⟩ := ih.1
    exact ⟨⟨mode, hmode, hinside⟩, fun _ => ⟨mode, hmode, hinside⟩⟩
  | case2 c rest hne ih =>
    by_cases hc : c = '*'
    · subst hc
      have hhead : rest.head? ≠ some '/' := by
        intro hhead
        cases rest with
        | nil => cases hhead
        | cons d rest =>
          cases hhead
          exact hne rest rfl rfl
      obtain ⟨mode, hmode, hinside⟩ := ih.2 hhead
      exact ⟨⟨mode, hstep rfl rfl hmode, hinside⟩, fun _ => ⟨mode, hstep rfl rfl hmode, hinside⟩⟩
    · obtain ⟨mode, hmode, hinside⟩ := ih.1
      refine ⟨⟨mode, hstep rfl ?_ hmode, hinside⟩, fun hhead => ⟨mode, hstep rfl ?_ hmode, hinside⟩⟩
      · simp [Cursor.after, Mode.after, Cursor.heldAfter, hc]
      · have hslash : c ≠ '/' := fun he => hhead (by rw [he]; rfl)
        simp [Cursor.after, Mode.after, Cursor.heldAfter, hc, hslash]
  | case3 => exact ⟨⟨.block, rfl, Or.inl rfl⟩, fun _ => ⟨.star, rfl, Or.inr rfl⟩⟩

/-- A line of a comment that ends with text made fit for it. -/
theorem scans_comment {cs : List Char} (hcs : scan ⟨.block, []⟩ cs = (⟨.block, []⟩, []))
    (x : String) : Scans ⟨.block, []⟩ ((String.ofList cs ++ Text.remark x).toList ++ ['\n']) []
      ⟨.block, []⟩ := by
  obtain ⟨mode, hmode, hinside⟩ := (scans_partClosers (Text.joinWith " " (Text.words x)).toList).1
  have hremark : Scans ⟨.block, []⟩ (Text.remark x).toList [] ⟨mode, []⟩ := by
    rw [Text.remark, String.toList_ofList]
    exact hmode
  have hfeed : Scans ⟨mode, []⟩ ['\n'] [] ⟨.block, []⟩ := by
    rcases hinside with rfl | rfl <;> rfl
  exact ((scans_fixed hcs).joined hremark).append hfeed

theorem scans_opening (n : PlannedNode) :
    Scans .start (lineFed ((NodeFunction.opening n).take 5)) [] .start := by
  have hopen : Scans .start ("/**".toList ++ ['\n']) [] ⟨.block, []⟩ := rfl
  have hclose : Scans ⟨.block, []⟩ (" */".toList ++ ['\n']) [] .start := rfl
  have hid : Scans ⟨.block, []⟩ ((" * Node: " ++ Text.remark n.id).toList ++ ['\n']) []
      ⟨.block, []⟩ := scans_comment rfl n.id
  have htag : Scans ⟨.block, []⟩ ((" * Type: " ++ Text.remark n.tag).toList ++ ['\n']) []
      ⟨.block, []⟩ := scans_comment rfl n.tag
  have hdescription : Scans ⟨.block, []⟩
      ((" * " ++ Text.remark (n.description.getD "No description")).toList ++ ['\n']) []
      ⟨.block, []⟩ := scans_comment rfl _
  exact hopen.fed (hid.fed (htag.fed (hdescription.fed (hclose.fed (scans_nil _)))))

/-- The name of a function is one word, which the bracket behind it ends. -/
theorem scans_functionName {name : String} (hname : IsFunctionName name) {cs : List Char}
    {ts : List Token} {t : Cursor} (h : Scans .start ('(' :: cs) ts t) :
    Scans .start (name.toList ++ '(' :: cs) (.word name.toList :: ts) t := by
  obtain ⟨stem, rfl, hchars⟩ := hname
  have hstart : MadeOf isWord "execute_" := by decide
  have hword : ∀ c ∈ ("execute_" ++ stem).toList, isWord c = true := by
    rw [String.toList_append]
    exact fun c hc => (List.mem_append.mp hc).elim (hstart c)
      fun hc => isWord_of_isNameChar (hchars c hc)
  have hheld : heldWord ("execute_" ++ stem).toList = [.word ("execute_" ++ stem).toList] := by
    rw [String.toList_append]
    rfl
  have hrest := h.apart rfl ("execute_" ++ stem).toList
  rw [hheld] at hrest
  exact (@scans_word [] _ hword).append hrest

/-- The name in a declaration is one word. -/
theorem scans_declaration {n : PlannedNode} (hname : IsFunctionName n.functionName) :
    Scans .start ((declaration n).toList ++ ['\n']) [.word "function".toList,
      .word n.functionName.toList, .sign '(', .word "context".toList, .sign ')', .sign '\x7b']
      .start := by
  have hopen : Scans .start "function ".toList [.word "function".toList] .start := rfl
  have hrest : Scans .start ("(context) \x7b".toList ++ ['\n'])
      [.sign '(', .word "context".toList, .sign ')', .sign '\x7b'] .start := rfl
  have hall := hopen.append (scans_functionName hname hrest)
  unfold declaration
  simp only [String.toList_append, List.append_assoc]
  exact hall

/-- The name in a declaration is not watched: no watched word starts with its first letter. -/
theorem avoids_declaration {n : PlannedNode} (hname : IsFunctionName n.functionName) :
    Avoids watched (declaration n) := by
  have hfresh : (Token.word n.functionName.toList).avoids watched = true := by
    obtain ⟨stem, hstem, _⟩ := hname
    rw [hstem, String.toList_append]
    rfl
  apply keeps_of_scans (scans_declaration hname)
  simp only [List.forall_mem_cons]
  exact ⟨rfl, hfresh, rfl, rfl, rfl, rfl, List.forall_mem_nil _⟩

/-! ## The body -/

/-- The tokens that a step of the body brings, where slots are filled with snippets. -/
def stepTokens (snippet : SlotKind → List String) : Step → List Token
  | .line parts => lineTokens (lineCode parts)
  | .slot kind => (snippet kind).flatMap lineTokens
  | .deeper => []
  | .back => []

/-- The printed lines of an item, where a slot is filled with its snippet. -/
def filledLines (snippet : SlotKind → List String) (item : Item) : List String :=
  (item.fillAny snippet SlotKind.all).flatMap (Item.print false)

theorem filledLines_line (snippet : SlotKind → List String) (indent : Int) (x : String) :
    filledLines snippet (.line indent x) = (Item.line indent x).print false :=
  List.flatMap_singleton ..

theorem filledLines_slot (snippet : SlotKind → List String) (indent : Int) (kind : SlotKind) :
    filledLines snippet (.slot indent kind) =
      (snippet kind).flatMap fun l => (Item.ofText indent l).print false := by
  rw [filledLines, Item.fillAny, if_pos (SlotKind.mem_all kind), List.flatMap_map]

/-- The lines that a step of the body brings, without their margins. -/
def stepLines (snippet : SlotKind → List String) : Step → List String
  | .line parts => [lineCode parts]
  | .slot kind => snippet kind
  | .deeper => []
  | .back => []

/-- What the steps bring stands behind what was there, however lines are looked at, where margins do
not count. -/
theorem flatMap_takeAll {β : Type} {view : String → List β}
    (hview : ∀ indent x, ((Item.line indent x).print false).flatMap view = view x) {sheet : Sheet}
    (steps : List Step) (snippet : SlotKind → List String) :
    ((sheet.takeAll steps).items.flatMap (filledLines snippet)).flatMap view =
      (sheet.items.flatMap (filledLines snippet)).flatMap view ++
        (steps.flatMap (stepLines snippet)).flatMap view := by
  induction steps generalizing sheet with
  | nil => simp [Sheet.takeAll]
  | cons st rest ih =>
    have hstep : ((sheet.take st).items.flatMap (filledLines snippet)).flatMap view =
        (sheet.items.flatMap (filledLines snippet)).flatMap view ++
          (stepLines snippet st).flatMap view := by
      cases st with
      | line parts =>
        simp only [Sheet.take, Sheet.write, Sheet.add, List.flatMap_append, List.flatMap_singleton,
          stepLines]
        exact congrArg _ (hview _ _)
      | slot kind =>
        simp only [Sheet.take, Sheet.leaveSlot, Sheet.add, List.flatMap_append,
          List.flatMap_singleton, stepLines, filledLines_slot, List.flatMap_assoc]
        exact congrArg _ (List.flatMap_congr fun l _ => hview _ _)
      | deeper => simp [Sheet.take, Sheet.deeper, stepLines]
      | back => simp [Sheet.take, Sheet.back, stepLines]
    rw [List.flatMap_cons, List.flatMap_append, ← List.append_assoc, ← hstep]
    exact @ih (sheet.take st)

theorem stepTokens_eq (snippet : SlotKind → List String) :
    stepTokens snippet = fun st => (stepLines snippet st).flatMap lineTokens := by
  funext st
  cases st <;> simp [stepTokens, stepLines]

theorem hasSlot_takeAll {sheet : Sheet} {kind : SlotKind} {steps : List Step}
    (h : .slot kind ∈ steps) : (sheet.takeAll steps).hasSlot kind = true := by
  induction steps generalizing sheet with
  | nil => cases h
  | cons st rest ih =>
    rcases List.mem_cons.mp h with rfl | h
    · have hslot : .slot sheet.indent kind ∈ (sheet.take (.slot kind)).items :=
        List.mem_append_right _ (List.mem_singleton_self _)
      exact List.any_eq_true.mpr ⟨_, mem_items_takeAll rest hslot, by simp [Item.isSlot]⟩
    · exact @ih (sheet.take st) h

/-- The items of the function behind its comment. -/
def innerItems (n : PlannedNode) (body : List Step) : List Item :=
  ((Sheet.empty 0).takeAll
    (Recipe.code [declaration n] ++ [.deeper] ++ body ++ [.back] ++ Recipe.code ["\x7d"])).items

theorem items_draft {n : PlannedNode} {c : Choices} {draft : Sheet}
    (h : (NodeFunction.draft n c).outcome = .ok draft) :
    ∃ body, (n.recipe.body n c).outcome = .ok body ∧
      draft.items = ((NodeFunction.opening n).take 5).map (Item.ofText 0) ++ innerItems n body := by
  obtain ⟨body, hbody, rfl⟩ := NodeFunction.draft_eq_ok h
  refine ⟨body, hbody, ?_⟩
  have hsplit : Recipe.code (NodeFunction.opening n) ++ [.deeper] ++ body ++ [.back] ++
      Recipe.code ["\x7d"] = Recipe.code ((NodeFunction.opening n).take 5) ++
        (Recipe.code [declaration n] ++ [.deeper] ++ body ++ [.back] ++ Recipe.code ["\x7d"]) := rfl
  rw [hsplit, takeAll_append, takeAll_code, items_takeAll]
  rfl

theorem flatMap_innerItems {β : Type} {view : String → List β}
    (hview : ∀ indent x, ((Item.line indent x).print false).flatMap view = view x)
    (n : PlannedNode) (body : List Step) (snippet : SlotKind → List String) :
    ((innerItems n body).flatMap (filledLines snippet)).flatMap view =
      view (declaration n) ++ (body.flatMap (stepLines snippet)).flatMap view ++ view "\x7d" := by
  rw [innerItems, flatMap_takeAll hview]
  simp [Sheet.empty, Recipe.code, stepLines]

theorem tokens_innerItems (n : PlannedNode) (body : List Step) (snippet : SlotKind → List String) :
    ((innerItems n body).flatMap (filledLines snippet)).flatMap lineTokens =
      lineTokens (declaration n) ++ body.flatMap (stepTokens snippet) ++ lineTokens "\x7d" := by
  rw [flatMap_innerItems lineTokens_print, List.flatMap_assoc, stepTokens_eq]

/-- What all lines of a function keep, behind its comment: it has to be looked for in the declaration,
in the body, in the snippets of its slots and at its end. -/
theorem keeps_innerItems {P : Token → Prop} {n : PlannedNode} {body : List Step}
    {snippet : SlotKind → List String} (hopen : Keeps P (declaration n))
    (hbody : ∀ parts, .line parts ∈ body → Keeps P (lineCode parts)) (hclose : Keeps P "\x7d")
    (hslot : ∀ indent kind, .slot indent kind ∈ innerItems n body →
      ∀ l ∈ snippet kind, Keeps P l) :
    ∀ l ∈ (innerItems n body).flatMap (filledLines snippet), Keeps P l := by
  intro l hl
  obtain ⟨item, hitem, hl⟩ := List.mem_flatMap.mp hl
  cases item with
  | line indent x =>
    rw [filledLines_line] at hl
    refine Keeps.print ?_ hl
    obtain ⟨parts, hparts, rfl⟩ := (mem_takeAll hitem).resolve_left List.not_mem_nil
    simp only [List.mem_append, List.mem_singleton, Recipe.code, List.map_cons, List.map_nil,
      reduceCtorEq, or_false, Step.line.injEq] at hparts
    rcases hparts with (rfl | hparts) | rfl
    · rw [lineCode_text]
      exact hopen
    · exact hbody parts hparts
    · rw [lineCode_text]
      exact hclose
  | slot indent kind =>
    rw [filledLines_slot] at hl
    obtain ⟨m, hm, hl⟩ := List.mem_flatMap.mp hl
    exact (hslot indent kind hitem m hm).print hl

/-- What a function is built from: the draft with the body of the recipe, and the snippets of its
slots, which can all be written. -/
theorem parts_of_build {n : PlannedNode} {c : Choices} {filled : Sheet}
    (h : (NodeFunction.build n c).outcome = .ok filled) :
    ∃ draft body facts, (NodeFunction.draft n c).outcome = .ok draft ∧
      (n.recipe.body n c).outcome = .ok body ∧ n.recipe.facts n c = .ok facts ∧
      filled = draft.fillAll (Snippet.linesOr facts) SlotKind.all ∧ Snippet.Ready facts draft ∧
      ∀ kind, .slot kind ∈ body → draft.hasSlot kind = true := by
  obtain ⟨draft, facts, found, hdraft, hfacts, hinto⟩ := build_eq_ok h
  obtain ⟨hfilled, hready⟩ := intoSheetAll_eq_ok hinto
  obtain ⟨body, hbody, rfl⟩ := NodeFunction.draft_eq_ok hdraft
  refine ⟨_, body, facts, hdraft, hbody, hfacts, hfilled,
    fun kind => hready kind (SlotKind.mem_all kind), fun kind hkind => ?_⟩
  exact hasSlot_takeAll (by simp [hkind])

/-- The lines of a function are those of its comment and of its items, where a slot is filled. -/
theorem lines_fillAll {n : PlannedNode} {draft : Sheet} {body : List Step}
    (hitems : draft.items =
      ((NodeFunction.opening n).take 5).map (Item.ofText 0) ++ innerItems n body)
    (snippet : SlotKind → List String) :
    (draft.fillAll snippet SlotKind.all).lines false = (NodeFunction.opening n).take 5 ++
      (innerItems n body).flatMap (filledLines snippet) := by
  have hcomment : (((NodeFunction.opening n).take 5).map (Item.ofText 0)).flatMap
      (filledLines snippet) = (NodeFunction.opening n).take 5 := by
    rw [List.flatMap_map]
    exact (List.flatMap_congr fun l _ => (filledLines_line ..).trans (print_left l)).trans
      (List.flatMap_singleton' _)
  rw [fillAll_eq, Sheet.lines, List.flatMap_assoc, hitems, List.flatMap_append]
  exact congrArg (· ++ _) hcomment

/-- A slot of the body is one of the draft, so its snippet could be written. -/
theorem ready_slot {n : PlannedNode} {draft : Sheet} {body : List Step} {facts : Facts}
    (hready : Snippet.Ready facts draft)
    (hitems : draft.items =
      ((NodeFunction.opening n).take 5).map (Item.ofText 0) ++ innerItems n body)
    {indent : Int} {kind : SlotKind} (h : .slot indent kind ∈ innerItems n body) :
    (Snippet.lines kind facts).outcome = .ok (Snippet.linesOr facts kind) := by
  refine hready kind (List.any_eq_true.mpr ⟨.slot indent kind, ?_, by simp [Item.isSlot]⟩)
  rw [hitems]
  exact List.mem_append_right _ h

/-- The tokens of a function are those of its declaration, of its body with the snippets in the
slots, and of its last bracket. -/
theorem tokens_build {n : PlannedNode} {c : Choices} {draft : Sheet} {body : List Step}
    {facts : Facts} (hname : IsFunctionName n.functionName)
    (hdraft : (NodeFunction.draft n c).outcome = .ok draft)
    (hbody : (n.recipe.body n c).outcome = .ok body) (hfacts : n.recipe.facts n c = .ok facts)
    (hready : Snippet.Ready facts draft) :
    tokens ((draft.fillAll (Snippet.linesOr facts) SlotKind.all).render false) =
      lineTokens (declaration n) ++ body.flatMap (stepTokens (Snippet.linesOr facts)) ++
        lineTokens "\x7d" := by
  obtain ⟨body', hbody', hitems⟩ := items_draft hdraft
  cases hbody.symm.trans hbody'
  have hlines := lines_fillAll hitems (Snippet.linesOr facts)
  have hcomplete : ∀ l ∈ (innerItems n body).flatMap (filledLines (Snippet.linesOr facts)),
      Keeps (fun _ => True) l := by
    refine keeps_innerItems ((avoids_declaration hname).mono fun _ _ => trivial)
      (fun parts hparts => (tame_body hbody hparts).mono fun _ _ => trivial) ⟨rfl, fun _ _ => trivial⟩
      fun indent kind hslot l hl => ?_
    exact (tame_snippet (usual_of_facts hfacts) (ready_slot hready hitems hslot) l hl).mono
      fun _ _ => trivial
  have hscan := (scans_opening n).append (scans_lineFed fun l hl => (hcomplete l hl).complete)
  rw [← Text.lineFed_append, ← hlines, tokens_innerItems, List.nil_append] at hscan
  unfold tokens Sheet.render
  rw [Text.toList_joinLines_feed]
  · exact congrArg Prod.snd hscan
  · rw [hlines]
    exact List.cons_ne_nil _ _

/-- The tokens of the text of a function, with the body that they come from. -/
theorem tokens_text {n : PlannedNode} {c : Choices} {text : String}
    (hname : IsFunctionName n.functionName) (h : (NodeFunction.text n c).outcome = .ok text) :
    ∃ body facts, (n.recipe.body n c).outcome = .ok body ∧ n.recipe.facts n c = .ok facts ∧
      (∀ kind, .slot kind ∈ body →
        (Snippet.lines kind facts).outcome = .ok (Snippet.linesOr facts kind)) ∧
      tokens text = lineTokens (declaration n) ++ body.flatMap (stepTokens (Snippet.linesOr facts)) ++
        lineTokens "\x7d" := by
  obtain ⟨filled, hfilled, h⟩ := Traced.bind_eq_ok.mp h
  cases h
  obtain ⟨draft, body, facts, hdraft, hbody, hfacts, rfl, hready, hslots⟩ := parts_of_build hfilled
  exact ⟨body, facts, hbody, hfacts, fun kind hkind => hready kind (hslots kind hkind),
    tokens_build hname hdraft hbody hfacts hready⟩

end Flowscript.Lexer
