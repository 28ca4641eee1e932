-- Markers in the function of a node. No line that a recipe or a snippet
-- writes can be taken for a marker, whatever the node's id, tag and
-- configuration are. The markers in the print of an unfilled function are
-- therefore just its slots, and filling them in the text, in any order, gives
-- the text of the function.
import Flowscript.Proofs.Filling
import Flowscript.Proofs.Functions
import Flowscript.Proofs.Shapes

namespace Flowscript

open Text (OneLine)

/-! ## Lines that are no markers -/

/-- The line is no marker of any kind, at any indent. -/
def Unmarked (x : String) : Prop :=
  ∀ kind indent, Marker.margin? kind (margin indent ++ x).toList = none

/-- Whether a line that starts with these characters is no marker, whatever follows them. -/
def startsUnmarked (cs : List Char) : Bool :=
  apart (cs.dropWhile Marker.isMargin) ['/', '/', ' ', '\x7b', '\x7b']

theorem dropWhile_margin (indent : Int) (x : String) :
    (margin indent ++ x).toList.dropWhile Marker.isMargin =
      x.toList.dropWhile Marker.isMargin := by
  rw [String.toList_append, toList_margin]
  apply List.dropWhile_append_of_pos
  intro c hc
  rw [List.eq_of_mem_replicate hc]
  rfl

theorem margin?_eq_none {kind : SlotKind} {line : List Char}
    (h : ¬ kind.marker.toList <+: line.dropWhile Marker.isMargin) :
    Marker.margin? kind line = none := by
  unfold Marker.margin?
  split
  · rename_i rest hrest
    exact absurd ⟨rest, List.isPrefixOf?_eq_some_iff_append_eq.mp hrest⟩ h
  · rfl

theorem unmarked_of_startsUnmarked {cs : List Char} (h : startsUnmarked cs = true) (x : String) :
    Unmarked (String.ofList cs ++ x) := by
  intro kind indent
  apply margin?_eq_none
  have hne : (cs.dropWhile Marker.isMargin).isEmpty = false := by
    cases hrest : cs.dropWhile Marker.isMargin with
    | nil =>
      unfold startsUnmarked at h
      rw [hrest] at h
      cases h
    | cons => rfl
  have hdrop : (cs ++ x.toList).dropWhile Marker.isMargin =
      cs.dropWhile Marker.isMargin ++ x.toList := by
    rw [List.dropWhile_append, hne]
    rfl
  have hhead : ∃ more, kind.marker.toList = ['/', '/', ' ', '\x7b', '\x7b'] ++ more := by
    cases kind <;> exact ⟨_, rfl⟩
  obtain ⟨more, hmore⟩ := hhead
  rw [dropWhile_margin, String.toList_append, String.toList_ofList, hdrop, hmore]
  intro hmarker
  have hfalse := isPrefixOf_eq_false_of_apart h x.toList
  rw [List.isPrefixOf_iff_prefix.mpr ((List.prefix_append _ more).trans hmarker)] at hfalse
  cases hfalse

/-- Lines with the fixed characters that each of them starts with. -/
inductive Headed : List (List Char) → List String → Prop where
  | nil : Headed [] []
  | fixed {cs : List Char} {heads : List (List Char)} {ls : List String} (h : Headed heads ls) :
      Headed (cs :: heads) (String.ofList cs :: ls)
  | text {cs : List Char} {x : String} {heads : List (List Char)} {ls : List String}
      (h : Headed heads ls) : Headed (cs :: heads) ((String.ofList cs ++ x) :: ls)

/-- What the head of a line decides holds of the lines where it holds of their heads. -/
theorem Headed.all {heads : List (List Char)} {ls : List String} (h : Headed heads ls)
    {p : List Char → Bool} {Q : String → Prop}
    (hp : ∀ cs, p cs = true → ∀ x, Q (String.ofList cs ++ x)) (hheads : heads.all p = true) :
    ∀ l ∈ ls, Q l := by
  induction h with
  | nil => exact List.forall_mem_nil _
  | fixed _ ih =>
    rw [List.all_cons, Bool.and_eq_true] at hheads
    have hfirst := hp _ hheads.1 ""
    rw [String.append_empty] at hfirst
    exact List.forall_mem_cons.mpr ⟨hfirst, ih hheads.2⟩
  | text _ ih =>
    rw [List.all_cons, Bool.and_eq_true] at hheads
    exact List.forall_mem_cons.mpr ⟨hp _ hheads.1 _, ih hheads.2⟩

theorem Headed.unmarked {heads : List (List Char)} {ls : List String} (h : Headed heads ls)
    (hheads : heads.all startsUnmarked = true) : ∀ l ∈ ls, Unmarked l :=
  h.all (fun _ => unmarked_of_startsUnmarked) hheads

/-- Lines that start with one of the given texts each. -/
inductive Started (starts : List String) : List String → Prop where
  | nil : Started starts []
  | fixed {s : String} {ls : List String} (hs : s ∈ starts) (h : Started starts ls) :
      Started starts (s :: ls)
  | text {s x : String} {ls : List String} (hs : s ∈ starts) (h : Started starts ls) :
      Started starts ((s ++ x) :: ls)

/-- What the head of a line decides holds of the lines where it holds of the texts they start with. -/
theorem Started.all {starts ls : List String} (h : Started starts ls) {heads : List (List Char)}
    (hstarts : Headed heads starts) {p : List Char → Bool} {Q : String → Prop}
    (hp : ∀ cs, p cs = true → ∀ x, Q (String.ofList cs ++ x)) (hheads : heads.all p = true) :
    ∀ l ∈ ls, Q l := by
  have hstart : ∀ s ∈ starts, ∀ x, Q (s ++ x) := by
    refine hstarts.all (fun cs hcs more x => ?_) hheads
    rw [String.append_assoc]
    exact hp cs hcs _
  induction h with
  | nil => exact List.forall_mem_nil _
  | @fixed s ls hs _ ih =>
    have hline := hstart s hs ""
    rw [String.append_empty] at hline
    exact List.forall_mem_cons.mpr ⟨hline, ih⟩
  | text hs _ ih => exact List.forall_mem_cons.mpr ⟨hstart _ hs _, ih⟩

/-- The fixed characters that a line starts with. -/
def spelledHead : Spelling → List Char
  | some cs :: rest => cs ++ spelledHead rest
  | _ => []

theorem lineCode_eq_head (parts : List Part) :
    ∃ x, lineCode parts = String.ofList (spelledHead (spell (parts.map Part.fixed?))) ++ x := by
  induction parts with
  | nil => exact ⟨"", rfl⟩
  | cons p rest ih =>
    cases p with
    | text s =>
      obtain ⟨x, hx⟩ := ih
      refine ⟨x, ?_⟩
      rw [lineCode_cons, hx]
      simp [Part.code, Part.fixed?, spell, spelledHead, String.ofList_append, String.append_assoc]
    | expr e => exact ⟨lineCode (.expr e :: rest), by simp [spelledHead, spell, Part.fixed?]⟩
    | number k => exact ⟨lineCode (.number k :: rest), by simp [spelledHead, spell, Part.fixed?]⟩

/-- Whether no line that is spelled like this is a marker. -/
def isUnmarked (s : Spelling) : Bool := startsUnmarked (spelledHead s)

theorem isUnmarked_trialShapes (saves : Bool) (k : Option Kind) :
    ∀ s ∈ trialShapes saves k, isUnmarked (spell s) = true := by
  cases k with
  | none => exact Spelled.all isUnmarked (by repeat' constructor) (by decide +kernel)
  | some k =>
    cases k with
    | logger => cases saves <;> exact Spelled.all isUnmarked (by repeat' constructor) (by decide +kernel)
    | _ => exact Spelled.all isUnmarked (by repeat' constructor) (by decide +kernel)

theorem unmarked_body {n : PlannedNode} {c : Choices} {steps : List Step}
    (h : (n.recipe.body n c).outcome = .ok steps) {parts : List Part} (hline : .line parts ∈ steps) :
    Unmarked (lineCode parts) := by
  obtain ⟨x, hx⟩ := lineCode_eq_head parts
  rw [hx]
  exact unmarked_of_startsUnmarked
    (isUnmarked_trialShapes n.saves n.kind? _ (shape_mem_of_body h hline)) x

theorem unmarked_opening (n : PlannedNode) : ∀ l ∈ NodeFunction.opening n, Unmarked l := by
  unfold NodeFunction.opening
  simp only [String.append_assoc]
  exact Headed.unmarked (by repeat' first | with_reducible apply Headed.text | constructor) rfl

/-- The fixed texts that the lines of a snippet start with, where the names in it are the usual
ones. -/
def Snippet.starts : SlotKind → List String
  | .auth =>
    ["// API key authentication", "// Bearer token authentication", "// Basic authentication",
      "// OAuth2 authentication", "options", "const apiKey = ", "const token = ",
      "const username = ", "const password = ", "const accessToken = ", "if (apiKey) \x7b",
      "if (token) \x7b", "if (username && password) \x7b", "if (accessToken) \x7b", "  options",
      "\x7d"]
  | .error =>
    ["// Fail on HTTP error responses", "if (", "  const errorMessage = ",
      "  Logger.log(errorMessage);", "  throw new Error(errorMessage);", "\x7d"]
  | .rateLimit => ["// Rate limiting", "checkRateLimit("]
  | .dedup =>
    ["// Skip items already processed in the last ", "items", "  const itemKey = ",
      "  if (isAlreadyProcessed(itemKey)) \x7b", "    // Seen again: push the expiry forward",
      "    markProcessed(itemKey, ", "    return false;", "  \x7d", "  markProcessed(itemKey, ",
      "  return true;", "\x7d);"]

theorem Snippet.started {kind : SlotKind} {f : Facts} (hf : Lexer.Usual f) {ls : List String}
    (h : (lines kind f).outcome = .ok ls) : Started (starts kind) ls := by
  cases isCode_of_lines h
  case nothing => exact .nil
  case' auth scheme names hnames => cases scheme
  all_goals
    simp only [schemeLines, headersLine, errorLines, limitCode, dedupCode, hf.optionsVar,
      hf.responseVar, hf.itemsVar, String.append_assoc, indent_options]
    repeat' first | with_reducible apply Started.text | constructor

theorem unmarked_snippet {kind : SlotKind} {f : Facts} (hf : Lexer.Usual f) {lines : List String}
    (h : (Snippet.lines kind f).outcome = .ok lines) : ∀ l ∈ lines, Unmarked l := by
  have hstarted := Snippet.started hf h
  cases kind
  all_goals
    exact hstarted.all (by repeat' constructor) (fun _ => unmarked_of_startsUnmarked) rfl

/-! ## Plain functions -/

/-- A line of a sheet was there before, or one of the steps has written it. -/
theorem mem_takeAll {sheet : Sheet} {steps : List Step} {indent : Int} {x : String}
    (h : .line indent x ∈ (sheet.takeAll steps).items) :
    .line indent x ∈ sheet.items ∨ ∃ parts, .line parts ∈ steps ∧ x = lineCode parts := by
  induction steps generalizing sheet with
  | nil => exact Or.inl h
  | cons st rest ih =>
    rcases @ih (sheet.take st) h with hmem | ⟨parts, hparts, hx⟩
    · cases st with
      | line parts =>
        rcases List.mem_append.mp hmem with hmem | hmem
        · exact Or.inl hmem
        · cases List.mem_singleton.mp hmem
          exact Or.inr ⟨parts, by simp, rfl⟩
      | slot kind =>
        rcases List.mem_append.mp hmem with hmem | hmem
        · exact Or.inl hmem
        · cases List.mem_singleton.mp hmem
      | deeper => exact Or.inl hmem
      | back => exact Or.inl hmem
    · exact Or.inr ⟨parts, List.mem_cons_of_mem _ hparts, hx⟩

theorem unmarked_draft {n : PlannedNode} {c : Choices} {sheet : Sheet}
    (h : (NodeFunction.draft n c).outcome = .ok sheet) {indent : Int} {x : String}
    (hmem : .line indent x ∈ sheet.items) : Unmarked x := by
  obtain ⟨body, hbody, rfl⟩ := NodeFunction.draft_eq_ok h
  have hcode : ∀ {lines : List String} {parts : List Part}, (∀ l ∈ lines, Unmarked l) →
      .line parts ∈ Recipe.code lines → Unmarked (lineCode parts) := by
    intro lines parts hlines hparts
    obtain ⟨l, hl, he⟩ := List.mem_map.mp hparts
    cases he
    rw [lineCode_text]
    exact hlines l hl
  rcases mem_takeAll hmem with hmem | ⟨parts, hparts, rfl⟩
  · cases hmem
  · simp only [List.mem_append, List.mem_singleton] at hparts
    rcases hparts with (((hparts | hparts) | hparts) | hparts) | hparts
    · exact hcode (unmarked_opening n) hparts
    · cases hparts
    · exact unmarked_body hbody hparts
    · cases hparts
    · exact hcode (Headed.unmarked (.fixed .nil) rfl) hparts

/-- An unfilled function can be taken for its print with markers. -/
theorem plain_draft {n : PlannedNode} {c : Choices} {sheet : Sheet}
    (hname : IsFunctionName n.functionName) (h : (NodeFunction.draft n c).outcome = .ok sheet)
    (kind : SlotKind) : sheet.Plain kind := by
  intro item hitem
  cases item with
  | slot indent k => trivial
  | line indent x =>
    exact ⟨((Lexer.itemsRead_draft hname h).unbroken hitem).oneLine,
      unmarked_draft h hitem kind indent⟩

/-- The lines stay whole in a text and are no markers. -/
def PlainLines (lines : List String) : Prop := ∀ l ∈ lines, OneLine l ∧ Unmarked l

theorem plainLines_snippet {kind : SlotKind} {f : Facts} (hf : Lexer.Usual f) {lines : List String}
    (h : (Snippet.lines kind f).outcome = .ok lines) : PlainLines lines := by
  intro l hl
  have hread := (Lexer.neutral_snippet hf h []).ofCode
  exact ⟨(hread.unbroken l hl).oneLine, unmarked_snippet hf h l hl⟩

theorem plain_fill {kind other : SlotKind} {s : Sheet} {lines : List String} (hs : s.Plain kind)
    (hlines : PlainLines lines) : (s.fill other lines).Plain kind := by
  intro item hitem
  obtain ⟨old, hold, hitem⟩ := List.mem_flatMap.mp hitem
  cases old with
  | line indent x =>
    cases List.mem_singleton.mp hitem
    exact hs _ hold
  | slot indent k =>
    rw [Item.fill] at hitem
    split at hitem
    · obtain ⟨l, hl, rfl⟩ := List.mem_map.mp hitem
      exact ⟨(hlines l hl).1, (hlines l hl).2 kind _⟩
    · cases List.mem_singleton.mp hitem
      trivial

/-! ## Filling in any order -/

/-- The lines that fill a kind of slot, and none where the snippet fails. -/
def Snippet.linesOr (f : Facts) (kind : SlotKind) : List String :=
  match (Snippet.lines kind f).outcome with
  | .ok lines => lines
  | .error _ => []

/-- The sheet with slots of several kinds filled in turn. -/
def Sheet.fillAll (snippet : SlotKind → List String) (kinds : List SlotKind) (s : Sheet) : Sheet :=
  kinds.foldl (fun s kind => s.fill kind (snippet kind)) s

/-- The item with a slot of any of the kinds replaced by lines. -/
def Item.fillAny (snippet : SlotKind → List String) (kinds : List SlotKind) : Item → List Item
  | .slot indent k =>
    if k ∈ kinds then (snippet k).map (.ofText indent) else [.slot indent k]
  | .line indent text => [.line indent text]

theorem fillAny_cons (snippet : SlotKind → List String) (kind : SlotKind) (kinds : List SlotKind)
    (item : Item) : (item.fill kind (snippet kind)).flatMap (Item.fillAny snippet kinds) =
      item.fillAny snippet (kind :: kinds) := by
  cases item with
  | line indent x => rfl
  | slot indent k =>
    rw [Item.fill, Item.fillAny]
    by_cases hk : k = kind
    · subst hk
      rw [if_pos rfl, if_pos (List.mem_cons_self ..), List.flatMap_map]
      exact List.map_eq_flatMap.symm
    · rw [if_neg hk, List.flatMap_singleton, Item.fillAny]
      simp only [List.mem_cons, hk, false_or]

/-- What the slots become does not depend on the order of the kinds. -/
theorem fillAll_eq (snippet : SlotKind → List String) (kinds : List SlotKind) (s : Sheet) :
    s.fillAll snippet kinds = { s with items := s.items.flatMap (Item.fillAny snippet kinds) } := by
  induction kinds generalizing s with
  | nil =>
    have hkeep : ∀ item ∈ s.items, Item.fillAny snippet [] item = [item] := by
      intro item _
      cases item <;> rfl
    rw [List.flatMap_congr hkeep, List.flatMap_singleton']
    rfl
  | cons kind rest ih =>
    rw [Sheet.fillAll, List.foldl_cons, ← Sheet.fillAll, ih]
    simp only [Sheet.fill, List.flatMap_assoc, fillAny_cons]

theorem hasSlot_fill (s : Sheet) (kind other : SlotKind) (lines : List String) :
    (s.fill other lines).hasSlot kind = (s.hasSlot kind && kind != other) := by
  unfold Sheet.hasSlot Sheet.fill
  rw [List.any_flatMap]
  induction s.items with
  | nil => rfl
  | cons item rest ih =>
    have hitem : (item.fill other lines).any (·.isSlot kind) =
        (item.isSlot kind && kind != other) := by
      cases item with
      | line indent x => rfl
      | slot indent k =>
        rw [Item.fill]
        split
        · rename_i hk
          have hlines : (lines.map (Item.ofText indent)).any (·.isSlot kind) = false := by
            simp [Item.isSlot, Item.ofText]
          rw [hlines]
          by_cases hkind : kind = other
          · simp [hkind]
          · have hne : ¬ k = kind := fun he => hkind (he.symm.trans hk)
            simp [Item.isSlot, hne]
        · rename_i hk
          by_cases hkind : k = kind
          · subst hkind
            simp [Item.isSlot, hk]
          · simp [Item.isSlot, hkind]
    rw [List.any_cons, List.any_cons, ih, hitem, Bool.and_or_distrib_right]

/-- The snippets of all slots that are open can be written. -/
def Snippet.Ready (f : Facts) (s : Sheet) : Prop :=
  ∀ kind, s.hasSlot kind = true → (Snippet.lines kind f).outcome = .ok (Snippet.linesOr f kind)

theorem linesOr_of_ok {f : Facts} {kind : SlotKind} {lines : List String}
    (h : (Snippet.lines kind f).outcome = .ok lines) : Snippet.linesOr f kind = lines := by
  unfold Snippet.linesOr
  rw [h]

theorem Snippet.Ready.fill {f : Facts} {s : Sheet} (h : Snippet.Ready f s) (kind : SlotKind)
    (lines : List String) : Snippet.Ready f (s.fill kind lines) := by
  intro other hother
  rw [hasSlot_fill, Bool.and_eq_true] at hother
  exact h other hother.1

theorem intoSheet_eq_ok {s filled : Sheet} {kind : SlotKind} {f : Facts} {found : Bool}
    (h : (Snippet.intoSheet s kind f).outcome = .ok (filled, found)) :
    filled = s.fill kind (Snippet.linesOr f kind) ∧
      (s.hasSlot kind = true →
        (Snippet.lines kind f).outcome = .ok (Snippet.linesOr f kind)) := by
  unfold Snippet.intoSheet at h
  split at h
  · obtain ⟨lines, hlines, h⟩ := Traced.bind_eq_ok.mp h
    cases h
    rw [linesOr_of_ok hlines]
    exact ⟨rfl, fun _ => hlines⟩
  · rename_i hslot
    cases h
    exact ⟨(fill_of_hasSlot_eq_false _ (by simpa using hslot)).symm, fun h => absurd h hslot⟩

theorem intoSheetAll_eq_ok {s filled : Sheet} {kinds found : List SlotKind} {f : Facts}
    (h : (Snippet.intoSheetAll s f kinds).outcome = .ok (filled, found)) :
    filled = s.fillAll (Snippet.linesOr f) kinds ∧
      ∀ kind ∈ kinds, s.hasSlot kind = true →
        (Snippet.lines kind f).outcome = .ok (Snippet.linesOr f kind) := by
  induction kinds generalizing s filled found with
  | nil =>
    cases h
    exact ⟨rfl, List.forall_mem_nil _⟩
  | cons kind rest ih =>
    obtain ⟨⟨next, here⟩, hnext, h⟩ := Traced.bind_eq_ok.mp h
    obtain ⟨⟨last, others⟩, hlast, h⟩ := Traced.bind_eq_ok.mp h
    cases h
    obtain ⟨rfl, hkind⟩ := intoSheet_eq_ok hnext
    obtain ⟨rfl, hrest⟩ := ih hlast
    refine ⟨rfl, fun other hother hslot => ?_⟩
    by_cases he : other = kind
    · exact he ▸ hkind (he ▸ hslot)
    · have hmem : other ∈ rest := (List.mem_cons.mp hother).resolve_left he
      refine hrest other hmem ?_
      rw [hasSlot_fill, hslot]
      simpa using he

theorem intoText_render {s : Sheet} {kind : SlotKind} {f : Facts} (hplain : s.Plain kind)
    (hready : Snippet.Ready f s) :
    (Snippet.intoText (s.render true) kind f).outcome =
      .ok ((s.fill kind (Snippet.linesOr f kind)).render true) := by
  unfold Snippet.intoText
  rw [occursIn_render hplain]
  by_cases hslot : s.hasSlot kind = true
  · rw [if_pos hslot, Traced.bind_eq_ok]
    exact ⟨_, hready kind hslot, by rw [fill_render _ hplain]; rfl⟩
  · rw [if_neg hslot, fill_of_hasSlot_eq_false _ (by simpa using hslot)]
    rfl

/-- Lines come in only where a slot of the kind is open, and then they are those of its snippet. -/
theorem plain_fill_linesOr {f : Facts} (hf : Lexer.Usual f) {s : Sheet}
    (hready : Snippet.Ready f s) {other : SlotKind} (hplain : s.Plain other) (kind : SlotKind) :
    (s.fill kind (Snippet.linesOr f kind)).Plain other := by
  by_cases hslot : s.hasSlot kind = true
  · exact plain_fill hplain (plainLines_snippet hf (hready kind hslot))
  · rw [fill_of_hasSlot_eq_false _ (by simpa using hslot)]
    exact hplain

theorem plain_fillAll {f : Facts} (hf : Lexer.Usual f) {s : Sheet} (hready : Snippet.Ready f s)
    {other : SlotKind} (hplain : s.Plain other) (kinds : List SlotKind) :
    (s.fillAll (Snippet.linesOr f) kinds).Plain other := by
  induction kinds generalizing s with
  | nil => exact hplain
  | cons kind rest ih => exact ih (hready.fill kind _) (plain_fill_linesOr hf hready hplain kind)

/-- Filling markers in a text, kind after kind, follows the filling of the sheet. -/
theorem intoText_renderAll {f : Facts} (hf : Lexer.Usual f) {s : Sheet}
    (hplain : ∀ kind, s.Plain kind) (hready : Snippet.Ready f s) (kinds : List SlotKind) :
    (kinds.foldlM (fun code kind => Snippet.intoText code kind f) (s.render true)).outcome =
      .ok ((s.fillAll (Snippet.linesOr f) kinds).render true) := by
  induction kinds generalizing s with
  | nil => rfl
  | cons kind rest ih =>
    rw [List.foldlM_cons, Traced.bind_eq_ok]
    exact ⟨_, intoText_render (hplain kind) hready,
      ih (fun other => plain_fill_linesOr hf hready (hplain other) kind) (hready.fill kind _)⟩

theorem SlotKind.mem_all (kind : SlotKind) : kind ∈ SlotKind.all := by cases kind <;> decide

theorem fillAll_eq_of_all {kinds : List SlotKind} (hall : ∀ kind, kind ∈ kinds)
    (snippet : SlotKind → List String) (s : Sheet) :
    s.fillAll snippet kinds = s.fillAll snippet SlotKind.all := by
  have hitem : ∀ item ∈ s.items,
      Item.fillAny snippet kinds item = Item.fillAny snippet SlotKind.all item := by
    intro item _
    cases item with
    | line indent x => rfl
    | slot indent k => rw [Item.fillAny, Item.fillAny, if_pos (hall k), if_pos (SlotKind.mem_all k)]
  rw [fillAll_eq, fillAll_eq, List.flatMap_congr hitem]

/-- Where every kind is filled, no slot is left. -/
theorem isLine_of_mem_fillAll {snippet : SlotKind → List String} {s : Sheet} {item : Item}
    (hitem : item ∈ (s.fillAll snippet SlotKind.all).items) : ∃ indent x, item = .line indent x := by
  rw [fillAll_eq] at hitem
  obtain ⟨old, _, hitem⟩ := List.mem_flatMap.mp hitem
  cases old with
  | line indent x => exact ⟨indent, x, List.mem_singleton.mp hitem⟩
  | slot indent k =>
    rw [Item.fillAny, if_pos (SlotKind.mem_all k)] at hitem
    obtain ⟨l, _, rfl⟩ := List.mem_map.mp hitem
    exact ⟨_, l, rfl⟩

/-- A sheet of lines only is printed without markers. -/
theorem render_of_lines {s : Sheet} (h : ∀ item ∈ s.items, ∃ indent x, item = .line indent x) :
    s.render true = s.render false := by
  unfold Sheet.render Sheet.lines
  rw [List.flatMap_congr fun item hitem => ?_]
  obtain ⟨indent, x, rfl⟩ := h item hitem
  rfl

/-! ## The law -/

/-- A node made ready for writing: one of a plan, or one that stands on its own. -/
inductive Scheduled : PlannedNode → Prop where
  | planned {g : Graph} {c : Choices} {p : Plan} {n : PlannedNode}
      (hplan : (Plan.build g c).outcome = .ok p) (hn : n ∈ p.nodes) : Scheduled n
  | alone (node : Node) : Scheduled (.ofNode node "")

theorem Scheduled.isFunctionName {n : PlannedNode} (h : Scheduled n) :
    IsFunctionName n.functionName := by
  cases h with
  | planned hplan hn => exact (Plan.sound_of_build hplan).isFunctionName n hn
  | alone node => exact isFunctionName_baseName node.id

/-- The function of a node and the print of its draft are two forms of one text: filling the markers
with the recipe's own facts gives the text of the function, in whatever order the kinds are taken.
No slot of the function is open, and no line of it is a marker of any kind. -/
theorem filling_the_markers_of_a_draft_gives_the_function (n : PlannedNode) (c : Choices)
    (text : String) (hn : Scheduled n) (htext : (NodeFunction.text n c).outcome = .ok text) :
    ∃ draft facts filled,
      (NodeFunction.draft n c).outcome = .ok draft ∧
      n.recipe.facts n c = .ok facts ∧
      (∀ kinds : List SlotKind, (∀ kind, kind ∈ kinds) →
        (kinds.foldlM (fun code kind => Snippet.intoText code kind facts)
          (draft.render true)).outcome = .ok text) ∧
      (NodeFunction.build n c).outcome = .ok filled ∧
      filled.slotKinds = [] ∧
      ∀ l ∈ filled.lines false, ∀ kind, Marker.margin? kind l.toList = none := by
  obtain ⟨filled, hfilled, htext⟩ := Traced.bind_eq_ok.mp htext
  cases htext
  obtain ⟨draft, facts, found, hdraft, hfacts, hinto⟩ := Lexer.build_eq_ok hfilled
  obtain ⟨rfl, hlines⟩ := intoSheetAll_eq_ok hinto
  have husual := Lexer.usual_of_facts hfacts
  have hplain := plain_draft hn.isFunctionName hdraft
  have hready : Snippet.Ready facts draft := fun kind => hlines kind (SlotKind.mem_all kind)
  have honly := fun item => @isLine_of_mem_fillAll (Snippet.linesOr facts) draft item
  refine ⟨draft, facts, _, hdraft, hfacts, fun kinds hall => ?_, hfilled, ?_, ?_⟩
  · rw [intoText_renderAll husual hplain hready, fillAll_eq_of_all hall, render_of_lines honly]
  · refine List.filterMap_eq_nil_iff.mpr fun item hitem => ?_
    obtain ⟨indent, x, rfl⟩ := honly item hitem
    rfl
  · intro l hl kind
    obtain ⟨item, hitem, hl⟩ := List.mem_flatMap.mp hl
    have hplainItem := plain_fillAll husual hready (hplain kind) SlotKind.all item hitem
    obtain ⟨indent, x, rfl⟩ := honly item hitem
    have hnone := List.any_eq_false.mp (any_margin?_print hplainItem) l hl
    simpa using hnone

/-- A request with markers in its id, its description and its connector. -/
def markedRequest : Node := ⟨"// \x7b\x7bAUTH_CODE\x7d\x7d", "action.http.request",
  [("description", .text "\n// \x7b\x7bRATE_LIMITING\x7d\x7d\n"),
    ("connector", .text "\n// \x7b\x7bERROR_HANDLING\x7d\x7d"), ("authType", .text "bearer")]⟩

/-- The markers of a request, filled from the last kind to the first. -/
theorem filling_the_markers_of_a_marked_request :
    ∃ text draft facts,
      (NodeFunction.text (.ofNode markedRequest "") ⟨none, true, true, true, "UTC", "1"⟩).outcome =
        .ok text ∧
      (NodeFunction.draft (.ofNode markedRequest "") ⟨none, true, true, true, "UTC", "1"⟩).outcome =
        .ok draft ∧
      draft.slotKinds = [.rateLimit, .auth, .error] ∧
      ([SlotKind.dedup, .rateLimit, .error, .auth].foldlM
        (fun code kind => Snippet.intoText code kind facts) (draft.render true)).outcome =
        .ok text := by
  have hrun : ∃ text draft,
      (NodeFunction.text (.ofNode markedRequest "") ⟨none, true, true, true, "UTC", "1"⟩).outcome =
        .ok text ∧
      (NodeFunction.draft (.ofNode markedRequest "") ⟨none, true, true, true, "UTC", "1"⟩).outcome =
        .ok draft ∧
      draft.slotKinds = [.rateLimit, .auth, .error] := ⟨_, _, rfl, rfl, rfl⟩
  obtain ⟨text, draft, htext, hdraft, hkinds⟩ := hrun
  obtain ⟨draft', facts, _, hdraft', _, hfilled, _⟩ :=
    filling_the_markers_of_a_draft_gives_the_function _ _ text (.alone markedRequest) htext
  cases hdraft.symm.trans hdraft'
  refine ⟨text, draft, facts, htext, hdraft, hkinds, hfilled _ fun kind => ?_⟩
  cases kind <;> decide

end Flowscript
