-- The shapes of the lines that recipes write. A shape is a line with nothing
-- in the place of its expressions and numbers. What the configuration of a
-- node puts into a line stands in those places, so a few trial configurations
-- of each kind bring out the shapes of all lines, and what is to be known
-- about the fixed text of the lines can be found out from the trials.
import Flowscript.Proofs.Printing
import Flowscript.Recipe.Table

namespace Flowscript

/-! ## Shapes -/

/-- What is fixed about a part of a line: the text, and nothing of an expression or a number. -/
def Part.fixed? : Part → Option String
  | .text s => some s
  | .expr _ => none
  | .number _ => none

/-- A line with nothing in the place of expressions and numbers. -/
abbrev Shape := List (Option String)

/-- The shapes of the lines that steps write. -/
def shapes (steps : List Step) : List Shape :=
  steps.filterMap fun
    | .line parts => some (parts.map Part.fixed?)
    | .slot _ => none
    | .deeper => none
    | .back => none

@[simp]
theorem shapes_nil : shapes [] = [] := rfl

@[simp]
theorem shapes_line (parts : List Part) (rest : List Step) :
    shapes (.line parts :: rest) = parts.map Part.fixed? :: shapes rest := rfl

@[simp]
theorem shapes_slot (kind : SlotKind) (rest : List Step) :
    shapes (.slot kind :: rest) = shapes rest := rfl

@[simp]
theorem shapes_deeper (rest : List Step) : shapes (.deeper :: rest) = shapes rest := rfl

@[simp]
theorem shapes_back (rest : List Step) : shapes (.back :: rest) = shapes rest := rfl

@[simp]
theorem shapes_constant (name : String) (e : Expr) (rest : List Step) :
    shapes (Recipe.constant name e :: rest) =
      [some "const ", some name, some " = ", none, some ";"] :: shapes rest := rfl

@[simp]
theorem shapes_remark (text : String) (rest : List Step) :
    shapes (Recipe.remark text :: rest) = [some "// ", some text] :: shapes rest := rfl

@[simp]
theorem shapes_code (lines : List String) :
    shapes (Recipe.code lines) = lines.map fun l => [some l] := by
  induction lines with
  | nil => rfl
  | cons l rest ih => exact congrArg ([some l] :: ·) ih

@[simp]
theorem shapes_append (steps steps' : List Step) :
    shapes (steps ++ steps') = shapes steps ++ shapes steps' := List.filterMap_append

/-- Lines that are made from the items of a list have a shape for each item. -/
theorem shapes_map {α : Type} {f : α → Step} {parts : α → List Part}
    (h : ∀ a, f a = .line (parts a)) (items : List α) :
    shapes (items.map f) = items.map fun a => (parts a).map Part.fixed? := by
  induction items with
  | nil => rfl
  | cons a rest ih => rw [List.map_cons, h, shapes_line, ih, List.map_cons]

/-- The shape of a result does not tell its type and status. -/
@[simp]
theorem shapes_resultSteps (result status : String) (fields : List (String × Part)) :
    shapes (Recipe.resultSteps result status fields) =
      [some "return \x7b"] :: [some "type: ", none, some ","] ::
        (fields.map fun f => [some f.1, some ": ", f.2.fixed?, some ","]) ++
          [[some "status: ", none], [some "\x7d;"]] := by
  unfold Recipe.resultSteps
  rw [shapes_append, shapes_append, shapes_append, shapes_append,
    @shapes_map _ _ (fun f : String × Part => [.text f.1, .text ": ", f.2, .text ","]) fun _ => rfl]
  simp [Part.fixed?]

theorem mem_shapes {steps : List Step} {parts : List Part} (h : .line parts ∈ steps) :
    parts.map Part.fixed? ∈ shapes steps := List.mem_filterMap.mpr ⟨_, h, rfl⟩

/-- Every line of the steps has the shape of a line of the others. -/
def Within (steps others : List Step) : Prop := shapes steps ⊆ shapes others

theorem Within.of_eq {steps others : List Step} (h : shapes steps = shapes others) :
    Within steps others := fun _ hs => h ▸ hs

theorem Within.append {a b a' b' : List Step} (ha : Within a a') (hb : Within b b') :
    Within (a ++ b) (a' ++ b') := by
  unfold Within at *
  rw [shapes_append, shapes_append, List.append_subset]
  exact ⟨List.subset_append_of_subset_left _ ha, List.subset_append_of_subset_right _ hb⟩

theorem Within.map {α : Type} {f : α → Step} {others : List Step}
    (h : ∀ a, Within [f a] others) (items : List α) : Within (items.map f) others := by
  induction items with
  | nil => exact List.nil_subset _
  | cons a rest ih =>
    unfold Within at *
    rw [List.map_cons, ← List.singleton_append, shapes_append, List.append_subset]
    exact ⟨h a, ih⟩

/-- Steps that depend on a setting lie within a trial where they are taken. -/
theorem Within.ite {p q : Prop} [Decidable p] [Decidable q] {steps others : List Step} (hq : q)
    (h : Within steps others) : Within (if p then steps else []) (if q then others else []) := by
  rw [if_pos hq]
  split
  · exact h
  · exact List.nil_subset _

theorem Within.ite_not {p q : Prop} [Decidable p] [Decidable q] {steps others : List Step}
    (hq : ¬ q) (h : Within steps others) :
    Within (if p then [] else steps) (if q then [] else others) := by
  rw [if_neg hq]
  split
  · exact List.nil_subset _
  · exact h

/-- Where all of the optional settings are there, so are the lines of all of them. -/
theorem Within.optionalFields {all : Fields} {keys : List (String × String)}
    (h : ∀ k ∈ keys, (Config.get? all k.1).isSome = true) (config : Fields) (target : String) :
    Within (Recipe.optionalFields config target keys) (Recipe.optionalFields all target keys) := by
  induction keys with
  | nil => exact List.nil_subset _
  | cons k rest ih =>
    have hrest := ih fun x hx => h x (List.mem_cons_of_mem _ hx)
    obtain ⟨v, hv⟩ := Option.isSome_iff_exists.mp (h k (by simp))
    unfold Recipe.optionalFields at hrest ⊢
    simp only [List.filterMap_cons, hv, Option.map_some]
    cases Config.get? config k.1 with
    | none => exact List.subset_cons_of_subset _ hrest
    | some w => exact List.cons_subset_cons _ hrest

/-! ## Spelling -/

/-- A shape with the characters of its texts. -/
abbrev Spelling := List (Option (List Char))

/-- The characters of a shape. -/
def spell (s : Shape) : Spelling := s.map (Option.map String.toList)

/-- The spellings of shapes. A derivation takes the characters of fixed texts from the texts as they
are written. -/
inductive Spelled : List Shape → List Spelling → Prop where
  | nil : Spelled [] []
  | line {rest : List Shape} {rest' : List Spelling} (h : Spelled rest rest') :
      Spelled ([] :: rest) ([] :: rest')
  | text {cs : List Char} {s : Shape} {s' : Spelling} {rest : List Shape} {rest' : List Spelling}
      (h : Spelled (s :: rest) (s' :: rest')) :
      Spelled ((some (String.ofList cs) :: s) :: rest) ((some cs :: s') :: rest')
  | joined {cs ds : List Char} {s : Shape} {s' : Spelling} {rest : List Shape}
      {rest' : List Spelling} (h : Spelled (s :: rest) (s' :: rest')) :
      Spelled ((some (String.ofList cs ++ String.ofList ds) :: s) :: rest)
        ((some (cs ++ ds) :: s') :: rest')
  | gap {s : Shape} {s' : Spelling} {rest : List Shape} {rest' : List Spelling}
      (h : Spelled (s :: rest) (s' :: rest')) : Spelled ((none :: s) :: rest) ((none :: s') :: rest')

theorem Spelled.eq_map {l : List Shape} {l' : List Spelling} (h : Spelled l l') :
    l' = l.map spell := by
  induction h with
  | nil => rfl
  | line _ ih => rw [List.map_cons, ← ih]; rfl
  | text _ ih =>
    obtain ⟨hs, hrest⟩ := List.cons.inj ih
    rw [List.map_cons, ← hrest, hs]
    simp [spell]
  | joined _ ih =>
    obtain ⟨hs, hrest⟩ := List.cons.inj ih
    rw [List.map_cons, ← hrest, hs]
    simp [spell]
  | gap _ ih =>
    obtain ⟨hs, hrest⟩ := List.cons.inj ih
    rw [List.map_cons, ← hrest, hs]
    simp [spell]

/-- What holds of the spellings can be checked on the characters that a derivation finds. -/
theorem Spelled.all (p : Spelling → Bool) {l : List Shape} {l' : List Spelling} (h : Spelled l l')
    (hp : l'.all p = true) : ∀ s ∈ l, p (spell s) = true := by
  intro s hs
  rw [h.eq_map, List.all_eq_true] at hp
  exact hp _ (List.mem_map_of_mem hs)

/-! ## Trials -/

/-- All that a mail may have besides its text. -/
def Recipe.mailExtras : Fields :=
  [("cc", .text "c"), ("bcc", .text "b"), ("replyTo", .text "r"), ("name", .text "n"),
    ("attachments", .bool true)]

/-- The configurations that a kind of node is tried with. The entry of a log is saved to a sheet
where `saves` says so. -/
def Kind.trials (saves : Bool) : Kind → List Fields
  | .gmailSend => [Recipe.mailExtras, ("htmlBody", .bool true) :: Recipe.mailExtras]
  | .sheetsAppend => [[("includeTimestamp", .bool true)]]
  | .sheetsRead => [[], [("hasHeaders", .bool true)]]
  | .httpRequest => [[("method", .text "POST")]]
  | .slackPost => [[("username", .text "u"), ("iconEmoji", .text "e"), ("threadTs", .text "t")]]
  | .condition =>
    [("operator", .text "?")] :: Recipe.comparisons.map fun e => [("operator", .text e.1)]
  | .dataMapper =>
    let mapping : Value := .object [("a", .null)]
    [[("mapping", mapping)], [("mapping", mapping), ("sourceField", .text "f")]]
  | .logger => [[("saveToSheet", .bool saves)]]
  | _ => [[]]

/-- The body that a recipe gives in a trial. -/
def Recipe.trialBody (r : Recipe) (trial : Fields) : Except Fault (List Step) :=
  (r.body ⟨"", "", "", trial⟩ ⟨none, true, true, true, "", ""⟩).outcome

/-- The shapes that a recipe shows in a trial. -/
def Recipe.trialShapes (r : Recipe) (trial : Fields) : List Shape :=
  match r.trialBody trial with
  | .ok steps => shapes steps
  | .error _ => []

/-- The shapes that nodes of a kind, or of no kind, show in their trials. -/
def trialShapes (saves : Bool) : Option Kind → List Shape
  | some k => (k.trials saves).flatMap k.recipe.trialShapes
  | none => Recipe.unknown.trialShapes []

/-- Whether the node saves the entries of a log to a sheet, if it writes any. -/
def PlannedNode.saves (n : PlannedNode) : Bool := Config.flag n.config "saveToSheet"

/-- Each body that the recipe of a kind gives lies within the body of a trial. -/
def Kind.Tried (k : Kind) : Prop :=
  ∀ n c steps, (k.recipe.body n c).outcome = .ok steps →
    ∃ trial ∈ k.trials n.saves, ∃ body, k.recipe.trialBody trial = .ok body ∧ Within steps body

namespace Kind

theorem timeTrigger_tried : Tried .timeTrigger := by
  intro n c steps h
  obtain ⟨o, ho, rfl, -⟩ := Recipe.body_eq_ok.mp h
  cases ho
  refine ⟨_, .head _, _, rfl, .of_eq ?_⟩
  simp [Part.fixed?]

theorem webhookTrigger_tried : Tried .webhookTrigger := by
  intro n c steps h
  obtain ⟨o, ho, rfl, -⟩ := Recipe.body_eq_ok.mp h
  cases ho
  refine ⟨_, .head _, _, rfl, .of_eq ?_⟩
  simp

theorem gmailTrigger_tried : Tried .gmailTrigger := by
  intro n c steps h
  obtain ⟨o, ho, rfl, -⟩ := Recipe.body_eq_ok.mp h
  obtain ⟨_, _, ho⟩ := Traced.bind_eq_ok.mp ho
  obtain ⟨maxResults, _, ho⟩ := Traced.bind_eq_ok.mp ho
  cases ho
  refine ⟨_, .head _, _, rfl, .of_eq ?_⟩
  simp [Part.fixed?]

theorem sheetsTrigger_tried : Tried .sheetsTrigger := by
  intro n c steps h
  obtain ⟨o, ho, rfl, -⟩ := Recipe.body_eq_ok.mp h
  cases ho
  refine ⟨_, .head _, _, rfl, .of_eq ?_⟩
  simp

theorem gmailSend_tried : Tried .gmailSend := by
  intro n c steps h
  obtain ⟨o, ho, rfl, -⟩ := Recipe.body_eq_ok.mp h
  cases ho
  cases Config.flag n.config "htmlBody"
  · have hplain : Config.flag Recipe.mailExtras "htmlBody" = false := rfl
    refine ⟨_, .head _, _, rfl, ?_⟩
    refine .append (.append (.append (.append (.of_eq ?_) (.optionalFields (by decide) _ _))
      (.ite rfl (.of_eq rfl))) (.of_eq rfl)) (.of_eq rfl)
    simp [hplain]
  · have hrich : Config.flag (("htmlBody", .bool true) :: Recipe.mailExtras) "htmlBody" = true := rfl
    refine ⟨_, .tail _ (.head _), _, rfl, ?_⟩
    refine .append (.append (.append (.append (.of_eq ?_) (.optionalFields (by decide) _ _))
      (.ite rfl (.of_eq rfl))) (.of_eq rfl)) (.of_eq rfl)
    simp [hrich]

theorem gmailRead_tried : Tried .gmailRead := by
  intro n c steps h
  obtain ⟨o, ho, rfl, -⟩ := Recipe.body_eq_ok.mp h
  obtain ⟨_, _, ho⟩ := Traced.bind_eq_ok.mp ho
  obtain ⟨maxResults, _, ho⟩ := Traced.bind_eq_ok.mp ho
  cases ho
  refine ⟨_, .head _, _, rfl, .of_eq ?_⟩
  simp [Part.fixed?]

theorem sheetsAppend_tried : Tried .sheetsAppend := by
  intro n c steps h
  obtain ⟨o, ho, rfl, -⟩ := Recipe.body_eq_ok.mp h
  simp only [Kind.recipe, Recipe.sheetsAppend] at ho
  split at ho
  · cases ho
    refine ⟨_, .head _, _, rfl, ?_⟩
    refine .append (.append (.append (.append (.of_eq ?_) (.ite rfl (.of_eq rfl))) (.of_eq rfl))
      (.of_eq rfl)) (.of_eq rfl)
    simp [Recipe.rowSteps, Part.fixed?]
  · cases ho

theorem sheetsRead_tried : Tried .sheetsRead := by
  intro n c steps h
  obtain ⟨o, ho, rfl, -⟩ := Recipe.body_eq_ok.mp h
  cases ho
  cases Config.flag n.config "hasHeaders"
  · refine ⟨_, .head _, _, rfl, ?_⟩
    exact .append (.append (.append (.append (.of_eq (by simp)) (.of_eq rfl)) (.of_eq rfl))
      (.of_eq rfl)) (.of_eq rfl)
  · refine ⟨_, .tail _ (.head _), _, rfl, ?_⟩
    exact .append (.append (.append (.append (.of_eq (by simp)) (.of_eq rfl)) (.of_eq rfl))
      (.of_eq rfl)) (.of_eq rfl)

theorem driveCreate_tried : Tried .driveCreate := by
  intro n c steps h
  obtain ⟨o, ho, rfl, -⟩ := Recipe.body_eq_ok.mp h
  cases ho
  refine ⟨_, .head _, _, rfl, .of_eq ?_⟩
  simp

theorem httpRequest_tried : Tried .httpRequest := by
  intro n c steps h
  obtain ⟨o, ho, rfl, -⟩ := Recipe.body_eq_ok.mp h
  obtain ⟨verb, _, ho⟩ := Traced.bind_eq_ok.mp ho
  cases ho
  have hmethod : Text.upper (Config.getText [("method", .text "POST")] "method" "GET").plain ≠
      "GET" := by
    decide +kernel
  refine ⟨_, .head _, _, rfl, ?_⟩
  refine .append (.append (.append (.of_eq ?_) (.ite_not hmethod (.of_eq ?_))) (.of_eq rfl))
    (.of_eq rfl)
  · simp [Part.fixed?]
  · simp [Part.fixed?]

theorem slackPost_tried : Tried .slackPost := by
  intro n c steps h
  obtain ⟨o, ho, rfl, -⟩ := Recipe.body_eq_ok.mp h
  cases ho
  refine ⟨_, .head _, _, rfl, ?_⟩
  iterate 8 refine .append ?_ (.of_eq rfl)
  refine .append (.of_eq ?_) (.optionalFields (by decide) _ _)
  simp

/-- There is a trial for each comparison, and one for an operator that is not known. -/
theorem comparison_tried {id operator expression : String} (saves : Bool)
    (h : (Recipe.comparisonCode id operator).outcome = .ok expression) :
    ∃ tried, [("operator", .text tried)] ∈ trials saves .condition ∧
      (Config.getText [("operator", .text tried)] "operator" "==").print = .ok tried ∧
      (Recipe.comparisonCode "" tried).outcome = .ok expression := by
  have hknown : ∀ e ∈ Recipe.comparisons,
      (Config.getText [("operator", .text e.1)] "operator" "==").print = .ok e.1 ∧
      (Recipe.comparisonCode "" e.1).outcome = .ok e.2 := by
    unfold Recipe.comparisons
    simp only [List.forall_mem_cons]
    exact ⟨⟨rfl, rfl⟩, ⟨rfl, rfl⟩, ⟨rfl, rfl⟩, ⟨rfl, rfl⟩, ⟨rfl, rfl⟩, ⟨rfl, rfl⟩, ⟨rfl, rfl⟩,
      ⟨rfl, rfl⟩, ⟨rfl, rfl⟩, List.forall_mem_nil _⟩
  unfold Recipe.comparisonCode at h
  split at h
  · rename_i found hlookup
    cases h
    obtain ⟨before, after, hsplit, _⟩ := List.lookup_eq_some_iff.mp hlookup
    have hmem : (operator, expression) ∈ Recipe.comparisons := by
      rw [hsplit]
      simp
    exact ⟨_, .tail _ (List.mem_map.mpr ⟨_, hmem, rfl⟩), hknown _ hmem⟩
  · cases h
    exact ⟨_, .head _, rfl, rfl⟩

theorem condition_tried : Tried .condition := by
  intro n c steps h
  obtain ⟨o, ho, rfl, -⟩ := Recipe.body_eq_ok.mp h
  obtain ⟨operator, _, ho⟩ := Traced.bind_eq_ok.mp ho
  obtain ⟨expression, he, ho⟩ := Traced.bind_eq_ok.mp ho
  cases ho
  obtain ⟨tried, htried, hprint, hcode⟩ := comparison_tried n.saves he
  refine ⟨_, htried, _, Recipe.body_eq_ok.mpr ⟨_, Traced.bind_eq_ok.mpr ⟨tried, hprint,
    Traced.bind_eq_ok.mpr ⟨expression, hcode, rfl⟩⟩, rfl, rfl⟩, .of_eq ?_⟩
  simp

theorem dataMapper_tried : Tried .dataMapper := by
  intro n c steps h
  obtain ⟨o, ho, rfl, -⟩ := Recipe.body_eq_ok.mp h
  simp only [Kind.recipe, Recipe.dataMapper] at ho
  split at ho
  · cases ho
    dsimp only
    split
    · refine ⟨_, .head _, _, rfl, ?_⟩
      refine .append (.append (.of_eq rfl) (.map (fun e => ?_) _)) (.of_eq rfl)
      exact .of_eq rfl
    · refine ⟨_, .tail _ (.head _), _, rfl, ?_⟩
      refine .append (.append (.of_eq rfl) (.map (fun e => ?_) _)) (.of_eq rfl)
      exact .of_eq rfl
  · cases ho

theorem delay_tried : Tried .delay := by
  intro n c steps h
  obtain ⟨o, ho, rfl, -⟩ := Recipe.body_eq_ok.mp h
  obtain ⟨milliseconds, _, ho⟩ := Traced.bind_eq_ok.mp ho
  obtain ⟨seconds, _, ho⟩ := Traced.bind_eq_ok.mp ho
  obtain ⟨total, _, ho⟩ := Traced.bind_eq_ok.mp ho
  cases ho
  refine ⟨_, .head _, _, rfl, .of_eq ?_⟩
  simp [Part.fixed?]

theorem logger_tried : Tried .logger := by
  intro n c steps h
  obtain ⟨o, ho, rfl, -⟩ := Recipe.body_eq_ok.mp h
  obtain ⟨level, _, ho⟩ := Traced.bind_eq_ok.mp ho
  cases ho
  unfold PlannedNode.saves
  cases Config.flag n.config "saveToSheet"
  · refine ⟨_, .head _, _, rfl, ?_⟩
    refine .append (.append (.of_eq ?_) (List.nil_subset _)) (.of_eq rfl)
    simp
  · refine ⟨_, .head _, _, rfl, ?_⟩
    refine .append (.append (.of_eq ?_) (.ite rfl (.of_eq ?_))) (.of_eq rfl)
    · simp
    · simp [Recipe.logSheetParts, Part.fixed?]

/-- The trials bring out every line that a kind of node can have. -/
theorem tried (k : Kind) : Tried k := by
  cases k with
  | timeTrigger => exact timeTrigger_tried
  | webhookTrigger => exact webhookTrigger_tried
  | gmailTrigger => exact gmailTrigger_tried
  | sheetsTrigger => exact sheetsTrigger_tried
  | gmailSend => exact gmailSend_tried
  | gmailRead => exact gmailRead_tried
  | sheetsAppend => exact sheetsAppend_tried
  | sheetsRead => exact sheetsRead_tried
  | driveCreate => exact driveCreate_tried
  | httpRequest => exact httpRequest_tried
  | slackPost => exact slackPost_tried
  | condition => exact condition_tried
  | dataMapper => exact dataMapper_tried
  | delay => exact delay_tried
  | logger => exact logger_tried

end Kind

theorem PlannedNode.recipe_of_kind {n : PlannedNode} {k : Kind} (h : n.kind? = some k) :
    n.recipe = k.recipe := by
  have htag : Kind.ofTag? n.tag = some k := h
  simp only [PlannedNode.recipe, Recipe.ofTag, htag]

theorem PlannedNode.recipe_of_none {n : PlannedNode} (h : n.kind? = none) :
    n.recipe = Recipe.unknown := by
  have htag : Kind.ofTag? n.tag = none := h
  simp only [PlannedNode.recipe, Recipe.ofTag, htag]

/-- Each line of the body of a node has a shape that the trials of its kind show. -/
theorem shape_mem_of_body {n : PlannedNode} {c : Choices} {steps : List Step}
    (h : (n.recipe.body n c).outcome = .ok steps) {parts : List Part} (hline : .line parts ∈ steps) :
    parts.map Part.fixed? ∈ trialShapes n.saves n.kind? := by
  cases hk : n.kind? with
  | none =>
    rw [PlannedNode.recipe_of_none hk] at h
    cases h
    have hshape := mem_shapes hline
    exact hshape
  | some k =>
    rw [PlannedNode.recipe_of_kind hk] at h
    obtain ⟨trial, htrial, body, hbody, hwithin⟩ := k.tried n c steps h
    refine List.mem_flatMap.mpr ⟨trial, htrial, ?_⟩
    rw [Recipe.trialShapes, hbody]
    exact hwithin (mem_shapes hline)

end Flowscript
