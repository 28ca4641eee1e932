-- Mail that is marked as read. Whether a node asks for the permission to
-- change mail is read off its settings as they are given, while its function
-- is written from the settings with their placeholders resolved. A text that
-- switches a setting on has no brace and so resolves to itself, and a text
-- that a placeholder switches on has not been on before. Only in this second
-- case does a function mark mail without the permission.
import Flowscript.Proofs.Grants
import Flowscript.Proofs.Leftmost

namespace Flowscript

/-! ## Settings behind placeholders -/

namespace Text

theorem mem_stripChars {p : Char → Bool} {c : Char} {cs : List Char} (h : c ∈ cs)
    (hc : p c = false) : c ∈ stripChars p cs := by
  have hdrop : ∀ {l : List Char}, c ∈ l → c ∈ l.dropWhile p := by
    intro l hl
    rw [← List.takeWhile_append_dropWhile (p := p) (l := l)] at hl
    rcases List.mem_append.mp hl with hl | hl
    · rw [List.mem_takeWhile_imp hl] at hc
      cases hc
    · exact hl
  rw [stripChars, dropEndWhile, List.mem_reverse]
  exact hdrop (List.mem_reverse.mpr (hdrop h))

/-- A character without case is in a text in lower case where it was before. -/
theorem mem_lowerFrom {c : Char} (hc : mapLetter lowerShifts lowerExpansions c = [c])
    (hsigma : c ≠ 'Σ') {before cs : List Char} (h : c ∈ cs) : c ∈ lowerFrom before cs := by
  induction cs generalizing before with
  | nil => cases h
  | cons d ds ih =>
    rw [lowerFrom]
    rcases List.mem_cons.mp h with rfl | h
    · rw [if_neg hsigma, hc]
      exact List.mem_append_left _ (List.mem_singleton_self c)
    · exact List.mem_append_right _ (ih h)

end Text

namespace Config

/-- A text switches a setting on. -/
def SwitchesOn (s : String) : Prop := onTexts.contains (Text.lower (Text.trim s)) = true

instance (s : String) : Decidable (SwitchesOn s) :=
  inferInstanceAs (Decidable (onTexts.contains (Text.lower (Text.trim s)) = true))

theorem brace_mem_lower_trim {c : Char} (hc : Placeholder.isBrace c = true) {s : String}
    (h : c ∈ s.toList) : c ∈ (Text.lower (Text.trim s)).toList := by
  have hbrace : c = '\x7b' ∨ c = '\x7d' := by
    simpa [Placeholder.isBrace] using hc
  unfold Text.lower Text.trim
  rw [String.toList_ofList, String.toList_ofList]
  rcases hbrace with rfl | rfl
  · exact Text.mem_lowerFrom (by decide +kernel) (by decide) (Text.mem_stripChars h (by decide))
  · exact Text.mem_lowerFrom (by decide +kernel) (by decide) (Text.mem_stripChars h (by decide))

theorem SwitchesOn.isBrace_eq_false {s : String} (h : SwitchesOn s) :
    ∀ c ∈ s.toList, Placeholder.isBrace c = false := by
  have hplain : (onTexts.all fun t => !t.toList.any Placeholder.isBrace) = true := by decide
  have hnone := List.all_eq_true.mp hplain _ (List.contains_iff_mem.mp h)
  intro c hc
  by_contra hbrace
  rw [Bool.not_eq_false] at hbrace
  have hsome := List.any_eq_true.mpr ⟨c, brace_mem_lower_trim hbrace hc, hbrace⟩
  rw [hsome] at hnone
  cases hnone

end Config

namespace Placeholder

/-- A text without braces resolves to itself. -/
theorem resolve_of_isBrace {s : String} (h : ∀ c ∈ s.toList, isBrace c = false) (values : Value) :
    resolve s values = .ok s := by
  apply resolve_eq_self
  intro g hg
  have hopen : '\x7b' ∈ g.written := by
    obtain ⟨style, inner⟩ := g
    cases style <;> simp [Hole.written, Style.opening]
  have hbrace := h '\x7b' ((infix_of_mem_pieces (mem_holes.mp hg)).subset hopen)
  cases hbrace

/-- The fields of a resolved record are those of the record, resolved. -/
theorem forall₂_resolveFields {values : Value} {fields config : Fields}
    (h : resolveFields values fields = .ok config) :
    List.Forall₂ (fun e e' => e.1 = e'.1 ∧ resolveValue values e.2 = .ok e'.2) fields config := by
  induction fields generalizing config with
  | nil =>
    cases h
    exact .nil
  | cons e rest ih =>
    obtain ⟨w, hw, h⟩ := except_bind_eq_ok.mp h
    obtain ⟨ws, hws, h⟩ := except_bind_eq_ok.mp h
    cases h
    exact .cons ⟨rfl, hw⟩ (ih hws)

theorem length_resolveItems {values : Value} {items resolved : List Value}
    (h : resolveItems values items = .ok resolved) : resolved.length = items.length := by
  induction items generalizing resolved with
  | nil =>
    cases h
    rfl
  | cons v rest ih =>
    obtain ⟨w, hw, h⟩ := except_bind_eq_ok.mp h
    obtain ⟨ws, hws, h⟩ := except_bind_eq_ok.mp h
    cases h
    simp [ih hws]

theorem get?_resolveFields {values : Value} {fields config : Fields}
    (h : resolveFields values fields = .ok config) (key : String) :
    (fields.get? key = none ∧ config.get? key = none) ∨
      ∃ v w, fields.get? key = some v ∧ config.get? key = some w ∧
        resolveValue values v = .ok w := by
  have hfields := forall₂_resolveFields h
  clear h
  induction hfields with
  | nil => exact Or.inl ⟨rfl, rfl⟩
  | @cons e e' rest rest' he _ ih =>
    obtain ⟨k, v⟩ := e
    obtain ⟨k', w⟩ := e'
    obtain ⟨rfl, hw⟩ := he
    unfold Fields.get? at ih ⊢
    rw [List.lookup_cons, List.lookup_cons]
    cases key == k with
    | true => exact Or.inr ⟨v, w, rfl, rfl, hw⟩
    | false => exact ih

/-- Whether a value is set does not depend on the placeholders in it, unless it is a text. -/
theorem isTruthy_of_resolveValue {values v w : Value} (h : resolveValue values v = .ok w)
    (hv : ∀ s, v ≠ .text s) : (∀ s, w ≠ .text s) ∧ w.isTruthy = v.isTruthy := by
  cases v with
  | text s => exact absurd rfl (hv s)
  | list items =>
    rw [resolveValue] at h
    obtain ⟨resolved, hresolved, rfl⟩ := except_map_eq_ok.mp h
    have hlength := length_resolveItems hresolved
    refine ⟨by simp, ?_⟩
    cases items <;> cases resolved <;> simp_all [Value.isTruthy]
  | object fields =>
    rw [resolveValue] at h
    obtain ⟨resolved, hresolved, rfl⟩ := except_map_eq_ok.mp h
    have hlength := (forall₂_resolveFields hresolved).length_eq
    refine ⟨by simp, ?_⟩
    cases fields <;> cases resolved <;> simp_all [Value.isTruthy]
  | _ =>
    cases h
    exact ⟨hv, rfl⟩

end Placeholder

namespace Config

/-- A text that is on has no placeholder, so it is left as it is. -/
theorem SwitchesOn.resolve_eq {s : String} (h : SwitchesOn s) (values : Value) :
    Placeholder.resolve s values = .ok s :=
  Placeholder.resolve_of_isBrace h.isBrace_eq_false values

theorem flag_text {config : Fields} {key s : String} (h : config.get? key = some (.text s)) :
    flag config key = true ↔ SwitchesOn s := by
  unfold flag
  rw [h]
  exact Iff.rfl

theorem flag_value {config : Fields} {key : String} {v : Value} (h : config.get? key = some v)
    (hv : ∀ s, v ≠ .text s) : flag config key = v.isTruthy := by
  unfold flag
  rw [h]
  cases v with
  | text s => exact absurd rfl (hv s)
  | _ => rfl

/-- A setting that is switched on by the placeholders in its text. -/
def SwitchedLate (values : Value) (data : Fields) (key : String) : Prop :=
  ∃ s r, data.get? key = some (.text s) ∧ Placeholder.resolve s values = .ok r ∧ r ≠ s ∧
    SwitchesOn r

section Resolved

variable {values : Value} {data config : Fields} {key : String}

/-- What a text is before the placeholders and behind them decides the setting. -/
theorem flag_iff_of_text {s r : String} (hdata : data.get? key = some (.text s))
    (hconfig : config.get? key = some (.text r)) (hr : Placeholder.resolve s values = .ok r) :
    (flag config key = true ↔ flag data key = true ∨ SwitchedLate values data key) ∧
      (SwitchedLate values data key → flag data key = false) := by
  have hlate : SwitchedLate values data key ↔ r ≠ s ∧ SwitchesOn r := by
    constructor
    · rintro ⟨s', r', hs', hr', hne, hon⟩
      cases hdata.symm.trans hs'
      cases hr.symm.trans hr'
      exact ⟨hne, hon⟩
    · rintro ⟨hne, hon⟩
      exact ⟨s, r, hdata, hr, hne, hon⟩
  have hkept : SwitchesOn s → r = s :=
    fun hon => Except.ok.inj (hr.symm.trans (hon.resolve_eq values))
  rw [flag_text hconfig, ← Bool.not_eq_true, flag_text hdata, hlate]
  refine ⟨⟨fun hon => ?_, ?_⟩, fun ⟨hne, _⟩ hon => hne (hkept hon)⟩
  · by_cases hrs : r = s
    · exact Or.inl (hrs ▸ hon)
    · exact Or.inr ⟨hrs, hon⟩
  · rintro (hon | ⟨_, hon⟩)
    · rwa [hkept hon]
    · exact hon

/-- A setting is on behind the placeholders where it was on before them or they switch it on, and
never both. -/
theorem flag_of_resolveFields (h : Placeholder.resolveFields values data = .ok config)
    (key : String) :
    (flag config key = true ↔ flag data key = true ∨ SwitchedLate values data key) ∧
      (SwitchedLate values data key → flag data key = false) := by
  by_cases htext : ∃ s, data.get? key = some (.text s)
  · obtain ⟨s, hs⟩ := htext
    rcases Placeholder.get?_resolveFields h key with ⟨hdata, _⟩ | ⟨v, w, hdata, hconfig, hw⟩
    · rw [hs] at hdata
      cases hdata
    · cases hs.symm.trans hdata
      rw [Placeholder.resolveValue] at hw
      obtain ⟨r, hr, rfl⟩ := except_map_eq_ok.mp hw
      exact flag_iff_of_text hs hconfig hr
  · have hlate : ¬ SwitchedLate values data key := fun ⟨s, _, hs, _⟩ => htext ⟨s, hs⟩
    have hsame : flag config key = flag data key := by
      rcases Placeholder.get?_resolveFields h key with ⟨hdata, hconfig⟩ | ⟨v, w, hdata, hconfig, hw⟩
      · unfold flag
        rw [hdata, hconfig]
      · have hv : ∀ s, v ≠ .text s := fun s hs => htext ⟨s, hs ▸ hdata⟩
        obtain ⟨hother, htruthy⟩ := Placeholder.isTruthy_of_resolveValue hw hv
        rw [flag_value hconfig hother, flag_value hdata hv, htruthy]
    simp [hlate, hsame]

end Resolved

end Config

/-! ## The statement that marks mail -/

/-- A text has a line that is the statement, apart from its margin. -/
def States (text statement : String) : Prop :=
  ∃ l ∈ Text.splitAt '\n' text, unindent l = statement

/-- The statement by which a function marks the mails that it reads. -/
def markStatement : String := "const markAsRead = true;"

namespace Lexer

theorem unindent_print (indent : Int) (x : String) :
    ((Item.line indent x).print false).flatMap (fun l => [unindent l]) = [unindent x] := by
  rw [Item.print, List.flatMap_singleton]
  split
  · rename_i hx
    rw [hx]
  · rw [unindent_margin]

/-- The lines of a function without their margins: the comment and the declaration, the body with
the snippets in its slots, and the last bracket. -/
theorem unindent_text {n : PlannedNode} {c : Choices} {text : String}
    (hname : IsFunctionName n.functionName) (h : (NodeFunction.text n c).outcome = .ok text) :
    ∃ body facts, (n.recipe.body n c).outcome = .ok body ∧
      (Text.splitAt '\n' text).map unindent = (NodeFunction.opening n).map unindent ++
        (body.flatMap (stepLines (Snippet.linesOr facts))).map unindent ++ [unindent "\x7d"] := by
  obtain ⟨filled, hfilled, h⟩ := Traced.bind_eq_ok.mp h
  cases h
  have hread := linesRead_build hname hfilled
  obtain ⟨draft, body, facts, hdraft, hbody, _, rfl, _, _⟩ := parts_of_build hfilled
  obtain ⟨body', hbody', hitems⟩ := items_draft hdraft
  cases hbody.symm.trans hbody'
  have hlines := lines_fillAll hitems (Snippet.linesOr facts)
  have hne : (draft.fillAll (Snippet.linesOr facts) SlotKind.all).lines false ≠ [] := by
    rw [hlines]
    exact List.cons_ne_nil _ _
  refine ⟨body, facts, hbody, ?_⟩
  have hsplit : Text.splitAt '\n'
      ((draft.fillAll (Snippet.linesOr facts) SlotKind.all).render false) =
        (draft.fillAll (Snippet.linesOr facts) SlotKind.all).lines false := by
    unfold Text.splitAt Sheet.render
    rw [Text.cutAt_joinLines hne fun l hl => (hread.unbroken l hl).oneLine, List.map_map]
    simp [Function.comp_def]
  have hinner := flatMap_innerItems unindent_print n body (Snippet.linesOr facts)
  rw [← List.map_eq_flatMap, ← List.map_eq_flatMap] at hinner
  rw [hsplit, hlines, List.map_append, hinner]
  simp [NodeFunction.opening, declaration]

/-- Whether a line that starts with these characters is not the statement, whatever follows them. -/
def startsAside (cs : List Char) : Bool :=
  apart (cs.dropWhile Text.isBlank) ['c', 'o', 'n', 's', 't', ' ', 'm', 'a', 'r']

theorem unindent_of_startsAside {cs : List Char} (h : startsAside cs = true) (x : String) :
    unindent (String.ofList cs ++ x) ≠ markStatement := by
  intro hsame
  have hfalse := isPrefixOf_eq_false_of_apart h x.toList
  rw [← toList_unindent_of_apart h x, hsame] at hfalse
  revert hfalse
  decide

/-- Steps whose lines are told from the statement by their first characters. -/
inductive Aside : Step → Prop where
  | fixed {cs : List Char} {parts : List Part} (h : startsAside cs = true) :
      Aside (.line (.text (String.ofList cs) :: parts))
  | named {cs ds : List Char} {parts : List Part} (h : startsAside (cs ++ ds) = true) :
      Aside (.line (.text (String.ofList cs) :: .text (String.ofList ds) :: parts))
  | deeper : Aside .deeper
  | back : Aside .back

theorem Aside.unindent_ne {st : Step} (h : Aside st) (snippet : SlotKind → List String) :
    ∀ l ∈ stepLines snippet st, unindent l ≠ markStatement := by
  cases h with
  | fixed h =>
    intro l hl
    rw [List.mem_singleton.mp hl, lineCode_cons]
    exact unindent_of_startsAside h _
  | named h =>
    intro l hl
    rw [List.mem_singleton.mp hl, lineCode_cons, lineCode_cons, ← String.append_assoc]
    exact String.ofList_append ▸ unindent_of_startsAside h _
  | deeper => exact List.forall_mem_nil _
  | back => exact List.forall_mem_nil _

/-- The line that says whether mails are marked. -/
def markStep (n : PlannedNode) : Step :=
  Recipe.constant "markAsRead" (.literal (.bool (Config.flag n.config "markAsRead")))

theorem aside_of_body {n : PlannedNode} {c : Choices} {body : List Step}
    (h : (n.recipe.body n c).outcome = .ok body) (hkind : n.kind? = some .gmailRead) :
    ∃ before after, body = before ++ markStep n :: after ∧ ∀ st ∈ before ++ after, Aside st := by
  rw [PlannedNode.recipe_of_kind hkind] at h
  obtain ⟨outline, houtline, rfl, -⟩ := Recipe.body_eq_ok.mp h
  obtain ⟨_, _, houtline⟩ := Traced.bind_eq_ok.mp houtline
  obtain ⟨maxResults, _, houtline⟩ := Traced.bind_eq_ok.mp houtline
  cases houtline
  refine ⟨[_, _, _], _, rfl, List.forall_mem_append.mpr ⟨?_, ?_⟩⟩
  · simp only [List.forall_mem_cons]
    exact ⟨.fixed rfl, .named rfl, .fixed rfl, List.forall_mem_nil _⟩
  · simp only [Recipe.resultSteps, Recipe.code, List.map_cons, List.map_nil, List.append_eq,
      List.forall_mem_append, List.forall_mem_cons]
    repeat' first | exact List.forall_mem_nil _ | exact Aside.fixed rfl | constructor

theorem unindent_markStep (n : PlannedNode) :
    unindent (lineCode ["const ", "markAsRead", " = ",
      Expr.literal (.bool (Config.flag n.config "markAsRead")), ";"]) = markStatement ↔
      Config.flag n.config "markAsRead" = true := by
  cases Config.flag n.config "markAsRead" with
  | true => decide +kernel
  | false => decide +kernel

/-- The function of a node that reads mail has the statement where its resolved settings say so. -/
theorem states_iff_flag {n : PlannedNode} {c : Choices} {text : String}
    (hname : IsFunctionName n.functionName) (h : (NodeFunction.text n c).outcome = .ok text)
    (hkind : n.kind? = some .gmailRead) :
    States text markStatement ↔ Config.flag n.config "markAsRead" = true := by
  obtain ⟨body, facts, hbody, hlines⟩ := unindent_text hname h
  obtain ⟨before, after, rfl, haside⟩ := aside_of_body hbody hkind
  have hopening : markStatement ∉ (NodeFunction.opening n).map unindent := by
    have hheads : ∀ l ∈ NodeFunction.opening n, unindent l ≠ markStatement := by
      unfold NodeFunction.opening
      simp only [String.append_assoc]
      exact Headed.all (by repeat' first | with_reducible apply Headed.text | constructor)
        (fun _ => unindent_of_startsAside) rfl
    intro hmem
    obtain ⟨l, hl, hsame⟩ := List.mem_map.mp hmem
    exact hheads l hl hsame
  have hothers : ∀ {steps : List Step}, (∀ st ∈ steps, Aside st) →
      markStatement ∉ (steps.flatMap (stepLines (Snippet.linesOr facts))).map unindent := by
    intro steps hsteps hmem
    obtain ⟨l, hl, hsame⟩ := List.mem_map.mp hmem
    obtain ⟨st, hst, hl⟩ := List.mem_flatMap.mp hl
    exact (hsteps st hst).unindent_ne _ l hl hsame
  have hlast : markStatement ≠ unindent "\x7d" := by decide
  have hstates : States text markStatement ↔
      markStatement ∈ (Text.splitAt '\n' text).map unindent := List.mem_map.symm
  have hbefore := hothers fun st hst => haside st (List.mem_append_left after hst)
  have hafter := hothers fun st hst => haside st (List.mem_append_right before hst)
  rw [hstates, hlines, List.flatMap_append, List.flatMap_cons, ← unindent_markStep]
  simp only [List.map_append, List.mem_append, hopening, hbefore, hafter, hlast, false_or, or_false,
    List.mem_singleton]
  exact List.mem_singleton.trans eq_comm

end Lexer

/-! ## The permission -/

theorem modifyMail_mem_ofTag_iff (tag : String) (data : Fields) :
    Scope.modifyMail ∈ Scope.ofTag tag data ↔
      tag = Kind.gmailRead.tag ∧ Config.flag data "markAsRead" = true := by
  unfold Scope.ofTag
  cases hkind : Kind.ofTag? tag with
  | none =>
    have hother : tag ≠ Kind.gmailRead.tag := by
      rintro rfl
      cases hkind
    simp [hother]
  | some k =>
    rw [Lexer.tag_of_ofTag? hkind]
    cases k <;> simp [Scope.ofKind, Kind.tag, Scope.readMail, Scope.modifyMail, Scope.sheets,
      Scope.readSheets, Scope.driveFile, Scope.externalRequest, Scope.sendMail, Scope.scriptApp]

/-- The main file of a bundle has the text as the function of the node. -/
def Bundle.HasFunction (b : Bundle) (p : Plan) (n : Node) (text : String) : Prop :=
  ∃ main, b.file? Bundle.mainFile = some main ∧ text.toList <:+: main.content.toList ∧
    ∃ m ∈ p.nodes, m.id = n.id ∧ (NodeFunction.text m p.choices).outcome = .ok text

/-- A node whose mails are marked as read only because a placeholder says so. -/
def Plan.MarksLate (p : Plan) (n : Node) : Prop :=
  Config.SwitchedLate (valuesFor p.graph p.choices n) n.data "markAsRead"

namespace Compiler

/-- A node that reads mail has its function in the bundle. The function has the statement where the
node has the setting, or gets it from a placeholder, and never for both reasons. -/
theorem Made.states_iff {k : Compiler} {g : Graph} {o : Options} {verdict : Verdict} {p : Plan}
    {b : Bundle} (h : Made k g o .ask verdict p b) (hk : k.validator = Verdict.structural)
    {n : Node} (hn : n ∈ g.nodes) (htag : n.type = Kind.gmailRead.tag) :
    (∃ text, b.HasFunction p n text) ∧
      (∀ text, b.HasFunction p n text →
        (States text markStatement ↔ Config.flag n.data "markAsRead" = true ∨ p.MarksLate n)) ∧
      (p.MarksLate n → Config.flag n.data "markAsRead" = false) := by
  have hsound := Plan.sound_of_build h.planned
  obtain ⟨hgraph, hchoices⟩ := Plan.graph_of_build h.planned
  rw [← h.distinctNodes_eq hk] at hn
  obtain ⟨m, hm, hid, hmtag, hconfig⟩ := Plan.exists_planned h.planned hn
  rw [← hgraph, ← hchoices] at hconfig
  obtain ⟨hflag, hlate⟩ := Config.flag_of_resolveFields hconfig "markAsRead"
  have hkind : m.kind? = some .gmailRead := by
    unfold PlannedNode.kind?
    rw [hmtag, htag]
    rfl
  refine ⟨?_, fun text hfunction => ?_, hlate⟩
  · obtain ⟨main, hmain, hfile⟩ := h.main
    obtain ⟨text, htext, hinside⟩ := Lexer.function_infix_of_text hmain hm
    exact ⟨text, _, hfile, hinside, m, hm, hid, htext⟩
  · obtain ⟨_, _, _, m', hm', hid', htext⟩ := hfunction
    obtain rfl : m' = m :=
      List.inj_on_of_nodup_map hsound.nodup_ids hm' hm (hid'.trans hid.symm)
    rw [Lexer.states_iff_flag (hsound.isFunctionName m' hm) htext hkind]
    exact hflag

/-- Where a bundle is compiled on the verdict on the structure of the graph, it asks for the
permission to change mail just where the function of a node that reads mail states that mails are
marked, and no placeholder of that node has switched this on. Where a placeholder has, the function
states it too. -/
theorem mail_is_marked_with_permission_unless_a_placeholder_marks_it {k : Compiler} {g : Graph}
    {o : Options} {b : Bundle} (hk : k.validator = Verdict.structural) (h : k.Makes g o .ask b) :
    ∃ p, (Plan.build g (o.withDefaults k.settings)).outcome = .ok p ∧
      (∀ n ∈ g.nodes, n.type = Kind.gmailRead.tag → ∃ text, b.HasFunction p n text ∧
        (p.MarksLate n → States text markStatement)) ∧
      (.text Scope.modifyMail ∈ b.requiredScopes ↔
        ∃ n ∈ g.nodes, n.type = Kind.gmailRead.tag ∧ ¬ p.MarksLate n ∧
          ∃ text, b.HasFunction p n text ∧ States text markStatement) := by
  obtain ⟨verdict, p, hmade⟩ := h.made
  have hother : Scope.modifyMail ≠ Scope.sendMail := by decide
  refine ⟨p, hmade.planned, fun n hn htag => ?_, ?_⟩
  · obtain ⟨⟨text, hfunction⟩, hstates, _⟩ := hmade.states_iff hk hn htag
    exact ⟨text, hfunction, fun hlate => (hstates text hfunction).mpr (Or.inr hlate)⟩
  · rw [hmade.text_mem_requiredScopes hk]
    simp only [modifyMail_mem_ofTag_iff, hother, and_false, or_false]
    constructor
    · rintro ⟨n, hn, htag, hflag⟩
      obtain ⟨⟨text, hfunction⟩, hstates, hlate⟩ := hmade.states_iff hk hn htag
      refine ⟨n, hn, htag, fun hmarks => ?_, text, hfunction,
        (hstates text hfunction).mpr (Or.inl hflag)⟩
      rw [hlate hmarks] at hflag
      cases hflag
    · rintro ⟨n, hn, htag, hlate, text, hfunction, hstated⟩
      obtain ⟨_, hstates, _⟩ := hmade.states_iff hk hn htag
      exact ⟨n, hn, htag, ((hstates text hfunction).mp hstated).resolve_right hlate⟩

/-- A node that marks the mails it reads, by the name of its workflow. -/
def lateMark : Node :=
  ⟨"late", "action.gmail.read", [("markAsRead", .text "\x7b\x7bworkflow.name\x7d\x7d")]⟩

theorem marksLate_lateMark {p : Plan} (h : p.graph.displayName = "yes") : p.MarksLate lateMark := by
  refine ⟨"\x7b\x7bworkflow.name\x7d\x7d", "yes", rfl, ?_, by decide, by decide +kernel⟩
  unfold Plan.valuesFor
  rw [h]
  rfl

/-- A node that marks the mails it reads, beside one that does so by a placeholder. -/
def markedTwice : Graph := ⟨"w", "yes", none,
  [⟨"early", "action.gmail.read", [("markAsRead", .text " YES ")]⟩, lateMark], []⟩

theorem mail_marked_twice_is_marked_with_permission :
    ∃ b p, (compile { started := ⟨2026, 1, 1, 0, 0, 0, 0, none⟩ } markedTwice {} .ask).result =
        .ok b ∧
      b.requiredScopes = [.text Scope.readMail, .text Scope.modifyMail, .text Scope.sendMail] ∧
      (∃ text, b.HasFunction p lateMark text ∧ States text markStatement) ∧
      ∃ n ∈ markedTwice.nodes, ¬ p.MarksLate n ∧
        ∃ text, b.HasFunction p n text ∧ States text markStatement := by
  have hrun : ∃ b,
      (compile { started := ⟨2026, 1, 1, 0, 0, 0, 0, none⟩ } markedTwice {} .ask).result = .ok b ∧
      b.requiredScopes = [.text Scope.readMail, .text Scope.modifyMail, .text Scope.sendMail] :=
    ⟨_, rfl, rfl⟩
  obtain ⟨b, hcompiled, hscopes⟩ := hrun
  obtain ⟨p, hplan, hfunctions, hiff⟩ :=
    mail_is_marked_with_permission_unless_a_placeholder_marks_it rfl (Or.inl hcompiled)
  have hgraph := (Plan.graph_of_build hplan).1
  refine ⟨b, p, hcompiled, hscopes, ?_, ?_⟩
  · obtain ⟨text, hfunction, hstates⟩ := hfunctions lateMark (.tail _ (.head _)) rfl
    exact ⟨text, hfunction, hstates (marksLate_lateMark (by rw [hgraph]; rfl))⟩
  · rw [hscopes] at hiff
    obtain ⟨n, hn, _, hearly, hfunction⟩ := hiff.mp (.tail _ (.head _))
    exact ⟨n, hn, hearly, hfunction⟩

/-- A node that marks the mails it reads by a placeholder, and nothing else. -/
def markedLate : Graph := ⟨"w", "yes", none, [lateMark], []⟩

/-- The mails are marked, but the only permissions are those to read mail and to send it. -/
theorem mail_marked_by_a_placeholder_is_marked_without_permission :
    ∃ b p text,
      (compile { started := ⟨2026, 1, 1, 0, 0, 0, 0, none⟩ } markedLate {} .ask).result = .ok b ∧
      (Plan.build markedLate (Options.withDefaults {} {})).outcome = .ok p ∧
      lateMark ∈ markedLate.nodes ∧ lateMark.type = Kind.gmailRead.tag ∧
      b.HasFunction p lateMark text ∧ States text markStatement ∧
      b.requiredScopes = [.text Scope.readMail, .text Scope.sendMail] ∧
      .text Scope.modifyMail ∉ b.requiredScopes := by
  have hrun : ∃ b,
      (compile { started := ⟨2026, 1, 1, 0, 0, 0, 0, none⟩ } markedLate {} .ask).result = .ok b ∧
      b.requiredScopes = [.text Scope.readMail, .text Scope.sendMail] :=
    ⟨_, rfl, rfl⟩
  obtain ⟨b, hcompiled, hscopes⟩ := hrun
  obtain ⟨verdict, p, hmade⟩ := Makes.made (Or.inl hcompiled)
  have hmem : lateMark ∈ markedLate.nodes := .head _
  obtain ⟨⟨text, hfunction⟩, hstates, _⟩ := hmade.states_iff rfl hmem rfl
  have hlate : p.MarksLate lateMark :=
    marksLate_lateMark (by rw [(Plan.graph_of_build hmade.planned).1]; rfl)
  refine ⟨b, p, text, hcompiled, hmade.planned, hmem, rfl, hfunction,
    (hstates text hfunction).mpr (Or.inr hlate), hscopes, ?_⟩
  rw [hscopes]
  simp [Scope.modifyMail, Scope.readMail, Scope.sendMail]

end Compiler

end Flowscript
