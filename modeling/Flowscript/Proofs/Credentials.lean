-- Credentials: the properties that the function of a node reads and those
-- that the book lists for it are the same, since both come from the facts of
-- the node. The code that reads them stands in a slot, and which slots there
-- are depends on the kind of the node alone.
import Flowscript.Proofs.PropertyReads
import Flowscript.Proofs.Readers
import Flowscript.Script.Entry

namespace Flowscript

open Lexer (Token argumentsOf getProperty lineTokens tokens)

/-! ## Slots by kind -/

/-- The slots that the body of a kind leaves open. -/
def slotsOf : Option Kind → List SlotKind
  | some .gmailTrigger => [.dedup]
  | some .sheetsTrigger => [.dedup]
  | some .httpRequest => [.rateLimit, .auth, .error]
  | some .slackPost => [.rateLimit, .auth, .error]
  | _ => []

theorem slots_outline {n : PlannedNode} {c : Choices} {o : Outline}
    (h : (n.recipe.outline n c).outcome = .ok o) : slots o.steps = slotsOf n.kind? := by
  cases hk : n.kind? with
  | none =>
    rw [PlannedNode.recipe_of_none hk] at h
    cases h
    rfl
  | some k =>
    rw [PlannedNode.recipe_of_kind hk] at h
    cases k with
    | gmailTrigger | gmailRead | condition =>
      obtain ⟨_, _, h⟩ := Traced.bind_eq_ok.mp h
      obtain ⟨_, _, h⟩ := Traced.bind_eq_ok.mp h
      cases h
      rfl
    | delay =>
      obtain ⟨milliseconds, _, h⟩ := Traced.bind_eq_ok.mp h
      obtain ⟨seconds, _, h⟩ := Traced.bind_eq_ok.mp h
      obtain ⟨total, _, h⟩ := Traced.bind_eq_ok.mp h
      cases h
      rfl
    | httpRequest | logger =>
      obtain ⟨_, _, h⟩ := Traced.bind_eq_ok.mp h
      cases h
      dsimp only
      simp only [slots_append, slots_code]
      split <;> rfl
    | gmailSend | sheetsRead =>
      cases h
      dsimp only
      simp only [slots_append, slots_code, slots_optionalFields]
      split <;> rfl
    | slackPost =>
      cases h
      simp only [slots_append, slots_code, slots_optionalFields]
      rfl
    | sheetsAppend =>
      simp only [Kind.recipe, Recipe.sheetsAppend] at h
      split at h
      · cases h
        simp only [slots_append, slots_code, Recipe.rowSteps]
        split <;> rfl
      · cases h
    | dataMapper =>
      simp only [Kind.recipe, Recipe.dataMapper] at h
      split at h
      · cases h
        rw [slots_append, slots_append, slots_map fun _ => ⟨_, rfl⟩]
        rfl
      · cases h
    | _ =>
      cases h
      rfl

/-- Which slots a body leaves open depends on the kind of the node alone. -/
theorem slots_body {n : PlannedNode} {c : Choices} {body : List Step}
    (h : (n.recipe.body n c).outcome = .ok body) : slots body = slotsOf n.kind? := by
  obtain ⟨o, ho, rfl, -⟩ := Recipe.body_eq_ok.mp h
  rw [slots_append, slots_resultSteps, List.append_nil, slots_outline ho]

/-! ## Secrets of a node -/

/-- The facts of a node come from a service that its function calls, or they name no scheme. -/
inductive Sourced (n : PlannedNode) (c : Choices) (f : Facts) : Prop where
  | service (s : Recipe.Service) (hfacts : Recipe.serviceFacts s n c = .ok f)
      (hsecrets : n.recipe.secrets n c = Recipe.serviceSecrets s n c)
      (hslots : ∀ {steps}, (n.recipe.body n c).outcome = .ok steps →
        slots steps = [.rateLimit, .auth, .error])
  | plain (hauth : f.authType = .null) (hsecrets : n.recipe.secrets n c = .ok [])

theorem authType_of_pollingFacts {source : String} {n : PlannedNode} {c : Choices} {f : Facts}
    (h : Recipe.pollingFacts source n c = .ok f) : f.authType = .null := by
  obtain ⟨hours, _, rfl⟩ := Recipe.pollingFacts_eq_ok h
  rfl

theorem sourced_of_facts {n : PlannedNode} {c : Choices} {f : Facts}
    (h : n.recipe.facts n c = .ok f) : Sourced n c f := by
  cases hk : n.kind? with
  | none =>
    have hrecipe := PlannedNode.recipe_of_none hk
    rw [hrecipe] at h
    cases h
    exact .plain rfl (by rw [hrecipe]; rfl)
  | some k =>
    have hrecipe := PlannedNode.recipe_of_kind hk
    rw [hrecipe] at h
    cases k with
    | gmailTrigger => exact .plain (authType_of_pollingFacts h) (by rw [hrecipe]; rfl)
    | sheetsTrigger => exact .plain (authType_of_pollingFacts h) (by rw [hrecipe]; rfl)
    | httpRequest =>
      exact .service Recipe.anyService h (by rw [hrecipe]; rfl)
        fun hbody => (slots_body hbody).trans (by rw [hk]; rfl)
    | slackPost =>
      exact .service Recipe.slack h (by rw [hrecipe]; rfl)
        fun hbody => (slots_body hbody).trans (by rw [hk]; rfl)
    | _ =>
      cases h
      exact .plain rfl (by rw [hrecipe]; rfl)

theorem secretProperties_of_null {f : Facts} (h : f.authType = .null) :
    f.secretProperties = .ok [] := by
  unfold Facts.secretProperties
  rw [h]
  rfl

/-- What is put into the book for a node is what its facts name, where the scheme can be printed. -/
theorem secrets_eq {n : PlannedNode} {c : Choices} {f : Facts} (h : n.recipe.facts n c = .ok f)
    (hprint : f.authType.isPrintable = true) : n.recipe.secrets n c = f.secretProperties := by
  cases sourced_of_facts h with
  | service s hfacts hsecrets _ =>
    rw [hsecrets, Recipe.serviceSecrets, hfacts]
    show (f.authType.requirePrintable >>= fun _ => f.secretProperties) = _
    rw [Value.requirePrintable_eq_ok (u := ()).mpr hprint]
    rfl
  | plain hauth hsecrets => rw [hsecrets, secretProperties_of_null hauth]

/-! ## Names that are texts -/

/-- The settings that name a property in the place of the connector's own. -/
def overrideKeys : List String :=
  ["tokenProperty", "apiKeyProperty", "usernameProperty", "passwordProperty",
    "accessTokenProperty"]

/-- Each of the settings that name properties is a text, or it is not set. -/
def NamesByText (n : PlannedNode) : Prop :=
  ∀ key ∈ overrideKeys, ∀ v, Config.get? n.config key = some v → ∃ s, v = .text s

/-- The value is a text, or it does not count as set. -/
def TextIfSet (v : Value) : Prop := v.isTruthy = true → ∃ s, v = .text s

theorem textIfSet_getD {n : PlannedNode} (h : NamesByText n) {key : String}
    (hkey : key ∈ overrideKeys) : TextIfSet (Config.getD n.config key .null) := by
  intro hset
  unfold Config.getD at hset ⊢
  cases hget : Config.get? n.config key with
  | none =>
    rw [hget] at hset
    cases hset
  | some v => exact h key hkey v hget

theorem text_of_propertyOr {f : Facts} {named v : Value} {ending : String} (h : TextIfSet named)
    (hv : f.propertyOr named ending = .ok v) : ∃ s, v = .text s := by
  unfold Facts.propertyOr at hv
  split at hv
  · rename_i hset
    cases hv
    exact h hset
  · obtain ⟨stem, _, hv⟩ := except_bind_eq_ok.mp hv
    cases hv
    exact ⟨_, rfl⟩

theorem TextIfSet.orElse {v w : Value} (hv : TextIfSet v) (hw : TextIfSet w) :
    TextIfSet (v.orElse w) := by
  unfold Value.orElse
  split
  · exact hv
  · exact hw

theorem text_of_one {f : Facts} {named : Value} {ending : String} {names : List Value}
    (h : TextIfSet named)
    (hnames : (f.propertyOr named ending >>= fun v => pure [v]) = .ok names) :
    ∃ ts : List String, names = ts.map .text := by
  obtain ⟨v, hv, hnames⟩ := except_bind_eq_ok.mp hnames
  obtain ⟨t, rfl⟩ := text_of_propertyOr h hv
  cases hnames
  exact ⟨[t], rfl⟩

theorem texts_of_serviceFacts {s : Recipe.Service} {n : PlannedNode} {c : Choices} {f : Facts}
    (hn : NamesByText n) (h : Recipe.serviceFacts s n c = .ok f) {names : List Value}
    (hnames : f.secretProperties = .ok names) : ∃ ts : List String, names = ts.map .text := by
  obtain ⟨requests, window, rfl⟩ := Recipe.serviceFacts_eq_ok h
  have htext : ∀ {key : String}, key ∈ overrideKeys →
      TextIfSet (Config.getD n.config key .null) := textIfSet_getD hn
  unfold Facts.secretProperties at hnames
  split at hnames
  · rename_i scheme _
    cases scheme with
    | apiKey => exact text_of_one (htext (by decide)) hnames
    | bearer => exact text_of_one (htext (by decide)) hnames
    | oauth2 => exact text_of_one ((htext (by decide)).orElse (htext (by decide))) hnames
    | basic =>
      obtain ⟨username, husername, hnames⟩ := except_bind_eq_ok.mp hnames
      obtain ⟨password, hpassword, hnames⟩ := except_bind_eq_ok.mp hnames
      obtain ⟨t, rfl⟩ := text_of_propertyOr (htext (by decide)) husername
      obtain ⟨u, rfl⟩ := text_of_propertyOr (htext (by decide)) hpassword
      cases hnames
      exact ⟨[t, u], rfl⟩
  · cases hnames
    exact ⟨[], rfl⟩

theorem texts_of_secretProperties {n : PlannedNode} {c : Choices} {f : Facts}
    (hn : NamesByText n) (h : n.recipe.facts n c = .ok f) {names : List Value}
    (hnames : f.secretProperties = .ok names) : ∃ ts : List String, names = ts.map .text := by
  cases sourced_of_facts h with
  | service s hfacts _ _ => exact texts_of_serviceFacts hn hfacts hnames
  | plain hauth _ =>
    rw [secretProperties_of_null hauth] at hnames
    cases hnames
    exact ⟨[], rfl⟩

/-! ## The code that adds credentials -/

/-- The code that adds credentials asks for the secrets of the facts, in order. -/
theorem asks_authLines {n : PlannedNode} {c : Choices} {f : Facts} (hn : NamesByText n)
    (hfacts : n.recipe.facts n c = .ok f) {lines : List String}
    (h : (Snippet.lines .auth f).outcome = .ok lines) :
    ∃ names, f.secretProperties = .ok names ∧ Asks (lines.flatMap lineTokens) (literals names) := by
  obtain ⟨names, hnames, hreads⟩ := Lexer.readsInARow_authLines (Lexer.usual_of_facts hfacts)
    (Snippet.authLines_of_lines h)
  obtain ⟨texts, rfl⟩ := texts_of_secretProperties hn hfacts hnames
  exact ⟨_, hnames, asks_of_readsInARow hreads⟩

theorem authLines_of_null {f : Facts} (h : f.authType = .null) :
    (Snippet.lines .auth f).outcome = .ok [] := by
  have hnone : Scheme.normalize .null = none := rfl
  rw [Snippet.lines, Snippet.authLines, Snippet.authValues, h, hnone]
  rfl

/-- Where a node has secrets at all, its function has a slot for them. -/
theorem auth_of_facts {n : PlannedNode} {c : Choices} {f : Facts} {body : List Step}
    (hfacts : n.recipe.facts n c = .ok f) (hbody : (n.recipe.body n c).outcome = .ok body) :
    slots body = [.rateLimit, .auth, .error] ∨
      f.secretProperties = .ok [] ∧ (Snippet.lines .auth f).outcome = .ok [] := by
  cases sourced_of_facts hfacts with
  | service s _ _ hslots => exact Or.inl (hslots hbody)
  | plain hauth _ => exact Or.inr ⟨secretProperties_of_null hauth, authLines_of_null hauth⟩

theorem authLines_of_ready {n : PlannedNode} {c : Choices} {f : Facts} {body : List Step}
    (hfacts : n.recipe.facts n c = .ok f) (hbody : (n.recipe.body n c).outcome = .ok body)
    (hready : ∀ kind, .slot kind ∈ body →
      (Snippet.lines kind f).outcome = .ok (Snippet.linesOr f kind)) :
    (Snippet.lines .auth f).outcome = .ok (Snippet.linesOr f .auth) := by
  rcases auth_of_facts hfacts hbody with hslots | ⟨_, hlines⟩
  · exact hready .auth (slot_mem (by rw [hslots]; decide))
  · rw [linesOr_of_ok hlines]
    exact hlines

/-- What the slots ask for is the secrets once, or nothing where there are none. -/
theorem flatMap_slots {n : PlannedNode} {c : Choices} {f : Facts} {body : List Step}
    {names : List Value} (hfacts : n.recipe.facts n c = .ok f)
    (hbody : (n.recipe.body n c).outcome = .ok body) (hnames : f.secretProperties = .ok names) :
    ((slots body).flatMap fun kind => if kind = .auth then literals names else []) =
      literals names := by
  rcases auth_of_facts hfacts hbody with hslots | ⟨hnone, _⟩
  · rw [hslots]
    exact List.append_nil _
  · cases hnames.symm.trans hnone
    simp [literals]

/-- The function of a node reads these properties. They are the secrets of its facts; the code that
adds credentials reads them in order and is put into the function, which has a place for it unless
there are none; and where the function is one of a script, it reads no other properties. -/
def ReadsSecrets (n : PlannedNode) (c : Choices) (names : List Value) : Prop :=
  ∃ draft filled facts lines,
    (NodeFunction.draft n c).outcome = .ok draft ∧
    (NodeFunction.build n c).outcome = .ok filled ∧
    n.recipe.facts n c = .ok facts ∧
    facts.secretProperties = .ok names ∧
    (Snippet.lines .auth facts).outcome = .ok lines ∧
    propertyReads (Text.joinLines lines) = literals names ∧
    (Snippet.intoSheet draft .auth facts).outcome =
      .ok (draft.fill .auth lines, draft.hasSlot .auth) ∧
    (draft.hasSlot .auth = true ∨ names = []) ∧
    (Scheduled n → propertyReads (filled.render false) = literals names)

theorem intoSheet_of_lines {s : Sheet} {kind : SlotKind} {f : Facts} {lines : List String}
    (h : (Snippet.lines kind f).outcome = .ok lines) :
    (Snippet.intoSheet s kind f).outcome = .ok (s.fill kind lines, s.hasSlot kind) := by
  unfold Snippet.intoSheet
  cases hslot : s.hasSlot kind with
  | true =>
    rw [if_pos rfl, Traced.bind_eq_ok]
    exact ⟨lines, h, rfl⟩
  | false =>
    rw [fill_of_hasSlot_eq_false _ hslot]
    rfl

theorem ofNode_of_texts {n : PlannedNode} {c : Choices} {ts : List String}
    (h : n.recipe.secrets n c = .ok (ts.map .text)) :
    Secret.ofNode n c = .ok ((Secret.scanFields n.config ++ ts).map .text) := by
  have hkeys : ((Secret.scanFields n.config ++ ts).map Value.text).find? (fun v => !v.isKey) =
      none := by
    refine List.find?_eq_none.mpr fun v hv => ?_
    obtain ⟨s, _, rfl⟩ := List.mem_map.mp hv
    exact Bool.false_ne_true
  unfold Secret.ofNode
  refine except_bind_eq_ok.mpr ⟨_, h, ?_⟩
  dsimp only
  rw [← List.map_append, hkeys]
  rfl

theorem readsSecrets_of_build {n : PlannedNode} {c : Choices} {filled : Sheet}
    (hn : NamesByText n) (h : (NodeFunction.build n c).outcome = .ok filled) :
    ∃ ts : List String, ReadsSecrets n c (ts.map .text) ∧
      Secret.ofNode n c = .ok ((Secret.scanFields n.config ++ ts).map .text) := by
  obtain ⟨draft, body, facts, hdraft, hbody, hfacts, rfl, hready, hslots⟩ := Lexer.parts_of_build h
  have hkinds : ∀ kind, .slot kind ∈ body →
      (Snippet.lines kind facts).outcome = .ok (Snippet.linesOr facts kind) :=
    fun kind hkind => hready kind (hslots kind hkind)
  have hlines := authLines_of_ready hfacts hbody hkinds
  obtain ⟨names, hnames, hauth⟩ := asks_authLines hn hfacts hlines
  obtain ⟨ts, rfl⟩ := texts_of_secretProperties hn hfacts hnames
  refine ⟨ts, ⟨draft, _, facts, _, hdraft, h, hfacts, hnames, hlines, ?_,
    intoSheet_of_lines hlines, ?_, fun hscheduled => ?_⟩, ?_⟩
  · have hcomplete := fun l hl =>
      (Lexer.tame_snippet (Lexer.usual_of_facts hfacts) hlines l hl).complete
    rw [← tokens_joinLines hcomplete] at hauth
    exact propertyReads_of_asks hauth
  · rcases auth_of_facts hfacts hbody with hauth | ⟨hnone, _⟩
    · exact Or.inl (hslots .auth (slot_mem (by rw [hauth]; decide)))
    · exact Or.inr (Except.ok.inj (hnames.symm.trans hnone))
  · have hname := hscheduled.isFunctionName
    have hwatched : getProperty ∈ Lexer.watched := List.mem_cons_self ..
    have hopen := asks_of_avoids hwatched (Lexer.avoids_declaration hname).tokens
    have hclose : Asks (lineTokens "\x7d") [] := asks_of_avoids hwatched (by decide)
    have hall := (hopen.append (asks_body hfacts hbody hkinds hauth)).append hclose
    rw [← Lexer.tokens_build hname hdraft hbody hfacts hready, List.nil_append,
      List.append_nil] at hall
    rw [propertyReads_of_asks hall]
    exact flatMap_slots hfacts hbody hnames
  · exact ofNode_of_texts
      (by rw [secrets_eq hfacts (Snippet.isPrintable_of_lines hlines), hnames])

/-! ## Secret fields -/

/-- The value has, at any depth, a field for the name of a property, and the name is this one. -/
inductive NamesProperty : Value → String → Prop where
  | here {fields : Fields} {key s : String} (hfield : (key, .text s) ∈ fields)
      (hkey : key ∈ Secret.fieldNames) (hs : Text.trim s ≠ "") :
      NamesProperty (.object fields) (Text.trim s)
  | field {fields : Fields} {key name : String} {v : Value} (hfield : (key, v) ∈ fields)
      (h : NamesProperty v name) : NamesProperty (.object fields) name
  | item {items : List Value} {name : String} {v : Value} (hitem : v ∈ items)
      (h : NamesProperty v name) : NamesProperty (.list items) name

theorem text_of_named? {key name : String} {v : Value} (h : Secret.named? key v = some name) :
    ∃ s, v = .text s ∧ key ∈ Secret.fieldNames ∧ Text.trim s ≠ "" ∧ name = Text.trim s := by
  unfold Secret.named? at h
  split at h
  · split at h
    · rename_i s hs
      cases h
      simp only [Bool.and_eq_true, List.contains_eq_mem, decide_eq_true_eq] at hs
      exact ⟨s, rfl, hs.1, hs.2, rfl⟩
    · cases h
  · cases h

mutual

theorem namesProperty_of_scan {name : String} :
    ∀ {v : Value}, name ∈ Secret.scan v → NamesProperty v name
  | .list items, h => by
    rw [Secret.scan] at h
    obtain ⟨v, hv, hname⟩ := namesProperty_of_scanItems h
    exact .item hv hname
  | .object fields, h => by
    rw [Secret.scan] at h
    exact namesProperty_of_scanFields h
  | .null, h => by simp [Secret.scan] at h
  | .bool _, h => by simp [Secret.scan] at h
  | .int _, h => by simp [Secret.scan] at h
  | .real _, h => by simp [Secret.scan] at h
  | .text _, h => by simp [Secret.scan] at h

theorem namesProperty_of_scanItems {name : String} :
    ∀ {items : List Value}, name ∈ Secret.scanItems items → ∃ v ∈ items, NamesProperty v name
  | [], h => by simp [Secret.scanItems] at h
  | v :: rest, h => by
    rw [Secret.scanItems] at h
    rcases List.mem_append.mp h with h | h
    · exact ⟨v, by simp, namesProperty_of_scan h⟩
    · obtain ⟨w, hw, hname⟩ := namesProperty_of_scanItems h
      exact ⟨w, List.mem_cons_of_mem _ hw, hname⟩

theorem namesProperty_of_scanFields {name : String} :
    ∀ {fields : Fields}, name ∈ Secret.scanFields fields → NamesProperty (.object fields) name
  | [], h => by simp [Secret.scanFields] at h
  | (key, v) :: rest, h => by
    rw [Secret.scanFields] at h
    rcases List.mem_append.mp h with h | h
    · split at h
      · rename_i found hfound
        rw [List.mem_singleton.mp h]
        obtain ⟨s, rfl, hkey, hs, rfl⟩ := text_of_named? hfound
        exact .here (List.mem_cons_self ..) hkey hs
      · exact .field (List.mem_cons_self ..) (namesProperty_of_scan h)
    · cases namesProperty_of_scanFields h with
      | here hfield hkey hs => exact .here (List.mem_cons_of_mem _ hfield) hkey hs
      | field hfield hname => exact .field (List.mem_cons_of_mem _ hfield) hname

end

/-! ## The law -/

/-- Every property that the code reads for credentials is documented. In a plan whose settings name
properties by texts, the function of each node reads the secrets of its facts, in order, and the book
has an entry for each of them with the node among its readers. The readers of an entry are distinct
and in the order of the nodes, the entries are in the order in which their properties are met, and a
node is a reader only of what a setting of its configuration names or its credentials need. -/
theorem every_property_that_is_read_is_documented (p : Plan) (started : Moment) (main : String)
    (entries : List Secret.Entry) (hmain : (Entry.text p started).outcome = .ok main)
    (hentries : Secret.ofPlan p = .ok entries) (hnames : ∀ n ∈ p.nodes, NamesByText n) :
    (∀ n ∈ p.nodes, ∃ names, ReadsSecrets n p.choices names ∧
      ∀ v ∈ names, ∃ e ∈ entries, e.name = v ∧ n.id ∈ e.readers) ∧
    (∀ e ∈ entries, e.readers.Nodup ∧ e.readers.Sublist (p.nodes.map PlannedNode.id)) ∧
    (∃ texts : List (List String),
      List.Forall₂ (fun n ts => Secret.ofNode n p.choices = .ok (ts.map .text)) p.nodes texts ∧
      entries.map Secret.Entry.name = texts.flatten.eraseDups.map .text) ∧
    ∀ e ∈ entries, ∀ id ∈ e.readers, ∃ n ∈ p.nodes, n.id = id ∧
      ((∃ s, NamesProperty (.object n.config) s ∧ e.name = .text s) ∨
        ∃ names, ReadsSecrets n p.choices names ∧ e.name ∈ names) := by
  obtain ⟨functions, hfunctions, _⟩ := Traced.bind_eq_ok.mp hmain
  obtain ⟨sheets, hsheets, _⟩ := Traced.bind_eq_ok.mp hfunctions
  have hreads : ∀ n ∈ p.nodes, ∃ ts : List String, ReadsSecrets n p.choices (ts.map .text) ∧
      Secret.ofNode n p.choices = .ok ((Secret.scanFields n.config ++ ts).map .text) := by
    intro n hn
    obtain ⟨filled, _, hfilled⟩ := Traced.exists_of_forEach hsheets hn
    exact readsSecrets_of_build (hnames n hn) hfilled
  choose! ts hts hofNode using hreads
  let all := fun n : PlannedNode => Secret.scanFields n.config ++ ts n
  let rs : Secret.Readings := p.nodes.map fun n => (n.id, all n)
  have hbook : entries = rs.book := by
    have hcollect := @Secret.collect_eq_book p.choices p.nodes rs
      (List.forall₂_map_right_iff.mpr (List.forall₂_same.mpr fun n hn => ⟨rfl, hofNode n hn⟩)) []
    exact Except.ok.inj (hentries.symm.trans hcollect)
  subst hbook
  have hids : rs.map Prod.fst = p.nodes.map PlannedNode.id := by simp [rs]
  refine ⟨fun n hn => ⟨_, hts n hn, fun v hv => ?_⟩, fun e he => ?_, ⟨p.nodes.map all, ?_, ?_⟩,
    fun e he id hid => ?_⟩
  · obtain ⟨s, hs, rfl⟩ := List.mem_map.mp hv
    have hmem : (n.id, all n) ∈ rs := List.mem_map_of_mem hn
    have hall : s ∈ all n := List.mem_append_right _ hs
    exact ⟨_, List.mem_map_of_mem (Secret.mem_names.mpr ⟨_, hmem, hall⟩), rfl,
      Secret.mem_readers.mpr ⟨_, hmem, hall, rfl⟩⟩
  · obtain ⟨s, _, rfl⟩ := List.mem_map.mp he
    exact ⟨Secret.nodup_eraseDups _, hids ▸ Secret.readers_sublist rs s⟩
  · exact List.forall₂_map_right_iff.mpr (List.forall₂_same.mpr hofNode)
  · have hflatten : rs.flatMap Prod.snd = (p.nodes.map all).flatten := by
      simp [rs, List.flatMap_def, Function.comp_def]
    rw [Secret.Readings.book, Secret.Readings.names, hflatten, List.map_map]
    rfl
  · obtain ⟨s, _, rfl⟩ := List.mem_map.mp he
    obtain ⟨r, hr, hs, rfl⟩ := Secret.mem_readers.mp hid
    obtain ⟨n, hn, rfl⟩ := List.mem_map.mp hr
    refine ⟨n, hn, rfl, ?_⟩
    rcases List.mem_append.mp hs with hs | hs
    · exact Or.inl ⟨s, namesProperty_of_scanFields hs, rfl⟩
    · exact Or.inr ⟨_, hts n hn, List.mem_map_of_mem hs⟩

/-- Two requests to one service, of which the second names the user's property itself. -/
def twoRequests : Plan where
  graph := ⟨"w", "W", none, [], []⟩
  choices := ⟨none, true, true, true, "UTC", "1"⟩
  nodes := [
    ⟨"first", "action.http.request", "execute_first",
      [("connector", .text "crm"), ("authType", .text "Basic")]⟩,
    ⟨"second", "action.http.request", "execute_second",
      [("connector", .text "crm"), ("authType", .text "basic"),
        ("usernameProperty", .text "OTHER \"USER\"")]⟩]
  order := []

theorem the_secrets_of_two_requests_are_documented :
    ∃ main entries,
      (Entry.text twoRequests ⟨2026, 1, 1, 0, 0, 0, 0, none⟩).outcome = .ok main ∧
      Secret.ofPlan twoRequests = .ok entries ∧ (∀ n ∈ twoRequests.nodes, NamesByText n) ∧
      entries.map (fun e => (e.name.plain, e.readers)) =
        [("CRM_USERNAME", ["first"]), ("CRM_PASSWORD", ["first", "second"]),
          ("OTHER \"USER\"", ["second"])] ∧
      ∀ n ∈ twoRequests.nodes, ∃ names, ReadsSecrets n twoRequests.choices names ∧
        ∀ v ∈ names, ∃ e ∈ entries, e.name = v ∧ n.id ∈ e.readers := by
  have hrun : ∃ main entries,
      (Entry.text twoRequests ⟨2026, 1, 1, 0, 0, 0, 0, none⟩).outcome = .ok main ∧
      Secret.ofPlan twoRequests = .ok entries ∧
      entries.map (fun e => (e.name.plain, e.readers)) =
        [("CRM_USERNAME", ["first"]), ("CRM_PASSWORD", ["first", "second"]),
          ("OTHER \"USER\"", ["second"])] := ⟨_, _, rfl, rfl, by decide +kernel⟩
  have hnames : ∀ n ∈ twoRequests.nodes, NamesByText n := by
    simp only [twoRequests, NamesByText, overrideKeys, List.forall_mem_cons]
    refine ⟨⟨?_, ?_, ?_, ?_, ?_, List.forall_mem_nil _⟩,
      ⟨?_, ?_, ?_, ?_, ?_, List.forall_mem_nil _⟩, List.forall_mem_nil _⟩
    all_goals
      intro v hv
      first
        | exact ⟨_, (Option.some.inj (hv : some (.text _) = some v)).symm⟩
        | exact absurd (hv : none = some v) (Option.some_ne_none v).symm
  obtain ⟨main, entries, hmain, hentries, hbook⟩ := hrun
  exact ⟨main, entries, hmain, hentries, hnames, hbook,
    (every_property_that_is_read_is_documented twoRequests _ main entries hmain hentries hnames).1⟩

end Flowscript
