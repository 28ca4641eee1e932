-- Names of properties that a configuration gives itself. The function of a
-- node asks for such a name as it stands, while the book has it without the
-- blanks around it too, so the two agree where no name has any.
import Flowscript.Proofs.Statements
import Flowscript.Proofs.Verbatim

namespace Flowscript

/-! ## What the book lists for one node -/

/-- A text is the key of nothing but itself. -/
theorem Value.eq_of_sameKey_text {v : Value} {s : String} (h : v.sameKey (.text s) = true) :
    v = .text s := by
  cases v <;> simp_all [Value.sameKey]

namespace Secret

/-- The book lists the property for the node. -/
def Listed (entries : List Entry) (id : String) (v : Value) : Prop :=
  ∃ e ∈ entries, e.name = v ∧ id ∈ e.readers

theorem listed_nil {id : String} {v : Value} : ¬ Listed [] id v := by
  simp [Listed]

theorem listed_cons {e : Entry} {rest : List Entry} {id : String} {v : Value} :
    Listed (e :: rest) id v ↔ (e.name = v ∧ id ∈ e.readers) ∨ Listed rest id v := by
  simp [Listed]

/-- What is listed for a node does not change with the readers of another id. -/
theorem listed_addReader_of_ne {name v : Value} {id other : String} (h : id ≠ other)
    (known : List Entry) : Listed (addReader name other known) id v ↔ Listed known id v := by
  induction known with
  | nil => simp [addReader, Listed, h]
  | cons e rest ih =>
    rw [addReader]
    split
    · rw [listed_cons, listed_cons]
      split <;> simp [h]
    · rw [listed_cons, listed_cons, ih]

/-- A text joins no entry of another name, so it is listed itself and nothing else is. -/
theorem listed_addReader_text {s id : String} {v : Value} (known : List Entry) :
    Listed (addReader (.text s) id known) id v ↔ Listed known id v ∨ v = .text s := by
  induction known with
  | nil => simp [addReader, Listed, eq_comm]
  | cons e rest ih =>
    rw [addReader]
    split
    · rename_i hsame
      have hname : e.name = .text s := Value.eq_of_sameKey_text hsame
      rw [listed_cons, listed_cons, hname]
      split <;> grind
    · rw [listed_cons, listed_cons, ih, or_assoc]

theorem listed_foldl_of_ne {names : List Value} {v : Value} {id other : String} (h : id ≠ other)
    (known : List Entry) :
    Listed (names.foldl (fun known name => addReader name other known) known) id v ↔
      Listed known id v := by
  induction names generalizing known with
  | nil => rfl
  | cons name rest ih => rw [List.foldl_cons, ih, listed_addReader_of_ne h]

theorem listed_foldl_texts {names : List String} {v : Value} {id : String} (known : List Entry) :
    Listed ((names.map Value.text).foldl (fun known name => addReader name id known) known) id v ↔
      Listed known id v ∨ ∃ s ∈ names, v = .text s := by
  induction names generalizing known with
  | nil => simp
  | cons name rest ih =>
    rw [List.map_cons, List.foldl_cons, ih, listed_addReader_text]
    simp [or_assoc]

theorem listed_collect_of_notMem {c : Choices} {nodes : List PlannedNode} {id : String} {v : Value}
    (hid : id ∉ nodes.map PlannedNode.id) {known entries : List Entry}
    (h : collect c known nodes = .ok entries) : Listed entries id v ↔ Listed known id v := by
  induction nodes generalizing known with
  | nil =>
    cases h
    rfl
  | cons n rest ih =>
    obtain ⟨names, _, h⟩ := except_bind_eq_ok.mp h
    rw [List.map_cons, List.mem_cons, not_or] at hid
    rw [ih hid.2 h, listed_foldl_of_ne hid.1]

/-- Where ids are distinct, a node that reads texts is listed for these and for nothing else, whatever
the other nodes read. -/
theorem listed_collect {c : Choices} {nodes : List PlannedNode} {n : PlannedNode} {v : Value}
    {names : List String} (hids : (nodes.map PlannedNode.id).Nodup) (hn : n ∈ nodes)
    (hnames : ofNode n c = .ok (names.map .text)) {known entries : List Entry}
    (h : collect c known nodes = .ok entries) :
    Listed entries n.id v ↔ Listed known n.id v ∨ ∃ s ∈ names, v = .text s := by
  induction nodes generalizing known with
  | nil => cases hn
  | cons m rest ih =>
    rw [List.map_cons, List.nodup_cons] at hids
    obtain ⟨found, hfound, h⟩ := except_bind_eq_ok.mp h
    rcases List.mem_cons.mp hn with rfl | hn
    · cases hfound.symm.trans hnames
      rw [listed_collect_of_notMem hids.1 h, listed_foldl_texts]
    · have hne : n.id ≠ m.id := fun he => hids.1 (he ▸ List.mem_map_of_mem hn)
      rw [ih hids.2 hn h, listed_foldl_of_ne hne]

end Secret

/-! ## Fields that name properties -/

/-- The value has, at any depth, a field for the name of a property. -/
inductive HasSecretField : Value → Prop where
  | here {fields : Fields} {key : String} {v : Value} (hfield : (key, v) ∈ fields)
      (hkey : key ∈ Secret.fieldNames) : HasSecretField (.object fields)
  | field {fields : Fields} {key : String} {v : Value} (hfield : (key, v) ∈ fields)
      (h : HasSecretField v) : HasSecretField (.object fields)
  | item {items : List Value} {v : Value} (hitem : v ∈ items) (h : HasSecretField v) :
      HasSecretField (.list items)

theorem NamesProperty.hasSecretField {v : Value} {name : String} (h : NamesProperty v name) :
    HasSecretField v := by
  induction h with
  | here hfield hkey _ => exact .here hfield hkey
  | field hfield _ ih => exact .field hfield ih
  | item hitem _ ih => exact .item hitem ih

/-- The configuration names a property by this text, in a field of its own. -/
def PlannedNode.Overrides (n : PlannedNode) (t : String) : Prop :=
  ∃ key ∈ Secret.fieldNames, (key, .text t) ∈ n.config

theorem mem_scanFields_of_field {fields : Fields} {key t : String}
    (hfield : (key, .text t) ∈ fields) (hkey : key ∈ Secret.fieldNames) (ht : Text.trim t ≠ "") :
    Text.trim t ∈ Secret.scanFields fields := by
  induction fields with
  | nil => cases hfield
  | cons entry rest ih =>
    rw [Secret.scanFields]
    rcases List.mem_cons.mp hfield with rfl | hfield
    · have hnamed : Secret.named? key (.text t) = some (Text.trim t) := by
        simp [Secret.named?, hkey, ht]
      rw [hnamed]
      exact List.mem_append_left _ (List.mem_singleton.mpr rfl)
    · exact List.mem_append_right _ (ih hfield)

/-- Where no field below the first level names a property, scanning finds what the fields of the first
level name. -/
theorem mem_scanFields {n : PlannedNode}
    (hflat : ∀ key v, (key, v) ∈ n.config → ¬ HasSecretField v) {name : String} :
    name ∈ Secret.scanFields n.config ↔
      ∃ t, n.Overrides t ∧ Text.trim t ≠ "" ∧ name = Text.trim t := by
  constructor
  · intro h
    cases namesProperty_of_scanFields h with
    | here hfield hkey ht => exact ⟨_, ⟨_, hkey, hfield⟩, ht, rfl⟩
    | field hfield hname => exact absurd hname.hasSecretField (hflat _ _ hfield)
  · rintro ⟨t, ⟨key, hkey, hfield⟩, ht, rfl⟩
    exact mem_scanFields_of_field hfield hkey ht

/-! ## Names that a scheme takes -/

/-- The settings that a scheme takes names from. Of the two for `oauth2` the second counts only where
the first is not set. -/
def Scheme.overrideKeys (config : Fields) : Scheme → List String
  | .apiKey => ["apiKeyProperty"]
  | .bearer => ["tokenProperty"]
  | .basic => ["usernameProperty", "passwordProperty"]
  | .oauth2 =>
    match Config.get? config "accessTokenProperty" with
    | some _ => ["accessTokenProperty"]
    | none => ["tokenProperty"]

/-- The scheme by which a node signs in to a service. -/
def PlannedNode.scheme? (n : PlannedNode) (s : Recipe.Service) : Option Scheme :=
  Scheme.ofValue? (Config.getD n.config "authType" s.scheme)

/-- The only fields of a configuration, at any depth, that are for names of properties stand in the
configuration itself and are texts, each empty or taken by the scheme of the node. As in every object
that is read, no key stands twice. -/
structure OverridesOnly (n : PlannedNode) (s : Recipe.Service) : Prop where
  nodup_keys : (n.config.map Prod.fst).Nodup
  flat : ∀ key v, (key, v) ∈ n.config → ¬ HasSecretField v
  taken : ∀ key v, (key, v) ∈ n.config → key ∈ Secret.fieldNames → ∃ t, v = .text t ∧
    (t ≠ "" → ∃ scheme, n.scheme? s = some scheme ∧ key ∈ scheme.overrideKeys n.config)

theorem Fields.get?_of_mem {fields : Fields} {key : String} {v : Value}
    (hkeys : (fields.map Prod.fst).Nodup) (h : (key, v) ∈ fields) : fields.get? key = some v := by
  obtain ⟨before, after, rfl⟩ := List.mem_iff_append.mp h
  rw [List.map_append, List.map_cons, List.nodup_append] at hkeys
  refine List.lookup_eq_some_iff.mpr ⟨before, after, rfl, fun e he => bne_iff_ne.mpr ?_⟩
  exact (hkeys.2.2 _ (List.mem_map_of_mem he) _ (List.mem_cons_self ..)).symm

theorem OverridesOnly.namesByText {n : PlannedNode} {s : Recipe.Service}
    (h : OverridesOnly n s) : NamesByText n := by
  intro key hkey v hv
  have hfield : key ∈ Secret.fieldNames := by
    have hsubset : overrideKeys ⊆ Secret.fieldNames := by decide
    exact hsubset hkey
  obtain ⟨t, rfl, _⟩ := h.taken key v (Fields.mem_of_get? (Config.get?_eq_some hv)) hfield
  exact ⟨t, rfl⟩

theorem Config.getD_of_text {config : Fields} {key t : String} (ht : t ≠ "")
    (h : config.get? key = some (.text t)) (d : Value) : Config.getD config key d = .text t := by
  unfold Config.getD Config.get?
  rw [h]
  split <;> simp_all

theorem propertyOr_text {t : String} (ht : t ≠ "") (f : Facts) (ending : String) :
    f.propertyOr (.text t) ending = .ok (.text t) := by
  simp [Facts.propertyOr, Value.isTruthy, ht]

/-- A scheme of one property asks for the name that is given, as it stands. -/
theorem eq_of_one_text {f : Facts} {named : Value} {t ending : String} {names : List Value}
    (ht : t ≠ "") (hnamed : named = .text t)
    (h : (f.propertyOr named ending >>= fun v => pure [v]) = .ok names) : names = [.text t] := by
  rw [hnamed, propertyOr_text ht] at h
  cases h
  rfl

/-- Of its two settings `oauth2` takes the name from the one that counts. -/
theorem orElse_of_overrideKeys {config : Fields} {key t : String} (ht : t ≠ "")
    (hkey : key ∈ Scheme.oauth2.overrideKeys config)
    (hown : Config.getD config key .null = .text t) :
    (Config.getD config "accessTokenProperty" .null).orElse
      (Config.getD config "tokenProperty" .null) = .text t := by
  have htruthy : (Value.text t).isTruthy = true := by simp [Value.isTruthy, ht]
  rw [Scheme.overrideKeys] at hkey
  cases hset : Config.get? config "accessTokenProperty" with
  | some v =>
    rw [hset] at hkey
    obtain rfl := List.mem_singleton.mp hkey
    rw [hown, Value.orElse, if_pos htruthy]
  | none =>
    rw [hset] at hkey
    obtain rfl := List.mem_singleton.mp hkey
    rw [hown, Config.getD, hset]
    rfl

/-- A setting that a scheme takes a name from gives one of the names that the scheme asks for. -/
theorem mem_secretProperties {s : Recipe.Service} {n : PlannedNode} {c : Choices} {f : Facts}
    (h : Recipe.serviceFacts s n c = .ok f) {names : List Value}
    (hnames : f.secretProperties = .ok names) {scheme : Scheme} (hscheme : n.scheme? s = some scheme)
    {key t : String} (hkey : key ∈ scheme.overrideKeys n.config) (ht : t ≠ "")
    (hset : n.config.get? key = some (.text t)) : .text t ∈ names := by
  obtain ⟨requests, window, rfl⟩ := Recipe.serviceFacts_eq_ok h
  have hown : Config.getD n.config key .null = .text t := Config.getD_of_text ht hset .null
  unfold PlannedNode.scheme? at hscheme
  unfold Facts.secretProperties at hnames
  dsimp only at hnames
  rw [hscheme] at hnames
  cases scheme with
  | apiKey =>
    obtain rfl := List.mem_singleton.mp hkey
    simp [eq_of_one_text ht hown hnames]
  | bearer =>
    obtain rfl := List.mem_singleton.mp hkey
    simp [eq_of_one_text ht hown hnames]
  | basic =>
    obtain ⟨username, husername, hnames⟩ := except_bind_eq_ok.mp hnames
    obtain ⟨password, hpassword, hnames⟩ := except_bind_eq_ok.mp hnames
    cases hnames
    rcases List.mem_pair.mp hkey with rfl | rfl
    · rw [hown, propertyOr_text ht] at husername
      cases husername
      simp
    · rw [hown, propertyOr_text ht] at hpassword
      cases hpassword
      simp
  | oauth2 =>
    have hnamed := orElse_of_overrideKeys ht hkey hown
    simp [eq_of_one_text ht hnamed hnames]

/-- The function of a node asks for each name that the node gives, as it stands. -/
theorem OverridesOnly.mem_names {n : PlannedNode} {s : Recipe.Service} {c : Choices} {f : Facts}
    (h : OverridesOnly n s) (hfacts : Recipe.serviceFacts s n c = .ok f) {names : List Value}
    (hnames : f.secretProperties = .ok names) {t : String} (hover : n.Overrides t) (ht : t ≠ "") :
    .text t ∈ names := by
  obtain ⟨key, hkey, hfield⟩ := hover
  obtain ⟨t', he, htaken⟩ := h.taken key _ hfield hkey
  cases he
  obtain ⟨scheme, hscheme, hmem⟩ := htaken ht
  exact mem_secretProperties hfacts hnames hscheme hmem ht (Fields.get?_of_mem h.nodup_keys hfield)

/-! ## The law -/

/-- What the function of a node asks for, and what the book lists for the node. -/
theorem reads_and_lists {g : Graph} {c : Choices} {p : Plan} {n : PlannedNode} {text : String}
    {entries : List Secret.Entry} (hplan : (Plan.build g c).outcome = .ok p) (hn : n ∈ p.nodes)
    (htext : (NodeFunction.text n p.choices).outcome = .ok text)
    (hentries : Secret.ofPlan p = .ok entries) (hnames : NamesByText n) :
    ∃ (names : List String) (f : Facts),
      n.recipe.facts n p.choices = .ok f ∧ f.secretProperties = .ok (names.map .text) ∧
      propertyReads text = literals (names.map .text) ∧
      ∀ v, Secret.Listed entries n.id v ↔
        ∃ name, v = .text name ∧ (name ∈ names ∨ name ∈ Secret.scanFields n.config) := by
  obtain ⟨filled, hfilled, hrender⟩ := Traced.bind_eq_ok.mp htext
  cases hrender
  obtain ⟨names, hreads, hofNode⟩ := readsSecrets_of_build hnames hfilled
  obtain ⟨_, filled', f, _, _, hfilled', hfacts, hsecrets, _, _, _, _, hprint⟩ := hreads
  cases hfilled.symm.trans hfilled'
  refine ⟨names, f, hfacts, hsecrets, hprint (.planned hplan hn), fun v => ?_⟩
  rw [Secret.listed_collect (Plan.sound_of_build hplan).nodup_ids hn hofNode hentries]
  simp only [Secret.listed_nil, false_or, List.mem_append, or_comm, and_comm]

/-- In a plan, take a node that calls a service and names properties only by settings of its own, all
of them texts that its scheme takes. Its function asks for certain properties, among them each that
the node names, as it stands. The book lists these for the node, and each name without the blanks
around it unless nothing is left of it, and no others. So the book lists what is read and nothing else
exactly where every such stripped name is read too, and it always does where no name has blanks
around it or is blank as a whole. -/
theorem the_book_lists_what_is_read_but_for_blanks_around_names (g : Graph) (c : Choices) (p : Plan)
    (n : PlannedNode) (s : Recipe.Service) (text : String) (entries : List Secret.Entry)
    (hplan : (Plan.build g c).outcome = .ok p) (hn : n ∈ p.nodes) (hservice : n.Requests s)
    (honly : OverridesOnly n s) (htext : (NodeFunction.text n p.choices).outcome = .ok text)
    (hentries : Secret.ofPlan p = .ok entries) :
    ∃ names : List String,
      propertyReads text = literals (names.map .text) ∧
      (∀ t, n.Overrides t → t ≠ "" → t ∈ names) ∧
      (∀ v, Secret.Listed entries n.id v ↔ ∃ name, v = .text name ∧
        (name ∈ names ∨ ∃ t, n.Overrides t ∧ Text.trim t ≠ "" ∧ name = Text.trim t)) ∧
      ((∀ v, Secret.Listed entries n.id v ↔ v ∈ names.map .text) ↔
        ∀ t, n.Overrides t → Text.trim t ≠ "" → Text.trim t ∈ names) ∧
      ((∀ t, n.Overrides t → Text.trim t = t ∨ Text.trim t = "") →
        ∀ v, Secret.Listed entries n.id v ↔ v ∈ names.map .text) := by
  obtain ⟨names, f, hfacts, hsecrets, hreads, hlisted⟩ :=
    reads_and_lists hplan hn htext hentries honly.namesByText
  have hmem : ∀ {name : String}, .text name ∈ names.map Value.text ↔ name ∈ names :=
    List.mem_map_of_injective fun _ _ => Value.text.inj
  have hown : ∀ t, n.Overrides t → t ≠ "" → t ∈ names := fun t hover ht =>
    hmem.mp (honly.mem_names (hservice.facts hfacts) hsecrets hover ht)
  have hlists : ∀ v, Secret.Listed entries n.id v ↔ ∃ name, v = .text name ∧
      (name ∈ names ∨ ∃ t, n.Overrides t ∧ Text.trim t ≠ "" ∧ name = Text.trim t) := by
    intro v
    simp only [hlisted, mem_scanFields honly.flat]
  have hexact : (∀ v, Secret.Listed entries n.id v ↔ v ∈ names.map .text) ↔
      ∀ t, n.Overrides t → Text.trim t ≠ "" → Text.trim t ∈ names := by
    constructor
    · intro hsame t hover hblank
      have hstripped := (hlists _).mpr ⟨_, rfl, Or.inr ⟨t, hover, hblank, rfl⟩⟩
      exact hmem.mp ((hsame _).mp hstripped)
    · intro hstripped v
      rw [hlists, List.mem_map]
      constructor
      · rintro ⟨name, rfl, hname | ⟨t, hover, hblank, rfl⟩⟩
        · exact ⟨name, hname, rfl⟩
        · exact ⟨_, hstripped t hover hblank, rfl⟩
      · rintro ⟨name, hname, rfl⟩
        exact ⟨name, rfl, Or.inl hname⟩
  refine ⟨names, hreads, hown, hlists, hexact, fun hplain => hexact.mpr fun t hover hblank => ?_⟩
  rcases hplain t hover with he | he
  · rw [he] at hblank ⊢
    exact hown t hover hblank
  · exact absurd he hblank

/-- The node is one of the plan of the graph, its function is written, and the book is kept. -/
def Documented (g : Graph) (p : Plan) (n : PlannedNode) (text : String)
    (entries : List Secret.Entry) : Prop :=
  (Plan.build g ⟨none, true, true, false, "UTC", "1"⟩).outcome = .ok p ∧ n ∈ p.nodes ∧
    (NodeFunction.text n p.choices).outcome = .ok text ∧ Secret.ofPlan p = .ok entries

/-- A configuration of texts has no fields below its first level. -/
theorem overridesOnly_of_texts {n : PlannedNode} {s : Recipe.Service} {scheme : Scheme}
    {texts : List (String × String)} (hconfig : n.config = texts.map fun e => (e.1, .text e.2))
    (hkeys : (texts.map Prod.fst).Nodup) (hscheme : n.scheme? s = some scheme)
    (htaken : ∀ e ∈ texts, e.1 ∈ Secret.fieldNames → e.1 ∈ scheme.overrideKeys n.config) :
    OverridesOnly n s := by
  have hmem : ∀ {key v}, (key, v) ∈ n.config → ∃ t, (key, t) ∈ texts ∧ v = .text t := by
    intro key v hfield
    rw [hconfig] at hfield
    obtain ⟨⟨key', t⟩, he, heq⟩ := List.mem_map.mp hfield
    cases heq
    exact ⟨t, he, rfl⟩
  refine ⟨?_, fun key v hfield => ?_, fun key v hfield hkey => ?_⟩
  · rw [hconfig, List.map_map]
    exact hkeys
  · obtain ⟨t, _, rfl⟩ := hmem hfield
    intro h
    cases h
  · obtain ⟨t, he, rfl⟩ := hmem hfield
    exact ⟨t, rfl, fun _ => ⟨scheme, hscheme, htaken _ he hkey⟩⟩

/-- A request by a user who is named, with a password that is kept under a blank, beside a message
whose token is kept under a number. -/
def requestAndMessage : Graph := ⟨"w", "W", none,
  [⟨"request", "action.http.request", [("authType", .text "Basic"),
      ("usernameProperty", .text "CRM_USER"), ("passwordProperty", .text " ")]⟩,
    ⟨"message", "action.slack.post_message", [("tokenProperty", .int 7)]⟩], []⟩

/-- The plan of both, where nothing is left to resolve in their settings. -/
def requestAndMessagePlan : Plan :=
  let nodes := [⟨"request", "action.http.request", "execute_request", [("authType", .text "Basic"),
      ("usernameProperty", .text "CRM_USER"), ("passwordProperty", .text " ")]⟩,
    ⟨"message", "action.slack.post_message", "execute_message", [("tokenProperty", .int 7)]⟩]
  ⟨requestAndMessage, ⟨none, true, true, false, "UTC", "1"⟩, nodes, nodes⟩

theorem a_name_and_a_blank_are_listed_as_they_are_read :
    ∃ p n text entries, Documented requestAndMessage p n text entries ∧
      n.Requests Recipe.anyService ∧ OverridesOnly n Recipe.anyService ∧
      ∃ names : List String, propertyReads text = literals (names.map .text) ∧
        "CRM_USER" ∈ names ∧ " " ∈ names ∧
        ∀ v, Secret.Listed entries n.id v ↔ v ∈ names.map .text := by
  have hrun : ∃ p n text entries, Documented requestAndMessage p n text entries ∧
      n.Requests Recipe.anyService ∧ n.scheme? Recipe.anyService = some .basic ∧
      n.config = [("authType", "Basic"), ("usernameProperty", "CRM_USER"),
        ("passwordProperty", " ")].map fun e => (e.1, .text e.2) :=
    ⟨requestAndMessagePlan, _, _, _, ⟨rfl, .head _, rfl, rfl⟩, rfl, rfl, rfl⟩
  obtain ⟨p, n, text, entries, hdocumented, hservice, hscheme, hconfig⟩ := hrun
  have honly : OverridesOnly n Recipe.anyService :=
    overridesOnly_of_texts hconfig (by decide) hscheme
      (by simp [Secret.fieldNames, Scheme.overrideKeys])
  obtain ⟨hplan, hn, htext, hentries⟩ := id hdocumented
  obtain ⟨names, hreads, hown, _, _, hexact⟩ :=
    the_book_lists_what_is_read_but_for_blanks_around_names _ _ p n _ text entries hplan hn hservice
      honly htext hentries
  have huser : n.Overrides "CRM_USER" := ⟨"usernameProperty", by decide, by simp [hconfig]⟩
  have hblank : n.Overrides " " := ⟨"passwordProperty", by decide, by simp [hconfig]⟩
  refine ⟨p, n, text, entries, hdocumented, hservice, honly, names, hreads,
    hown _ huser (by decide), hown _ hblank (by decide), hexact ?_⟩
  rintro t ⟨key, hkey, hfield⟩
  simp only [hconfig, List.map_cons, List.map_nil, List.mem_cons, Prod.mk.injEq, Value.text.injEq,
    List.not_mem_nil, or_false] at hfield
  rcases hfield with ⟨rfl, rfl⟩ | ⟨rfl, rfl⟩ | ⟨rfl, rfl⟩
  · exact absurd hkey (by decide)
  · exact Or.inl (by decide)
  · exact Or.inr (by decide)

/-- A request with a token whose property has this name. -/
def tokenRequest (name : String) : Graph := ⟨"w", "W", none,
  [⟨"h", "action.http.request", [("authType", .text "bearer"), ("tokenProperty", .text name)]⟩], []⟩

/-- Its plan, where nothing is left to resolve in its settings. -/
def tokenRequestPlan (name : String) : Plan :=
  let nodes := [⟨"h", "action.http.request", "execute_h",
    [("authType", .text "bearer"), ("tokenProperty", .text name)]⟩]
  ⟨tokenRequest name, ⟨none, true, true, false, "UTC", "1"⟩, nodes, nodes⟩

/-- A name with blanks around it is listed without them too, but it is not read so. -/
theorem a_name_with_blanks_is_listed_as_no_code_reads_it :
    ∃ p n text entries, Documented (tokenRequest " MY_TOKEN ") p n text entries ∧
      n.Requests Recipe.anyService ∧ OverridesOnly n Recipe.anyService ∧
      propertyReads text = literals [.text " MY_TOKEN "] ∧
      Secret.Listed entries n.id (.text " MY_TOKEN ") ∧
      Secret.Listed entries n.id (.text "MY_TOKEN") ∧
      [Lexer.Token.quoted (Json.literal (.text "MY_TOKEN")).toList] ∉ propertyReads text := by
  have hrun : ∃ p n text entries f, Documented (tokenRequest " MY_TOKEN ") p n text entries ∧
      n.Requests Recipe.anyService ∧ n.scheme? Recipe.anyService = some .bearer ∧
      n.config = [("authType", "bearer"), ("tokenProperty", " MY_TOKEN ")].map
        (fun e => (e.1, .text e.2)) ∧
      n.recipe.facts n p.choices = .ok f ∧
      f.secretProperties = .ok ([" MY_TOKEN "].map .text) :=
    ⟨tokenRequestPlan " MY_TOKEN ", _, _, _, _, ⟨rfl, .head _, rfl, rfl⟩, rfl, rfl, rfl, rfl, rfl⟩
  obtain ⟨p, n, text, entries, f, hdocumented, hservice, hscheme, hconfig, hfacts, hsecrets⟩ := hrun
  have honly : OverridesOnly n Recipe.anyService :=
    overridesOnly_of_texts hconfig (by decide) hscheme
      (by simp [Secret.fieldNames, Scheme.overrideKeys])
  obtain ⟨hplan, hn, htext, hentries⟩ := id hdocumented
  obtain ⟨names, f', hfacts', hsecrets', hreads, hlisted⟩ :=
    reads_and_lists hplan hn htext hentries honly.namesByText
  cases hfacts.symm.trans hfacts'
  obtain rfl : names = [" MY_TOKEN "] :=
    List.map_injective_iff.mpr (fun _ _ => Value.text.inj)
      (Except.ok.inj (hsecrets'.symm.trans hsecrets))
  have htrim : Text.trim " MY_TOKEN " = "MY_TOKEN" := by decide
  have hfield : ("tokenProperty", .text " MY_TOKEN ") ∈ n.config := by simp [hconfig]
  have hstripped := mem_scanFields_of_field hfield (by decide) (by decide)
  rw [htrim] at hstripped
  refine ⟨p, n, text, entries, hdocumented, hservice, honly, hreads, ?_, ?_, ?_⟩
  · exact (hlisted _).mpr ⟨_, rfl, Or.inl (List.mem_singleton.mpr rfl)⟩
  · exact (hlisted _).mpr ⟨_, rfl, Or.inr hstripped⟩
  · rw [hreads]
    decide

end Flowscript
