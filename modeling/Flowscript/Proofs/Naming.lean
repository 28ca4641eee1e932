-- The names of functions in a bundle, whose scripts all share one space of
-- names. Different ids have different names, a name shows its id, and nodes
-- that are added at the end take no name from the nodes before them. No name
-- is declared twice in all scripts of a bundle.
import Flowscript.Proofs.Globals

namespace Flowscript

namespace Plan

/-! ## Names for ids -/

/-- The ids of nodes with the names that they get, in order. -/
def named (nodes : List Node) : List (String × String) :=
  ((distinctNodes nodes).map Node.id).zip (functionNames ((distinctNodes nodes).map Node.id))

/-- The name that an id gets among nodes. -/
def nameOf? (nodes : List Node) (id : String) : Option String := (named nodes).lookup id

theorem namedFor_of_mem_zip {ids : List String} {taken : List String} {id name : String}
    (h : (id, name) ∈ ids.zip (nameAll taken ids)) : NamedFor id name := by
  induction ids generalizing taken with
  | nil => cases h
  | cons x rest ih =>
    rw [nameAll, List.zip_cons_cons] at h
    rcases List.mem_cons.mp h with he | h
    · cases he
      exact namedFor_freeName taken _
    · exact ih h

theorem map_fst_named (nodes : List Node) :
    (named nodes).map Prod.fst = (distinctNodes nodes).map Node.id := by
  apply List.map_fst_zip
  rw [functionNames, length_nameAll]

theorem map_snd_named (nodes : List Node) :
    (named nodes).map Prod.snd = functionNames ((distinctNodes nodes).map Node.id) := by
  apply List.map_snd_zip
  rw [functionNames, length_nameAll]

theorem mem_named_of_nameOf? {nodes : List Node} {id name : String}
    (h : nameOf? nodes id = some name) : (id, name) ∈ named nodes := by
  obtain ⟨front, back, hsplit, _⟩ := List.lookup_eq_some_iff.mp h
  rw [hsplit]
  simp

/-- Every id gets a name. -/
theorem exists_nameOf? {nodes : List Node} {id : String} (h : id ∈ nodes.map Node.id) :
    ∃ name, nameOf? nodes id = some name := by
  rw [← mem_distinctNodes, ← map_fst_named] at h
  obtain ⟨e, he, hid⟩ := List.mem_map.mp h
  exact Option.isSome_iff_exists.mp (List.lookup_isSome_iff.mpr ⟨e, he, by simp [hid]⟩)

/-- Ids with one name are one id. -/
theorem nameOf?_injective {nodes : List Node} {id id' name : String}
    (h : nameOf? nodes id = some name) (h' : nameOf? nodes id' = some name) : id = id' := by
  have hnodup : ((named nodes).map Prod.snd).Nodup := by
    rw [map_snd_named]
    exact (nameAll_fresh _ _).1
  have hpair :=
    List.inj_on_of_nodup_map hnodup (mem_named_of_nameOf? h) (mem_named_of_nameOf? h') rfl
  exact congrArg Prod.fst hpair

/-! ## Nodes added at the end -/

theorem nameAll_append (taken ids more : List String) :
    nameAll taken (ids ++ more) =
      nameAll taken ids ++ nameAll (taken ++ nameAll taken ids) more := by
  induction ids generalizing taken with
  | nil => simp [nameAll]
  | cons id rest ih => simp [nameAll, ih]

/-- Nodes that are added at the end change nothing for the ones before them. -/
theorem distinctNodes_append (nodes more : List Node) :
    distinctNodes (nodes ++ more) =
      distinctNodes nodes ++ (distinctNodes more).filter fun m => m.id ∉ nodes.map Node.id := by
  induction nodes with
  | nil => simp [distinctNodes]
  | cons n rest ih =>
    rw [List.cons_append, distinctNodes, ih, List.filter_append, List.filter_filter, distinctNodes,
      List.cons_append]
    congr 2
    apply List.filter_congr
    intro m _
    simp [eq_comm]

theorem named_append (nodes more : List Node) :
    ∃ rest, named (nodes ++ more) = named nodes ++ rest := by
  unfold named functionNames
  rw [distinctNodes_append, List.map_append, nameAll_append,
    List.zip_append (length_nameAll _ _).symm]
  exact ⟨_, rfl⟩

theorem nameOf?_append {nodes : List Node} (more : List Node) {id : String}
    (h : id ∈ nodes.map Node.id) : nameOf? (nodes ++ more) id = nameOf? nodes id := by
  obtain ⟨name, hname⟩ := exists_nameOf? h
  obtain ⟨rest, hrest⟩ := named_append nodes more
  unfold nameOf? at hname ⊢
  rw [hrest, List.lookup_append, hname]
  rfl

/-- The nodes of a plan have these names. -/
theorem named_of_build {g : Graph} {c : Choices} {p : Plan}
    (h : (Plan.build g c).outcome = .ok p) :
    p.nodes.map (fun n => (n.id, n.functionName)) = named g.nodes := by
  have hsound := sound_of_build h
  rw [← List.zip_map', hsound.ids_eq, hsound.names_eq]
  rfl

end Plan

/-! ## One space of names -/

/-- The names of a bundle that do not come from its nodes, where the choices of the rate limiter, of
triggers and of webhooks are open. -/
def fixedNames (limited triggers webhook : Bool) : List String :=
  Entry.functionName :: (Lexer.supportNames limited ++
    if triggers then Lexer.installerNames webhook else [])

theorem fixedNames_sublist (limited triggers webhook : Bool) :
    (fixedNames limited triggers webhook).Sublist (fixedNames true true true) := by
  have hsupport : (Lexer.supportNames limited).Sublist (Lexer.supportNames true) := by
    cases limited <;> simp [Lexer.supportNames]
  have hinstaller : (if triggers then Lexer.installerNames webhook else []).Sublist
      (Lexer.installerNames true) := by
    cases triggers <;> cases webhook <;> simp [Lexer.installerNames]
  exact (hsupport.append hinstaller).cons_cons _

theorem nodup_fixedNames (limited triggers webhook : Bool) :
    (fixedNames limited triggers webhook).Nodup :=
  List.Nodup.sublist (fixedNames_sublist ..) (by decide +kernel)

/-- None of the fixed names has the start of the names of nodes. -/
theorem not_isFunctionName_of_mem_fixedNames {limited triggers webhook : Bool} {name : String}
    (h : name ∈ fixedNames limited triggers webhook) : ¬ IsFunctionName name := by
  have hstart : ∀ x ∈ fixedNames true true true, "execute_".toList.isPrefixOf x.toList = false := by
    decide +kernel
  rintro ⟨stem, rfl, _⟩
  have hname := hstart _ ((fixedNames_sublist ..).subset h)
  rw [String.toList_append, List.isPrefixOf_iff_prefix.mpr (List.prefix_append _ _)] at hname
  cases hname

theorem nodup_globals {k : Compiler} {g : Graph} {c : Choices} {p : Plan} {files : List BundleFile}
    (hplan : (Plan.build g c).outcome = .ok p) (h : (k.files p).outcome = .ok files) :
    (files.flatMap fun f => Lexer.globals f.content).Nodup := by
  have hsound := Plan.sound_of_build hplan
  rw [Compiler.globals_files hplan h, List.append_assoc, List.cons_append]
  rw [List.perm_middle.symm.nodup_iff]
  refine List.Nodup.append hsound.nodup_names (nodup_fixedNames ..) ?_
  intro name hname hfixed
  obtain ⟨n, hn, rfl⟩ := List.mem_map.mp hname
  exact not_isFunctionName_of_mem_fixedNames hfixed (hsound.isFunctionName n hn)

/-- In one graph different ids have different function names, and every name shows its id. Nodes that
are added at the end leave the names of the others as they are. However the graph is compiled, its
main file declares just the entry function and these names, and no name is declared twice in all
scripts of the bundle. -/
theorem no_two_functions_of_a_bundle_share_a_name (g : Graph) :
    (∀ id ∈ g.nodes.map Node.id, ∃ name,
      Plan.nameOf? g.nodes id = some name ∧ NamedFor id name) ∧
    (∀ id id' name, Plan.nameOf? g.nodes id = some name →
      Plan.nameOf? g.nodes id' = some name → id = id') ∧
    (∀ more, ∀ id ∈ g.nodes.map Node.id,
      Plan.nameOf? (g.nodes ++ more) id = Plan.nameOf? g.nodes id) ∧
    ∀ (k : Compiler) (o : Options) (j : Compiler.Judgement) (b : Bundle), k.Makes g o j b →
      (b.files.flatMap fun f => Lexer.globals f.content).Nodup ∧
      ∃ main, b.file? Bundle.mainFile = some main ∧
        Lexer.globals main.content = Entry.functionName :: (Plan.named g.nodes).map Prod.snd := by
  refine ⟨fun id hid => ?_, fun _ _ _ => Plan.nameOf?_injective,
    fun more _ => Plan.nameOf?_append more, fun k o j b hmakes => ?_⟩
  · obtain ⟨name, hname⟩ := Plan.exists_nameOf? hid
    exact ⟨name, hname, Plan.namedFor_of_mem_zip (Plan.mem_named_of_nameOf? hname)⟩
  · obtain ⟨verdict, p, hmade⟩ := hmakes.made
    refine ⟨nodup_globals hmade.planned hmade.written, ?_⟩
    obtain ⟨main, hmain, hfile⟩ := hmade.main
    refine ⟨_, hfile, ?_⟩
    rw [Lexer.globals_main hmade.planned hmain, ← Plan.named_of_build hmade.planned, List.map_map]
    rfl

/-- Three ids that are one after unsafe characters are replaced or a number is put behind them. -/
def alikeIds : Graph := ⟨"w", "Alike", none,
  [⟨"a b", "trigger.webhook", []⟩, ⟨"a_b", "utility.delay", []⟩, ⟨"a_b_2", "utility.delay", []⟩],
  []⟩

theorem ids_that_look_alike_are_told_apart :
    (∃ b, (Compiler.compile { started := ⟨2026, 1, 1, 0, 0, 0, 0, none⟩ } alikeIds {} .ask).result =
        .ok b ∧ (b.files.flatMap fun f => Lexer.globals f.content).Nodup ∧
      ∃ main, b.file? "Code.js" = some main ∧ Lexer.globals main.content =
        ["executeWorkflow", "execute_a_b", "execute_a_b_2", "execute_a_b_2_2"]) ∧
    Plan.nameOf? (alikeIds.nodes ++ [⟨"a-b", "utility.delay", []⟩]) "a_b_2" =
      some "execute_a_b_2_2" := by
  obtain ⟨-, -, hstable, hmade⟩ := no_two_functions_of_a_bundle_share_a_name alikeIds
  have hrun : ∃ b, (Compiler.compile { started := ⟨2026, 1, 1, 0, 0, 0, 0, none⟩ } alikeIds {}
      .ask).result = .ok b := ⟨_, rfl⟩
  obtain ⟨b, hb⟩ := hrun
  have hnames : (Plan.named alikeIds.nodes).map Prod.snd =
      ["execute_a_b", "execute_a_b_2", "execute_a_b_2_2"] := by decide +kernel
  obtain ⟨hnodup, main, hmain, hglobals⟩ := hmade _ {} .ask b (Or.inl hb)
  refine ⟨⟨b, hb, hnodup, main, hmain, by rw [hglobals, hnames]; rfl⟩, ?_⟩
  rw [hstable _ "a_b_2" (by decide)]
  decide +kernel

end Flowscript
