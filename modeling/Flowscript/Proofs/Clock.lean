-- The clock and the bundle. Two compilers that differ in nothing but the
-- reading of the clock come to the same failure, or to bundles that differ in
-- one line: the eighth line of the main file, which gives the reading. This
-- is carried through the stages of a compilation by one relation between the
-- outcomes of the two.
import Flowscript.Proofs.Closure

namespace Flowscript

/-! ## Outcomes of two runs -/

section

variable {ε α β γ δ : Type}

/-- Two outcomes are failures of one cause, or results that are related. -/
def Alike (R : α → β → Prop) : Except ε α → Except ε β → Prop
  | .ok a, .ok b => R a b
  | .error e, .error e' => e = e'
  | _, _ => False

/-- Work that goes on from related results is related as a whole. -/
theorem Alike.bind {R : α → β → Prop} {S : γ → δ → Prop} {x : Except ε α} {y : Except ε β}
    {f : α → Except ε γ} {g : β → Except ε δ} (h : Alike R x y)
    (hfg : ∀ a b, R a b → Alike S (f a) (g b)) : Alike S (x.bind f) (y.bind g) := by
  cases x with
  | ok a =>
    cases y with
    | ok b => exact hfg a b h
    | error e => cases h
  | error e =>
    cases y with
    | ok b => cases h
    | error e' => exact h

/-- A stage that both runs share can be passed with its result in hand. -/
theorem Alike.shared {S : γ → δ → Prop} {x : Except ε α} {f : α → Except ε γ} {g : α → Except ε δ}
    (h : ∀ a, x = .ok a → Alike S (f a) (g a)) : Alike S (x.bind f) (x.bind g) := by
  cases x with
  | ok a => exact h a rfl
  | error e => exact rfl

theorem Alike.mapError {R : α → β → Prop} {x : Except ε α} {y : Except ε β} (h : Alike R x y)
    (f : ε → γ) : Alike R (x.mapError f) (y.mapError f) := by
  cases x with
  | ok a =>
    cases y with
    | ok b => exact h
    | error e => cases h
  | error e =>
    cases y with
    | ok b => cases h
    | error e' => exact congrArg f h

end

/-! ## The main file -/

/-- The two texts, cut at line feeds, are the same lines but for the eighth, which gives the reading
of the clock. -/
def ClockLine (t t' : Moment) (main main' : String) : Prop :=
  ∃ before after, before.length = 7 ∧
    Text.splitAt '\n' main = before ++ (" * Generated: " ++ t.text) :: after ∧
    Text.splitAt '\n' main' = before ++ (" * Generated: " ++ t'.text) :: after

/-- The header has the reading on its eighth line and nowhere else. -/
theorem Entry.header_eq (p : Plan) :
    ∃ before after, before.length = 7 ∧
      ∀ t : Moment, header p t = before ++ (" * Generated: " ++ t.text) :: after :=
  ⟨(header p ⟨0, 0, 0, 0, 0, 0, 0, none⟩).take 7, (header p ⟨0, 0, 0, 0, 0, 0, 0, none⟩).drop 8,
    rfl, fun _ => rfl⟩

theorem Text.length_joinLines_feed {ls : List String} (hne : ls ≠ []) :
    (joinLines ls ++ "\n").length = (lineFed ls).length := by
  rw [← String.length_toList, toList_joinLines_feed hne]

theorem Lexer.text_alike {g : Graph} {c : Choices} {p : Plan}
    (hplan : (Plan.build g c).outcome = .ok p) (t t' : Moment) :
    Alike (fun main main' => ClockLine t t' main main' ∧
        main.length + t'.text.length = main'.length + t.text.length)
      (Entry.text p t).outcome (Entry.text p t').outcome := by
  have hsound := Plan.sound_of_build hplan
  obtain ⟨before, after, hlength, hheader⟩ := Entry.header_eq p
  unfold Entry.text Entry.functionLines
  simp only [Traced.outcome_bind]
  refine Alike.bind (R := fun ls ls' => ls = ls' ∧ ∀ t, ∀ l ∈ Entry.header p t ++
    Entry.entryLines p ++ ls, Text.OneLine l) (.shared fun functions hbuilt => ?_) ?_
  · exact ⟨rfl, oneLine_main hsound (Traced.forEach_eq_ok hbuilt)⟩
  · rintro ls _ ⟨rfl, hlines⟩
    have hone := hlines t
    have hone' := hlines t'
    rw [hheader, List.append_assoc, List.append_assoc] at hone hone'
    simp only [Traced.outcome_pure, hheader, List.append_assoc, List.cons_append] at hone hone' ⊢
    refine ⟨⟨before, after ++ (Entry.entryLines p ++ ls) ++ [""], hlength, ?_, ?_⟩, ?_⟩
    · rw [Text.splitAt_joinLines_feed (by simp) hone]
      simp
    · rw [Text.splitAt_joinLines_feed (by simp) hone']
      simp
    · rw [Text.length_joinLines_feed (by simp), Text.length_joinLines_feed (by simp)]
      simp only [Text.lineFed_append, Text.lineFed_cons, List.length_append, List.length_cons,
        String.toList_append, String.length_toList]
      omega

/-! ## The bundle -/

/-- The names and descriptions of files are all that the guide takes from them. -/
theorem Guide.build_eq {files files' : List BundleFile}
    (h : files.map Guide.fileLine = files'.map Guide.fileLine) (p : Plan) :
    build p files = build p files' := by
  unfold build text steps tasks
  rw [h]

/-- Sizes can be added up from any number on. -/
theorem BundleFile.foldl_size (start : Nat) (files : List BundleFile) :
    files.foldl (fun total f => total + f.size) start =
      start + files.foldl (fun total f => total + f.size) 0 := by
  induction files generalizing start with
  | nil => rfl
  | cons f rest ih =>
    rw [List.foldl_cons, List.foldl_cons, ih, ih (0 + f.size)]
    omega

/-- Two lists of files agree in all but the text of the main file, which comes first in both. -/
def FilesAgree (t t' : Moment) (files files' : List BundleFile) : Prop :=
  ∃ (f : BundleFile) (main main' : String) (rest : List BundleFile),
    f.name = Bundle.mainFile ∧ (∀ other ∈ rest, other.name ≠ Bundle.mainFile) ∧
    files = { f with content := main } :: rest ∧ files' = { f with content := main' } :: rest ∧
    ClockLine t t' main main' ∧ main.length + t'.text.length = main'.length + t.text.length

/-- Two bundles have all in common but the reading of the clock in their main files. -/
structure Bundle.AgreeButClock (t t' : Moment) (b b' : Bundle) : Prop where
  files : FilesAgree t t' b.files b'.files
  manifest : b.manifest = b'.manifest
  requiredScopes : b.requiredScopes = b'.requiredScopes
  instructions : b.instructions = b'.instructions
  size : b.size + t'.text.length = b'.size + t.text.length

namespace Compiler

variable (settings : Settings) (validator : Graph → Traced Verdict) (t t' : Moment)

theorem files_alike {g : Graph} {c : Choices} {p : Plan}
    (hplan : (Plan.build g c).outcome = .ok p) :
    Alike (FilesAgree t t') (files ⟨settings, validator, t⟩ p).outcome
      (files ⟨settings, validator, t'⟩ p).outcome := by
  unfold files
  simp only [Traced.outcome_bind]
  refine (Lexer.text_alike hplan t t').bind fun main main' hmain => ?_
  refine .shared fun triggers _ => ?_
  refine ⟨⟨Bundle.mainFile, main, .code, some "Main workflow execution"⟩, main, main', _, rfl, ?_,
    rfl, rfl, hmain⟩
  have hsupport : ∀ other ∈ Support.files p.choices, other.name ≠ Bundle.mainFile := by
    simp [Support.files, Support.file, Bundle.mainFile]
  have hinstaller : Installer.fileName ≠ Bundle.mainFile := by decide
  intro other hother
  rcases List.mem_append.mp hother with hother | hother
  · exact hsupport other hother
  · obtain ⟨text, _, rfl⟩ := List.mem_map.mp hother
    exact hinstaller

theorem bundle_alike (g : Graph) (o : Options) (j : Judgement) :
    Alike (Bundle.AgreeButClock t t') (bundle ⟨settings, validator, t⟩ g o j).outcome
      (bundle ⟨settings, validator, t'⟩ g o j).outcome := by
  unfold bundle
  simp only [Traced.outcome_bind]
  have hjudge : judge ⟨settings, validator, t⟩ g j = judge ⟨settings, validator, t'⟩ g j := by
    cases j with
    | ask => rfl
    | given verdict => rfl
    | outside data => rfl
  rw [hjudge]
  refine .shared fun verdict _ => ?_
  split
  · exact rfl
  simp only [Traced.outcome_bind]
  refine .shared fun p hplan => ?_
  refine .shared fun _ _ => ?_
  refine (files_alike settings validator t t' hplan).bind fun files files' hfiles => ?_
  obtain ⟨f, main, main', rest, hname, hrest, rfl, rfl, hline, hlength⟩ := hfiles
  refine .shared fun granted _ => ?_
  have hguide : Guide.build p ({ f with content := main } :: rest) =
      Guide.build p ({ f with content := main' } :: rest) := Guide.build_eq rfl p
  rw [hguide]
  refine .shared fun instructions _ => ?_
  refine ⟨⟨f, main, main', rest, hname, hrest, rfl, rfl, hline, hlength⟩, rfl, rfl, rfl, ?_⟩
  have hsize := BundleFile.foldl_size (0 + main.length) rest
  have hsize' := BundleFile.foldl_size (0 + main'.length) rest
  simp only [Bundle.size, List.foldl_cons, BundleFile.size] at hsize hsize' ⊢
  omega

/-- Whatever is compiled, and however it is given, two readings of the clock make no difference but
one. Both compilations fail with the same report, or both make a bundle. Then the bundles have the
same manifest, permissions and guide and the same files but the main one; the main files have the same
lines but the eighth, which gives the reading; and the sizes differ by what the readings differ in
length. -/
theorem two_readings_of_the_clock_change_one_line :
    (∀ g o j, Alike (Bundle.AgreeButClock t t')
      (compile ⟨settings, validator, t⟩ g o j).result
      (compile ⟨settings, validator, t'⟩ g o j).result) ∧
    ∀ graph options j, Alike (Bundle.AgreeButClock t t')
      (compileValues ⟨settings, validator, t⟩ graph options j).result
      (compileValues ⟨settings, validator, t'⟩ graph options j).result := by
  constructor
  · intro g o j
    rw [compile, compile, result_report, result_report]
    exact (bundle_alike settings validator t t' g o j).mapError _
  · intro graph options j
    rw [compileValues, compileValues, result_report, result_report]
    simp only [Traced.outcome_bind]
    refine Alike.mapError (.shared fun g _ => .shared fun o _ => ?_) _
    exact bundle_alike settings validator t t' g o j

end Compiler

end Flowscript
