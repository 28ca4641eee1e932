-- The names of script properties. Whatever a connector is called, the stem of
-- its properties has only capitals, digits and single underscores. A stem is
-- a flat text in which underscores stand for the spaces, so what is known of
-- flat text carries over. The code that adds credentials is there just where
-- there are names to read.
import Flowscript.Proofs.Blame
import Flowscript.Proofs.Embedding
import Flowscript.Proofs.Remarks

namespace Flowscript

open Text (isBlank wordChars Flat)

/-- Whether a character may stand in the name of a property. -/
def isPropertyChar (c : Char) : Bool := isCapital c || c = '_'

/-- Words of capitals and digits with single underscores between them. -/
structure IsStem (s : String) : Prop where
  nonempty : s ≠ ""
  chars : MadeOf isPropertyChar s
  starts : s.toList.head? ≠ some '_'
  ends : s.toList.getLast? ≠ some '_'
  apart : ¬ ['_', '_'] <:+: s.toList

/-- Capitals, digits and underscores, with neither an underscore nor a small letter in front. -/
structure IsPropertyName (s : String) : Prop where
  nonempty : s ≠ ""
  chars : MadeOf isPropertyChar s
  starts : ∀ c ∈ s.toList.head?, c ≠ '_' ∧ c.isLower = false

theorem isCapital_of_ne_underscore {c : Char} (h : isPropertyChar c = true) (hc : c ≠ '_') :
    isCapital c = true := by
  simpa [isPropertyChar, hc] using h

theorem isLower_of_isCapital {c : Char} (h : isCapital c = true) : c.isLower = false := by
  rw [isCapital_iff] at h
  rw [← Bool.not_eq_true, isLower_iff]
  omega

/-! ## Blanks for underscores -/

/-- The character, or a space where it is neither a letter nor a digit. -/
def blanked (c : Char) : Char := if isPlainLetter c then c else ' '

/-- The character, or an underscore where it is blank. -/
def underscored (c : Char) : Char := if isBlank c then '_' else c

theorem isBlank_of_isPlainLetter {c : Char} (h : isPlainLetter c = true) : isBlank c = false := by
  rw [isPlainLetter_iff, isCapital_iff] at h
  simp only [isBlank, Bool.or_eq_false_iff, Bool.and_eq_false_iff, decide_eq_false_iff_not,
    beq_eq_false_iff_ne]
  omega

theorem isPlainLetter_of_isCapital {c : Char} (h : isCapital c = true) : isPlainLetter c = true :=
  isPlainLetter_iff.mpr (Or.inl h)

theorem toUpper_of_isCapital {c : Char} (h : isCapital c = true) : c.toUpper = c := by
  rw [isCapital_iff] at h
  rw [← Char.toNat_inj, toNat_toUpper, if_neg (by omega)]

theorem blanked_of_isPlainLetter {c : Char} (h : isPlainLetter c = true) : blanked c = c := if_pos h

theorem isBlank_blanked (c : Char) : isBlank (blanked c) = !isPlainLetter c := by
  unfold blanked
  by_cases h : isPlainLetter c = true
  · simp [h, isBlank_of_isPlainLetter]
  · simp only [h]
    rfl

theorem eq_space_of_isBlank_blanked {c : Char} (h : isBlank (blanked c) = true) :
    blanked c = ' ' := by
  rw [isBlank_blanked] at h
  simp [blanked, (Bool.not_eq_true' _).mp h]

/-- In the names of properties underscores are what is blanked. -/
theorem isBlank_blanked_iff {c : Char} (h : isPropertyChar c = true) :
    isBlank (blanked c) = true ↔ c = '_' := by
  rw [isBlank_blanked, Bool.not_eq_true']
  constructor
  · intro hplain
    by_contra hc
    simp [isPlainLetter_of_isCapital (isCapital_of_ne_underscore h hc)] at hplain
  · rintro rfl
    rfl

theorem underscored_blanked {c : Char} (h : isPropertyChar c = true) :
    underscored (blanked c) = c := by
  unfold underscored
  split
  · rename_i hblank
    exact ((isBlank_blanked_iff h).mp hblank).symm
  · rename_i hblank
    rw [isBlank_blanked] at hblank
    exact blanked_of_isPlainLetter (by simpa using hblank)

/-- The runs of letters and digits are the words that are left when all else is blanked. -/
theorem plainRuns_eq_wordChars (cs : List Char) : plainRuns cs = wordChars (cs.map blanked) := by
  fun_induction plainRuns cs with
  | case1 => rfl
  | case2 c cs hc ih => simp [wordChars, isBlank_blanked, hc, ih]
  | case3 c hc =>
    have hc : isPlainLetter c = true := by simpa using hc
    simp [wordChars, isBlank_of_isPlainLetter, blanked_of_isPlainLetter, hc]
  | case4 c hc d cs hd ih =>
    have hc : isPlainLetter c = true := by simpa using hc
    simp [ih, wordChars, isBlank_of_isPlainLetter, blanked_of_isPlainLetter, hc, hd]
  | case5 c hc d cs hd ih =>
    have hc : isPlainLetter c = true := by simpa using hc
    simp [ih, wordChars, isBlank_blanked, isBlank_of_isPlainLetter, blanked_of_isPlainLetter, hc,
      hd]

theorem filter_map_blanked (cs : List Char) :
    (cs.map blanked).filter (!isBlank ·) = cs.filter isPlainLetter := by
  induction cs with
  | nil => rfl
  | cons c cs ih =>
    by_cases hc : isPlainLetter c = true
    · simp [isBlank_of_isPlainLetter, blanked_of_isPlainLetter, hc, ih]
    · simp [isBlank_blanked, hc, ih]

theorem flatten_plainRuns (cs : List Char) : (plainRuns cs).flatten = cs.filter isPlainLetter := by
  rw [plainRuns_eq_wordChars, Text.flatten_wordChars, filter_map_blanked]

theorem ne_nil_of_mem_plainRuns {cs run : List Char} (h : run ∈ plainRuns cs) : run ≠ [] := by
  rw [plainRuns_eq_wordChars] at h
  exact Text.ne_nil_of_mem_wordChars h

theorem plainRuns_eq_nil_iff {cs : List Char} :
    plainRuns cs = [] ↔ cs.filter isPlainLetter = [] := by
  rw [← flatten_plainRuns]
  constructor
  · intro h
    rw [h]
    rfl
  · intro h
    cases hruns : plainRuns cs with
    | nil => rfl
    | cons run rest =>
      have hrun : run ∈ plainRuns cs := by simp [hruns]
      rw [hruns, List.flatten_cons, List.append_eq_nil_iff] at h
      exact absurd h.1 (ne_nil_of_mem_plainRuns hrun)

theorem map_intercalate (f : Char → Char) (sep : List Char) (ws : List (List Char)) :
    (sep.intercalate ws).map f = (sep.map f).intercalate (ws.map (List.map f)) := by
  induction ws with
  | nil => rfl
  | cons w rest ih =>
    cases rest with
    | nil => simp
    | cons v rest => simp [List.intercalate_cons_cons, ih]

theorem map_words_of_fixed {f : Char → Char} {ws : List (List Char)}
    (h : ∀ w ∈ ws, ∀ c ∈ w, f c = c) : ws.map (List.map f) = ws := by
  have hword : ∀ w ∈ ws, w.map f = w :=
    fun w hw => (List.map_congr_left (h w hw)).trans (List.map_id' w)
  exact (List.map_congr_left hword).trans (List.map_id' ws)

theorem map_blanked_intercalate {ws : List (List Char)}
    (h : ∀ w ∈ ws, ∀ c ∈ w, isPlainLetter c = true) :
    (['_'].intercalate ws).map blanked = [' '].intercalate ws := by
  rw [map_intercalate, map_words_of_fixed fun w hw c hc => blanked_of_isPlainLetter (h w hw c hc)]
  rfl

theorem map_underscored_intercalate {ws : List (List Char)}
    (h : ∀ w ∈ ws, ∀ c ∈ w, isPlainLetter c = true) :
    ([' '].intercalate ws).map underscored = ['_'].intercalate ws := by
  rw [map_intercalate, map_words_of_fixed fun w hw c hc => ?_]
  · rfl
  · simp [underscored, isBlank_of_isPlainLetter (h w hw c hc)]

/-! ## Stems are flat -/

theorem ne_underscore_iff {o : Option Char} (h : ∀ c ∈ o, isPropertyChar c = true) :
    o ≠ some '_' ↔ ∀ c ∈ o.map blanked, isBlank c = false := by
  cases o with
  | none => simp
  | some c => simp [← isBlank_blanked_iff (h c rfl)]

theorem apart_iff {cs : List Char} (h : ∀ c ∈ cs, isPropertyChar c = true) :
    ¬ ['_', '_'] <:+: cs ↔
      (cs.map blanked).IsChain fun a b => ¬ (isBlank a = true ∧ isBlank b = true) := by
  rw [List.isChain_map, Text.isChain_iff_neighbours]
  constructor
  · rintro hapart a b hab ⟨ha, hb⟩
    rw [isBlank_blanked_iff (h a (hab.subset (by simp)))] at ha
    rw [isBlank_blanked_iff (h b (hab.subset (by simp)))] at hb
    subst ha hb
    exact hapart hab
  · intro hchain hscores
    exact hchain '_' '_' hscores ⟨rfl, rfl⟩

/-- A stem is a flat text with underscores for its spaces. -/
theorem isStem_iff_flat {s : String} (hne : s ≠ "") (hchars : MadeOf isPropertyChar s) :
    IsStem s ↔ Flat (s.toList.map blanked) := by
  have hstarts := ne_underscore_iff fun c hc => hchars c (List.mem_of_mem_head? hc)
  have hends := ne_underscore_iff fun c hc => hchars c (List.mem_of_mem_getLast? hc)
  rw [← List.head?_map] at hstarts
  rw [← List.getLast?_map] at hends
  constructor
  · intro h
    refine ⟨⟨?_, hends.mp h.ends, (apart_iff hchars).mp h.apart⟩, hstarts.mp h.starts⟩
    intro c hc hblank
    obtain ⟨d, _, rfl⟩ := List.mem_map.mp hc
    exact eq_space_of_isBlank_blanked hblank
  · intro h
    exact ⟨hne, hchars, hstarts.mpr h.starts, hends.mpr h.ends, (apart_iff hchars).mpr h.apart⟩

/-- Words of capitals and digits that are parted by underscores make a stem. -/
theorem isStem_joinWith {xs : List String} (hxs : xs ≠ []) (hne : ∀ x ∈ xs, x ≠ "")
    (h : ∀ x ∈ xs, MadeOf isCapital x) : IsStem (Text.joinWith "_" xs) := by
  have hletters : ∀ w ∈ xs.map String.toList, ∀ c ∈ w, isPlainLetter c = true :=
    List.forall_mem_map.mpr fun x hx c hc => isPlainLetter_of_isCapital (h x hx c hc)
  have hchars : MadeOf isPropertyChar (Text.joinWith "_" xs) := by
    intro c hc
    rcases mem_joinWith hc with hsep | ⟨x, hx, hcx⟩
    · obtain rfl : c = '_' := by simpa using hsep
      rfl
    · simp [isPropertyChar, h x hx c hcx]
  refine (isStem_iff_flat ?_ hchars).mpr ?_
  · obtain ⟨x, rest, rfl⟩ := List.exists_cons_of_ne_nil hxs
    have hx : x ≠ "" := hne x (by simp)
    cases rest with
    | nil => exact hx
    | cons y rest => simp [Text.joinWith, hx]
  · rw [Text.toList_joinWith]
    show Flat ((['_'].intercalate (xs.map String.toList)).map blanked)
    rw [map_blanked_intercalate hletters]
    refine Text.flat_intercalate (List.forall_mem_map.mpr fun x hx => ?_) fun w hw c hc =>
      isBlank_of_isPlainLetter (hletters w hw c hc)
    simpa using hne x hx

/-! ## The stem of a connector -/

theorem propertyStem_of_noRuns {slug : String} (h : plainRuns slug.toList = []) :
    propertyStem slug = "API" := by
  simp [propertyStem, h]

theorem propertyStem_of_runs {slug : String} (h : plainRuns slug.toList ≠ []) :
    propertyStem slug = Text.joinWith "_"
      ((plainRuns slug.toList).map fun run => String.ofList (run.map Char.toUpper)) := by
  unfold propertyStem
  exact if_neg (by simpa using h)

theorem toList_propertyStem {slug : String} (h : plainRuns slug.toList ≠ []) :
    (propertyStem slug).toList =
      ['_'].intercalate ((plainRuns slug.toList).map (List.map Char.toUpper)) := by
  rw [propertyStem_of_runs h, Text.toList_joinWith, List.map_map]
  simp [Function.comp_def]

theorem isCapital_of_mem_run {cs run : List Char} (hrun : run ∈ plainRuns cs) {c : Char}
    (hc : c ∈ run.map Char.toUpper) : isCapital c = true := by
  obtain ⟨d, hd, rfl⟩ := List.mem_map.mp hc
  exact isCapital_toUpper (isPlainLetter_of_mem_plainRuns hrun hd)

theorem isStem_propertyStem (slug : String) : IsStem (propertyStem slug) := by
  by_cases h : plainRuns slug.toList = []
  · have hapi : IsStem (Text.joinWith "_" ["API"]) :=
      isStem_joinWith (by simp) (by simp) (List.forall_mem_singleton.mpr (by decide))
    rw [propertyStem_of_noRuns h]
    exact hapi
  · rw [propertyStem_of_runs h]
    refine isStem_joinWith (by simpa using h) (List.forall_mem_map.mpr fun run hrun => ?_)
      (List.forall_mem_map.mpr fun run hrun => ?_)
    · simpa using ne_nil_of_mem_plainRuns hrun
    · exact madeOf_ofList fun c hc => isCapital_of_mem_run hrun hc

/-- The letters and digits of a stem are capitals and digits. -/
theorem IsStem.isCapital_of_mem_plainRuns {s : String} (h : IsStem s) {run : List Char}
    (hrun : run ∈ plainRuns s.toList) {c : Char} (hc : c ∈ run) : isCapital c = true := by
  have hplain := isPlainLetter_of_mem_plainRuns hrun hc
  have hmem : c ∈ s.toList := by
    have hflat : c ∈ (plainRuns s.toList).flatten := List.mem_flatten.mpr ⟨run, hrun, hc⟩
    rw [flatten_plainRuns] at hflat
    exact List.mem_of_mem_filter hflat
  refine isCapital_of_ne_underscore (h.chars c hmem) ?_
  rintro rfl
  cases hplain

/-- A stem is its own stem. -/
theorem propertyStem_of_isStem {s : String} (h : IsStem s) : propertyStem s = s := by
  have hflat := (isStem_iff_flat h.nonempty h.chars).mp h
  have hwords : [' '].intercalate (plainRuns s.toList) = s.toList.map blanked := by
    rw [plainRuns_eq_wordChars, hflat.intercalate_wordChars]
  have hruns : plainRuns s.toList ≠ [] := by
    intro hnil
    rw [hnil] at hwords
    exact h.nonempty (by simpa using hwords.symm)
  apply String.toList_injective
  calc (propertyStem s).toList
      = ['_'].intercalate (plainRuns s.toList) := by
        rw [toList_propertyStem hruns, map_words_of_fixed fun run hrun c hc => ?_]
        exact toUpper_of_isCapital (h.isCapital_of_mem_plainRuns hrun hc)
    _ = ([' '].intercalate (plainRuns s.toList)).map underscored :=
        (map_underscored_intercalate fun _ hrun _ => isPlainLetter_of_mem_plainRuns hrun).symm
    _ = (s.toList.map blanked).map underscored := by rw [hwords]
    _ = s.toList := by
        rw [List.map_map]
        exact (List.map_congr_left fun c hc => underscored_blanked (h.chars c hc)).trans
          (List.map_id' _)

/-- A stem has the letters and digits of what it is made of, in upper case. -/
theorem filter_propertyStem {slug : String} (h : plainRuns slug.toList ≠ []) :
    (propertyStem slug).toList.filter isPlainLetter =
      (slug.toList.filter isPlainLetter).map Char.toUpper := by
  have hletters : ∀ w ∈ (plainRuns slug.toList).map (List.map Char.toUpper), ∀ c ∈ w,
      isPlainLetter c = true :=
    List.forall_mem_map.mpr fun _ hrun _ hc =>
      isPlainLetter_of_isCapital (isCapital_of_mem_run hrun hc)
  rw [← flatten_plainRuns slug.toList, ← filter_map_blanked, toList_propertyStem h,
    map_blanked_intercalate hletters, Text.filter_intercalate, List.map_flatten,
    List.filter_eq_self]
  intro c hc
  obtain ⟨w, hw, hcw⟩ := List.mem_flatten.mp hc
  simp [isBlank_of_isPlainLetter (hletters w hw c hcw)]

/-! ## Names and code -/

/-- The endings of the properties that a scheme reads. -/
def Scheme.endings : Scheme → List String
  | .apiKey => ["_API_KEY"]
  | .bearer => ["_TOKEN"]
  | .basic => ["_USERNAME", "_PASSWORD"]
  | .oauth2 => ["_ACCESS_TOKEN"]

/-- No property is named by the configuration. -/
structure Facts.Unnamed (f : Facts) : Prop where
  token : f.tokenProperty.isTruthy = false
  apiKey : f.apiKeyProperty.isTruthy = false
  username : f.usernameProperty.isTruthy = false
  password : f.passwordProperty.isTruthy = false
  accessToken : f.accessTokenProperty.isTruthy = false

theorem propertyOr_of_unset {f : Facts} {slug : String} {named : Value}
    (hslug : f.slug = .text slug) (h : named.isTruthy = false) (ending : String) :
    f.propertyOr named ending = .ok (.text (propertyStem slug ++ ending)) := by
  unfold Facts.propertyOr Facts.stem
  rw [h, hslug]
  rfl

theorem propertiesOf_of_unnamed {f : Facts} {slug : String} (hslug : f.slug = .text slug)
    (h : f.Unnamed) (scheme : Scheme) :
    f.propertiesOf scheme = .ok (scheme.endings.map fun e => .text (propertyStem slug ++ e)) := by
  cases scheme with
  | apiKey =>
    rw [Facts.propertiesOf, propertyOr_of_unset hslug h.apiKey]
    rfl
  | bearer =>
    rw [Facts.propertiesOf, propertyOr_of_unset hslug h.token]
    rfl
  | basic =>
    rw [Facts.propertiesOf, propertyOr_of_unset hslug h.username,
      propertyOr_of_unset hslug h.password]
    rfl
  | oauth2 =>
    have hneither : (f.accessTokenProperty.orElse f.tokenProperty).isTruthy = false := by
      simp [Value.orElse, h.accessToken, h.token]
    rw [Facts.propertiesOf, propertyOr_of_unset hslug hneither]
    rfl

theorem madeOf_endings {scheme : Scheme} {e : String} (h : e ∈ scheme.endings) :
    MadeOf isPropertyChar e := by
  have hall : (scheme.endings.all fun e => decide (MadeOf isPropertyChar e)) = true := by
    cases scheme <;> rfl
  exact of_decide_eq_true (List.all_eq_true.mp hall e h)

theorem IsStem.isPropertyName_append {s e : String} (h : IsStem s) (he : MadeOf isPropertyChar e) :
    IsPropertyName (s ++ e) := by
  obtain ⟨c, cs, hs⟩ := List.exists_cons_of_ne_nil (show s.toList ≠ [] by simpa using h.nonempty)
  have hc : c ≠ '_' := by
    rintro rfl
    exact h.starts (by simp [hs])
  refine ⟨by simp [h.nonempty], h.chars.append he, fun d hd => ?_⟩
  obtain rfl : c = d := by simpa [hs] using hd
  exact ⟨hc, isLower_of_isCapital (isCapital_of_ne_underscore (h.chars c (by simp [hs])) hc)⟩

/-- Where there is a scheme, there is a property that it reads. -/
theorem propertiesOf_ne_nil {f : Facts} {scheme : Scheme} {names : List Value}
    (h : f.propertiesOf scheme = .ok names) : names ≠ [] := by
  cases scheme with
  | basic =>
    obtain ⟨_, _, h⟩ := except_bind_eq_ok.mp h
    obtain ⟨_, _, h⟩ := except_bind_eq_ok.mp h
    cases h
    simp
  | _ =>
    obtain ⟨_, _, h⟩ := except_bind_eq_ok.mp h
    cases h
    simp

theorem schemeLines_ne_nil (f : Facts) (reads : List String) (scheme : Scheme) :
    Snippet.schemeLines f reads scheme ≠ [] := by
  cases scheme <;> exact List.cons_ne_nil _ _

/-- Names and code are missing together, whatever the value of the scheme, and fail together. -/
theorem isEmpty_authLines (f : Facts) :
    (Snippet.authLines f).outcome.map List.isEmpty = f.secretProperties.map List.isEmpty := by
  unfold Snippet.authLines Facts.secretProperties Scheme.ofValue?
  cases hname : Scheme.normalize f.authType with
  | none => rfl
  | some name =>
    simp only [Option.bind_some]
    cases hscheme : Scheme.ofName? name with
    | none => rfl
    | some scheme =>
      cases hnames : f.propertiesOf scheme with
      | error e => simp [Traced.outcome_bind, Traced.of, hnames, Except.bind, Except.map]
      | ok names =>
        have hcode := schemeLines_ne_nil f (names.map Snippet.readProperty) scheme
        simp [Traced.outcome_bind, Traced.of, hnames, Except.bind, Except.map,
          List.isEmpty_eq_false_iff.mpr hcode,
          List.isEmpty_eq_false_iff.mpr (propertiesOf_ne_nil hnames)]

theorem secretProperties_ne_nil_iff {f : Facts} {names : List Value}
    (h : f.secretProperties = .ok names) :
    names ≠ [] ↔ ∃ scheme, Scheme.ofValue? f.authType = some scheme := by
  unfold Facts.secretProperties at h
  cases hscheme : Scheme.ofValue? f.authType with
  | none =>
    rw [hscheme] at h
    cases h
    simp
  | some scheme =>
    rw [hscheme] at h
    simp [propertiesOf_ne_nil h]

theorem exists_secretProperties {f : Facts} (h : ∃ s, f.slug = .text s) :
    ∃ names, f.secretProperties = .ok names := by
  unfold Facts.secretProperties
  split
  · exact exists_propertiesOf h _
  · exact ⟨[], rfl⟩

/-- A property that the configuration does not name has the stem of the connector in front. -/
theorem isPropertyName_of_unnamed {f : Facts} {slug : String} {names : List Value}
    (hslug : f.slug = .text slug) (h : f.Unnamed) (hnames : f.secretProperties = .ok names) :
    ∀ v ∈ names, ∃ ending, v = .text (propertyStem slug ++ ending) ∧
      IsPropertyName (propertyStem slug ++ ending) := by
  unfold Facts.secretProperties at hnames
  split at hnames
  · rw [propertiesOf_of_unnamed hslug h] at hnames
    cases hnames
    refine List.forall_mem_map.mpr fun ending hending => ⟨ending, rfl, ?_⟩
    exact (isStem_propertyStem slug).isPropertyName_append (madeOf_endings hending)
  · cases hnames
    simp

/-! ## The law -/

/-- Every stem consists of capitals, digits and underscores, is not empty, has no underscore at
either end and no two side by side, and is its own stem. It has the letters and digits of the
slug in upper case, in their order, or else it is `API`. A connector whose slug is a text has names
of properties just where it has code that adds credentials, whatever value its scheme is given by,
and that is where the value means a scheme. Where the configuration names no property, each name is
the stem with an ending, and starts with neither an underscore nor a small letter. Whatever the slug
is, names and code are missing together and fail together. -/
theorem stems_are_plain_and_names_come_with_code :
    (∀ slug, IsStem (propertyStem slug) ∧ propertyStem (propertyStem slug) = propertyStem slug ∧
      (slug.toList.filter isPlainLetter ≠ [] →
        (propertyStem slug).toList.filter isPlainLetter =
          (slug.toList.filter isPlainLetter).map Char.toUpper) ∧
      (slug.toList.filter isPlainLetter = [] → propertyStem slug = "API")) ∧
    (∀ (f : Facts) (slug : String), f.slug = .text slug → ∃ names lines,
      f.secretProperties = .ok names ∧ (Snippet.authLines f).outcome = .ok lines ∧
      (names ≠ [] ↔ lines ≠ []) ∧
      (names ≠ [] ↔ ∃ scheme, Scheme.ofValue? f.authType = some scheme) ∧
      (f.Unnamed → ∀ v ∈ names, ∃ ending, v = .text (propertyStem slug ++ ending) ∧
        IsPropertyName (propertyStem slug ++ ending))) ∧
    ∀ f : Facts,
      (Snippet.authLines f).outcome.map List.isEmpty = f.secretProperties.map List.isEmpty := by
  refine ⟨fun slug => ?_, fun f slug hslug => ?_, isEmpty_authLines⟩
  · have hstem := isStem_propertyStem slug
    refine ⟨hstem, propertyStem_of_isStem hstem, fun h => ?_, fun h => ?_⟩
    · exact filter_propertyStem (mt plainRuns_eq_nil_iff.mp h)
    · exact propertyStem_of_noRuns (plainRuns_eq_nil_iff.mpr h)
  · obtain ⟨names, hnames⟩ := exists_secretProperties ⟨slug, hslug⟩
    have hempty := isEmpty_authLines f
    rw [hnames] at hempty
    obtain ⟨lines, hlines, hsame⟩ := except_map_eq_ok.mp hempty
    refine ⟨names, lines, hnames, hlines, ?_, secretProperties_ne_nil_iff hnames,
      fun h => isPropertyName_of_unnamed hslug h hnames⟩
    rw [← List.isEmpty_eq_false_iff, ← List.isEmpty_eq_false_iff, hsame]

/-- A connector with gaps and a foreign letter in its slug, and a scheme in an odd spelling. -/
def oddFacts : Facts := { slug := .text "--té 2_", authType := .text " API -\tKey" }

theorem an_odd_slug_has_a_plain_name_and_code :
    oddFacts.slug = .text "--té 2_" ∧ oddFacts.Unnamed ∧
    "--té 2_".toList.filter isPlainLetter ≠ [] ∧
    (propertyStem "--té 2_").toList.filter isPlainLetter = ['T', '2'] ∧
    "--".toList.filter isPlainLetter = [] ∧ propertyStem "--" = "API" ∧
    oddFacts.secretProperties = .ok [.text "T_2_API_KEY"] ∧ IsPropertyName "T_2_API_KEY" ∧
    ∃ lines, (Snippet.authLines oddFacts).outcome = .ok lines ∧ lines ≠ [] := by
  have hlaw := stems_are_plain_and_names_come_with_code
  have hunnamed : oddFacts.Unnamed := ⟨rfl, rfl, rfl, rfl, rfl⟩
  have hletters : "--té 2_".toList.filter isPlainLetter = ['t', '2'] := by decide
  have hgaps : "--".toList.filter isPlainLetter = [] := by decide
  have hsecret : oddFacts.secretProperties = .ok [.text "T_2_API_KEY"] := by rfl
  obtain ⟨names, lines, hnames, hlines, hcode, _, hname⟩ := hlaw.2.1 oddFacts _ rfl
  obtain rfl : names = [.text "T_2_API_KEY"] := by
    rw [hsecret] at hnames
    cases hnames
    rfl
  obtain ⟨ending, htext, hplain⟩ := hname hunnamed _ (List.mem_singleton_self _)
  rw [← Value.text.inj htext] at hplain
  have hne : "--té 2_".toList.filter isPlainLetter ≠ [] := by
    rw [hletters]
    exact List.cons_ne_nil _ _
  refine ⟨rfl, hunnamed, hne, ?_, hgaps, (hlaw.1 "--").2.2.2 hgaps, hsecret, hplain, lines, hlines,
    hcode.mp (by simp)⟩
  rw [(hlaw.1 "--té 2_").2.2.1 hne, hletters]
  rfl

end Flowscript
