-- Filling the markers of any text. The text is taken line by line: a marker
-- line gives way to solid lines and every other line stays, so that filling a
-- kind leaves no marker of it, and two kinds do not meet.
import Flowscript.Proofs.Snippets

namespace Flowscript

open Text (OneLine joinLines)

/-! ## Filling lines -/

/-- Whether one of the lines is a marker of the kind. -/
def anyMarker (kind : SlotKind) (ls : List String) : Bool :=
  ls.any fun l => (Marker.margin? kind l.toList).isSome

/-- The lines with every marker line of the kind replaced. -/
def fillLines (kind : SlotKind) (snippet ls : List String) : List String :=
  ls.flatMap fun l => Marker.fillLine kind snippet l.toList

/-- What filling makes of the lines of a text: the snippet is asked for only where there is a
marker. -/
def refill (kind : SlotKind) (snippet : Except Fault (List String)) (ls : List String) :
    Except Fault (List String) :=
  if anyMarker kind ls then snippet.map fun lines => fillLines kind lines ls else .ok ls

section

variable {kind other : SlotKind} {snippet lines ls : List String} {l : String}

theorem fillLine_of_none (h : Marker.margin? kind l.toList = none) :
    Marker.fillLine kind snippet l.toList = [l] := by
  rw [Marker.fillLine, h]
  exact congrArg (fun x => [x]) String.ofList_toList

/-- A marker line becomes the lines of the snippet, none of which is empty, at its margin. -/
theorem fillLine_of_isMarker (hsnippet : ∀ l ∈ snippet, Solid l) {margin : String}
    (h : IsMarker kind margin l) :
    Marker.fillLine kind snippet l.toList = snippet.map (margin ++ ·) := by
  rw [Marker.fillLine, margin?_eq_some.mpr h]
  refine List.map_congr_left fun line hline => ?_
  rw [if_neg (hsnippet line hline).ne_empty, String.ofList_toList]

theorem Solid.indented (h : Solid l) {margin : String}
    (hmargin : ∀ c ∈ margin.toList, c = ' ' ∨ c = '\t') : Solid (margin ++ l) where
  oneLine := by
    refine OneLine.append (fun hmem => ?_) h.oneLine
    rcases hmargin _ hmem with he | he <;> cases he
  ne_empty := by
    intro he
    exact h.ne_empty (String.append_eq_empty_iff.mp he).2
  unmarked kind := by rw [margin?_append hmargin, h.unmarked kind, Option.map_none]

/-- A line is kept, or it is a marker line and becomes solid lines. -/
theorem fillLine_cases (hsnippet : ∀ l ∈ snippet, Solid l) (kind : SlotKind) (l : String) :
    (Marker.margin? kind l.toList = none ∧ Marker.fillLine kind snippet l.toList = [l]) ∨
    (Marker.margin? kind l.toList ≠ none ∧
      ∀ line ∈ Marker.fillLine kind snippet l.toList, Solid line) := by
  cases hmargin : Marker.margin? kind l.toList with
  | none => exact Or.inl ⟨rfl, fillLine_of_none hmargin⟩
  | some m =>
    rw [← String.toList_ofList (l := m)] at hmargin
    have hmarker := margin?_eq_some.mp hmargin
    refine Or.inr ⟨Option.some_ne_none _, ?_⟩
    rw [fillLine_of_isMarker hsnippet hmarker]
    intro line hline
    obtain ⟨old, hold, rfl⟩ := List.mem_map.mp hline
    exact (hsnippet old hold).indented hmarker.1

theorem anyMarker_eq_false : anyMarker kind ls = false ↔
    ∀ l ∈ ls, Marker.margin? kind l.toList = none := by
  simp [anyMarker]

theorem anyMarker_solid (h : ∀ l ∈ ls, Solid l) : anyMarker kind ls = false :=
  anyMarker_eq_false.mpr fun l hl => (h l hl).unmarked kind

/-- Where no line is a marker, all lines are kept. -/
theorem fillLines_of_anyMarker_eq_false (h : anyMarker kind ls = false) :
    fillLines kind snippet ls = ls := by
  unfold fillLines
  rw [List.flatMap_congr fun l hl => fillLine_of_none (anyMarker_eq_false.mp h l hl)]
  exact List.flatMap_singleton' ls

theorem refill_eq_ok {after : List String} {result : Except Fault (List String)} :
    refill kind result ls = .ok after ↔
      (anyMarker kind ls = false ∧ after = ls) ∨
      (anyMarker kind ls = true ∧ ∃ lines, result = .ok lines ∧ after = fillLines kind lines ls) := by
  unfold refill
  cases hany : anyMarker kind ls with
  | false => simp [eq_comm]
  | true => cases result <;> simp [Except.map, eq_comm]

/-- Filling a kind of marker leaves none of that kind and all of the others. -/
theorem anyMarker_fillLines (hsnippet : ∀ l ∈ snippet, Solid l) (kind other : SlotKind)
    (ls : List String) :
    anyMarker other (fillLines kind snippet ls) = (anyMarker other ls && other != kind) := by
  induction ls with
  | nil => rfl
  | cons l ls ih =>
    have hline : anyMarker other (Marker.fillLine kind snippet l.toList) =
        (anyMarker other [l] && other != kind) := by
      rcases fillLine_cases hsnippet kind l with ⟨hnone, hkeep⟩ | ⟨hsome, hsolid⟩
      · rw [hkeep]
        by_cases hk : other = kind
        · subst hk
          simp [anyMarker, hnone]
        · simp [hk]
      · rw [anyMarker_solid hsolid]
        by_cases hk : other = kind
        · simp [hk]
        · cases hother : Marker.margin? other l.toList with
          | none => simp [anyMarker, hother]
          | some m =>
            obtain ⟨m', hm'⟩ := Option.ne_none_iff_exists'.mp hsome
            exact absurd (margin?_exclusive hother hm') hk
    unfold anyMarker fillLines at *
    rw [List.flatMap_cons, List.any_append, ih, hline, ← Bool.and_or_distrib_right]
    simp

/-- The lines of two snippets come in at different lines, so their order does not matter. -/
theorem fillLines_comm (hsnippet : ∀ l ∈ snippet, Solid l) (hlines : ∀ l ∈ lines, Solid l)
    (hk : other ≠ kind) (ls : List String) :
    fillLines other lines (fillLines kind snippet ls) =
      fillLines kind snippet (fillLines other lines ls) := by
  unfold fillLines
  rw [List.flatMap_assoc, List.flatMap_assoc]
  refine List.flatMap_congr fun l _ => ?_
  rcases fillLine_cases hsnippet kind l with ⟨hnone, hkeep⟩ | ⟨hsome, hsolid⟩
  · rcases fillLine_cases hlines other l with ⟨_, hkeep'⟩ | ⟨_, hsolid'⟩
    · rw [hkeep, hkeep', List.flatMap_singleton, List.flatMap_singleton, hkeep, hkeep']
    · rw [hkeep, List.flatMap_singleton]
      exact (fillLines_of_anyMarker_eq_false (anyMarker_solid hsolid')).symm
  · have hother : Marker.fillLine other lines l.toList = [l] := by
      refine fillLine_of_none ?_
      by_contra hne
      obtain ⟨m, hm⟩ := Option.ne_none_iff_exists'.mp hsome
      obtain ⟨m', hm'⟩ := Option.ne_none_iff_exists'.mp hne
      exact hk (margin?_exclusive hm' hm)
    rw [hother, List.flatMap_singleton]
    exact fillLines_of_anyMarker_eq_false (anyMarker_solid hsolid)

theorem oneLine_fillLines (hsnippet : ∀ l ∈ snippet, Solid l) (hls : ∀ l ∈ ls, OneLine l) :
    ∀ l ∈ fillLines kind snippet ls, OneLine l := by
  intro l hl
  obtain ⟨old, hold, hl⟩ := List.mem_flatMap.mp hl
  rcases fillLine_cases hsnippet kind old with ⟨_, hkeep⟩ | ⟨_, hsolid⟩
  · rw [hkeep, List.mem_singleton] at hl
    exact hl ▸ hls old hold
  · exact (hsolid l hl).oneLine

end

/-! ## Filling texts -/

theorem occursIn_joinLines {ls : List String} (hls : ∀ l ∈ ls, OneLine l) (kind : SlotKind) :
    Marker.occursIn kind (joinLines ls) = anyMarker kind ls := by
  unfold Marker.occursIn
  by_cases hne : ls = []
  · subst hne
    simp [joinLines, Text.joinWith, Text.cutAt, margin?_nil, anyMarker]
  · rw [Text.cutAt_joinLines hne hls, List.any_map]
    rfl

theorem fill_joinLines {ls : List String} (hls : ∀ l ∈ ls, OneLine l) (kind : SlotKind)
    (snippet : List String) :
    Marker.fill kind snippet (joinLines ls) = joinLines (fillLines kind snippet ls) := by
  unfold Marker.fill
  by_cases hne : ls = []
  · subst hne
    simp [joinLines, Text.joinWith, Text.cutAt, Marker.fillLine, margin?_nil, fillLines]
  · rw [Text.cutAt_joinLines hne hls, List.flatMap_map]
    rfl

theorem oneLine_refill {kind : SlotKind} {f : Facts} (hf : f.Tidy) {ls after : List String}
    (hls : ∀ l ∈ ls, OneLine l)
    (h : refill kind (Snippet.lines kind f).outcome ls = .ok after) : ∀ l ∈ after, OneLine l := by
  rcases refill_eq_ok.mp h with ⟨_, rfl⟩ | ⟨_, snippet, hsnippet, rfl⟩
  · exact hls
  · exact oneLine_fillLines (solid_snippet hf hsnippet) hls

theorem intoText_joinLines {ls : List String} (hls : ∀ l ∈ ls, OneLine l) (kind : SlotKind)
    (f : Facts) :
    (Snippet.intoText (joinLines ls) kind f).outcome =
      (refill kind (Snippet.lines kind f).outcome ls).map joinLines := by
  unfold Snippet.intoText refill
  rw [occursIn_joinLines hls]
  split
  · rw [Traced.outcome_bind]
    cases (Snippet.lines kind f).outcome with
    | error e => rfl
    | ok snippet => exact congrArg Except.ok (fill_joinLines hls kind snippet)
  · rfl

/-! ## The law -/

/-- Lines before and after filling: a marker line of the kind becomes the lines of the snippet, each
behind the margin of the marker, and every other line is kept. -/
inductive Refilled (kind : SlotKind) (snippet : List String) : List String → List String → Prop where
  | nil : Refilled kind snippet [] []
  | kept {line : String} {before after : List String} (h : ∀ margin, ¬ IsMarker kind margin line)
      (rest : Refilled kind snippet before after) :
      Refilled kind snippet (line :: before) (line :: after)
  | marker {margin line : String} {before after : List String} (h : IsMarker kind margin line)
      (rest : Refilled kind snippet before after) :
      Refilled kind snippet (line :: before) (snippet.map (margin ++ ·) ++ after)

theorem not_isMarker {kind : SlotKind} {line : String}
    (h : Marker.margin? kind line.toList = none) (margin : String) : ¬ IsMarker kind margin line := by
  intro hmarker
  cases h.symm.trans (margin?_eq_some.mpr hmarker)

theorem refilled_fillLines {kind : SlotKind} {snippet : List String}
    (hsnippet : ∀ l ∈ snippet, Solid l) (ls : List String) :
    Refilled kind snippet ls (fillLines kind snippet ls) := by
  induction ls with
  | nil => exact .nil
  | cons l ls ih =>
    rw [fillLines, List.flatMap_cons, ← fillLines]
    cases hmargin : Marker.margin? kind l.toList with
    | none =>
      rw [fillLine_of_none hmargin]
      exact .kept (not_isMarker hmargin) ih
    | some m =>
      rw [← String.toList_ofList (l := m)] at hmargin
      have hmarker := margin?_eq_some.mp hmargin
      rw [fillLine_of_isMarker hsnippet hmarker]
      exact .marker hmarker ih

/-- Filling two kinds: what one of them does to the lines does not depend on the other. -/
theorem refill_comm {kind other : SlotKind} {f g : Facts} (hf : f.Tidy) (hg : g.Tidy)
    (hk : other ≠ kind) {ls after : List String}
    (h : refill kind (Snippet.lines kind f).outcome ls = .ok after) :
    refill other (Snippet.lines other g).outcome after =
      (refill other (Snippet.lines other g).outcome ls).bind
        (refill kind (Snippet.lines kind f).outcome) := by
  rcases refill_eq_ok.mp h with ⟨hany, rfl⟩ | ⟨hany, snippet, hsnippet, rfl⟩
  · cases hother : refill other (Snippet.lines other g).outcome after with
    | error e => rfl
    | ok filled =>
      refine (refill_eq_ok.mpr (Or.inl ⟨?_, rfl⟩)).symm
      rcases refill_eq_ok.mp hother with ⟨_, rfl⟩ | ⟨_, lines, hlines, rfl⟩
      · exact hany
      · rw [anyMarker_fillLines (solid_snippet hg hlines), hany, Bool.false_and]
  · have hsolid := solid_snippet hf hsnippet
    have hmarkers := anyMarker_fillLines hsolid kind other ls
    rw [bne_iff_ne.mpr hk, Bool.and_true] at hmarkers
    unfold refill at h ⊢
    rw [hmarkers]
    split
    · cases hlines : (Snippet.lines other g).outcome with
      | error e => rfl
      | ok lines =>
        have hsolid' := solid_snippet hg hlines
        have hmarkers' := anyMarker_fillLines hsolid' other kind ls
        rw [bne_iff_ne.mpr hk.symm, Bool.and_true, hany] at hmarkers'
        rw [hsnippet]
        simp only [Except.map, Except.bind, hmarkers', if_true, fillLines_comm hsolid hsolid' hk]
    · exact h.symm

/-- Filling the markers of a kind in a text, with any names of variables, keeps every other line and
puts the lines of the snippet in the place of each marker line, at its margin. Filling them again
changes nothing, since no snippet has a marker line of any kind, and two kinds may be filled in
either order. -/
theorem markers_are_filled_once_and_in_any_order (code filled : String) (kind : SlotKind)
    (f : Facts) (hf : f.Tidy) (h : (Snippet.intoText code kind f).outcome = .ok filled) :
    (∃ before after snippet,
      code = joinLines before ∧ before ≠ [] ∧ (∀ l ∈ before, OneLine l) ∧
      filled = joinLines after ∧ (∀ l ∈ after, OneLine l) ∧
      Refilled kind snippet before after ∧
      ((∃ l ∈ before, ∃ margin, IsMarker kind margin l) →
        (Snippet.lines kind f).outcome = .ok snippet)) ∧
    (Snippet.intoText filled kind f).outcome = .ok filled ∧
    ∀ other g, other ≠ kind → g.Tidy →
      (Snippet.intoText filled other g).outcome =
        (Snippet.intoText code other g).outcome.bind fun t =>
          (Snippet.intoText t kind f).outcome := by
  have hbefore : ∀ l ∈ Text.splitAt '\n' code, OneLine l := fun l => Text.oneLine_of_mem_splitAt
  generalize hls : Text.splitAt '\n' code = before at hbefore
  have hne : before ≠ [] := hls ▸ Text.splitAt_ne_nil _ _
  obtain rfl : joinLines before = code := hls ▸ Text.joinLines_splitAt code
  rw [intoText_joinLines hbefore] at h
  obtain ⟨after, hafter, rfl⟩ := except_map_eq_ok.mp h
  have hone := oneLine_refill hf hbefore hafter
  have hnone : anyMarker kind after = false := by
    rcases refill_eq_ok.mp hafter with ⟨hany, rfl⟩ | ⟨_, snippet, hsnippet, rfl⟩
    · exact hany
    · rw [anyMarker_fillLines (solid_snippet hf hsnippet)]
      simp
  refine ⟨?_, ?_, fun other g hk hg => ?_⟩
  · rcases refill_eq_ok.mp hafter with ⟨hany, rfl⟩ | ⟨_, snippet, hsnippet, rfl⟩
    · have hkept : Refilled kind [] after (fillLines kind [] after) :=
        refilled_fillLines (List.forall_mem_nil _) after
      rw [fillLines_of_anyMarker_eq_false hany] at hkept
      refine ⟨after, after, [], rfl, hne, hone, rfl, hone, hkept, ?_⟩
      rintro ⟨l, hl, margin, hmarker⟩
      exact absurd hmarker (not_isMarker (anyMarker_eq_false.mp hany l hl) margin)
    · exact ⟨before, _, snippet, rfl, hne, hbefore, rfl, hone,
        refilled_fillLines (solid_snippet hf hsnippet) before, fun _ => hsnippet⟩
  · rw [intoText_joinLines hone, refill_eq_ok.mpr (Or.inl ⟨hnone, rfl⟩)]
    rfl
  · rw [intoText_joinLines hone, intoText_joinLines hbefore, refill_comm hf hg hk hafter]
    cases hother : refill other (Snippet.lines other g).outcome before with
    | error e => rfl
    | ok filled => exact (intoText_joinLines (oneLine_refill hg hbefore hother) kind f).symm

/-- Facts whose name for the response is a marker. -/
def markedFacts : Facts :=
  { responseVar := "// \x7b\x7bERROR_HANDLING\x7d\x7d", authType := .text "bearer" }

/-- Two markers side by side, one of them between blanks, before a marker of another kind. -/
def markedCode : String :=
  "\t// \x7b\x7bERROR_HANDLING\x7d\x7d \n// \x7b\x7bERROR_HANDLING\x7d\x7d\n" ++
    "  // \x7b\x7bAUTH_CODE\x7d\x7d"

theorem markers_side_by_side_are_filled_once :
    ∃ filled,
      (Snippet.intoText markedCode .error markedFacts).outcome = .ok filled ∧
      (Snippet.intoText filled .error markedFacts).outcome = .ok filled ∧
      (Snippet.intoText filled .auth markedFacts).outcome =
        (Snippet.intoText markedCode .auth markedFacts).outcome.bind fun t =>
          (Snippet.intoText t .error markedFacts).outcome := by
  have htidy : markedFacts.Tidy := ⟨by decide, by decide, by decide, Or.inl ⟨24, rfl⟩⟩
  obtain ⟨_, hagain, hother⟩ :=
    markers_are_filled_once_and_in_any_order markedCode _ .error markedFacts htidy rfl
  exact ⟨_, rfl, hagain, hother .auth markedFacts (by decide) htidy⟩

end Flowscript
