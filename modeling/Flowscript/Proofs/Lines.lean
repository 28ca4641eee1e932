-- Lines that are joined and cut again. Lines without a line feed come back
-- when their text is cut at line feeds, and lines without any line break are
-- the lines of their text.
import Flowscript.Text.Blank
import Mathlib.Data.List.Basic

namespace Flowscript.Text

/-- The text has no line feed. -/
def OneLine (s : String) : Prop := '\n' ∉ s.toList

instance (s : String) : Decidable (OneLine s) := inferInstanceAs (Decidable ('\n' ∉ s.toList))

theorem OneLine.append {s t : String} (hs : OneLine s) (ht : OneLine t) : OneLine (s ++ t) := by
  unfold OneLine at *
  rw [String.toList_append, List.mem_append]
  exact fun h => h.elim hs ht

/-! ## Cutting -/

theorem cutAt_of_notMem {sep : Char} {cs : List Char} (h : sep ∉ cs) : cutAt sep cs = [cs] := by
  induction cs with
  | nil => rfl
  | cons c rest ih =>
    rw [List.mem_cons, not_or] at h
    obtain ⟨hc, hrest⟩ := h
    simp only [cutAt, Ne.symm hc, if_false, ih hrest, consHead]

theorem cutAt_append_sep {sep : Char} {cs : List Char} (h : sep ∉ cs) (rest : List Char) :
    cutAt sep (cs ++ sep :: rest) = cs :: cutAt sep rest := by
  induction cs with
  | nil => simp [cutAt]
  | cons c cs ih =>
    rw [List.mem_cons, not_or] at h
    obtain ⟨hc, hcs⟩ := h
    simp only [List.cons_append, cutAt, Ne.symm hc, if_false, ih hcs, consHead]

theorem cutAt_ne_nil (sep : Char) (cs : List Char) : cutAt sep cs ≠ [] := by
  cases cs with
  | nil => simp [cutAt]
  | cons c cs =>
    rw [cutAt]
    split
    · simp
    · cases cutAt sep cs <;> simp [consHead]

theorem splitAt_ne_nil (sep : Char) (s : String) : splitAt sep s ≠ [] := by
  unfold splitAt
  rw [ne_eq, List.map_eq_nil_iff]
  exact cutAt_ne_nil sep s.toList

theorem notMem_of_mem_cutAt {sep : Char} {cs line : List Char} (h : line ∈ cutAt sep cs) :
    sep ∉ line := by
  induction cs generalizing line with
  | nil =>
    rw [List.mem_singleton.mp h]
    exact List.not_mem_nil
  | cons c cs ih =>
    rw [cutAt] at h
    split at h
    · rcases List.mem_cons.mp h with rfl | h
      · exact List.not_mem_nil
      · exact ih h
    · rename_i hc
      cases hcut : cutAt sep cs with
      | nil => exact absurd hcut (cutAt_ne_nil sep cs)
      | cons first rest =>
        rw [hcut] at h ih
        rcases List.mem_cons.mp h with rfl | h
        · rw [List.mem_cons, not_or]
          exact ⟨fun he => hc he.symm, ih List.mem_cons_self⟩
        · exact ih (List.mem_cons_of_mem _ h)

/-! ## Joining -/

theorem toList_joinLines_cons (s : String) {rest : List String} (h : rest ≠ []) :
    (joinLines (s :: rest)).toList = s.toList ++ '\n' :: (joinLines rest).toList := by
  cases rest with
  | nil => exact absurd rfl h
  | cons t rest => simp [joinLines, joinWith]

theorem cutAt_joinLines {ls : List String} (hne : ls ≠ []) (h : ∀ l ∈ ls, OneLine l) :
    cutAt '\n' (joinLines ls).toList = ls.map String.toList := by
  induction ls with
  | nil => exact absurd rfl hne
  | cons l rest ih =>
    have hl : '\n' ∉ l.toList := h l (by simp)
    by_cases hr : rest = []
    · subst hr
      exact cutAt_of_notMem hl
    · rw [toList_joinLines_cons l hr, cutAt_append_sep hl,
        ih hr (fun x hx => h x (List.mem_cons_of_mem _ hx)), List.map_cons]

theorem toList_joinLines_cutAt (cs : List Char) :
    (joinLines ((cutAt '\n' cs).map String.ofList)).toList = cs := by
  induction cs with
  | nil => rfl
  | cons c cs ih =>
    rw [cutAt]
    split
    · rename_i hc
      rw [List.map_cons, toList_joinLines_cons _ (by simpa using cutAt_ne_nil _ _), ih, hc]
      rfl
    · cases hcut : cutAt '\n' cs with
      | nil => exact absurd hcut (cutAt_ne_nil _ _)
      | cons first rest =>
        rw [hcut] at ih
        by_cases hrest : rest = []
        · subst hrest
          simp only [consHead, List.map_cons, List.map_nil, joinLines, joinWith,
            String.toList_ofList] at ih ⊢
          rw [ih]
        · have hne : rest.map String.ofList ≠ [] := by simpa using hrest
          rw [List.map_cons, toList_joinLines_cons _ hne, String.toList_ofList] at ih
          rw [consHead, List.map_cons, toList_joinLines_cons _ hne, String.toList_ofList,
            List.cons_append, ih]

/-- Every text is made of lines. -/
theorem joinLines_splitAt (s : String) : joinLines (splitAt '\n' s) = s :=
  String.toList_injective (toList_joinLines_cutAt s.toList)

theorem oneLine_of_mem_splitAt {s line : String} (h : line ∈ splitAt '\n' s) : OneLine line := by
  obtain ⟨cs, hcs, rfl⟩ := List.mem_map.mp h
  unfold OneLine
  rw [String.toList_ofList]
  exact notMem_of_mem_cutAt hcs

/-- The characters of lines that each end with a line feed. -/
def lineFed (ls : List String) : List Char := ls.flatMap fun l => l.toList ++ ['\n']

@[simp]
theorem lineFed_nil : lineFed [] = [] := rfl

@[simp]
theorem lineFed_cons (l : String) (rest : List String) :
    lineFed (l :: rest) = l.toList ++ '\n' :: lineFed rest := by
  simp [lineFed]

@[simp]
theorem lineFed_append (ls ls' : List String) : lineFed (ls ++ ls') = lineFed ls ++ lineFed ls' := by
  simp [lineFed]

theorem toList_joinLines_feed {ls : List String} (hne : ls ≠ []) :
    (joinLines ls ++ "\n").toList = lineFed ls := by
  rw [String.toList_append]
  induction ls with
  | nil => exact absurd rfl hne
  | cons l rest ih =>
    by_cases hr : rest = []
    · subst hr
      simp [joinLines, joinWith]
    · rw [toList_joinLines_cons l hr, List.append_assoc, List.cons_append, ih hr, lineFed_cons]

theorem cutAt_lineFed {ls : List String} (h : ∀ l ∈ ls, OneLine l) :
    cutAt '\n' (lineFed ls) = ls.map String.toList ++ [[]] := by
  induction ls with
  | nil => rfl
  | cons l rest ih =>
    have hl : '\n' ∉ l.toList := h l (by simp)
    rw [lineFed_cons, cutAt_append_sep hl, ih fun x hx => h x (List.mem_cons_of_mem _ hx)]
    rfl

/-- A text of lines that each end with a line feed is cut into these lines and an empty one. -/
theorem splitAt_joinLines_feed {ls : List String} (hne : ls ≠ []) (h : ∀ l ∈ ls, OneLine l) :
    splitAt '\n' (joinLines ls ++ "\n") = ls ++ [""] := by
  unfold splitAt
  rw [toList_joinLines_feed hne, cutAt_lineFed h]
  simp [Function.comp_def]

theorem infix_lineFed {ls ls' : List String} (h : ls <:+: ls') :
    (joinLines ls).toList <:+: lineFed ls' := by
  obtain ⟨before, after, rfl⟩ := h
  rw [lineFed_append, lineFed_append]
  refine List.IsInfix.trans ?_ (List.infix_append ..)
  by_cases hne : ls = []
  · subst hne
    exact List.nil_infix
  · rw [← toList_joinLines_feed hne, String.toList_append]
    exact List.infix_append_left ..

/-! ## Lines of a text -/

/-- Whether none of the characters ends a line. -/
def noBreaks (cs : List Char) : Bool := cs.all fun c => !isLineBreak c

theorem noBreaks_iff {cs : List Char} : noBreaks cs = true ↔ ∀ c ∈ cs, isLineBreak c = false := by
  simp [noBreaks]

/-- The text has no character that ends a line. -/
def Unbroken (s : String) : Prop := ∀ c ∈ s.toList, isLineBreak c = false

instance (s : String) : Decidable (Unbroken s) :=
  decidable_of_iff (noBreaks s.toList = true) noBreaks_iff

theorem Unbroken.append {s t : String} (hs : Unbroken s) (ht : Unbroken t) : Unbroken (s ++ t) := by
  intro c hc
  rw [String.toList_append] at hc
  exact (List.mem_append.mp hc).elim (hs c) (ht c)

theorem Unbroken.oneLine {s : String} (h : Unbroken s) : OneLine s :=
  fun hmem => Bool.noConfusion (h _ hmem)

theorem unbroken_ofList {cs : List Char} (h : noBreaks cs = true) : Unbroken (String.ofList cs) := by
  intro c hc
  rw [String.toList_ofList] at hc
  exact noBreaks_iff.mp h c hc

theorem lineChars_append_feed {cs : List Char} (h : ∀ c ∈ cs, isLineBreak c = false)
    (rest : List Char) : lineChars (cs ++ '\n' :: rest) = cs :: lineChars rest := by
  induction cs with
  | nil => simp [lineChars, isLineBreak]
  | cons c cs ih =>
    have hc : isLineBreak c = false := h c (by simp)
    have hr : c ≠ '\r' := by
      rintro rfl
      cases hc
    rw [List.cons_append, lineChars]
    · simp only [hc, Bool.false_eq_true, if_false, ih fun d hd => h d (List.mem_cons_of_mem _ hd),
        consHead]
    · intro _ he
      exact absurd he hr

/-- A text of unbroken lines that each end with a line feed falls into these lines. -/
theorem lines_joinLines_feed {ls : List String} (hne : ls ≠ []) (h : ∀ l ∈ ls, Unbroken l) :
    lines (joinLines ls ++ "\n") = ls := by
  have hchars : ∀ {ls : List String}, (∀ l ∈ ls, Unbroken l) →
      lineChars (lineFed ls) = ls.map String.toList := by
    intro ls h
    induction ls with
    | nil => rfl
    | cons l rest ih =>
      rw [lineFed_cons, lineChars_append_feed (h l (by simp)),
        ih fun x hx => h x (List.mem_cons_of_mem _ hx), List.map_cons]
  unfold lines
  rw [toList_joinLines_feed hne, hchars h]
  simp [Function.comp_def]

end Flowscript.Text
