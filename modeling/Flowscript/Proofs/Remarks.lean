-- The text of a comment. Whatever a workflow is called, its name goes into a
-- comment as one line of words with single spaces between them, and nothing
-- in it ends the comment. A text that has this form already is left as it is,
-- and no character but a blank is ever lost.
import Flowscript.Proofs.Lexer
import Mathlib.Data.List.Chain

namespace Flowscript.Text

/-! ## Flat text -/

/-- Characters with no blank but single spaces, and none at the end. -/
structure Spaced (cs : List Char) : Prop where
  spaces : ∀ c ∈ cs, isBlank c = true → c = ' '
  ends : ∀ c ∈ cs.getLast?, isBlank c = false
  apart : cs.IsChain fun a b => ¬ (isBlank a = true ∧ isBlank b = true)

/-- Characters with no blank but single spaces, and none at either end. -/
structure Flat (cs : List Char) : Prop extends Spaced cs where
  starts : ∀ c ∈ cs.head?, isBlank c = false

/-- Characters that do not close a comment. -/
def Unclosed (cs : List Char) : Prop := cs.IsChain fun a b => ¬ (a = '*' ∧ b = '/')

theorem isChain_iff_neighbours {R : Char → Char → Prop} {cs : List Char} :
    cs.IsChain R ↔ ∀ a b, [a, b] <:+: cs → R a b := by
  rw [List.isChain_iff_forall_rel_of_append_cons_cons]
  constructor
  · rintro h a b ⟨before, after, rfl⟩
    exact h (List.append_assoc ..)
  · rintro h a b before after rfl
    exact h a b ⟨before, after, List.append_assoc ..⟩

theorem unclosed_iff {cs : List Char} : Unclosed cs ↔ ¬ ['*', '/'] <:+: cs := by
  unfold Unclosed
  rw [isChain_iff_neighbours]
  constructor
  · exact fun h hclose => h '*' '/' hclose ⟨rfl, rfl⟩
  · rintro h a b hab ⟨rfl, rfl⟩
    exact h hab

/-- A text is closed by what is put in front of it only if that ends in a star. -/
theorem Unclosed.append {before cs : List Char} (hbefore : Unclosed before)
    (hlast : before.getLast? ≠ some '*') (h : Unclosed cs) : Unclosed (before ++ cs) := by
  refine List.isChain_append.mpr ⟨hbefore, h, ?_⟩
  rintro a ha b - ⟨rfl, -⟩
  exact hlast ha

theorem Spaced.tail {c : Char} {cs : List Char} (h : Spaced (c :: cs)) : Spaced cs where
  spaces := (List.forall_mem_cons.mp h.spaces).2
  ends d hd := h.ends d (List.mem_getLast?_cons hd)
  apart := h.apart.tail

theorem flat_of_noBlanks {cs : List Char} (h : ∀ c ∈ cs, isBlank c = false) : Flat cs where
  spaces c hc hb := by simp [h c hc] at hb
  starts c hc := h c (List.mem_of_mem_head? hc)
  ends c hc := h c (List.mem_of_mem_getLast? hc)
  apart := by
    rw [isChain_iff_neighbours]
    rintro a b hab ⟨ha, -⟩
    simp [h a (hab.subset (by simp))] at ha

theorem Flat.cons_word {w cs : List Char} (hw : ∀ c ∈ w, isBlank c = false) (hne : w ≠ [])
    (h : Flat cs) (hcs : cs ≠ []) : Flat (w ++ ' ' :: cs) where
  spaces c hc hb := by
    rcases List.mem_append.mp hc with hc | hc
    · simp [hw c hc] at hb
    · exact (List.mem_cons.mp hc).elim id fun hc => h.spaces c hc hb
  starts := by
    rw [List.head?_append_of_ne_nil w hne]
    exact (flat_of_noBlanks hw).starts
  ends := by
    rw [List.append_cons, List.getLast?_append_of_ne_nil _ hcs]
    exact h.ends
  apart := by
    refine List.isChain_append.mpr ⟨(flat_of_noBlanks hw).apart, ?_, ?_⟩
    · refine List.isChain_cons.mpr ⟨fun b hb => ?_, h.apart⟩
      simp [h.starts b hb]
    · intro a ha b _
      simp [(flat_of_noBlanks hw).ends a ha]

/-! ## Words -/

theorem toList_joinWith (sep : String) (xs : List String) :
    (joinWith sep xs).toList = sep.toList.intercalate (xs.map String.toList) := by
  induction xs with
  | nil => rfl
  | cons x rest ih =>
    cases rest with
    | nil => simp [joinWith]
    | cons y rest =>
      rw [joinWith, String.toList_append, String.toList_append, ih]
      · simp
      · simp

theorem toList_remark (s : String) :
    (remark s).toList = partClosers ([' '].intercalate (wordChars s.toList)) := by
  unfold remark words
  rw [String.toList_ofList, toList_joinWith, List.map_map]
  simp [Function.comp_def]

theorem ne_nil_of_mem_wordChars {cs w : List Char} (h : w ∈ wordChars cs) : w ≠ [] := by
  fun_induction wordChars cs generalizing w with
  | case1 => cases h
  | case2 c cs _ ih => exact ih h
  | case3 c _ =>
    rw [List.mem_singleton.mp h]
    simp
  | case4 c _ d cs _ ih =>
    rcases List.mem_cons.mp h with rfl | h
    · simp
    · exact ih h
  | case5 c _ d cs _ ih =>
    cases hwords : wordChars (d :: cs) with
    | nil =>
      rw [hwords, consHead, List.mem_singleton] at h
      simp [h]
    | cons first rest =>
      rw [hwords] at h ih
      rcases List.mem_cons.mp h with rfl | h
      · simp
      · exact ih (List.mem_cons_of_mem _ h)

theorem flat_intercalate {ws : List (List Char)} (hne : ∀ w ∈ ws, w ≠ [])
    (h : ∀ w ∈ ws, ∀ c ∈ w, isBlank c = false) : Flat ([' '].intercalate ws) := by
  induction ws with
  | nil => exact flat_of_noBlanks (by simp)
  | cons w rest ih =>
    rw [List.forall_mem_cons] at hne h
    by_cases hrest : rest = []
    · subst hrest
      rw [List.intercalate_singleton]
      exact flat_of_noBlanks h.1
    · rw [List.intercalate_cons_of_ne_nil hrest, List.append_assoc, List.singleton_append]
      refine (ih hne.2 h.2).cons_word h.1 hne.1 ?_
      cases rest with
      | nil => exact absurd rfl hrest
      | cons v rest => cases rest <;> simp [hne.2 v]

theorem intercalate_consHead (sep : List Char) (c : Char) (ws : List (List Char)) :
    sep.intercalate (consHead c ws) = c :: sep.intercalate ws := by
  rcases ws with _ | ⟨w, _ | ⟨v, rest⟩⟩ <;> simp [consHead]

theorem flatten_consHead (c : Char) (ws : List (List Char)) :
    (consHead c ws).flatten = c :: ws.flatten := by
  cases ws <;> simp [consHead]

/-- Where blanks are single spaces, cutting at them and joining again loses nothing but a space in
front. -/
theorem Spaced.intercalate_wordChars {cs : List Char} (h : Spaced cs) :
    [' '].intercalate (wordChars cs) = cs.dropWhile isBlank := by
  fun_induction wordChars cs with
  | case1 => rfl
  | case2 c cs hc ih => rw [List.dropWhile_cons_of_pos hc, ih h.tail]
  | case3 c hc => simp [hc]
  | case4 c hc d cs hd ih =>
    have hnext : cs ≠ [] ∧ cs.dropWhile isBlank = cs := by
      cases cs with
      | nil => simp [h.ends d rfl] at hd
      | cons e cs =>
        have he : ¬ isBlank e = true :=
          fun he => (List.isChain_cons_cons.mp h.apart.tail).1 ⟨hd, he⟩
        exact ⟨List.cons_ne_nil e cs, List.dropWhile_cons_of_neg he⟩
    have hrest : [' '].intercalate (wordChars (d :: cs)) = cs := by
      rw [ih h.tail, List.dropWhile_cons_of_pos hd, hnext.2]
    have hwords : wordChars (d :: cs) ≠ [] := by
      intro hnil
      rw [hnil] at hrest
      exact hnext.1 hrest.symm
    rw [List.intercalate_cons_of_ne_nil hwords, hrest, List.dropWhile_cons_of_neg hc,
      h.spaces d (by simp) hd]
    rfl
  | case5 c hc d cs hd ih =>
    rw [intercalate_consHead, ih h.tail, List.dropWhile_cons_of_neg hc,
      List.dropWhile_cons_of_neg hd]

theorem Flat.intercalate_wordChars {cs : List Char} (h : Flat cs) :
    [' '].intercalate (wordChars cs) = cs := by
  rw [h.toSpaced.intercalate_wordChars]
  cases cs with
  | nil => rfl
  | cons c cs => exact List.dropWhile_cons_of_neg (by simp [h.starts c rfl])

/-- The words of a text are what is left of it without its blanks. -/
theorem flatten_wordChars (cs : List Char) : (wordChars cs).flatten = cs.filter (!isBlank ·) := by
  fun_induction wordChars cs with
  | case1 => rfl
  | case2 c cs hc ih => simp [hc, ih]
  | case3 c hc => simp [hc]
  | case4 c hc d cs hd ih =>
    rw [List.flatten_cons, ih, List.filter_cons (x := c)]
    simp [hc]
  | case5 c hc d cs hd ih =>
    rw [flatten_consHead, ih, List.filter_cons (x := c)]
    simp [hc]

theorem filter_intercalate (ws : List (List Char)) :
    ([' '].intercalate ws).filter (!isBlank ·) = ws.flatten.filter (!isBlank ·) := by
  induction ws with
  | nil => rfl
  | cons w rest ih =>
    cases rest with
    | nil => simp
    | cons v rest =>
      have hspace : [' '].filter (!isBlank ·) = [] := rfl
      rw [List.intercalate_cons_cons, List.filter_append, List.filter_append, ih, hspace,
        List.append_nil, ← List.filter_append, List.flatten_cons (l := w)]

/-! ## Closers -/

theorem head?_partClosers (cs : List Char) : (partClosers cs).head? = cs.head? := by
  fun_cases partClosers cs <;> rfl

theorem getLast?_partClosers (cs : List Char) : (partClosers cs).getLast? = cs.getLast? := by
  fun_induction partClosers cs with
  | case1 rest ih => simp [List.getLast?_cons, ih]
  | case2 c rest _ ih => rw [List.getLast?_cons, List.getLast?_cons, ih]
  | case3 => rfl

/-- What holds of all neighbours but the two that would close a comment holds of all neighbours
after these are parted, if it holds of a star and a space and of a space and a slash. -/
theorem isChain_partClosers {R : Char → Char → Prop} (hstar : R '*' ' ') (hslash : R ' ' '/')
    {cs : List Char} (h : cs.IsChain fun a b => ¬ (a = '*' ∧ b = '/') → R a b) :
    (partClosers cs).IsChain R := by
  fun_induction partClosers cs with
  | case1 rest ih =>
    have hrest := List.isChain_cons.mp h.tail
    refine List.isChain_cons_cons.mpr ⟨hstar, List.isChain_cons_cons.mpr ⟨hslash, ?_⟩⟩
    refine List.isChain_cons.mpr ⟨fun b hb => ?_, ih hrest.2⟩
    rw [head?_partClosers] at hb
    exact hrest.1 b hb (by simp)
  | case2 c rest hopen ih =>
    have hrest := List.isChain_cons.mp h
    refine List.isChain_cons.mpr ⟨fun b hb => ?_, ih hrest.2⟩
    rw [head?_partClosers] at hb
    refine hrest.1 b hb ?_
    rintro ⟨rfl, rfl⟩
    obtain ⟨tail, rfl⟩ := List.head?_eq_some_iff.mp hb
    exact hopen tail rfl rfl
  | case3 => exact .nil

theorem unclosed_partClosers (cs : List Char) : Unclosed (partClosers cs) := by
  refine isChain_partClosers (by decide) (by decide) ?_
  exact (List.pairwise_of_forall fun _ _ h => h).isChain

theorem Flat.partClosers {cs : List Char} (h : Flat cs) : Flat (partClosers cs) where
  spaces c hc hb := by
    rcases mem_partClosers hc with hc | hc
    · exact hc
    · exact h.spaces c hc hb
  starts := head?_partClosers cs ▸ h.starts
  ends := getLast?_partClosers cs ▸ h.ends
  apart := isChain_partClosers (by decide) (by decide) (h.apart.imp fun _ _ h _ => h)

theorem partClosers_of_unclosed {cs : List Char} (h : Unclosed cs) : partClosers cs = cs := by
  fun_induction partClosers cs with
  | case1 rest ih => exact absurd ⟨rfl, rfl⟩ (List.isChain_cons_cons.mp h).1
  | case2 c rest _ ih => rw [ih h.tail]
  | case3 => rfl

theorem filter_partClosers (cs : List Char) :
    (partClosers cs).filter (!isBlank ·) = cs.filter (!isBlank ·) := by
  fun_induction partClosers cs with
  | case1 rest ih => simp [List.filter_cons, ih, show isBlank ' ' = true from rfl]
  | case2 c rest _ ih => rw [List.filter_cons, List.filter_cons, ih]
  | case3 => rfl

/-! ## Remarks -/

theorem flat_remark (s : String) : Flat (remark s).toList := by
  rw [toList_remark]
  exact (flat_intercalate (fun _ => ne_nil_of_mem_wordChars)
    fun _ hw _ hc => isBlank_of_mem_wordChars hw hc).partClosers

theorem unclosed_remark (s : String) : Unclosed (remark s).toList := by
  rw [toList_remark]
  exact unclosed_partClosers _

/-- A text that may stand in a comment is left as it is. -/
theorem remark_of_flat {s : String} (h : Flat s.toList) (hopen : Unclosed s.toList) :
    remark s = s := by
  apply String.toList_injective
  rw [toList_remark, h.intercalate_wordChars, partClosers_of_unclosed hopen]

theorem filter_remark (s : String) :
    (remark s).toList.filter (!isBlank ·) = s.toList.filter (!isBlank ·) := by
  rw [toList_remark, filter_partClosers, filter_intercalate, flatten_wordChars, List.filter_filter]
  simp

/-! ## The law -/

/-- No character of a remark ends a line, of a text or of a script. No two of its characters that
stand side by side are blank, and neither the first nor the last is. It does not close the comment
that it stands in, nor does it together with the star of its line. Making a remark of it again
changes nothing, and it has all the characters of the text but blanks, in their order. -/
theorem a_remark_is_one_line_that_leaves_its_comment_open (s : String) :
    (∀ c ∈ (remark s).toList, isLineBreak c = false ∧ Lexer.endsLine c = false) ∧
    (∀ a b, [a, b] <:+: (remark s).toList → ¬ (isBlank a = true ∧ isBlank b = true)) ∧
    (∀ c ∈ (remark s).toList.head?, isBlank c = false) ∧
    (∀ c ∈ (remark s).toList.getLast?, isBlank c = false) ∧
    ¬ ['*', '/'] <:+: (remark s).toList ∧ ¬ ['*', '/'] <:+: (" * " ++ remark s).toList ∧
    remark (remark s) = remark s ∧
    (remark s).toList.filter (!isBlank ·) = s.toList.filter (!isBlank ·) := by
  have hflat := flat_remark s
  have hopen := unclosed_remark s
  refine ⟨fun c hc => ?_, isChain_iff_neighbours.mp hflat.apart, hflat.starts, hflat.ends,
    unclosed_iff.mp hopen, ?_, remark_of_flat hflat hopen, filter_remark s⟩
  · have hbreak := unbroken_remark s c hc
    exact ⟨hbreak, Lexer.endsLine_of_isLineBreak hbreak⟩
  · have hstar : Unclosed " * ".toList := by simp [Unclosed]
    rw [String.toList_append, ← unclosed_iff]
    exact hstar.append (by simp) hopen

/-- Two closers, the first behind a star of its own, with a line separator between them. -/
theorem a_remark_of_closers_leaves_its_comment_open :
    remark " **/\u2028*/" = "** / * /" ∧ ['*', ' '] <:+: (remark " **/\u2028*/").toList ∧
    ¬ (isBlank '*' = true ∧ isBlank ' ' = true) ∧
    ¬ ['*', '/'] <:+: (" * " ++ remark " **/\u2028*/").toList := by
  have hremark : remark " **/\u2028*/" = "** / * /" := by decide
  have hlaw := a_remark_is_one_line_that_leaves_its_comment_open " **/\u2028*/"
  have hpair : ['*', ' '] <:+: (remark " **/\u2028*/").toList := by
    rw [hremark]
    exact ⟨['*'], ['/', ' ', '*', ' ', '/'], rfl⟩
  exact ⟨hremark, hpair, hlaw.2.1 '*' ' ' hpair, hlaw.2.2.2.2.2.1⟩

end Flowscript.Text
