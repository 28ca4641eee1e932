-- Snippets with any names in them. A marker line ends with a closing brace
-- and blanks. Every line of a snippet is fixed text that is no marker, or
-- ends with fixed text that ends otherwise, so no name of a variable and no
-- literal can turn a line of a snippet into a marker.
import Flowscript.Proofs.Filling
import Flowscript.Proofs.Functions

namespace Flowscript

open Text (OneLine)

/-! ## Marker lines -/

/-- The line is a marker of the kind between blanks, with the given margin before it. -/
def IsMarker (kind : SlotKind) (margin : String) (line : String) : Prop :=
  (∀ c ∈ margin.toList, c = ' ' ∨ c = '\t') ∧
    ∃ tail : String, (∀ c ∈ tail.toList, c = ' ' ∨ c = '\t') ∧ line = margin ++ kind.marker ++ tail

theorem isMargin_iff {c : Char} : Marker.isMargin c = true ↔ c = ' ' ∨ c = '\t' := by
  simp [Marker.isMargin]

/-- A marker is more than a margin. -/
theorem dropWhile_marker (kind : SlotKind) (rest : List Char) :
    (kind.marker.toList ++ rest).dropWhile Marker.isMargin = kind.marker.toList ++ rest ∧
      (kind.marker.toList ++ rest).takeWhile Marker.isMargin = [] := by
  cases kind <;> exact ⟨rfl, rfl⟩

theorem margin?_eq_some {kind : SlotKind} {margin line : String} :
    Marker.margin? kind line.toList = some margin.toList ↔ IsMarker kind margin line := by
  constructor
  · intro h
    unfold Marker.margin? at h
    split at h
    · rename_i rest hrest
      obtain ⟨htail, hmargin⟩ := Option.ite_none_right_eq_some.mp h
      have hmargin := Option.some.inj hmargin
      refine ⟨fun c hc => ?_, String.ofList rest, fun c hc => ?_, ?_⟩
      · rw [← hmargin] at hc
        exact isMargin_iff.mp (List.mem_takeWhile_imp hc)
      · rw [String.toList_ofList] at hc
        exact isMargin_iff.mp (List.all_eq_true.mp htail c hc)
      · apply String.toList_injective
        rw [String.toList_append, String.toList_append, String.toList_ofList, ← hmargin,
          List.append_assoc, List.isPrefixOf?_eq_some_iff_append_eq.mp hrest,
          List.takeWhile_append_dropWhile]
    · cases h
  · rintro ⟨hmargin, tail, htail, rfl⟩
    have hmargin := fun c hc => isMargin_iff.mpr (hmargin c hc)
    have htail := fun c hc => isMargin_iff.mpr (htail c hc)
    obtain ⟨hdrop, htake⟩ := dropWhile_marker kind tail.toList
    unfold Marker.margin?
    rw [String.toList_append, String.toList_append, List.append_assoc,
      List.dropWhile_append_of_pos hmargin, List.takeWhile_append_of_pos hmargin, hdrop, htake,
      List.isPrefixOf?_eq_some_iff_append_eq.mpr rfl]
    simp [List.all_eq_true.mpr htail]

/-- A line of more margin is a marker just where the line is one. -/
theorem margin?_append {margin : String} (h : ∀ c ∈ margin.toList, c = ' ' ∨ c = '\t')
    (kind : SlotKind) (line : String) :
    Marker.margin? kind (margin ++ line).toList =
      (Marker.margin? kind line.toList).map (margin.toList ++ ·) := by
  have hmargin := fun c hc => isMargin_iff.mpr (h c hc)
  unfold Marker.margin?
  rw [String.toList_append, List.dropWhile_append_of_pos hmargin,
    List.takeWhile_append_of_pos hmargin]
  split
  · split <;> rfl
  · rfl

/-- The letter by which the marker of a kind differs from the others. -/
def SlotKind.initial : SlotKind → Char
  | .auth => 'A'
  | .error => 'E'
  | .rateLimit => 'R'
  | .dedup => 'D'

/-- No line is a marker of two kinds. -/
theorem margin?_exclusive {kind other : SlotKind} {line m m' : List Char}
    (h : Marker.margin? kind line = some m) (h' : Marker.margin? other line = some m') :
    kind = other := by
  have hstart : ∀ {k : SlotKind} {m : List Char}, Marker.margin? k line = some m →
      k.marker.toList <+: line.dropWhile Marker.isMargin := by
    intro k m hk
    unfold Marker.margin? at hk
    split at hk
    · rename_i rest hrest
      exact ⟨rest, List.isPrefixOf?_eq_some_iff_append_eq.mp hrest⟩
    · cases hk
  obtain ⟨rest, hrest⟩ := hstart h
  obtain ⟨rest', hrest'⟩ := hstart h'
  have hletter : ∀ (k : SlotKind) (rest : List Char),
      (k.marker.toList ++ rest)[5]? = some k.initial := by
    intro k rest
    cases k <;> rfl
  have hsame := congrArg (·[5]?) (hrest.trans hrest'.symm)
  simp only [hletter, Option.some.injEq] at hsame
  cases kind <;> cases other <;> first | rfl | exact absurd hsame (by decide)

/-- A line that ends with anything but a blank or a closing brace is no marker. -/
theorem margin?_of_last {line : List Char} {c : Char} (hlast : line.getLast? = some c)
    (hc : Marker.isMargin c = false) (hne : c ≠ '\x7d') (kind : SlotKind) :
    Marker.margin? kind line = none := by
  cases hmargin : Marker.margin? kind line with
  | none => rfl
  | some m =>
    rw [← String.toList_ofList (l := line), ← String.toList_ofList (l := m)] at hmargin
    obtain ⟨_, tail, htail, hline⟩ := margin?_eq_some.mp hmargin
    have hline := congrArg String.toList hline
    rw [String.toList_append, String.toList_append, String.toList_ofList] at hline
    rw [hline, List.getLast?_append] at hlast
    cases hend : tail.toList.getLast? with
    | some d =>
      rw [hend] at hlast
      cases hlast
      rw [isMargin_iff.mpr (htail c (List.mem_of_getLast? hend))] at hc
      cases hc
    | none =>
      rw [hend, Option.none_or, List.getLast?_append] at hlast
      have hbrace : kind.marker.toList.getLast? = some '\x7d' := by cases kind <;> rfl
      rw [hbrace] at hlast
      cases hlast
      exact absurd rfl hne

/-! ## Snippets with any names -/

/-- The names that a user gave to variables have no line feed, and the time to live is a number. -/
structure Facts.Tidy (f : Facts) : Prop where
  optionsVar : OneLine f.optionsVar
  responseVar : OneLine f.responseVar
  itemsVar : OneLine f.itemsVar
  ttlHours : (∃ k, f.ttlHours = .int k) ∨ ∃ x, f.ttlHours = .real x

/-- A line that stays whole at any margin, and is no marker there. -/
structure Solid (line : String) : Prop where
  oneLine : OneLine line
  ne_empty : line ≠ ""
  unmarked : ∀ kind, Marker.margin? kind line.toList = none

/-- The characters of a line that are fixed: all of them, or those at its end. -/
inductive Ending where
  | whole (cs : List Char)
  | tail (cs : List Char)

/-- Whether a line with this ending is solid, whatever stands before a tail. -/
def Ending.isSolid : Ending → Bool
  | .whole cs => !cs.isEmpty && !cs.contains '\n' &&
      SlotKind.all.all fun kind => (Marker.margin? kind cs).isNone
  | .tail cs => !cs.contains '\n' &&
      cs.getLast?.any fun c => !Marker.isMargin c && c != '\x7d'

/-- Lines with the ending of each. -/
inductive Ended : List Ending → List String → Prop where
  | nil : Ended [] []
  | whole {cs : List Char} {ends : List Ending} {ls : List String} (h : Ended ends ls) :
      Ended (.whole cs :: ends) (String.ofList cs :: ls)
  | tail {x : String} {cs : List Char} {ends : List Ending} {ls : List String} (hx : OneLine x)
      (h : Ended ends ls) : Ended (.tail cs :: ends) ((x ++ String.ofList cs) :: ls)

theorem solid_whole {cs : List Char} (h : (Ending.whole cs).isSolid = true) :
    Solid (String.ofList cs) := by
  simp only [Ending.isSolid, Bool.and_eq_true, Bool.not_eq_true', List.isEmpty_eq_false_iff,
    List.contains_eq_mem, decide_eq_false_iff_not, List.all_eq_true, Option.isNone_iff_eq_none] at h
  obtain ⟨⟨hne, hline⟩, hmargin⟩ := h
  refine ⟨?_, ?_, fun kind => ?_⟩
  · rwa [OneLine, String.toList_ofList]
  · intro he
    exact hne (by rw [← String.toList_ofList (l := cs), he]; rfl)
  · rw [String.toList_ofList]
    exact hmargin kind (by cases kind <;> decide)

theorem solid_tail {x : String} (hx : OneLine x) {cs : List Char}
    (h : (Ending.tail cs).isSolid = true) : Solid (x ++ String.ofList cs) := by
  simp only [Ending.isSolid, Bool.and_eq_true, Bool.not_eq_true', List.contains_eq_mem,
    decide_eq_false_iff_not, Option.any_eq_true, bne_iff_ne] at h
  obtain ⟨hline, c, hlast, hc, hne⟩ := h
  have hend : (x ++ String.ofList cs).toList.getLast? = some c := by
    rw [String.toList_append, String.toList_ofList, List.getLast?_append, hlast, Option.some_or]
  refine ⟨hx.append (by rwa [OneLine, String.toList_ofList]), ?_, margin?_of_last hend hc hne⟩
  intro he
  rw [he] at hend
  cases hend

theorem Ended.solid {ends : List Ending} {ls : List String} (h : Ended ends ls)
    (hends : ends.all Ending.isSolid = true) : ∀ l ∈ ls, Solid l := by
  induction h with
  | nil => exact List.forall_mem_nil _
  | whole _ ih =>
    rw [List.all_cons, Bool.and_eq_true] at hends
    exact List.forall_mem_cons.mpr ⟨solid_whole hends.1, ih hends.2⟩
  | tail hx _ ih =>
    rw [List.all_cons, Bool.and_eq_true] at hends
    exact List.forall_mem_cons.mpr ⟨solid_tail hx hends.1, ih hends.2⟩

theorem oneLine_fixed {cs : List Char} (h : cs.contains '\n' = false) :
    OneLine (String.ofList cs) := by
  rw [OneLine, String.toList_ofList]
  simpa using h

theorem oneLine_literal (v : Value) : OneLine (Json.literal v) :=
  (Lexer.neutral_literal v).unbroken.oneLine

theorem oneLine_int (n : Int) : OneLine (toString n) := (inert_int n).unbroken.oneLine

theorem oneLine_headD {reads : List String} (h : ∀ x ∈ reads, OneLine x) :
    OneLine (reads.headD "") := by
  cases reads with
  | nil => decide
  | cons x rest => exact h x List.mem_cons_self

/-- No snippet has an empty line, a broken line or a marker, whatever the names in it are. -/
theorem solid_snippet {kind : SlotKind} {f : Facts} (hf : f.Tidy) {lines : List String}
    (h : (Snippet.lines kind f).outcome = .ok lines) : ∀ l ∈ lines, Solid l := by
  have hopts := hf.optionsVar
  have hresponse := hf.responseVar
  have hitems := hf.itemsVar
  have hname := (unbroken_quote (f.connectorName ++ " API error (")).oneLine
  have hheader := oneLine_literal f.apiKeyHeader
  have hslug := oneLine_literal f.slug
  cases Snippet.isCode_of_lines h
  case nothing => exact List.forall_mem_nil _
  case' auth scheme names hnames =>
    have hreads : ∀ x ∈ names.map Snippet.readProperty, OneLine x :=
      List.forall_mem_map.mpr fun name _ => (Lexer.neutral_readProperty name).unbroken.oneLine
    have hfirst := oneLine_headD hreads
    have hsecond := oneLine_headD fun x hx => hreads x (List.mem_of_mem_drop (i := 1) hx)
    cases scheme
  case' rateLimit requests window =>
    have hrequests := oneLine_int requests
    have hwindow := oneLine_int window
  case' dedup hours stem hhours =>
    have hnumber := (Lexer.inert_hoursCode hf.ttlHours hhours).unbroken.oneLine
    have hstem := (unbroken_quote stem).oneLine
  all_goals
    simp only [Snippet.schemeLines, Snippet.headersLine, Snippet.errorLines, Snippet.limitCode,
      Snippet.dedupCode]
    exact Ended.solid (by
      repeat' first
        | with_reducible apply Ended.tail
        | with_reducible apply OneLine.append
        | with_reducible assumption
        | exact oneLine_fixed rfl
        | constructor) rfl

end Flowscript
