-- Landmarks of the generated code: the lines that call a node and the lines
-- that declare the function of a node. Fixed text that parts from both heads
-- before it ends is the start of no landmark, whatever stands behind it.
import Flowscript.Code.Sheet
import Mathlib.Data.List.DropRight

namespace Flowscript

/-! ## Landmarks -/

/-- The line without the blanks in front of it. -/
def unindent (l : String) : String := String.ofList (l.toList.dropWhile Text.isBlank)

/-- Whether a line calls a node. -/
def isCall (l : String) : Bool := "context.results[".toList.isPrefixOf (unindent l).toList

/-- Whether a line declares the function of a node. -/
def isDeclaration (l : String) : Bool := "function execute_".toList.isPrefixOf (unindent l).toList

/-- Whether a line calls a node or declares the function of one. -/
def isLandmark (l : String) : Bool := isCall l || isDeclaration l

/-- The landmarks among lines, without their indents. -/
def landmarks (ls : List String) : List String := (ls.filter isLandmark).map unindent

@[simp]
theorem landmarks_nil : landmarks [] = [] := rfl

@[simp]
theorem landmarks_append (ls ls' : List String) :
    landmarks (ls ++ ls') = landmarks ls ++ landmarks ls' := by
  simp [landmarks]

theorem landmarks_cons (l : String) (ls : List String) :
    landmarks (l :: ls) = (if isLandmark l then [unindent l] else []) ++ landmarks ls := by
  unfold landmarks
  rw [List.filter_cons]
  split <;> simp

theorem mem_landmarks {l : String} {ls : List String} (hl : l ∈ ls) (h : isLandmark l = true) :
    unindent l ∈ landmarks ls :=
  List.mem_map_of_mem (List.mem_filter.mpr ⟨hl, h⟩)

theorem unindent_unindent (l : String) : unindent (unindent l) = unindent l := by
  unfold unindent
  rw [String.toList_ofList, List.dropWhile_idempotent]

theorem isCall_unindent (l : String) : isCall (unindent l) = isCall l := by
  unfold isCall
  rw [unindent_unindent]

theorem isDeclaration_unindent (l : String) : isDeclaration (unindent l) = isDeclaration l := by
  unfold isDeclaration
  rw [unindent_unindent]

/-- The calls among lines are the calls among their landmarks. -/
theorem filter_isCall_landmarks (ls : List String) :
    (landmarks ls).filter isCall = (ls.filter isCall).map unindent := by
  have hcall : ∀ l ∈ ls, ((isCall ∘ unindent) l && isLandmark l) = isCall l := by
    intro l _
    rw [Function.comp_apply, isCall_unindent, isLandmark]
    cases isCall l <;> rfl
  unfold landmarks
  rw [List.filter_map, List.filter_filter, List.filter_congr hcall]

theorem unindent_margin (indent : Int) (x : String) : unindent (margin indent ++ x) = unindent x := by
  unfold unindent margin
  rw [String.toList_append, String.toList_ofList, List.dropWhile_append]
  have hblank : (List.replicate (2 * indent.toNat) ' ').dropWhile Text.isBlank = [] := by
    rw [List.dropWhile_eq_nil_iff]
    intro c hc
    rw [List.eq_of_mem_replicate hc]
    rfl
  rw [hblank]
  rfl

theorem isLandmark_margin (indent : Int) (x : String) :
    isLandmark (margin indent ++ x) = isLandmark x := by
  unfold isLandmark isCall isDeclaration
  rw [unindent_margin]

/-! ## Heads -/

/-- Whether two texts differ at a place that both have. -/
def apart : List Char → List Char → Bool
  | a :: as, b :: bs => a != b || apart as bs
  | _, _ => false

/-- Whether a line that starts with these characters is no landmark, whatever follows them. -/
def startsPlain (cs : List Char) : Bool :=
  let rest := cs.dropWhile Text.isBlank
  apart rest ['c', 'o', 'n', 't', 'e', 'x', 't', '.', 'r', 'e', 's', 'u', 'l', 't', 's', '['] &&
    apart rest ['f', 'u', 'n', 'c', 't', 'i', 'o', 'n', ' ', 'e', 'x', 'e', 'c', 'u', 't', 'e', '_']

theorem isPrefixOf_eq_false_of_apart {cs head : List Char} (h : apart cs head = true)
    (more : List Char) : head.isPrefixOf (cs ++ more) = false := by
  fun_induction apart cs head with
  | case1 a as b bs ih =>
    rw [List.cons_append, List.isPrefixOf_cons_cons]
    rcases Bool.or_eq_true_iff.mp h with hne | hrest
    · have hba : (b == a) = false := beq_eq_false_iff_ne.mpr (Ne.symm (bne_iff_ne.mp hne))
      rw [hba, Bool.false_and]
    · rw [ih hrest, Bool.and_false]
  | case2 => cases h

/-- A head that is apart from a text is not blank, so the line is unindented within it. -/
theorem toList_unindent_of_apart {cs head : List Char}
    (h : apart (cs.dropWhile Text.isBlank) head = true) (x : String) :
    (unindent (String.ofList cs ++ x)).toList = cs.dropWhile Text.isBlank ++ x.toList := by
  have hne : (cs.dropWhile Text.isBlank).isEmpty = false := by
    cases hrest : cs.dropWhile Text.isBlank with
    | nil =>
      rw [hrest] at h
      cases h
    | cons => rfl
  unfold unindent
  rw [String.toList_ofList, String.toList_append, String.toList_ofList, List.dropWhile_append, hne]
  rfl

theorem isLandmark_of_startsPlain {cs : List Char} (h : startsPlain cs = true) (x : String) :
    isLandmark (String.ofList cs ++ x) = false := by
  obtain ⟨hcall, hdecl⟩ := Bool.and_eq_true_iff.mp h
  unfold isLandmark isCall isDeclaration
  rw [toList_unindent_of_apart hcall]
  exact Bool.or_eq_false_iff.mpr
    ⟨isPrefixOf_eq_false_of_apart hcall _, isPrefixOf_eq_false_of_apart hdecl _⟩

theorem isLandmark_empty : isLandmark "" = false := by decide

/-- A landmark that starts at its head. -/
def Landmark (x : String) : Prop := isLandmark x = true ∧ unindent x = x

theorem unindent_of_head {c : Char} (hc : Text.isBlank c = false) (cs : List Char) (x : String) :
    unindent (String.ofList (c :: cs) ++ x) = String.ofList (c :: cs) ++ x := by
  unfold unindent
  apply String.toList_inj.mp
  simp [hc]

theorem isCall_head (x : String) : isCall ("context.results[" ++ x) = true := by
  unfold isCall
  rw [unindent_of_head rfl, String.toList_append, List.isPrefixOf_iff_prefix]
  exact List.prefix_append _ _

theorem isDeclaration_head (x : String) : isDeclaration ("function execute_" ++ x) = true := by
  unfold isDeclaration
  rw [unindent_of_head rfl, String.toList_append, List.isPrefixOf_iff_prefix]
  exact List.prefix_append _ _

theorem isCall_declaration_head (x : String) : isCall ("function execute_" ++ x) = false := by
  unfold isCall
  rw [unindent_of_head rfl, String.toList_append]
  exact isPrefixOf_eq_false_of_apart (by decide) _

theorem isDeclaration_call_head (x : String) : isDeclaration ("context.results[" ++ x) = false := by
  unfold isDeclaration
  rw [unindent_of_head rfl, String.toList_append]
  exact isPrefixOf_eq_false_of_apart (by decide) _

/-- A landmark stands among lines no more often than among their landmarks. -/
theorem count_le_count_landmarks {x : String} (hx : Landmark x) (ls : List String) :
    ls.count x ≤ (landmarks ls).count x := by
  calc ls.count x = (ls.filter isLandmark).count x := (List.count_filter hx.1).symm
    _ ≤ (landmarks ls).count (unindent x) := List.count_le_count_map
    _ = (landmarks ls).count x := by rw [hx.2]

end Flowscript
