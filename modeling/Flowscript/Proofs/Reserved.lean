-- Reserved lines: the first line of a result, and the lines by which the
-- entry function tells how the run goes on. No snippet has a line that starts
-- like one of them, whatever the configuration of a node is, and no body of a
-- recipe has one that tells how the run goes on. So in the text of a script
-- these lines are known by their starts.
import Flowscript.Proofs.Locality
import Flowscript.Proofs.Statements

namespace Flowscript

/-! ## Starts -/

/-- A line that has its place in the frame of a script. -/
inductive Reserved where
  | result
  | starting
  | initialized
  | executing
  | completed
  | finished
deriving DecidableEq

namespace Reserved

/-- What the line starts with. -/
def start : Reserved → String
  | .result => "return \x7b"
  | .starting => "Logger.log('Starting workflow execution: '"
  | .initialized => "Logger.log('Execution context initialized: '"
  | .executing => "Logger.log('Executing node: '"
  | .completed => "Logger.log('Node completed: '"
  | .finished => "Logger.log('Workflow completed in '"

/-- The lines that tell how the run goes on. -/
def narrated : List Reserved := [.starting, .initialized, .executing, .completed, .finished]

/-- The characters of the start. -/
def letters (r : Reserved) : List Char := r.start.toList

theorem start_eq (r : Reserved) : r.start = String.ofList r.letters := String.ofList_toList.symm

theorem opensCode_letters (r : Reserved) : opensCode r.letters = true := by
  cases r <;> decide

/-- Whether a line that begins with these characters is none of the reserved ones given. -/
def skipped (own : List Reserved) (cs : List Char) : Bool :=
  own.all fun r => skips r.letters cs

theorem startsWith_of_skipped {own : List Reserved} {cs : List Char} (h : skipped own cs = true)
    {r : Reserved} (hr : r ∈ own) (x : String) :
    startsWith r.start (String.ofList cs ++ x) = false := by
  rw [start_eq]
  exact startsWith_of_skips (List.all_eq_true.mp h r hr) x

theorem startsWith_empty (r : Reserved) : startsWith r.start "" = false := by
  rw [start_eq, startsWith, String.toList_ofList]
  cases r <;> rfl

/-! ## Snippets -/

/-- No line of a snippet is reserved. -/
theorem startsWith_snippet {kind : SlotKind} {f : Facts} (hf : Lexer.Usual f) {lines : List String}
    (h : (Snippet.lines kind f).outcome = .ok lines) (r : Reserved) :
    ∀ l ∈ lines, startsWith r.start l = false := by
  have hr : r ∈ .result :: narrated := by cases r <;> decide
  have hstarted := Snippet.started hf h
  cases kind
  all_goals
    exact hstarted.all (by repeat' constructor) (fun _ hcs => startsWith_of_skipped hcs hr) rfl

end Reserved

/-! ## Steps -/

theorem startsWith_of_statements {start : String} {ls : List String} (h : statements start ls = []) :
    ∀ l ∈ ls, startsWith start l = false := by
  intro l hl
  have hline := List.flatMap_eq_nil_iff.mp h l hl
  unfold statement at hline
  split at hline
  · cases hline
  · rename_i hfalse
    exact Bool.eq_false_iff.mpr hfalse

/-- The fixed characters that the lines of steps start with, where empty lines are left out. -/
inductive StepHeads : List (List Char) → List Step → Prop where
  | nil : StepHeads [] []
  | blank {heads : List (List Char)} {steps : List Step} (h : StepHeads heads steps) :
      StepHeads heads (.line [.text ""] :: steps)
  | line {cs : List Char} {parts : List Part} {heads : List (List Char)} {steps : List Step}
      (h : StepHeads heads steps) :
      StepHeads (cs :: heads) (.line (.text (String.ofList cs) :: parts) :: steps)
  | joined {cs : List Char} {x : String} {parts : List Part} {heads : List (List Char)}
      {steps : List Step} (h : StepHeads heads steps) :
      StepHeads (cs :: heads) (.line (.text (String.ofList cs ++ x) :: parts) :: steps)
  | slot {kind : SlotKind} {heads : List (List Char)} {steps : List Step}
      (h : StepHeads heads steps) : StepHeads heads (.slot kind :: steps)
  | deeper {heads : List (List Char)} {steps : List Step} (h : StepHeads heads steps) :
      StepHeads heads (.deeper :: steps)
  | back {heads : List (List Char)} {steps : List Step} (h : StepHeads heads steps) :
      StepHeads heads (.back :: steps)

/-- Quiet steps stay quiet behind a line that does not start with the text. -/
theorem Quiet.cons {start : String} {parts : List Part} {steps : List Step} (h : Quiet start steps)
    (hline : startsWith start (lineCode parts) = false) : Quiet start (.line parts :: steps) := by
  intro parts' hparts
  rcases List.mem_cons.mp hparts with hparts | hparts
  · cases hparts
    exact hline
  · exact h parts' hparts

theorem Quiet.skip {start : String} {st : Step} {steps : List Step} (h : Quiet start steps)
    (hst : ∀ parts, Step.line parts ≠ st) : Quiet start (st :: steps) :=
  fun parts hparts => h parts ((List.mem_cons.mp hparts).resolve_left (hst parts))

theorem StepHeads.quiet {heads : List (List Char)} {steps : List Step} (h : StepHeads heads steps)
    {own : List Reserved} (hheads : heads.all (Reserved.skipped own) = true) {r : Reserved}
    (hr : r ∈ own) : Quiet r.start steps := by
  induction h with
  | nil => exact fun _ hparts => absurd hparts List.not_mem_nil
  | blank _ ih =>
    refine (ih hheads).cons ?_
    rw [lineCode_text, r.startsWith_empty]
  | line _ ih =>
    rw [List.all_cons, Bool.and_eq_true] at hheads
    refine (ih hheads.2).cons ?_
    rw [lineCode_cons]
    exact Reserved.startsWith_of_skipped hheads.1 hr _
  | joined _ ih =>
    rw [List.all_cons, Bool.and_eq_true] at hheads
    refine (ih hheads.2).cons ?_
    rw [lineCode_cons, Part.code, String.append_assoc]
    exact Reserved.startsWith_of_skipped hheads.1 hr _
  | slot _ ih => exact (ih hheads).skip (by simp)
  | deeper _ ih => exact (ih hheads).skip (by simp)
  | back _ ih => exact (ih hheads).skip (by simp)

/-! ## Bodies -/

namespace Reserved

theorem skipped_trialShapes (saves : Bool) (k : Option Kind) :
    ∀ s ∈ trialShapes saves k, skipped narrated (spelledHead (spell s)) = true := by
  cases k with
  | none =>
    exact Spelled.all (fun s => skipped narrated (spelledHead s)) (by repeat' constructor) rfl
  | some k =>
    cases k with
    | logger =>
      cases saves <;> exact Spelled.all (fun s => skipped narrated (spelledHead s))
        (by repeat' constructor) rfl
    | _ =>
      exact Spelled.all (fun s => skipped narrated (spelledHead s)) (by repeat' constructor) rfl

/-- In a body no line tells how the run goes on. -/
theorem quiet_body {n : PlannedNode} {c : Choices} {body : List Step}
    (h : (n.recipe.body n c).outcome = .ok body) {r : Reserved} (hr : r ∈ narrated) :
    Quiet r.start body := by
  intro parts hparts
  obtain ⟨x, hx⟩ := lineCode_eq_head parts
  rw [hx]
  exact startsWith_of_skipped (skipped_trialShapes _ _ _ (shape_mem_of_body h hparts)) hr x

end Reserved

end Flowscript
