-- What can be printed. A whole number of too many digits has no text, so
-- whatever prints one fails. What has been printed is the text that every
-- value has, and it holds no such number.
import Flowscript.Proofs.Journal
import Flowscript.Script.NodeFunction

namespace Flowscript

theorem wholeText_eq_ok {n : Int} {s : String} :
    wholeText n = .ok s ↔ isShort n = true ∧ toString n = s := by
  unfold wholeText
  by_cases h : isShort n = true
  · simp [h]
  · simp [h]

namespace Value

theorem requirePrintable_eq_ok {v : Value} {u : Unit} :
    v.requirePrintable = .ok u ↔ v.isPrintable = true := by
  unfold requirePrintable
  by_cases h : v.isPrintable = true
  · simp [h]
  · simp [h]

theorem requirePrintable_eq_error {v : Value} {f : Fault} :
    v.requirePrintable = .error f ↔ ¬ v.isPrintable = true ∧ f = .number .tooWide := by
  unfold requirePrintable
  by_cases h : v.isPrintable = true
  · simp [h]
  · simp [h, eq_comm]

theorem print_eq_ok {v : Value} {s : String} :
    v.print = .ok s ↔ v.isPrintable = true ∧ v.plain = s := by
  unfold print
  simp [except_bind_eq_ok, requirePrintable_eq_ok, pure, Except.pure]

theorem itemsPrintable_eq (items : List Value) : itemsPrintable items = items.all isPrintable := by
  induction items with
  | nil => rfl
  | cons v rest ih => rw [itemsPrintable, ih, List.all_cons]

theorem fieldsPrintable_eq (fields : Fields) :
    fieldsPrintable fields = fields.all fun f => f.2.isPrintable := by
  induction fields with
  | nil => rfl
  | cons f rest ih =>
    obtain ⟨key, v⟩ := f
    rw [fieldsPrintable, ih, List.all_cons]

/-- A list can be printed where its items can. -/
theorem isPrintable_list {items : List Value} :
    (list items).isPrintable = true ↔ ∀ v ∈ items, v.isPrintable = true := by
  rw [isPrintable, itemsPrintable_eq, List.all_eq_true]

/-- An object can be printed where its fields can. -/
theorem isPrintable_object {fields : Fields} :
    (object fields).isPrintable = true ↔ ∀ f ∈ fields, f.2.isPrintable = true := by
  rw [isPrintable, fieldsPrintable_eq, List.all_eq_true]

end Value

theorem Config.refuse_eq {α : Type} (id key : String) (v : Value) :
    (Config.refuse id key v : Except Fault α) = .error
      (if v.isPrintable then .config id (.notANumber key v) else .number .tooWide) := by
  unfold Config.refuse Value.requirePrintable
  by_cases h : v.isPrintable = true
  · simp [h, bind, Except.bind]
  · simp [h, bind, Except.bind]

/-! ## Functions -/

/-- The body of a node's function has the steps of its outline and of its result, all of which can
be printed. -/
theorem Recipe.body_eq_ok {r : Recipe} {n : PlannedNode} {c : Choices} {steps : List Step} :
    (r.body n c).outcome = .ok steps ↔ ∃ o, (r.outline n c).outcome = .ok o ∧
      o.steps ++ resultSteps (r.resultOf n) r.status o.fields = steps ∧
      steps.all Step.isPrintable = true := by
  unfold body
  rw [Traced.bind_eq_ok]
  refine exists_congr fun o => and_congr_right fun _ => ?_
  dsimp only
  split
  · rename_i hall
    rw [Traced.outcome_pure, Except.ok.injEq]
    refine ⟨fun h => ⟨h, ?_⟩, fun h => h.1⟩
    rw [← h]
    exact hall
  · rename_i hall
    constructor
    · intro h
      cases h
    · rintro ⟨rfl, h⟩
      exact absurd h hall

/-- A draft has the body of the recipe between the opening and the end of the function. -/
theorem NodeFunction.draft_eq_ok {n : PlannedNode} {c : Choices} {sheet : Sheet}
    (h : (draft n c).outcome = .ok sheet) :
    ∃ body, (n.recipe.body n c).outcome = .ok body ∧
      sheet = (Sheet.empty 0).takeAll
        (Recipe.code (opening n) ++ [.deeper] ++ body ++ [.back] ++ Recipe.code ["\x7d"]) := by
  obtain ⟨_, _, h⟩ := Traced.bind_eq_ok.mp h
  obtain ⟨body, hbody, h⟩ := Traced.bind_eq_ok.mp h
  cases h
  exact ⟨body, hbody, rfl⟩

/-- The code for credentials is printed where the scheme and the values that it has can be. -/
theorem Snippet.authLines_of_lines {f : Facts} {lines : List String}
    (h : (Snippet.lines .auth f).outcome = .ok lines) : (authLines f).outcome = .ok lines := by
  obtain ⟨_, _, h⟩ := Traced.bind_eq_ok.mp h
  obtain ⟨_, _, h⟩ := Traced.bind_eq_ok.mp h
  obtain ⟨_, _, h⟩ := Traced.bind_eq_ok.mp h
  exact h

theorem Snippet.isPrintable_of_lines {f : Facts} {lines : List String}
    (h : (Snippet.lines .auth f).outcome = .ok lines) : f.authType.isPrintable = true := by
  obtain ⟨_, hprint, _⟩ := Traced.bind_eq_ok.mp h
  exact Value.requirePrintable_eq_ok.mp hprint

end Flowscript
