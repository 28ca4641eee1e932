-- When the function of a node can be written. Once its body is outlined and
-- its facts are there, nothing fails but printing a whole number of too many
-- digits, and where every setting is readable there is none to print.
import Flowscript.Proofs.Readable
import Flowscript.Proofs.Statements

namespace Flowscript

open Value (Readable)

/-! ## Snippets -/

/-- Facts from which every snippet can be written. -/
structure Writable (f : Facts) : Prop where
  slug : ∃ s, f.slug = .text s
  requests : ∃ k, f.requestsPerMinute = .int k
  window : ∃ k, f.windowMs = .int k
  dedupKey : ∃ s, f.dedupKey = .text s
  hours : ∃ x, f.ttlHours.toReal = .ok x ∧ (x.isWhole = true → ∃ k, f.ttlHours.toWhole = .ok k)

theorem writable_default (rateLimiting : Bool) : Writable { rateLimiting } where
  slug := ⟨_, rfl⟩
  requests := ⟨_, rfl⟩
  window := ⟨_, rfl⟩
  dedupKey := ⟨_, rfl⟩
  hours := ⟨_, rfl, fun _ => ⟨_, rfl⟩⟩

theorem writable_serviceFacts {s : Recipe.Service} {n : PlannedNode} {c : Choices} {f : Facts}
    (h : Recipe.serviceFacts s n c = .ok f) : Writable f := by
  obtain ⟨requests, window, rfl⟩ := Recipe.serviceFacts_eq_ok h
  exact ⟨⟨_, rfl⟩, ⟨_, rfl⟩, ⟨_, rfl⟩, ⟨_, rfl⟩, ⟨_, rfl, fun _ => ⟨_, rfl⟩⟩⟩

theorem writable_pollingFacts {source : String} {n : PlannedNode} {c : Choices} {f : Facts}
    (h : Recipe.pollingFacts source n c = .ok f) : Writable f := by
  obtain ⟨hours, _, rfl⟩ := Recipe.pollingFacts_eq_ok h
  refine ⟨⟨_, rfl⟩, ⟨_, rfl⟩, ⟨_, rfl⟩, ⟨_, rfl⟩, ⟨hours, rfl, fun hwhole => ?_⟩⟩
  cases hours with
  | finite negative m q => exact ⟨_, rfl⟩
  | infinite negative => cases hwhole
  | nan => cases hwhole

theorem writable_of_facts {n : PlannedNode} {c : Choices} {f : Facts}
    (h : n.recipe.facts n c = .ok f) : Writable f := by
  rcases Recipe.facts_cases h with ⟨source, h⟩ | ⟨s, h⟩ | rfl
  · exact writable_pollingFacts h
  · exact writable_serviceFacts h
  · exact writable_default _

theorem exists_propertyOr {f : Facts} (h : ∃ s, f.slug = .text s) (named : Value)
    (ending : String) : ∃ v, f.propertyOr named ending = .ok v := by
  obtain ⟨s, hs⟩ := h
  unfold Facts.propertyOr Facts.stem
  rw [hs]
  split
  · exact ⟨_, rfl⟩
  · exact ⟨_, rfl⟩

theorem exists_one {f : Facts} (h : ∃ s, f.slug = .text s) (named : Value) (ending : String) :
    ∃ names, (f.propertyOr named ending >>= fun v => pure [v]) = .ok names := by
  obtain ⟨v, hv⟩ := exists_propertyOr h named ending
  exact ⟨[v], by rw [hv]; rfl⟩

theorem exists_propertiesOf {f : Facts} (h : ∃ s, f.slug = .text s) (scheme : Scheme) :
    ∃ names, f.propertiesOf scheme = .ok names := by
  cases scheme with
  | basic =>
    obtain ⟨username, husername⟩ := exists_propertyOr h f.usernameProperty "_USERNAME"
    obtain ⟨password, hpassword⟩ := exists_propertyOr h f.passwordProperty "_PASSWORD"
    refine ⟨[username, password], ?_⟩
    rw [Facts.propertiesOf, husername, hpassword]
    rfl
  | apiKey | bearer | oauth2 => exact exists_one h _ _

theorem Facts.Printable.propertyOr {f : Facts} {named v : Value} {ending : String}
    (hnamed : named.isPrintable = true) (h : f.propertyOr named ending = .ok v) :
    v.isPrintable = true := by
  unfold Facts.propertyOr at h
  split at h
  · cases h
    exact hnamed
  · obtain ⟨stem, _, h⟩ := except_bind_eq_ok.mp h
    cases h
    rfl

/-- The properties that a scheme reads have names that can be printed. -/
theorem Facts.Printable.propertiesOf {f : Facts} (hf : f.Printable) {scheme : Scheme}
    {names : List Value} (h : f.propertiesOf scheme = .ok names) :
    ∀ v ∈ names, v.isPrintable = true := by
  cases scheme with
  | apiKey =>
    obtain ⟨key, hkey, h⟩ := except_bind_eq_ok.mp h
    cases h
    exact List.forall_mem_singleton.mpr (propertyOr hf.apiKeyProperty hkey)
  | bearer =>
    obtain ⟨token, htoken, h⟩ := except_bind_eq_ok.mp h
    cases h
    exact List.forall_mem_singleton.mpr (propertyOr hf.tokenProperty htoken)
  | basic =>
    obtain ⟨username, husername, h⟩ := except_bind_eq_ok.mp h
    obtain ⟨password, hpassword, h⟩ := except_bind_eq_ok.mp h
    cases h
    exact List.forall_mem_cons.mpr ⟨propertyOr hf.usernameProperty husername,
      List.forall_mem_singleton.mpr (propertyOr hf.passwordProperty hpassword)⟩
  | oauth2 =>
    obtain ⟨token, htoken, h⟩ := except_bind_eq_ok.mp h
    cases h
    refine List.forall_mem_singleton.mpr (propertyOr ?_ htoken)
    unfold Value.orElse
    split
    · exact hf.accessTokenProperty
    · exact hf.tokenProperty

/-- The values that the code for credentials prints are there, and can be printed if the facts can.
-/
theorem Writable.exists_authValues {f : Facts} (h : Writable f) :
    ∃ values, Snippet.authValues f = .ok values ∧
      (f.Printable → ∀ v ∈ values, v.isPrintable = true) := by
  unfold Snippet.authValues
  split
  · exact ⟨[], rfl, fun _ _ hv => absurd hv List.not_mem_nil⟩
  split
  · rename_i scheme _
    obtain ⟨names, hnames⟩ := exists_propertiesOf h.slug scheme
    refine ⟨_, except_bind_eq_ok.mpr ⟨names, hnames, rfl⟩, fun hf => ?_⟩
    refine List.forall_mem_append.mpr ⟨hf.propertiesOf hnames, ?_⟩
    split
    · exact List.forall_mem_singleton.mpr hf.apiKeyHeader
    · exact fun _ hv => absurd hv List.not_mem_nil
  · exact ⟨_, rfl, fun hf => List.forall_mem_singleton.mpr hf.slug⟩

theorem Writable.exists_authLines {f : Facts} (h : Writable f) :
    ∃ lines, (Snippet.authLines f).outcome = .ok lines := by
  unfold Snippet.authLines
  split
  · exact ⟨_, rfl⟩
  split
  · rename_i scheme _
    obtain ⟨names, hnames⟩ := exists_propertiesOf h.slug scheme
    exact ⟨_, Traced.bind_eq_ok.mpr ⟨names, hnames, rfl⟩⟩
  · exact ⟨_, rfl⟩

/-- Work on facts is done, or it meets a number that cannot be printed. -/
def Done {α : Type} (f : Facts) (x : Except Fault α) : Prop :=
  (∃ a, x = .ok a) ∨ x = .error (.number .tooWide) ∧ ¬ f.Printable

theorem Done.bind {α β : Type} {f : Facts} {x : Except Fault α} {g : α → Except Fault β}
    (hx : Done f x) (hg : ∀ a, x = .ok a → Done f (g a)) : Done f (x >>= g) := by
  rcases hx with ⟨a, rfl⟩ | ⟨rfl, hf⟩
  · exact hg a rfl
  · exact Or.inr ⟨rfl, hf⟩

theorem Done.requirePrintable {f : Facts} {v : Value} (h : f.Printable → v.isPrintable = true) :
    Done f v.requirePrintable := by
  unfold Value.requirePrintable
  by_cases hv : v.isPrintable = true
  · rw [if_pos hv]
    exact Or.inl ⟨(), rfl⟩
  · rw [if_neg hv]
    exact Or.inr ⟨rfl, fun hf => hv (h hf)⟩

theorem Done.wholeText {f : Facts} {k : Int} (h : f.Printable → isShort k = true) :
    Done f ((wholeText k).mapError Fault.number) := by
  unfold Flowscript.wholeText
  by_cases hk : isShort k = true
  · rw [if_pos hk]
    exact Or.inl ⟨_, rfl⟩
  · rw [if_neg hk]
    exact Or.inr ⟨rfl, fun hf => hk (h hf)⟩

theorem Writable.done_auth {f : Facts} (h : Writable f) :
    Done f (Snippet.lines .auth f).outcome := by
  obtain ⟨values, hvalues, hprint⟩ := h.exists_authValues
  have hlines : (Snippet.lines .auth f).outcome = f.authType.requirePrintable >>= fun _ =>
      (Value.list values).requirePrintable >>= fun _ => (Snippet.authLines f).outcome := by
    unfold Snippet.lines
    simp only [Traced.outcome_bind]
    show f.authType.requirePrintable >>= (fun _ => Snippet.authValues f >>= _) = _
    rw [hvalues]
    rfl
  rw [hlines]
  refine (Done.requirePrintable fun hf => hf.authType).bind fun _ _ =>
    (Done.requirePrintable fun hf => ?_).bind fun _ _ => Or.inl h.exists_authLines
  exact Value.isPrintable_list.mpr (hprint hf)

theorem Writable.done_rateLimit {f : Facts} (h : Writable f) :
    Done f (Snippet.lines .rateLimit f).outcome := by
  obtain ⟨slug, hslug⟩ := h.slug
  obtain ⟨requests, hrequests⟩ := h.requests
  obtain ⟨window, hwindow⟩ := h.window
  have hslug : f.slug.isPrintable = true := by
    rw [hslug]
    rfl
  have hlines : (Snippet.lines .rateLimit f).outcome = if f.rateLimiting then
      (wholeText requests).mapError Fault.number >>= fun first =>
        (wholeText window).mapError Fault.number >>= fun second =>
          .ok (Snippet.limitCode (Json.literal f.slug) first second) else .ok [] := by
    show (Snippet.rateLimitLines f).mapError Fault.number = _
    unfold Snippet.rateLimitLines
    rw [hrequests, hwindow, if_pos hslug]
    split
    · show (wholeText requests >>= _).mapError _ = _
      cases wholeText requests with
      | error e => rfl
      | ok first =>
        show (wholeText window >>= _).mapError _ = _
        cases wholeText window <;> rfl
    · rfl
  rw [hlines]
  split
  · refine (Done.wholeText fun hf => ?_).bind fun _ _ =>
      (Done.wholeText fun hf => ?_).bind fun _ _ => Or.inl ⟨_, rfl⟩
    · have hprint := hf.requestsPerMinute
      rwa [hrequests] at hprint
    · have hprint := hf.windowMs
      rwa [hwindow] at hprint
  · exact Or.inl ⟨_, rfl⟩

theorem Writable.exists_hoursCode {f : Facts} (h : Writable f) :
    ∃ hours, Snippet.hoursCode f.ttlHours = .ok hours := by
  obtain ⟨x, hx, hwhole⟩ := h.hours
  unfold Snippet.hoursCode
  rw [hx]
  by_cases hw : x.isWhole = true
  · obtain ⟨k, hk⟩ := hwhole hw
    exact ⟨toString k, by simp [bind, Except.bind, hw, hk, pure, Except.pure]⟩
  · exact ⟨f.ttlHours.plain, by simp [bind, Except.bind, hw, pure, Except.pure]⟩

/-- Once the facts of a node are there, a snippet fails only at a number that cannot be printed. -/
theorem Writable.done_lines {f : Facts} (h : Writable f) (kind : SlotKind) :
    Done f (Snippet.lines kind f).outcome := by
  cases kind with
  | auth => exact h.done_auth
  | error => exact Or.inl ⟨_, rfl⟩
  | rateLimit => exact h.done_rateLimit
  | dedup =>
    obtain ⟨hours, hhours⟩ := h.exists_hoursCode
    obtain ⟨key, hkey⟩ := h.dedupKey
    refine Or.inl ⟨_, except_bind_eq_ok.mpr ⟨hours, except_mapError_eq_ok.mpr hhours,
      except_bind_eq_ok.mpr ⟨key ++ ":", ?_, rfl⟩⟩⟩
    rw [Facts.itemStem, hkey]

theorem Writable.done_intoSheet {f : Facts} (h : Writable f) (s : Sheet) (kind : SlotKind) :
    Done f (Snippet.intoSheet s kind f).outcome := by
  unfold Snippet.intoSheet
  split
  · rw [Traced.outcome_bind]
    exact (h.done_lines kind).bind fun _ _ => Or.inl ⟨_, rfl⟩
  · exact Or.inl ⟨_, rfl⟩

theorem Writable.done_intoSheetAll {f : Facts} (h : Writable f) (kinds : List SlotKind)
    (s : Sheet) : Done f (Snippet.intoSheetAll s f kinds).outcome := by
  induction kinds generalizing s with
  | nil => exact Or.inl ⟨_, rfl⟩
  | cons kind rest ih =>
    rw [Snippet.intoSheetAll, Traced.outcome_bind]
    refine (h.done_intoSheet s kind).bind fun r _ => ?_
    dsimp only
    rw [Traced.outcome_bind]
    exact (ih r.1).bind fun _ _ => Or.inl ⟨_, rfl⟩

/-! ## Functions -/

section

variable {n : PlannedNode} {c : Choices} {f : Fault}

theorem Value.Readable.description (h : Readable (.object n.config)) :
    ((n.config.get? "description").getD .null).isPrintable = true := by
  cases hv : n.config.get? "description" with
  | none => rfl
  | some v => exact Readable.isPrintable (h.get hv)

theorem Value.Readable.body (h : Readable (.object n.config)) {o : Outline}
    (ho : (n.recipe.outline n c).outcome = .ok o) :
    ∃ steps, (n.recipe.body n c).outcome = .ok steps := by
  obtain ⟨hsteps, hfields⟩ := Recipe.printable_outline h ho
  have hprintable : printable (o.steps ++
      Recipe.resultSteps (n.recipe.resultOf n) n.recipe.status o.fields) = true := by
    rw [printable_append, Recipe.printable_resultSteps, hsteps, hfields]
    rfl
  exact ⟨_, Recipe.body_eq_ok.mpr ⟨o, ho, rfl, hprintable⟩⟩

theorem exists_draft (h : ((n.config.get? "description").getD .null).isPrintable = true)
    {steps : List Step} (hsteps : (n.recipe.body n c).outcome = .ok steps) :
    ∃ draft, (NodeFunction.draft n c).outcome = .ok draft :=
  ⟨_, Traced.bind_eq_ok.mpr ⟨(), Value.requirePrintable_eq_ok.mpr h,
    Traced.bind_eq_ok.mpr ⟨steps, hsteps, rfl⟩⟩⟩

/-- The body of a function cannot be written where it cannot be outlined, or where it has a number
that cannot be printed. -/
theorem body_eq_error (h : (n.recipe.body n c).outcome = .error f) :
    (n.recipe.outline n c).outcome = .error f ∨
      f = .number .tooWide ∧ ¬ Readable (.object n.config) := by
  cases ho : (n.recipe.outline n c).outcome with
  | error e =>
    have herror : (n.recipe.body n c).outcome = .error e := Traced.bind_eq_error.mpr (Or.inl ho)
    cases herror.symm.trans h
    exact Or.inl rfl
  | ok o =>
    right
    refine ⟨?_, fun hconfig => ?_⟩
    · rcases Traced.bind_eq_error.mp h with herror | ⟨_, _, herror⟩
      · cases ho.symm.trans herror
      · dsimp only at herror
        split at herror
        · cases herror
        · cases herror
          rfl
    · obtain ⟨steps, hsteps⟩ := hconfig.body ho
      cases hsteps.symm.trans h

/-- A function cannot be written where its body cannot be outlined or its facts are not there; what
else goes wrong is a number that cannot be printed. -/
theorem build_eq_error (h : (NodeFunction.build n c).outcome = .error f) :
    ((n.recipe.outline n c).outcome >>= fun _ => n.recipe.facts n c) = .error f ∨
      f = .number .tooWide ∧ ¬ Readable (.object n.config) := by
  rcases Traced.bind_eq_error.mp h with hdraft | ⟨draft, hdraft, h⟩
  · rcases Traced.bind_eq_error.mp hdraft with hprint | ⟨_, _, hdraft⟩
    · obtain ⟨hwide, rfl⟩ := Value.requirePrintable_eq_error.mp hprint
      exact Or.inr ⟨rfl, fun hconfig => hwide hconfig.description⟩
    · rcases Traced.bind_eq_error.mp hdraft with hbody | ⟨_, _, hdraft⟩
      · refine (body_eq_error hbody).imp_left fun herror => ?_
        exact except_bind_eq_error.mpr (Or.inl herror)
      · cases hdraft
  obtain ⟨body, hbody, _⟩ := NodeFunction.draft_eq_ok hdraft
  obtain ⟨o, ho, _⟩ := Recipe.body_eq_ok.mp hbody
  rcases Traced.bind_eq_error.mp h with hfacts | ⟨facts, hfacts, h⟩
  · exact Or.inl (except_bind_eq_error.mpr (Or.inr ⟨o, ho, hfacts⟩))
  right
  rcases Traced.bind_eq_error.mp h with hinto | ⟨r, _, h⟩
  · rcases (writable_of_facts hfacts).done_intoSheetAll SlotKind.all draft with
      ⟨r, hr⟩ | ⟨hwide, hf⟩
    · cases hr.symm.trans hinto
    · cases hwide.symm.trans hinto
      exact ⟨rfl, fun hconfig => hf (printable_facts hconfig hfacts)⟩
  · dsimp only at h
    split at h
    · cases h
    · cases h

/-- Where the settings are readable, nothing else goes wrong. -/
theorem Value.Readable.build_eq_error (hconfig : Readable (.object n.config))
    (h : ((n.recipe.outline n c).outcome >>= fun _ => n.recipe.facts n c) = .error f) :
    (NodeFunction.build n c).outcome = .error f := by
  rcases except_bind_eq_error.mp h with houtline | ⟨o, ho, hfacts⟩
  · refine Traced.bind_eq_error.mpr (Or.inl ?_)
    exact Traced.bind_eq_error.mpr (Or.inr
      ⟨(), Value.requirePrintable_eq_ok.mpr hconfig.description,
        Traced.bind_eq_error.mpr (Or.inl (Traced.bind_eq_error.mpr (Or.inl houtline)))⟩)
  · obtain ⟨steps, hsteps⟩ := hconfig.body ho
    obtain ⟨draft, hdraft⟩ := exists_draft hconfig.description hsteps
    exact Traced.bind_eq_error.mpr
      (Or.inr ⟨draft, hdraft, Traced.bind_eq_error.mpr (Or.inl hfacts)⟩)

end

end Flowscript
