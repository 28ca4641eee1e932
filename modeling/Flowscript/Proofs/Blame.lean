-- Who is blamed for a bad setting. Where a setting of a node cannot be used,
-- writing the function of the node and listing its properties mostly fail
-- with a fault that names the node. A few values get past the checks of the
-- settings and fail later with a fault that names nobody; they are listed
-- here. A whole number of too many digits names nobody either, wherever it is
-- printed, but no text can hold one; besides these there are no others.
import Flowscript.Proofs.Installing
import Flowscript.Proofs.Writable

namespace Flowscript

open Value (Readable)

/-! ## Blame -/

/-- The fault is an expected one, and its wording blames the node with the id. -/
def Fault.Blames (f : Fault) (id : String) : Prop :=
  f.isExpected = true ∧ ∃ what, f.message = "Node '" ++ id ++ "': " ++ what

theorem blames_config (id : String) (problem : ConfigProblem) :
    (Fault.config id problem).Blames id := ⟨rfl, problem.message, rfl⟩

/-- Work for a node fails with a fault that does not blame the node only where `escapes` says so, or
where a number cannot be printed; where the settings are `clear`, every number can be printed, and
the work fails just where `escapes` says so. -/
structure Guarded {α : Type} (id : String) (clear : Prop) (escapes : Fault → Prop)
    (x : Except Fault α) : Prop where
  escape : ∀ f, x = .error f → ¬ f.Blames id → escapes f ∨ f = .number .tooWide ∧ ¬ clear
  fails : clear → ∀ f, escapes f → x = .error f ∧ ¬ f.Blames id

section Guarded

variable {α β : Type} {id : String} {clear : Prop} {escapes : Fault → Prop}

theorem guarded_ok (a : α) : Guarded id clear (fun _ => False) (.ok a : Except Fault α) where
  escape := by
    intro f h
    cases h
  fails := fun _ _ => False.elim

theorem guarded_config (problem : ConfigProblem) :
    Guarded id clear (fun _ => False) (.error (.config id problem) : Except Fault α) where
  escape := by
    intro f h hblames
    cases h
    exact absurd (blames_config id problem) hblames
  fails := fun _ _ => False.elim

theorem guarded_unexpected {fault : Fault} (hfault : fault.isExpected = false) :
    Guarded id clear (· = fault) (.error fault : Except Fault α) where
  escape := by
    intro f h _
    cases h
    exact Or.inl rfl
  fails := by
    rintro _ f rfl
    refine ⟨rfl, ?_⟩
    rintro ⟨h, _⟩
    cases hfault.symm.trans h

theorem guarded_tooWide (h : ¬ clear) :
    Guarded id clear escapes (.error (.number .tooWide) : Except Fault α) where
  escape := by
    intro f hf _
    cases hf
    exact Or.inr ⟨rfl, h⟩
  fails := fun hclear => absurd hclear h

theorem Guarded.iff {x : Except Fault α} (h : Guarded id clear escapes x) (hclear : clear)
    (f : Fault) : x = .error f ∧ ¬ f.Blames id ↔ escapes f := by
  refine ⟨fun hf => ?_, h.fails hclear f⟩
  exact (h.escape f hf.1 hf.2).resolve_right fun hwide => hwide.2 hclear

theorem Guarded.congr {escapes' : Fault → Prop} {x : Except Fault α}
    (h : Guarded id clear escapes x) (hiff : ∀ f, escapes f ↔ escapes' f) :
    Guarded id clear escapes' x where
  escape := fun f herror hblames => (h.escape f herror hblames).imp_left (hiff f).mp
  fails := fun hclear f hf => h.fails hclear f ((hiff f).mpr hf)

theorem Guarded.bind {x : Except Fault α} {g : α → Except Fault β}
    (hx : Guarded id clear escapes x) {later : α → Fault → Prop}
    (hg : ∀ a, x = .ok a → Guarded id clear (later a) (g a)) :
    Guarded id clear (fun f => escapes f ∨ ∃ a, x = .ok a ∧ later a f) (x >>= g) where
  escape := by
    intro f herror hblames
    rcases except_bind_eq_error.mp herror with herror | ⟨a, ha, herror⟩
    · exact (hx.escape f herror hblames).imp_left Or.inl
    · exact ((hg a ha).escape f herror hblames).imp_left fun h => Or.inr ⟨a, ha, h⟩
  fails := by
    rintro hclear f (h | ⟨a, ha, h⟩)
    · obtain ⟨herror, hblames⟩ := hx.fails hclear f h
      exact ⟨except_bind_eq_error.mpr (Or.inl herror), hblames⟩
    · obtain ⟨herror, hblames⟩ := (hg a ha).fails hclear f h
      exact ⟨except_bind_eq_error.mpr (Or.inr ⟨a, ha, herror⟩), hblames⟩

/-- Work that cannot fail any more lets nothing escape. -/
theorem Guarded.bind_ok {x : Except Fault α} {g : α → Except Fault β}
    (hx : Guarded id clear escapes x) (hg : ∀ a, ∃ b, g a = .ok b) :
    Guarded id clear escapes (x >>= g) := by
  have hok : ∀ a, x = .ok a → Guarded id clear (fun _ => False) (g a) := by
    intro a _
    obtain ⟨b, hb⟩ := hg a
    rw [hb]
    exact guarded_ok b
  refine (hx.bind hok).congr fun f => or_iff_left ?_
  rintro ⟨_, _, h⟩
  exact h

theorem Guarded.requirePrintable {v : Value} (hv : clear → v.isPrintable = true)
    {g : Unit → Except Fault β}
    (hg : v.isPrintable = true → Guarded id clear escapes (g ())) :
    Guarded id clear escapes (v.requirePrintable >>= g) := by
  unfold Value.requirePrintable
  by_cases hprint : v.isPrintable = true
  · rw [if_pos hprint]
    exact hg hprint
  · rw [if_neg hprint]
    exact guarded_tooWide fun hclear => hprint (hv hclear)

/-- Printing a value of clear settings lets nothing escape. -/
theorem Guarded.print {v : Value} (hv : clear → v.isPrintable = true)
    {g : String → Except Fault β}
    (hg : v.isPrintable = true → Guarded id clear escapes (g v.plain)) :
    Guarded id clear escapes (v.print >>= g) := by
  have hprint : (v.print >>= g) = v.requirePrintable >>= fun _ => g v.plain := by
    unfold Value.print
    rw [bind_assoc]
    rfl
  rw [hprint]
  exact Guarded.requirePrintable hv hg

theorem guarded_refuse {key : String} {v : Value} (hv : clear → v.isPrintable = true) :
    Guarded id clear (fun _ => False) (Config.refuse id key v : Except Fault α) :=
  Guarded.requirePrintable hv fun _ => guarded_config _

end Guarded

theorem outcome_bind_bind {α β γ : Type} (x : Traced α) (f : α → Traced β) (g : β → Except Fault γ) :
    ((x >>= f).outcome >>= g) = x.outcome >>= fun a => (f a).outcome >>= g := by
  rw [Traced.outcome_bind]
  cases x.outcome <;> rfl

/-! ## Whole numbers -/

/-- A setting that has to be a whole number. -/
structure Setting where
  config : Fields
  key : String

namespace Setting

/-- The setting is an infinite number. -/
def IsInfinite (s : Setting) : Prop :=
  ∃ negative, Config.get? s.config s.key = some (.real (.infinite negative))

/-- The setting is absent, or a whole number can be made of it; a truth value is none. -/
def Converts (s : Setting) : Prop :=
  ∀ v, Config.get? s.config s.key = some v → (∀ b, v ≠ .bool b) ∧ ∃ k, v.toWhole = .ok k

/-- The first of the settings of which no whole number can be made is infinite. -/
def FirstInfinite : List Setting → Prop
  | [] => False
  | s :: rest => s.IsInfinite ∨ s.Converts ∧ FirstInfinite rest

theorem not_converts_of_isInfinite {s : Setting} (h : s.IsInfinite) : ¬ s.Converts := by
  intro hconverts
  obtain ⟨negative, hv⟩ := h
  obtain ⟨k, hk⟩ := (hconverts _ hv).2
  cases hk

/-- How reading a setting ends. -/
inductive Read (id : String) (s : Setting) : Except Fault Int → Prop where
  | converts (h : s.Converts) (k : Int) : Read id s (.ok k)
  | infinite (h : s.IsInfinite) : Read id s (.error (.number .infinite))
  | refused (hconverts : ¬ s.Converts) (hinfinite : ¬ s.IsInfinite) {v : Value}
      (hv : Config.get? s.config s.key = some v) : Read id s (Config.refuse id s.key v)

theorem read_of_bool {id : String} {s : Setting} {b : Bool}
    (h : Config.get? s.config s.key = some (.bool b)) (default : Int) :
    s.Read id (Config.whole id s.config s.key default) := by
  have hwhole : Config.whole id s.config s.key default = Config.refuse id s.key (.bool b) := by
    unfold Config.whole Config.getD
    rw [h]
    rfl
  rw [hwhole]
  refine .refused (fun hconverts => (hconverts _ h).1 b rfl) ?_ h
  rintro ⟨negative, hinfinite⟩
  cases h.symm.trans hinfinite

theorem read_of_some {id : String} {s : Setting} {v : Value}
    (h : Config.get? s.config s.key = some v) (hbool : ∀ b, v ≠ .bool b) (default : Int) :
    s.Read id (Config.whole id s.config s.key default) := by
  have hgetD : Config.getD s.config s.key (.int default) = v := by
    rw [Config.getD, h]
    rfl
  have hconverts : s.Converts ↔ ∃ k, v.toWhole = .ok k := by
    unfold Converts
    rw [h]
    refine ⟨fun hall => (hall v rfl).2, ?_⟩
    rintro hok w hw
    cases hw
    exact ⟨hbool, hok⟩
  have hinfinite : s.IsInfinite ↔ v.toWhole = .error .infinite := by
    unfold IsInfinite
    rw [h, Value.toWhole_eq_infinite]
    simp
  unfold Config.whole
  simp only [hgetD]
  split
  · rename_i k hk
    exact .converts (hconverts.mpr ⟨k, hk⟩) k
  · rename_i hk
    exact .infinite (hinfinite.mpr hk)
  · rename_i e hne he
    refine .refused ?_ ?_ h
    · rw [hconverts]
      rintro ⟨k, hk⟩
      cases he.symm.trans hk
    · rw [hinfinite]
      exact fun hk => hne (Except.error.inj (he.symm.trans hk))

theorem read_whole (id : String) (s : Setting) (default : Int) :
    s.Read id (Config.whole id s.config s.key default) := by
  cases hv : Config.get? s.config s.key with
  | none =>
    have hwhole : Config.whole id s.config s.key default = .ok default := by
      unfold Config.whole Config.getD
      rw [hv]
      rfl
    rw [hwhole]
    refine .converts (fun v h => ?_) default
    cases hv.symm.trans h
  | some v =>
    by_cases hbool : ∃ b, v = .bool b
    · obtain ⟨b, rfl⟩ := hbool
      exact read_of_bool hv default
    · exact read_of_some hv (fun b hb => hbool ⟨b, hb⟩) default

/-- Reading a setting succeeds just where it converts. -/
theorem exists_whole_iff {id : String} {s : Setting} {default : Int} :
    (∃ k, Config.whole id s.config s.key default = .ok k) ↔ s.Converts := by
  have hread := read_whole id s default
  generalize Config.whole id s.config s.key default = x at hread ⊢
  cases hread with
  | converts h k => exact iff_of_true ⟨k, rfl⟩ h
  | infinite h => exact iff_of_false (by simp) (not_converts_of_isInfinite h)
  | refused h _ _ => exact iff_of_false (by simp [Config.refuse_eq]) h

/-- Reading a setting blames the node for every bad value but an infinite one. -/
theorem guarded_whole {clear : Prop} (id : String) {s : Setting}
    (hs : clear → Readable (.object s.config)) (default : Int) :
    Guarded id clear (fun f => f = .number .infinite ∧ s.IsInfinite)
      (Config.whole id s.config s.key default) := by
  have hread := read_whole id s default
  generalize Config.whole id s.config s.key default = x at hread ⊢
  cases hread with
  | converts h k =>
    refine (guarded_ok k).congr fun f => iff_of_false not_false ?_
    exact fun hf => not_converts_of_isInfinite hf.2 h
  | infinite h => exact (guarded_unexpected rfl).congr fun f => (and_iff_left h).symm
  | refused _ h hv =>
    have hprint : clear → _ :=
      fun hclear => Readable.isPrintable ((hs hclear).get (Config.get?_eq_some hv))
    exact (guarded_refuse hprint).congr fun f => iff_of_false not_false fun hf => h hf.2

/-- What escapes where settings are read in turn and the work then goes on: an infinite setting, or
what escapes from the rest of the work once all the settings have been read. -/
def After (settings : List Setting) (escapes : Fault → Prop) (f : Fault) : Prop :=
  (f = .number .infinite ∧ FirstInfinite settings) ∨ ((∀ s ∈ settings, s.Converts) ∧ escapes f)

theorem after_nil (escapes : Fault → Prop) (f : Fault) : After [] escapes f ↔ escapes f := by
  simp [After, FirstInfinite]

theorem guarded_read {α : Type} {id : String} {clear : Prop} {s : Setting} {rest : List Setting}
    {default : Int} {escapes : Fault → Prop} {g : Int → Except Fault α}
    (hs : clear → Readable (.object s.config))
    (hg : ∀ k, Config.whole id s.config s.key default = .ok k →
      Guarded id clear (After rest escapes) (g k)) :
    Guarded id clear (After (s :: rest) escapes)
      (Config.whole id s.config s.key default >>= g) := by
  refine ((guarded_whole id hs default).bind hg).congr fun f => ?_
  have hok : (∃ k, Config.whole id s.config s.key default = .ok k ∧ After rest escapes f) ↔
      s.Converts ∧ After rest escapes f := by
    rw [exists_and_right, exists_whole_iff]
  rw [hok]
  simp only [After, FirstInfinite, List.forall_mem_cons]
  tauto

end Setting

/-! ## Functions -/

/-- Work for a node whose settings are clear where they are readable. -/
abbrev PlannedNode.Guards {α : Type} (n : PlannedNode) (escapes : Fault → Prop)
    (x : Except Fault α) : Prop :=
  Guarded n.id (Readable (.object n.config)) escapes x

theorem guarded_build {n : PlannedNode} {c : Choices} {escapes : Fault → Prop}
    (h : n.Guards escapes ((n.recipe.outline n c).outcome >>= fun _ => n.recipe.facts n c)) :
    n.Guards escapes (NodeFunction.build n c).outcome where
  escape := by
    intro f herror hblames
    rcases build_eq_error herror with hwork | hwide
    · exact h.escape f hwork hblames
    · exact Or.inr hwide
  fails := by
    intro hconfig f hf
    obtain ⟨hwork, hblames⟩ := h.fails hconfig f hf
    exact ⟨hconfig.build_eq_error hwork, hblames⟩

/-! ## What escapes -/

/-- The settings that have to be whole numbers where a service is called. -/
def serviceSettings (config : Fields) : List Setting :=
  [⟨config, "requestsPerMinute"⟩, ⟨Recipe.rateLimits config, "requestsPerMinute"⟩,
    ⟨Recipe.rateLimits config, "windowMs"⟩]

/-- The settings of a kind of node that have to be whole numbers, in the order in which they are
read. -/
def wholeSettings (config : Fields) : Option Kind → List Setting
  | some .gmailTrigger => [⟨config, "maxResults"⟩]
  | some .gmailRead => [⟨config, "maxResults"⟩]
  | some .delay => [⟨config, "delayMs"⟩, ⟨config, "delaySeconds"⟩]
  | some .httpRequest => serviceSettings config
  | some .slackPost => serviceSettings config
  | _ => []

/-- The time to live is a whole number beyond all doubles. -/
def HoursTooLarge (config : Fields) : Prop :=
  ∃ k negative, Config.get? config "dedupTtlHours" = some (.int k) ∧
    Binary64.ofInt k = .infinite negative

/-- The pause has to be cut short, and it has too many digits for the note about it. -/
def PauseTooWide (n : PlannedNode) : Prop :=
  ∃ milliseconds seconds, Config.whole n.id n.config "delayMs" 1000 = .ok milliseconds ∧
    Config.whole n.id n.config "delaySeconds" 0 = .ok seconds ∧
    Recipe.maxDelay < milliseconds + seconds * 1000 ∧
    isShort (milliseconds + seconds * 1000) = false

/-- The faults that escape from writing the function of a node without naming it, each with the
setting that is to blame. -/
inductive Escapes (n : PlannedNode) : Fault → Prop where
  | infinite (h : Setting.FirstInfinite (wholeSettings n.config n.kind?)) :
      Escapes n (.number .infinite)
  | tooWide (hkind : n.kind? = some .delay) (h : PauseTooWide n) : Escapes n (.number .tooWide)
  | tooLarge {source : String} (hpolls : n.Polls source)
      (hread : ∀ s ∈ wholeSettings n.config n.kind?, s.Converts) (h : HoursTooLarge n.config) :
      Escapes n (.number .tooLarge)

theorem guarded_serviceFacts (s : Recipe.Service) (n : PlannedNode) (c : Choices) :
    n.Guards (Setting.After (serviceSettings n.config) fun _ => False)
      (Recipe.serviceFacts s n c) := by
  refine Guarded.print (fun h => h.getText _ _) fun _ => Guarded.print (fun h => h.getText _ _)
    fun _ => Guarded.print (fun h => h.getText _ _) fun _ => ?_
  refine Setting.guarded_read id fun own _ =>
    Setting.guarded_read Readable.rateLimits fun requests _ =>
      Setting.guarded_read Readable.rateLimits fun window _ => ?_
  exact (guarded_ok _).congr fun f => (Setting.after_nil (fun _ => False) f).symm

theorem Value.toReal_eq_tooLarge {v : Value} :
    v.toReal = .error .tooLarge ↔
      ∃ k negative, v = .int k ∧ Binary64.ofInt k = .infinite negative := by
  have hint (k : Int) : realOfInt k = .error .tooLarge ↔
      ∃ negative, Binary64.ofInt k = .infinite negative := by
    unfold realOfInt
    split
    · rename_i negative h
      exact iff_of_true rfl ⟨negative, h⟩
    · rename_i hne
      simpa using hne
  cases v with
  | int k => simp [toReal, hint]
  | bool b => cases b <;> exact iff_of_false (by decide) (by simp)
  | text s =>
    cases hread : Numeral.readReal? s with
    | none => simp [toReal, hread]
    | some x => simp [toReal, hread]
  | null => simp [toReal]
  | real x => simp [toReal]
  | list vs => simp [toReal]
  | object fields => simp [toReal]

/-- The facts of a node that polls blame the node for every bad time to live but one that is too
large. -/
theorem guarded_pollingFacts (source : String) (n : PlannedNode) (c : Choices) :
    n.Guards (fun f => f = .number .tooLarge ∧ HoursTooLarge n.config)
      (Recipe.pollingFacts source n c) := by
  have hlarge : HoursTooLarge n.config ↔
      (Config.getD n.config "dedupTtlHours" (.int 24)).toReal = .error .tooLarge := by
    rw [Value.toReal_eq_tooLarge]
    unfold HoursTooLarge Config.getD
    cases Config.get? n.config "dedupTtlHours" with
    | none =>
      refine iff_of_false (by simp) ?_
      rintro ⟨k, negative, hk, hinfinite⟩
      cases hk
      cases hinfinite
    | some v => simp
  unfold Recipe.pollingFacts
  dsimp only
  rw [hlarge]
  split
  · rename_i hours hours_eq
    exact (guarded_ok _).congr fun f => by simp [hours_eq]
  · rename_i herror
    exact (guarded_unexpected rfl).congr fun f => by simp [herror]
  · rename_i e hne herror
    refine (guarded_refuse fun h => ?_).congr fun f => iff_of_false not_false ?_
    · exact Readable.isPrintable (h.getD "dedupTtlHours" (.int (by decide)))
    rintro ⟨_, htoo⟩
    exact hne (Except.error.inj (herror.symm.trans htoo))

theorem guarded_cappedDelay {clear : Prop} (id : String) (total : Int) :
    Guarded id clear (fun f => f = .number .tooWide ∧ Recipe.maxDelay < total ∧
      isShort total = false) (Recipe.cappedDelay id total).outcome := by
  unfold Recipe.cappedDelay wholeText
  by_cases hcap : Recipe.maxDelay < total
  · rw [if_pos hcap]
    by_cases hshort : isShort total = true
    · rw [if_pos hshort]
      exact (guarded_ok _).congr fun f => by simp [hshort]
    · rw [if_neg hshort]
      exact (guarded_unexpected rfl).congr fun f => by simp [hcap, hshort]
  · rw [if_neg hcap]
    exact (guarded_ok _).congr fun f => by simp [hcap]

/-- What escapes once the settings that have to be whole numbers have been read. -/
def EscapesLater (n : PlannedNode) (f : Fault) : Prop :=
  (f = .number .tooWide ∧ n.kind? = some .delay ∧ PauseTooWide n) ∨
    (f = .number .tooLarge ∧ (∃ source, n.Polls source) ∧ HoursTooLarge n.config)

theorem escapes_iff {n : PlannedNode} {f : Fault} :
    Escapes n f ↔ Setting.After (wholeSettings n.config n.kind?) (EscapesLater n) f := by
  constructor
  · intro h
    cases h with
    | infinite h => exact Or.inl ⟨rfl, h⟩
    | tooWide hkind h =>
      refine Or.inr ⟨?_, Or.inl ⟨rfl, hkind, h⟩⟩
      obtain ⟨milliseconds, seconds, hmilliseconds, hseconds, _⟩ := h
      rw [hkind]
      simp only [wholeSettings, List.forall_mem_cons]
      exact ⟨Setting.exists_whole_iff.mp ⟨_, hmilliseconds⟩,
        Setting.exists_whole_iff.mp ⟨_, hseconds⟩, List.forall_mem_nil _⟩
    | tooLarge hpolls hread h => exact Or.inr ⟨hread, Or.inr ⟨rfl, ⟨_, hpolls⟩, h⟩⟩
  · rintro (⟨rfl, h⟩ | ⟨hread, ⟨rfl, hkind, h⟩ | ⟨rfl, ⟨source, hpolls⟩, h⟩⟩)
    · exact .infinite h
    · exact .tooWide hkind h
    · exact .tooLarge hpolls hread h

/-- A node that neither waits nor polls lets nothing escape but an infinite setting. -/
theorem not_escapesLater {n : PlannedNode} (hdelay : n.kind? ≠ some .delay)
    (hpolls : n.kind?.bind Kind.source? = none) (f : Fault) : ¬ EscapesLater n f := by
  rintro (⟨_, hkind, _⟩ | ⟨_, ⟨source, hsource⟩, _⟩)
  · exact hdelay hkind
  · cases hpolls.symm.trans hsource

theorem guarded_delay {n : PlannedNode} {c : Choices} (hk : n.kind? = some .delay) :
    n.Guards (Setting.After (wholeSettings n.config n.kind?) (EscapesLater n))
      ((Recipe.delay.outline n c).outcome >>= fun _ => Recipe.delay.facts n c) := by
  have hlater (f : Fault) : EscapesLater n f ↔ f = .number .tooWide ∧ PauseTooWide n := by
    have hpolls (source : String) : ¬ n.Polls source := by
      unfold PlannedNode.Polls
      rw [hk]
      intro h
      cases h
    simp [EscapesLater, hk, hpolls]
  rw [hk]
  have houtline : ((Recipe.delay.outline n c).outcome >>= fun _ => Recipe.delay.facts n c) =
      Config.whole n.id n.config "delayMs" 1000 >>= fun milliseconds =>
        Config.whole n.id n.config "delaySeconds" 0 >>= fun seconds =>
          (Recipe.cappedDelay n.id (milliseconds + seconds * 1000)).outcome >>= fun _ =>
            Recipe.delay.facts n c := by
    unfold Recipe.delay
    simp only [outcome_bind_bind]
    rfl
  rw [houtline]
  refine Setting.guarded_read id fun milliseconds hmilliseconds =>
    Setting.guarded_read id fun seconds hseconds => ?_
  refine ((guarded_cappedDelay n.id _).bind_ok fun _ => ⟨_, rfl⟩).congr fun f => ?_
  rw [Setting.after_nil, hlater]
  refine and_congr_right fun _ => ?_
  constructor
  · rintro ⟨hcap, hwide⟩
    exact ⟨milliseconds, seconds, hmilliseconds, hseconds, hcap, hwide⟩
  · rintro ⟨_, _, hms, hs, hcap, hwide⟩
    cases hmilliseconds.symm.trans hms
    cases hseconds.symm.trans hs
    exact ⟨hcap, hwide⟩

theorem guarded_maxResults {r : Recipe} {n : PlannedNode} {c : Choices} {g : Int → Outline}
    {default : String} (houtline : r.outline n c = (do
      (Config.getText n.config "query" default).requirePrintable
      let maxResults ← Config.whole n.id n.config "maxResults" 10
      return g maxResults))
    {escapes : Fault → Prop} (hfacts : n.Guards escapes (r.facts n c)) :
    n.Guards (Setting.After [⟨n.config, "maxResults"⟩] escapes)
      ((r.outline n c).outcome >>= fun _ => r.facts n c) := by
  rw [houtline, outcome_bind_bind]
  refine Guarded.requirePrintable (fun h => h.getText _ _) fun _ => ?_
  rw [outcome_bind_bind]
  refine Setting.guarded_read id fun k _ => ?_
  exact hfacts.congr fun f => (Setting.after_nil escapes f).symm

/-- Where an outline prints one setting, what escapes is what escapes from the facts. -/
theorem guarded_printed {r : Recipe} {n : PlannedNode} {c : Choices} {key default : String}
    {g : String → Outline} (houtline : r.outline n c = (do
      let text ← (Config.getText n.config key default).print
      return g text))
    {escapes : Fault → Prop} (hfacts : n.Guards escapes (r.facts n c)) :
    n.Guards escapes ((r.outline n c).outcome >>= fun _ => r.facts n c) := by
  rw [houtline, outcome_bind_bind]
  exact Guarded.print (fun h => h.getText _ _) fun _ => hfacts

/-- Nothing escapes from work for a node that has no number to read. -/
theorem Guarded.of_plain {α : Type} {n : PlannedNode} {k : Option Kind} {x : Except Fault α}
    (h : n.Guards (fun _ => False) x) (hk : n.kind? = k)
    (hsettings : wholeSettings n.config k = []) (hdelay : k ≠ some .delay)
    (hsource : k.bind Kind.source? = none) :
    n.Guards (Setting.After (wholeSettings n.config n.kind?) (EscapesLater n)) x := by
  subst hk
  refine h.congr fun f => ?_
  rw [hsettings, Setting.after_nil]
  exact iff_of_false not_false (not_escapesLater hdelay hsource f)

theorem exists_comparisonCode (id operator : String) :
    ∃ expression, (Recipe.comparisonCode id operator).outcome = .ok expression := by
  unfold Recipe.comparisonCode
  split
  · exact ⟨_, rfl⟩
  · exact ⟨_, rfl⟩

theorem guarded_polls {n : PlannedNode} {source : String} (h : n.Polls source) (c : Choices) :
    n.Guards (EscapesLater n) (Recipe.pollingFacts source n c) := by
  have hdelay : n.kind? ≠ some .delay := by
    intro hk
    rcases h.kind with ⟨hkind, _⟩ | ⟨hkind, _⟩
    all_goals cases hk.symm.trans hkind
  refine (guarded_pollingFacts source n c).congr fun f => ?_
  have hexists : ∃ source, n.Polls source := ⟨source, h⟩
  simp [EscapesLater, hdelay, hexists]

theorem guarded_service {n : PlannedNode} {k : Kind} (hk : n.kind? = some k)
    (hsettings : wholeSettings n.config (some k) = serviceSettings n.config)
    (hdelay : some k ≠ some .delay) (hsource : k.source? = none) (s : Recipe.Service) (c : Choices) :
    n.Guards (Setting.After (wholeSettings n.config n.kind?) (EscapesLater n))
      (Recipe.serviceFacts s n c) := by
  refine (guarded_serviceFacts s n c).congr fun f => ?_
  have hlater : EscapesLater n = fun _ => False := by
    funext f
    refine eq_false (not_escapesLater ?_ ?_ f)
    · rwa [hk]
    · rw [hk]
      exact hsource
  rw [hk, hsettings, hlater]

theorem guarded_gmailRead {n : PlannedNode} {c : Choices} (hk : n.kind? = some .gmailRead) :
    n.Guards (Setting.After (wholeSettings n.config n.kind?) (EscapesLater n))
      ((Recipe.gmailRead.outline n c).outcome >>= fun _ => Recipe.gmailRead.facts n c) := by
  have hlater : n.Guards (EscapesLater n) (Recipe.gmailRead.facts n c) := by
    refine (guarded_ok _).congr fun f => iff_of_false not_false (not_escapesLater ?_ ?_ f)
    · rw [hk]
      decide
    · rw [hk]
      rfl
  rw [hk]
  exact guarded_maxResults rfl hlater

/-- An operator that is not known is replaced, so a condition can always be written. -/
theorem guarded_condition (n : PlannedNode) (c : Choices) :
    n.Guards (fun _ => False)
      ((Recipe.condition.outline n c).outcome >>= fun _ => Recipe.condition.facts n c) := by
  have houtline : ((Recipe.condition.outline n c).outcome >>= fun _ => Recipe.condition.facts n c) =
      (Config.getText n.config "operator" "==").print >>= fun operator =>
        (Recipe.comparisonCode n.id operator).outcome >>= fun _ =>
          Recipe.condition.facts n c := by
    unfold Recipe.condition
    simp only [outcome_bind_bind]
    rfl
  rw [houtline]
  refine Guarded.print (fun h => h.getText _ _) fun _ => ?_
  obtain ⟨expression, he⟩ :=
    exists_comparisonCode n.id (Config.getText n.config "operator" "==").plain
  rw [he]
  exact guarded_ok _

/-- Writing the function of a node blames the node for every bad setting, but for those that are
listed. -/
theorem guarded_work (n : PlannedNode) (c : Choices) :
    n.Guards (Escapes n) ((n.recipe.outline n c).outcome >>= fun _ => n.recipe.facts n c) := by
  refine Guarded.congr ?_ fun f => escapes_iff.symm
  cases hk : n.kind? with
  | none =>
    rw [PlannedNode.recipe_of_none hk, ← hk]
    exact (guarded_ok _).of_plain hk rfl (by decide) rfl
  | some k =>
    rw [PlannedNode.recipe_of_kind hk, ← hk]
    cases k with
    | delay => exact guarded_delay hk
    | gmailTrigger =>
      have hpolls : n.Polls "gmail" := .of_kind hk rfl
      rw [hk]
      exact guarded_maxResults rfl (guarded_polls hpolls c)
    | gmailRead => exact guarded_gmailRead hk
    | sheetsTrigger =>
      have hpolls : n.Polls "sheets" := .of_kind hk rfl
      rw [hk]
      exact (guarded_polls hpolls c).congr fun f => (Setting.after_nil _ f).symm
    | httpRequest => exact guarded_printed rfl (guarded_service hk rfl (by decide) rfl _ c)
    | logger => exact guarded_printed rfl ((guarded_ok _).of_plain hk rfl (by decide) rfl)
    | slackPost => exact guarded_service hk rfl (by decide) rfl _ c
    | sheetsAppend | dataMapper =>
      refine Guarded.of_plain ?_ hk rfl (by decide) rfl
      simp only [Kind.recipe, Recipe.sheetsAppend, Recipe.dataMapper]
      split
      · exact guarded_ok _
      · exact guarded_config _
    | condition =>
      exact (guarded_condition n c).of_plain hk rfl (by decide) rfl
    | _ => exact (guarded_ok _).of_plain hk rfl (by decide) rfl

/-! ## Properties -/

/-- The keys of the settings that may name the properties of a scheme: for each property those that
count one before the other. -/
def Scheme.nameKeys : Scheme → List (List String)
  | .apiKey => [["apiKeyProperty"]]
  | .bearer => [["tokenProperty"]]
  | .basic => [["usernameProperty"], ["passwordProperty"]]
  | .oauth2 => [["accessTokenProperty", "tokenProperty"]]

/-- The properties that the settings name: for each of them the first setting that counts as set. -/
def Scheme.named (config : Fields) (scheme : Scheme) : List Value :=
  scheme.nameKeys.flatMap fun keys =>
    ((keys.map fun key => Config.getD config key .null).find? Value.isTruthy).toList

/-- The first of the values that can be no name in a list of properties. -/
def firstUnkeyed (names : List Value) : Option Value := names.find? fun v => !v.isKey

/-- The faults that escape from listing the properties of a node without naming it, each with the
setting that is to blame. -/
inductive NamesEscape (n : PlannedNode) : Fault → Prop where
  | infinite {s : Recipe.Service} (hservice : n.Requests s)
      (h : Setting.FirstInfinite (serviceSettings n.config)) : NamesEscape n (.number .infinite)
  | notAKey {s : Recipe.Service} {scheme : Scheme} {v : Value} (hservice : n.Requests s)
      (hread : ∀ t ∈ serviceSettings n.config, t.Converts)
      (hscheme : Scheme.ofValue? (Config.getD n.config "authType" s.scheme) = some scheme)
      (hname : firstUnkeyed (scheme.named n.config) = some v) : NamesEscape n (.notAKey v.typeName)

theorem firstUnkeyed_cons (v : Value) (rest : List Value) :
    firstUnkeyed (v :: rest) = if v.isKey then firstUnkeyed rest else some v := by
  unfold firstUnkeyed
  rw [List.find?_cons]
  cases v.isKey <;> rfl

theorem firstUnkeyed_texts (ts : List String) (names : List Value) :
    firstUnkeyed (ts.map .text ++ names) = firstUnkeyed names := by
  induction ts with
  | nil => rfl
  | cons t rest ih => exact ih

theorem find?_isTruthy (x : Value) :
    [x].find? Value.isTruthy = if x.isTruthy then some x else none := by
  rw [List.find?_cons]
  cases x.isTruthy <;> rfl

theorem find?_isTruthy_orElse (x y : Value) :
    [x, y].find? Value.isTruthy =
      if (x.orElse y).isTruthy then some (x.orElse y) else none := by
  unfold Value.orElse
  rw [List.find?_cons, find?_isTruthy]
  by_cases hx : x.isTruthy = true <;> simp [hx]

/-- The property that stands for a setting can be no name just where the setting counts as set and can
be none. -/
theorem firstUnkeyed_propertyOr {f : Facts} {x v : Value} {ending : String}
    (h : f.propertyOr x ending = .ok v) {values : List Value}
    (hvalues : values.find? Value.isTruthy = if x.isTruthy then some x else none)
    {rest rest' : List Value} (hrest : firstUnkeyed rest = firstUnkeyed rest') :
    firstUnkeyed (v :: rest) =
      firstUnkeyed ((values.find? Value.isTruthy).toList ++ rest') := by
  rw [hvalues]
  unfold Facts.propertyOr at h
  split at h
  · rename_i hset
    cases h
    rw [if_pos hset, Option.toList_some, List.singleton_append, firstUnkeyed_cons,
      firstUnkeyed_cons, hrest]
  · rename_i hset
    obtain ⟨stem, _, h⟩ := except_bind_eq_ok.mp h
    cases h
    rw [if_neg hset]
    exact hrest

/-- Of the properties that a scheme reads, the first that can be no name is one that the settings
name. -/
theorem firstUnkeyed_propertiesOf {s : Recipe.Service} {n : PlannedNode} {c : Choices} {f : Facts}
    (hf : Recipe.serviceFacts s n c = .ok f) {scheme : Scheme} {names : List Value}
    (h : f.propertiesOf scheme = .ok names) :
    firstUnkeyed names = firstUnkeyed (scheme.named n.config) := by
  obtain ⟨requests, window, rfl⟩ := Recipe.serviceFacts_eq_ok hf
  cases scheme with
  | apiKey =>
    obtain ⟨key, hkey, h⟩ := except_bind_eq_ok.mp h
    cases h
    exact firstUnkeyed_propertyOr hkey (find?_isTruthy _) rfl
  | bearer =>
    obtain ⟨token, htoken, h⟩ := except_bind_eq_ok.mp h
    cases h
    exact firstUnkeyed_propertyOr htoken (find?_isTruthy _) rfl
  | basic =>
    obtain ⟨username, husername, h⟩ := except_bind_eq_ok.mp h
    obtain ⟨password, hpassword, h⟩ := except_bind_eq_ok.mp h
    cases h
    exact firstUnkeyed_propertyOr husername (find?_isTruthy _)
      (firstUnkeyed_propertyOr hpassword (find?_isTruthy _) rfl)
  | oauth2 =>
    obtain ⟨token, htoken, h⟩ := except_bind_eq_ok.mp h
    cases h
    exact firstUnkeyed_propertyOr htoken (find?_isTruthy_orElse _ _) rfl

/-- What escapes from the list of properties once the facts of the node are there. -/
def UnkeyedName (n : PlannedNode) (s : Recipe.Service) (f : Fault) : Prop :=
  ∃ scheme v, Scheme.ofValue? (Config.getD n.config "authType" s.scheme) = some scheme ∧
    firstUnkeyed (scheme.named n.config) = some v ∧ f = .notAKey v.typeName

theorem guarded_ofNode_of_secrets {n : PlannedNode} {c : Choices} {secrets : List Value}
    (h : n.recipe.secrets n c = .ok secrets) :
    n.Guards (fun f => ∃ v, firstUnkeyed secrets = some v ∧ f = .notAKey v.typeName)
      (Secret.ofNode n c) := by
  have hfirst := firstUnkeyed_texts (Secret.scanFields n.config) secrets
  unfold firstUnkeyed at hfirst ⊢
  unfold Secret.ofNode
  rw [h, ← hfirst]
  dsimp only [bind, Except.bind]
  split
  · rename_i v hv
    exact (guarded_unexpected rfl).congr fun f => by simp [hv]
  · rename_i hnone
    exact (guarded_ok _).congr fun f => by simp [hnone]

/-- Where the facts of a node that calls a service are there, only a value that can be no name
escapes. -/
theorem guarded_ofNode_of_facts {s : Recipe.Service} {n : PlannedNode} {c : Choices} {f : Facts}
    (hscheme : Readable s.scheme) (hsecrets : n.recipe.secrets n c = Recipe.serviceSecrets s n c)
    (hfacts : Recipe.serviceFacts s n c = .ok f) :
    n.Guards (UnkeyedName n s) (Secret.ofNode n c) := by
  have hwritable := writable_serviceFacts hfacts
  have hauth : f.authType = Config.getD n.config "authType" s.scheme := by
    obtain ⟨requests, window, rfl⟩ := Recipe.serviceFacts_eq_ok hfacts
    rfl
  have hprinted : n.recipe.secrets n c =
      f.authType.requirePrintable >>= fun _ => f.secretProperties := by
    rw [hsecrets, Recipe.serviceSecrets, hfacts]
    rfl
  by_cases hprint : f.authType.isPrintable = true
  swap
  · have herror : Secret.ofNode n c = .error (.number .tooWide) := by
      unfold Secret.ofNode
      rw [hprinted, Value.requirePrintable_eq_error.mpr ⟨hprint, rfl⟩]
      rfl
    rw [herror]
    refine guarded_tooWide fun hconfig => hprint ?_
    rw [hauth]
    exact Readable.isPrintable (hconfig.getD "authType" hscheme)
  rw [Value.requirePrintable_eq_ok (u := ()).mpr hprint] at hprinted
  have hsecrets : n.recipe.secrets n c = f.secretProperties := hprinted
  unfold Facts.secretProperties at hsecrets
  unfold UnkeyedName
  rw [← hauth]
  cases hscheme : Scheme.ofValue? f.authType with
  | none =>
    rw [hscheme] at hsecrets
    refine (guarded_ofNode_of_secrets hsecrets).congr fun g => ?_
    simp [firstUnkeyed]
  | some scheme =>
    rw [hscheme] at hsecrets
    obtain ⟨names, hnames⟩ := exists_propertiesOf hwritable.slug scheme
    refine (guarded_ofNode_of_secrets (hsecrets.trans hnames)).congr fun g => ?_
    simp [firstUnkeyed_propertiesOf hfacts hnames]

/-- Listing the properties of a node that calls a service starts with its facts. -/
theorem serviceFacts_bind_ofNode {s : Recipe.Service} {n : PlannedNode} {c : Choices}
    (hsecrets : n.recipe.secrets n c = Recipe.serviceSecrets s n c) :
    (Recipe.serviceFacts s n c >>= fun _ => Secret.ofNode n c) = Secret.ofNode n c := by
  cases hfacts : Recipe.serviceFacts s n c with
  | ok f => rfl
  | error e =>
    rw [Recipe.serviceSecrets, hfacts] at hsecrets
    unfold Secret.ofNode
    rw [hsecrets]
    rfl

theorem guarded_ofNode_of_service {s : Recipe.Service} {n : PlannedNode} {c : Choices}
    (hscheme : Readable s.scheme)
    (hsecrets : n.recipe.secrets n c = Recipe.serviceSecrets s n c) :
    n.Guards (Setting.After (serviceSettings n.config) (UnkeyedName n s)) (Secret.ofNode n c) := by
  rw [← serviceFacts_bind_ofNode hsecrets]
  unfold Recipe.serviceFacts
  simp only [bind_assoc, pure_bind]
  refine Guarded.print (fun h => h.getText _ _) fun hslug => Guarded.print
    (fun h => h.getText _ _) fun hname => Guarded.print (fun h => h.getText _ _) fun hheader => ?_
  refine Setting.guarded_read id fun own hown =>
    Setting.guarded_read Readable.rateLimits fun requests hrequests =>
      Setting.guarded_read Readable.rateLimits fun window hwindow => ?_
  have hfacts : ∃ f, Recipe.serviceFacts s n c = .ok f :=
    ⟨_, except_bind_eq_ok.mpr ⟨_, Value.print_eq_ok.mpr ⟨hslug, rfl⟩,
      except_bind_eq_ok.mpr ⟨_, Value.print_eq_ok.mpr ⟨hname, rfl⟩,
      except_bind_eq_ok.mpr ⟨_, Value.print_eq_ok.mpr ⟨hheader, rfl⟩,
      except_bind_eq_ok.mpr ⟨own, hown, except_bind_eq_ok.mpr ⟨requests, hrequests,
      except_bind_eq_ok.mpr ⟨window, hwindow, rfl⟩⟩⟩⟩⟩⟩⟩
  obtain ⟨f, hf⟩ := hfacts
  exact (guarded_ofNode_of_facts hscheme hsecrets hf).congr fun g =>
    (Setting.after_nil _ g).symm

theorem namesEscape_iff {n : PlannedNode} {s : Recipe.Service} (hservice : n.Requests s)
    {f : Fault} : NamesEscape n f ↔ Setting.After (serviceSettings n.config) (UnkeyedName n s) f := by
  constructor
  · intro h
    cases h with
    | infinite _ h => exact Or.inl ⟨rfl, h⟩
    | notAKey hservice' hread hscheme hname =>
      cases hservice.symm.trans hservice'
      exact Or.inr ⟨hread, _, _, hscheme, hname, rfl⟩
  · rintro (⟨rfl, h⟩ | ⟨hread, scheme, v, hscheme, hname, rfl⟩)
    · exact .infinite hservice h
    · exact .notAKey hservice hread hscheme hname

/-- Listing the properties of a node blames the node for every bad setting, but for those that are
listed. -/
theorem guarded_ofNode (n : PlannedNode) (c : Choices) :
    n.Guards (NamesEscape n) (Secret.ofNode n c) := by
  cases hservice : n.kind?.bind Kind.service? with
  | some s =>
    refine (guarded_ofNode_of_service ?_ ?_).congr fun f => (namesEscape_iff hservice).symm
    · rcases PlannedNode.Requests.kind hservice with ⟨_, rfl⟩ | ⟨_, rfl⟩
      · exact .null
      · exact .text "bearer"
    · rcases PlannedNode.Requests.kind hservice with ⟨hk, rfl⟩ | ⟨hk, rfl⟩
      all_goals
        rw [PlannedNode.recipe_of_kind hk]
        rfl
  | none =>
    have hsecrets : n.recipe.secrets n c = .ok [] := by
      cases hk : n.kind? with
      | none =>
        rw [PlannedNode.recipe_of_none hk]
        rfl
      | some k =>
        rw [hk] at hservice
        rw [PlannedNode.recipe_of_kind hk]
        cases k with
        | httpRequest => cases hservice
        | slackPost => cases hservice
        | _ => rfl
    refine (guarded_ofNode_of_secrets hsecrets).congr fun f => iff_of_false ?_ ?_
    · rintro ⟨v, hv, _⟩
      cases hv
    · intro h
      cases h with
      | infinite hs => cases hservice.symm.trans hs
      | notAKey hs => cases hservice.symm.trans hs

/-! ## All nodes -/

/-- Writing the function of a node and listing its properties fail without blaming the node only
where one of the listed settings escapes the checks, or where a number of too many digits is
printed, which no text can hold (`Json.readable_parse`). In readable settings each of those that are
listed fails in this way; for every other bad setting the fault is an expected one and names the
node. -/
theorem bad_settings_are_blamed_on_the_node_unless_they_escape (n : PlannedNode) (c : Choices) :
    (∀ f, (NodeFunction.build n c).outcome = .error f → ¬ f.Blames n.id →
        Escapes n f ∨ f = .number .tooWide ∧ ¬ Readable (.object n.config)) ∧
      (∀ f, Secret.ofNode n c = .error f → ¬ f.Blames n.id →
        NamesEscape n f ∨ f = .number .tooWide ∧ ¬ Readable (.object n.config)) ∧
      (Readable (.object n.config) →
        (∀ f, (NodeFunction.build n c).outcome = .error f ∧ ¬ f.Blames n.id ↔ Escapes n f) ∧
        ∀ f, Secret.ofNode n c = .error f ∧ ¬ f.Blames n.id ↔ NamesEscape n f) := by
  have hbuild := guarded_build (guarded_work n c)
  have hnames := guarded_ofNode n c
  exact ⟨hbuild.escape, hnames.escape, fun hconfig => ⟨hbuild.iff hconfig, hnames.iff hconfig⟩⟩

/-- An infinite number of messages to read. -/
def endlessRead : PlannedNode :=
  ⟨"r", "action.gmail.read", "execute_r", [("maxResults", .real (.infinite false))]⟩

theorem an_endless_read_escapes :
    Readable (.object endlessRead.config) ∧ Escapes endlessRead (.number .infinite) ∧
      (NodeFunction.build endlessRead ⟨none, true, true, false, "UTC", "1"⟩).outcome =
        .error (.number .infinite) := by
  have hconfig : Readable (.object endlessRead.config) :=
    .object (List.forall_mem_singleton.mpr (.real trivial))
  have hescapes : Escapes endlessRead (.number .infinite) := .infinite (Or.inl ⟨false, rfl⟩)
  obtain ⟨_, _, hexact⟩ := bad_settings_are_blamed_on_the_node_unless_they_escape endlessRead
    ⟨none, true, true, false, "UTC", "1"⟩
  exact ⟨hconfig, hescapes, (((hexact hconfig).1 _).mpr hescapes).1⟩

theorem an_endless_read_blames_nobody :
    (NodeFunction.build endlessRead ⟨none, true, true, false, "UTC", "1"⟩).outcome =
        .error (.number .infinite) ∧
      ¬ (Fault.number .infinite).Blames endlessRead.id := by
  refine ⟨rfl, ?_⟩
  rintro ⟨h, _⟩
  cases h

end Flowscript
