-- Numbers that stand in the code of a node without quotes: how many messages
-- to read, how long to pause, the limits of a service and the time that items
-- are remembered. Each is a numeric literal of the number that the
-- configuration gives, but for a time without an end or one that is no
-- number: these are written as words that no script knows. A script has the
-- double next to a literal, so that a whole number which is no double is
-- another number there.
import Flowscript.Proofs.NumericLiterals
import Flowscript.Proofs.Readable
import Flowscript.Proofs.RoundTrip
import Flowscript.Proofs.Statements

namespace Flowscript

open NumericLiteral (value? value?_double value?_toString)
open Value (HasDoubles)

/-! ## Times to live -/

/-- The rational number of a whole double is its whole part. -/
theorem Binary64.truncate?_of_isWhole {negative : Bool} {m : Nat} {q : Int}
    (h : (finite negative m q).isWhole = true) :
    ∃ k : Int, (finite negative m q).truncate? = some k ∧ (k : ℚ) = value negative m q := by
  refine ⟨_, rfl, ?_⟩
  have hsize : ((if 0 ≤ q then m * Nat.pow 2 q.toNat else m / Nat.pow 2 (-q).toNat : Nat) : ℚ) =
      magnitude m q := by
    unfold magnitude
    split
    · next hq =>
      obtain ⟨k, rfl⟩ := Int.eq_ofNat_of_zero_le hq
      rw [Int.toNat_natCast, zpow_natCast, Nat.pow_eq, Nat.cast_mul, Nat.cast_pow, Nat.cast_ofNat]
    · next hq =>
      obtain ⟨k, hk⟩ := Int.eq_ofNat_of_zero_le (by omega : 0 ≤ -q)
      have hdvd : 2 ^ k ∣ m := by
        simp only [isWhole, hq, hk, decide_false, Bool.false_or, beq_iff_eq] at h
        exact Nat.dvd_of_mod_eq_zero h
      obtain ⟨n, rfl⟩ := hdvd
      have hq' : q = -(k : Int) := by omega
      have hpow : (2 : ℚ) ^ k ≠ 0 := by positivity
      rw [hk, Int.toNat_natCast, hq', zpow_neg, zpow_natCast, Nat.pow_eq,
        Nat.mul_div_cancel_left n (Nat.two_pow_pos k), Nat.cast_mul, Nat.cast_pow, Nat.cast_ofNat,
        mul_comm _ (n : ℚ), mul_inv_cancel_right₀ hpow]
  unfold signed value
  split
  · rw [Int.cast_neg, Int.cast_natCast, hsize]
  · rw [Int.cast_natCast, hsize]

/-- What a time to live is written as. A finite one is a literal that reads back as the double, and
where it is whole, the literal is exactly that number; the others are words. -/
inductive LivesFor : Binary64 → String → Prop where
  | finite {negative : Bool} {m : Nat} {q : Int} {code : String} {r : ℚ}
      (hvalue : value? code = some r) (hround : Binary64.RoundsTo r negative m q)
      (hwhole : (Binary64.finite negative m q).isWhole = true → r = Binary64.value negative m q) :
      LivesFor (.finite negative m q) code
  | infinite {negative : Bool} {code : String} (hcode : code = if negative then "-inf" else "inf")
      (hnone : value? code = none) : LivesFor (.infinite negative) code
  | nan {code : String} (hcode : code = "nan") (hnone : value? code = none) : LivesFor .nan code

theorem livesFor_of_hoursCode {x : Binary64} (hx : x.IsDouble) {code : String}
    (h : Snippet.hoursCode (.real x) = .ok code) : LivesFor x code := by
  cases x with
  | finite negative m q =>
    by_cases hwhole : (Binary64.finite negative m q).isWhole = true
    · obtain ⟨k, hk, hvalue⟩ := Binary64.truncate?_of_isWhole hwhole
      have hcode : Snippet.hoursCode (.real (.finite negative m q)) = .ok (toString k) := by
        simp only [Snippet.hoursCode, Value.toReal, Value.toWhole, hk]
        simp [bind, Except.bind, pure, Except.pure, hwhole]
      cases hcode.symm.trans h
      refine .finite (value?_toString k) ?_ fun _ => hvalue
      rw [hvalue]
      exact Binary64.Fits.roundsTo_value hx negative
    · have hcode : Snippet.hoursCode (.real (.finite negative m q)) =
          .ok ((Binary64.finite negative m q).text Binary64.plainSpelling) := by
        simp only [Snippet.hoursCode, Value.toReal]
        simp [bind, Except.bind, pure, Except.pure, hwhole, Value.plain, Value.shown]
      cases hcode.symm.trans h
      obtain ⟨r, hr, hround⟩ := value?_double negative hx Binary64.plainSpelling
      exact .finite hr hround fun hw => absurd hw hwhole
  | infinite negative =>
    cases h
    cases negative with
    | true => exact .infinite rfl (by decide)
    | false => exact .infinite rfl (by decide)
  | nan =>
    cases h
    exact .nan rfl (by decide)

theorem isDouble_of_setting {config : Fields} (h : HasDoubles (.object config)) {key : String}
    {default : Int} {x : Binary64} (hx : (Config.getD config key (.int default)).toReal = .ok x) :
    x.IsDouble :=
  HasDoubles.isDouble_toReal (h.getD key (.int trivial)) hx

/-! ## Whole numbers -/

/-- The code is a literal of the whole number, and the number is what a script has for it. -/
def StandsFor (k : Int) (code : String) : Prop :=
  value? code = some (k : ℚ) ∧
    ∃ negative m q, Binary64.RoundsTo (k : ℚ) negative m q ∧ Binary64.value negative m q = k

/-- What a whole number is written as: a literal of the number. Where the number is a double, as it
is up to 2^53, this is what a script has for the literal; any other number becomes the nearest
double, and one beyond all doubles is infinite. -/
inductive CountsAs (k : Int) (code : String) : Prop where
  | exactly (h : StandsFor k code) : CountsAs k code
  | nearly {negative : Bool} {m : Nat} {q : Int} (hvalue : value? code = some (k : ℚ))
      (hround : Binary64.RoundsTo (k : ℚ) negative m q) (hlarge : 2 ^ 53 < k.natAbs)
      (hinexact : ∀ {negative' m' q'}, Binary64.Fits m' q' → Binary64.value negative' m' q' ≠ k) :
      CountsAs k code
  | infinite (hvalue : value? code = some (k : ℚ)) (hlarge : Binary64.overflow ≤ |(k : ℚ)|) :
      CountsAs k code

/-- A whole number up to 2^53 is a double. -/
theorem exists_value_of_le {k : Int} (h : k.natAbs ≤ 2 ^ 53) :
    ∃ negative m q, Binary64.Fits m q ∧ Binary64.value negative m q = k := by
  obtain ⟨m, q, hfits, hsize⟩ := Binary64.exists_fits_of_le h
  refine ⟨decide (k < 0), m, q, hfits, ?_⟩
  rw [Binary64.value, hsize, Nat.cast_natAbs, Int.cast_abs]
  split
  · rename_i hneg
    rw [abs_of_neg (Int.cast_lt_zero.mpr (of_decide_eq_true hneg)), neg_neg]
  · rename_i hpos
    have hnonneg : 0 ≤ k := Int.not_lt.mp fun hlt => hpos (decide_eq_true hlt)
    exact abs_of_nonneg (Int.cast_nonneg hnonneg)

theorem standsFor_of_le {k : Int} (h : k.natAbs ≤ 2 ^ 53) : StandsFor k (toString k) := by
  obtain ⟨negative, m, q, hfits, hvalue⟩ := exists_value_of_le h
  have hround := hfits.roundsTo_value negative
  rw [hvalue] at hround
  exact ⟨value?_toString k, negative, m, q, hround, hvalue⟩

theorem countsAs_toString (k : Int) : CountsAs k (toString k) := by
  have hreads := Binary64.reads_ofInt k
  generalize Binary64.ofInt k = x at hreads
  cases hreads with
  | infinite _ hlarge => exact .infinite (value?_toString k) hlarge
  | @finite negative m q hround =>
    by_cases hexact : Binary64.value negative m q = k
    · exact .exactly ⟨value?_toString k, negative, m, q, hround, hexact⟩
    · have hinexact : ∀ {negative' m' q'}, Binary64.Fits m' q' →
          Binary64.value negative' m' q' ≠ k :=
        fun hfits hvalue => hexact (hround.eq_of_fits hfits hvalue)
      refine .nearly (value?_toString k) hround ?_ hinexact
      by_contra hsmall
      obtain ⟨negative', m', q', hfits, hvalue⟩ := exists_value_of_le (Nat.le_of_not_lt hsmall)
      exact hinexact hfits hvalue

/-! ## Statements with numbers -/

/-- How often a statement stands in the function of a node of the kind. -/
def Statement.count (c : Choices) : Statement → Option Kind → Nat
  | .maxResults, some .gmailTrigger => 1
  | .maxResults, some .gmailRead => 1
  | .pause, some .delay => 1
  | .rateLimit, some .httpRequest => if c.includeRateLimiting then 1 else 0
  | .rateLimit, some .slackPost => if c.includeRateLimiting then 1 else 0
  | .expiry, some .gmailTrigger => 2
  | .expiry, some .sheetsTrigger => 2
  | .itemKey, some .gmailTrigger => 1
  | .itemKey, some .sheetsTrigger => 1
  | _, _ => 0

/-- The statement stands in the function of the node as often as its kind says, each time with the
property. -/
structure Statement.Stands (s : Statement) (n : PlannedNode) (c : Choices) (ls : List String)
    (p : String → Prop) : Prop where
  length_eq : (statements s.start ls).length = s.count c n.kind?
  holds : ∀ l ∈ statements s.start ls, p l

/-- The line sets how many messages to read. -/
def SetsLimit (n : PlannedNode) (l : String) : Prop :=
  ∃ (k : Int) (code : String), Config.whole n.id n.config "maxResults" 10 = .ok k ∧
    CountsAs k code ∧ l = "const maxResults = " ++ code ++ ";"

/-- The line sets how long to pause, between no time and five minutes. -/
def SetsPause (n : PlannedNode) (l : String) : Prop :=
  ∃ (milliseconds seconds : Int) (code : String),
    Config.whole n.id n.config "delayMs" 1000 = .ok milliseconds ∧
    Config.whole n.id n.config "delaySeconds" 0 = .ok seconds ∧
    StandsFor (max 0 (min (milliseconds + 1000 * seconds) 300000)) code ∧
    l = "const delayMs = " ++ code ++ ";"

/-- The line keeps the limits of a service: so many requests in so many milliseconds. -/
def KeepsLimits (n : PlannedNode) (l : String) : Prop :=
  ∃ (name : String) (own requests window : Int) (first second : String),
    Config.whole n.id n.config "requestsPerMinute" 60 = .ok own ∧
    Config.whole n.id (Recipe.rateLimits n.config) "requestsPerMinute" own = .ok requests ∧
    Config.whole n.id (Recipe.rateLimits n.config) "windowMs" 60000 = .ok window ∧
    CountsAs requests first ∧ CountsAs window second ∧
    l = "checkRateLimit(" ++ Json.quote name ++ ", " ++ first ++ ", " ++ second ++ ");"

/-- The line remembers an item for the time to live. -/
def Remembers (n : PlannedNode) (l : String) : Prop :=
  ∃ hours code, (Config.getD n.config "dedupTtlHours" (.int 24)).toReal = .ok hours ∧
    LivesFor hours code ∧ l = "markProcessed(itemKey, " ++ code ++ ");"

theorem Recipe.cappedDelay_eq_ok {id : String} {total k : Int}
    (h : (cappedDelay id total).outcome = .ok k) : k = max 0 (min total 300000) := by
  have hmax : maxDelay = 300000 := rfl
  unfold cappedDelay at h
  split at h
  · obtain ⟨shown, _, h⟩ := Traced.bind_eq_ok.mp h
    obtain ⟨_, _, h⟩ := Traced.bind_eq_ok.mp h
    cases h
    omega
  · cases h
    omega

section

variable {n : PlannedNode} {c : Choices} {sheet : Sheet} {body : List Step} {facts : Facts}

theorem Composed.stands_nowhere (h : Composed n c sheet body facts) {s : Statement}
    (hbody : s ∉ Statement.ofBody n.kind?)
    (hsnippet : ∀ kind ∈ slotsOf n.kind?, s ∉ Statement.ofSnippet kind)
    (hcount : s.count c n.kind? = 0) (p : String → Prop) : s.Stands n c (sheet.lines false) p := by
  have hnone := h.statements_eq_nil hbody hsnippet
  constructor
  · rw [hnone, hcount]
    rfl
  · rw [hnone]
    exact fun _ hl => absurd hl List.not_mem_nil

theorem Composed.stands_of_mailbox (h : Composed n c sheet body facts)
    (hk : n.kind? = some .gmailTrigger ∨ n.kind? = some .gmailRead) :
    Statement.maxResults.Stands n c (sheet.lines false) (SetsLimit n) := by
  obtain ⟨k, hwhole, hbody⟩ := Statement.statements_maxResults hk h.ofRecipe (Snippet.linesOr facts)
  have hslots : (slots body).flatMap (fun kind =>
      statements Statement.maxResults.start (Snippet.linesOr facts kind)) = [] := by
    rw [slots_body h.ofRecipe]
    refine List.flatMap_eq_nil_iff.mpr fun kind hkind => h.statements_snippet hkind ?_
    cases kind <;> decide
  have hfound : statements Statement.maxResults.start (sheet.lines false) =
      ["const maxResults = " ++ toString k ++ ";"] := by
    rw [h.statements_start, hbody, hslots]
  constructor
  · rw [hfound]
    rcases hk with hk | hk
    all_goals
      rw [hk]
      rfl
  · rw [hfound]
    exact List.forall_mem_singleton.mpr ⟨k, _, hwhole, countsAs_toString k, rfl⟩

theorem Composed.stands_of_delay (h : Composed n c sheet body facts) (hk : n.kind? = some .delay) :
    Statement.pause.Stands n c (sheet.lines false) (SetsPause n) := by
  obtain ⟨milliseconds, seconds, total, hmilliseconds, hseconds, htotal, hbody⟩ :=
    Statement.statements_pause hk h.ofRecipe (Snippet.linesOr facts)
  have hclamped := Recipe.cappedDelay_eq_ok htotal
  rw [Int.mul_comm] at hclamped
  constructor
  · rw [h.statements_start, hbody, hk]
    rfl
  · rw [h.statements_start, hbody]
    refine List.forall_mem_singleton.mpr
      ⟨milliseconds, seconds, _, hmilliseconds, hseconds, ?_, rfl⟩
    rw [← hclamped]
    exact standsFor_of_le (by omega)

theorem Composed.stands_of_service (h : Composed n c sheet body facts) {s : Recipe.Service}
    (hs : n.Requests s) : Statement.rateLimit.Stands n c (sheet.lines false) (KeepsLimits n) := by
  obtain ⟨name, own, requests, window, hown, hrequests, hwindow, hname, hfirst, hsecond⟩ :=
    Recipe.limits_of_serviceFacts (hs.facts h.factsOf)
  have hbody : Statement.rateLimit ∉ Statement.ofBody n.kind? := by
    rcases hs.kind with ⟨hk, -⟩ | ⟨hk, -⟩
    all_goals
      rw [hk]
      decide
  have hslots := hs.slots
  have hlines : Snippet.rateLimitLines facts = .ok (Snippet.linesOr facts .rateLimit) :=
    except_mapError_eq_ok.mp (h.ready .rateLimit (by rw [hslots]; decide))
  have hlimit := Statement.statements_rateLimitLines hfirst hsecond hlines
  have hauth : statements Statement.rateLimit.start (Snippet.linesOr facts .auth) = [] :=
    h.statements_snippet (by rw [hslots]; decide) (by decide)
  have herror : statements Statement.rateLimit.start (Snippet.linesOr facts .error) = [] :=
    h.statements_snippet (by rw [hslots]; decide) (by decide)
  have hfound := h.statements_slots hbody
  rw [hslots, List.flatMap_cons, List.flatMap_cons, List.flatMap_singleton, hauth, herror, hlimit,
    Lexer.rateLimiting_of_facts h.factsOf, hname] at hfound
  have hcount : Statement.rateLimit.count c n.kind? = if c.includeRateLimiting then 1 else 0 := by
    rcases hs.kind with ⟨hk, -⟩ | ⟨hk, -⟩
    all_goals
      rw [hk]
      rfl
  constructor
  · rw [hfound, hcount]
    split <;> rfl
  · rw [hfound]
    split
    · refine List.forall_mem_singleton.mpr ⟨name, own, requests, window, _, _, hown, hrequests,
        hwindow, countsAs_toString requests, countsAs_toString window, ?_⟩
      simp only [String.append_assoc]
      rfl
    · exact fun _ hl => absurd hl List.not_mem_nil

theorem Composed.stands_of_polling (h : Composed n c sheet body facts) {source : String}
    (hs : n.Polls source) (hconfig : HasDoubles (.object n.config)) :
    Statement.expiry.Stands n c (sheet.lines false) (Remembers n) := by
  obtain ⟨hours, code, hhours, hcode, _, hfound⟩ := h.statements_of_polling hs
  have hlives := livesFor_of_hoursCode (isDouble_of_setting hconfig hhours) hcode
  have hremembers : Remembers n ("markProcessed(" ++ ("itemKey, " ++ (code ++ ");"))) := by
    refine ⟨hours, code, hhours, hlives, ?_⟩
    rw [← String.append_assoc, ← String.append_assoc]
    rfl
  constructor
  · rw [hfound]
    rcases hs.kind with ⟨hk, -⟩ | ⟨hk, -⟩
    all_goals
      rw [hk]
      rfl
  · rw [hfound]
    exact List.forall_mem_cons.mpr ⟨hremembers, List.forall_mem_singleton.mpr hremembers⟩

end

/-! ## All nodes -/

/-- What the function of a node has in its code without quotes. -/
structure WritesNumbers (n : PlannedNode) (c : Choices) (ls : List String) : Prop where
  limits : Statement.maxResults.Stands n c ls (SetsLimit n)
  pauses : Statement.pause.Stands n c ls (SetsPause n)
  requests : Statement.rateLimit.Stands n c ls (KeepsLimits n)
  expiries : Statement.expiry.Stands n c ls (Remembers n)

section

variable {n : PlannedNode} {c : Choices} {sheet : Sheet} {body : List Step} {facts : Facts}

theorem Composed.limits (h : Composed n c sheet body facts) :
    Statement.maxResults.Stands n c (sheet.lines false) (SetsLimit n) := by
  cases hk : n.kind? with
  | none => exact h.stands_nowhere (by rw [hk]; decide) (by rw [hk]; decide) (by rw [hk]; rfl) _
  | some k =>
    cases k with
    | gmailTrigger => exact h.stands_of_mailbox (Or.inl hk)
    | gmailRead => exact h.stands_of_mailbox (Or.inr hk)
    | _ => exact h.stands_nowhere (by rw [hk]; decide) (by rw [hk]; decide) (by rw [hk]; rfl) _

theorem Composed.pauses (h : Composed n c sheet body facts) :
    Statement.pause.Stands n c (sheet.lines false) (SetsPause n) := by
  cases hk : n.kind? with
  | none => exact h.stands_nowhere (by rw [hk]; decide) (by rw [hk]; decide) (by rw [hk]; rfl) _
  | some k =>
    cases k with
    | delay => exact h.stands_of_delay hk
    | _ => exact h.stands_nowhere (by rw [hk]; decide) (by rw [hk]; decide) (by rw [hk]; rfl) _

theorem Composed.requests (h : Composed n c sheet body facts) :
    Statement.rateLimit.Stands n c (sheet.lines false) (KeepsLimits n) := by
  cases hk : n.kind? with
  | none => exact h.stands_nowhere (by rw [hk]; decide) (by rw [hk]; decide) (by rw [hk]; rfl) _
  | some k =>
    cases hs : k.service? with
    | some s => exact h.stands_of_service (Option.bind_eq_some_iff.mpr ⟨k, hk, hs⟩)
    | none =>
      cases k with
      | httpRequest => cases hs
      | slackPost => cases hs
      | _ => exact h.stands_nowhere (by rw [hk]; decide) (by rw [hk]; decide) (by rw [hk]; rfl) _

theorem Composed.expiries (h : Composed n c sheet body facts)
    (hconfig : HasDoubles (.object n.config)) :
    Statement.expiry.Stands n c (sheet.lines false) (Remembers n) := by
  cases hk : n.kind? with
  | none => exact h.stands_nowhere (by rw [hk]; decide) (by rw [hk]; decide) (by rw [hk]; rfl) _
  | some k =>
    cases hs : k.source? with
    | some source => exact h.stands_of_polling (Option.bind_eq_some_iff.mpr ⟨k, hk, hs⟩) hconfig
    | none =>
      cases k with
      | gmailTrigger => cases hs
      | sheetsTrigger => cases hs
      | _ => exact h.stands_nowhere (by rw [hk]; decide) (by rw [hk]; decide) (by rw [hk]; rfl) _

end

/-- Every number that the function of a node has in its code is a numeric literal of the number that
the configuration gives, apart from a time to live that is infinite or no number. What a script has
for the literal is the number itself, but for a limit beyond 2^53 that is no double. Every
configuration that is read from a text, alone or inside other values, has doubles of the format
(`Json.readable_parse`). -/
theorem bare_numbers_are_literals_unless_items_live_for_no_finite_time {n : PlannedNode}
    {c : Choices} {sheet : Sheet} (hconfig : HasDoubles (.object n.config))
    (h : (NodeFunction.build n c).outcome = .ok sheet) : WritesNumbers n c (sheet.lines false) := by
  obtain ⟨body, facts, hcomposed⟩ := composed_of_build h
  exact ⟨hcomposed.limits, hcomposed.pauses, hcomposed.requests, hcomposed.expiries hconfig⟩

/-- A node that polls a mailbox. -/
def mailbox (config : Fields) : PlannedNode :=
  ⟨"g", "trigger.gmail.new_email", "execute_g", config⟩

/-- Settings that are written as a number and as the text of one. -/
def halfHourly : Fields := [("maxResults", .int (-5)), ("dedupTtlHours", .text "0.5")]

theorem a_mailbox_remembers_for_half_an_hour :
    ∃ sheet, Json.parse (Json.literal (.object halfHourly)) = .ok (.object halfHourly) ∧
      (NodeFunction.build (mailbox halfHourly) ⟨none, true, true, false, "UTC", "1"⟩).outcome =
        .ok sheet ∧
      WritesNumbers (mailbox halfHourly) ⟨none, true, true, false, "UTC", "1"⟩
        (sheet.lines false) := by
  have hplain : Json.Plain (.object halfHourly) := by
    apply Json.Plain.object
    · decide
    simp only [halfHourly, List.forall_mem_cons]
    exact ⟨.int _ (by decide), .text _, by simp⟩
  have hread := Json.parse_literal hplain
  exact ⟨_, hread, rfl, bare_numbers_are_literals_unless_items_live_for_no_finite_time
    (Json.readable_parse hread).hasDoubles rfl⟩

theorem a_mailbox_remembers_for_no_number :
    ∃ sheet, (NodeFunction.build (mailbox [("dedupTtlHours", .text "nan")])
        ⟨none, true, true, false, "UTC", "1"⟩).outcome = .ok sheet ∧
      statements "markProcessed(" (sheet.lines false) =
        ["markProcessed(itemKey, nan);", "markProcessed(itemKey, nan);"] ∧
      value? "nan" = none := by
  have hrun : ∃ sheet, (NodeFunction.build (mailbox [("dedupTtlHours", .text "nan")])
      ⟨none, true, true, false, "UTC", "1"⟩).outcome = .ok sheet := ⟨_, rfl⟩
  obtain ⟨sheet, hsheet⟩ := hrun
  obtain ⟨body, facts, hcomposed⟩ := composed_of_build hsheet
  obtain ⟨hours, code, hhours, hcode, _, hfound⟩ := hcomposed.statements_of_polling rfl
  cases hhours
  cases hcode
  exact ⟨sheet, hsheet, hfound, by decide⟩

end Flowscript
