-- The words of the lines that recipes and snippets write. Which words the
-- fixed text of a line has can be found out from its spelling, and what
-- stands in the gaps adds none that is looked for. A body calls no service
-- but those of its kind of node, no snippet calls any, and only the code that
-- adds credentials reads script properties. Neither calls the function of a
-- node, nor a helper that not every bundle has, but for the rate limiter
-- where it is wanted.
import Flowscript.Proofs.Filling
import Flowscript.Proofs.Functions
import Flowscript.Proofs.Shapes
import Flowscript.Proofs.Tokens

namespace Flowscript.Lexer

open Text (Unbroken lineFed)

/-! ## Lines -/

/-- The tokens of a line that starts in code. -/
def lineTokens (l : String) : List Token := (scan .start (l.toList ++ ['\n'])).2

/-- Behind the line and its end the scanner is where it was, in code. -/
def Complete (l : String) : Prop := (scan .start (l.toList ++ ['\n'])).1 = .start

theorem scans_line {l : String} {ts : List Token} :
    Scans .start (l.toList ++ ['\n']) ts .start ↔ Complete l ∧ lineTokens l = ts :=
  Prod.ext_iff

theorem Scans.fed {k t u : Cursor} {l : String} {rest : List String} {ts us : List Token}
    (h : Scans k (l.toList ++ ['\n']) ts t) (h' : Scans t (lineFed rest) us u) :
    Scans k (lineFed (l :: rest)) (ts ++ us) u := by
  have hall := h.append h'
  rw [List.append_assoc] at hall
  rw [Text.lineFed_cons]
  exact hall

theorem scans_lineFed {ls : List String} (h : ∀ l ∈ ls, Complete l) :
    Scans .start (lineFed ls) (ls.flatMap lineTokens) .start := by
  induction ls with
  | nil => exact scans_nil _
  | cons l rest ih =>
    have hfirst : Scans .start (l.toList ++ ['\n']) (lineTokens l) .start :=
      scans_line.mpr ⟨h l (by simp), rfl⟩
    exact hfirst.fed (ih fun m hm => h m (List.mem_cons_of_mem _ hm))

/-- A file has the tokens of its lines. -/
theorem Scans.tokens_eq {ls : List String} {ts : List Token}
    (h : Scans .start (lineFed ls) ts .start) : tokens (Text.joinLines ls ++ "\n") = ts := by
  by_cases hne : ls = []
  · subst hne
    cases h
    decide
  have hfeed : Scans .start "\n".toList [] .start := rfl
  have hall : Scans .start (lineFed ls ++ "\n".toList) (ts ++ []) .start := h.append hfeed
  unfold tokens
  rw [String.toList_append, Text.toList_joinLines_feed hne, hall, List.append_nil]

theorem scans_margin {k : Cursor} (hafter : k.after ' ' = k) (htokens : k.tokens ' ' = [])
    (indent : Int) : Scans k (margin indent).toList [] k := by
  rw [toList_margin]
  induction 2 * indent.toNat with
  | zero => exact scans_nil _
  | succ n ih => exact scans_cons.mpr ⟨[], by rw [hafter]; exact ih, by rw [htokens]; rfl⟩

theorem scan_margin (indent : Int) (l : String) :
    scan .start ((margin indent ++ l).toList ++ ['\n']) = scan .start (l.toList ++ ['\n']) := by
  have hrest : Scans .start (l.toList ++ ['\n']) _ _ := rfl
  have hall := (scans_margin rfl rfl indent).append hrest
  rw [String.toList_append, List.append_assoc]
  exact hall

/-- A printed line is scanned like its text where leading spaces change nothing. -/
theorem Scans.print {k t : Cursor} {x : String} {ts : List Token} (hafter : k.after ' ' = k)
    (htokens : k.tokens ' ' = []) (h : Scans k (x.toList ++ ['\n']) ts t) (indent : Int) :
    Scans k (lineFed ((Item.line indent x).print false)) ts t := by
  rw [Item.print]
  split
  · rename_i hx
    subst hx
    simpa [lineFed] using h
  · have hall := (scans_margin hafter htokens indent).append h
    simpa [lineFed] using hall

/-- The margin of a printed line has no tokens. -/
theorem lineTokens_print (indent : Int) (x : String) :
    ((Item.line indent x).print false).flatMap lineTokens = lineTokens x := by
  rw [Item.print, List.flatMap_singleton]
  split
  · rename_i hx
    rw [hx]
  · unfold lineTokens
    rw [scan_margin]

theorem complete_print {indent : Int} {x l : String} (h : Complete x)
    (hl : l ∈ (Item.line indent x).print false) : Complete l := by
  rw [Item.print, List.mem_singleton] at hl
  subst hl
  split
  · exact rfl
  · unfold Complete
    rw [scan_margin]
    exact h

/-- The line is complete, and all of its tokens have the property. -/
structure Keeps (P : Token → Prop) (l : String) : Prop where
  complete : Complete l
  tokens : ∀ t ∈ lineTokens l, P t

theorem keeps_of_scans {P : Token → Prop} {l : String} {ts : List Token}
    (h : Scans .start (l.toList ++ ['\n']) ts .start) (hts : ∀ t ∈ ts, P t) : Keeps P l := by
  obtain ⟨hcomplete, htokens⟩ := scans_line.mp h
  exact ⟨hcomplete, by rw [htokens]; exact hts⟩

theorem Keeps.mono {P Q : Token → Prop} {l : String} (h : Keeps P l) (hsub : ∀ t, P t → Q t) :
    Keeps Q l :=
  ⟨h.complete, fun t ht => hsub t (h.tokens t ht)⟩

/-- The margin of a printed line has no tokens, and the line is as complete as its text. -/
theorem Keeps.print {P : Token → Prop} {indent : Int} {x l : String} (h : Keeps P x)
    (hl : l ∈ (Item.line indent x).print false) : Keeps P l := by
  refine ⟨complete_print h.complete hl, fun t ht => h.tokens t ?_⟩
  rw [← lineTokens_print indent x]
  exact List.mem_flatMap.mpr ⟨l, hl, ht⟩

/-! ## Lines with gaps -/

/-- A property of runs of tokens that a run has where its parts have it. -/
structure Joined (D : List Token → Prop) : Prop where
  nil : D []
  append {ts us : List Token} (hts : D ts) (hus : D us) : D (ts ++ us)

theorem joined_forall (P : Token → Prop) : Joined fun ts => ∀ t ∈ ts, P t where
  nil := List.forall_mem_nil _
  append hts hus := List.forall_mem_append.mpr ⟨hts, hus⟩

theorem Joined.flatMap {D : List Token → Prop} (hD : Joined D) {α : Type} {f : α → List Token}
    {items : List α} (h : ∀ a ∈ items, D (f a)) : D (items.flatMap f) := by
  induction items with
  | nil => exact hD.nil
  | cons a rest ih =>
    rw [List.flatMap_cons]
    exact hD.append (h a (by simp)) (ih fun b hb => h b (List.mem_cons_of_mem _ hb))

/-- The text leads from code to code, where it may end with a word, and its tokens have the
property. -/
def Heard (D : List Token → Prop) (g : String) : Prop :=
  ∃ ts held, Scans .start g.toList ts ⟨.code, held⟩ ∧ D (ts ++ heldWord held)

/-- The text is spelled like this, with text in the gaps whose tokens have the property. -/
inductive Written (D : List Token → Prop) : Spelling → String → Prop where
  | nil : Written D [] ""
  | last {cs : List Char} : Written D [some cs] (String.ofList cs)
  | text {cs : List Char} {s : Spelling} {x : String} (h : Written D s x) :
      Written D (some cs :: s) (String.ofList cs ++ x)
  | gap {s : Spelling} {g x : String} (hg : Heard D g) (h : Written D s x) :
      Written D (none :: s) (g ++ x)

/-- Whether what follows a gap cannot go on with its last word. -/
def startsApart : Spelling → Bool
  | [] => true
  | some (c :: _) :: _ => !isWord c
  | _ => false

/-- Whether a line that is spelled like this is complete and its fixed text has such tokens only,
whatever stands in the gaps. -/
def passes (p : Token → Bool) : Cursor → Spelling → Bool
  | k, [] => match scan k ['\n'] with
    | (t, ts) => t = .start && ts.all p
  | k, some cs :: rest => match scan k cs with
    | (t, ts) => ts.all p && passes p t rest
  | k, none :: rest => k = .start && startsApart rest && passes p .start rest

theorem passes_mono {p q : Token → Bool} (hpq : ∀ t, p t = true → q t = true) {s : Spelling} :
    ∀ {k : Cursor}, passes p k s = true → passes q k s = true := by
  induction s with
  | nil =>
    intro k h
    rw [passes, Bool.and_eq_true, List.all_eq_true] at h ⊢
    exact ⟨h.1, fun t ht => hpq t (h.2 t ht)⟩
  | cons part rest ih =>
    intro k h
    cases part with
    | some cs =>
      rw [passes, Bool.and_eq_true, List.all_eq_true] at h ⊢
      exact ⟨fun t ht => hpq t (h.1 t ht), ih h.2⟩
    | none =>
      rw [passes, Bool.and_eq_true] at h ⊢
      exact ⟨h.1, ih h.2⟩

section

variable {D : List Token → Prop}

theorem Written.startsApart {s : Spelling} {x : String} (h : Written D s x)
    (hs : Lexer.startsApart s = true) :
    ∃ c cs, x.toList ++ ['\n'] = c :: cs ∧ isWord c = false := by
  cases h with
  | nil => exact ⟨'\n', [], rfl, rfl⟩
  | @last cs =>
    cases cs with
    | nil => cases hs
    | cons c cs => exact ⟨c, cs ++ ['\n'], by simp, by simpa [Lexer.startsApart] using hs⟩
  | @text cs s x h =>
    cases cs with
    | nil => cases hs
    | cons c cs =>
      exact ⟨c, cs ++ x.toList ++ ['\n'], by simp, by simpa [Lexer.startsApart] using hs⟩
  | gap hg h => cases hs

/-- What is checked on the spelling holds of the line: from fixed text the scanner is followed
directly, and a gap starts and ends in code. -/
theorem Written.scans (hD : Joined D) {p : Token → Bool} (hp : ∀ ts, ts.all p = true → D ts)
    {s : Spelling} {x : String} (h : Written D s x) :
    ∀ k, passes p k s = true → ∃ ts, Scans k (x.toList ++ ['\n']) ts .start ∧ D ts := by
  have hend : ∀ k, passes p k [] = true → ∃ ts, Scans k ['\n'] ts .start ∧ D ts := by
    intro k hk
    rw [passes, Bool.and_eq_true, decide_eq_true_eq] at hk
    exact ⟨_, Prod.ext hk.1 rfl, hp _ hk.2⟩
  have htext : ∀ {cs ds : List Char} {k t : Cursor}, (scan k cs).2.all p = true →
      (∃ ts, Scans (scan k cs).1 ds ts t ∧ D ts) → ∃ ts, Scans k (cs ++ ds) ts t ∧ D ts := by
    rintro cs ds k t hcs ⟨ts, hscan, hts⟩
    have hfirst : Scans k cs _ _ := rfl
    exact ⟨_, hfirst.append hscan, hD.append (hp _ hcs) hts⟩
  induction h with
  | nil => exact hend
  | last =>
    intro k hk
    rw [passes, Bool.and_eq_true] at hk
    rw [String.toList_ofList]
    exact htext hk.1 (hend _ hk.2)
  | text h ih =>
    intro k hk
    rw [passes, Bool.and_eq_true] at hk
    rw [String.toList_append, String.toList_ofList, List.append_assoc]
    exact htext hk.1 (ih _ hk.2)
  | gap hg h ih =>
    intro k hk
    rw [passes, Bool.and_eq_true, Bool.and_eq_true, decide_eq_true_eq] at hk
    obtain ⟨⟨rfl, happart⟩, hrest⟩ := hk
    obtain ⟨ts, hscan, hts⟩ := ih _ hrest
    obtain ⟨us, held, hgap, hus⟩ := hg
    obtain ⟨c, cs, hcs, hc⟩ := h.startsApart happart
    rw [hcs] at hscan
    rw [String.toList_append, List.append_assoc, hcs]
    refine ⟨_, hgap.append (hscan.apart hc held), ?_⟩
    rw [← List.append_assoc]
    exact hD.append hus hts

theorem Written.keeps {p : Token → Bool} {s : Spelling} {x : String}
    (h : Written (fun ts => ∀ t ∈ ts, p t = true) s x) (hs : passes p .start s = true) :
    Keeps (fun t => p t = true) x := by
  obtain ⟨ts, hscan, hts⟩ := h.scans (joined_forall _) (fun _ => List.all_eq_true.mp) .start hs
  exact keeps_of_scans hscan hts

end

/-- Lines can be checked on their spellings. -/
theorem forall_of_spellings {R : Spelling → String → Prop} {P : String → Prop}
    {check : Spelling → Bool} (hcheck : ∀ {s l}, R s l → check s = true → P l)
    {ss : List Spelling} {ls : List String} (h : List.Forall₂ R ss ls) (hs : ss.all check = true) :
    ∀ l ∈ ls, P l := by
  induction h with
  | nil => exact List.forall_mem_nil _
  | cons hfirst _ ih =>
    rw [List.all_cons, Bool.and_eq_true] at hs
    exact List.forall_mem_cons.mpr ⟨hcheck hfirst hs.1, ih hs.2⟩

/-! ## Lines without certain words -/

/-- Whether a token is none of the words. -/
def Token.avoids (words : List (List Char)) : Token → Bool
  | .word w => !words.contains w
  | .quoted _ => true
  | .sign _ => true

theorem notMem_of_avoids {words : List (List Char)} {w : List Char} (hw : w ∈ words)
    {ts : List Token} (h : ∀ t ∈ ts, t.avoids words = true) : .word w ∉ ts := by
  intro hmem
  have hword := h _ hmem
  simp [Token.avoids, hw] at hword

/-- The start of the names of node functions. -/
def nodeStart : List Char := ['e', 'x', 'e', 'c', 'u', 't', 'e', '_']

/-- Whether a token may be the name of a node's function. -/
def Token.namesNode : Token → Bool
  | .word w => nodeStart.isPrefixOf w
  | .quoted _ => false
  | .sign _ => false

/-- Whether a token is none of the words and not the name of a node's function. -/
def Token.tame (words : List (List Char)) (t : Token) : Bool := t.avoids words && !t.namesNode

theorem Token.tame_word {words : List (List Char)} {w : List Char} :
    (Token.word w).tame words = true ↔ w ∉ words ∧ ¬ nodeStart <+: w := by
  have hstart : nodeStart.isPrefixOf w = false ↔ ¬ nodeStart <+: w := by
    rw [← List.isPrefixOf_iff_prefix, Bool.not_eq_true]
  simp [Token.tame, Token.avoids, Token.namesNode, hstart]

theorem Token.avoids_of_tame {words : List (List Char)} {t : Token} (h : t.tame words = true) :
    t.avoids words = true := (Bool.and_eq_true_iff.mp h).1

theorem Token.tame_subset {words more : List (List Char)} (hsub : words ⊆ more) {t : Token}
    (h : t.tame more = true) : t.tame words = true := by
  cases t with
  | quoted cs => rfl
  | sign c => rfl
  | word w =>
    rw [tame_word] at h ⊢
    exact ⟨fun hw => h.1 (hsub hw), h.2⟩

/-- The line is complete, and none of its tokens is one of the words. -/
abbrev Avoids (words : List (List Char)) (l : String) : Prop :=
  Keeps (fun t => t.avoids words = true) l

/-- The line is complete, and none of its tokens is one of the words or the name of a node's
function. -/
abbrev Tame (words : List (List Char)) (l : String) : Prop :=
  Keeps (fun t => t.tame words = true) l

theorem Tame.avoids {words : List (List Char)} {l : String} (h : Tame words l) : Avoids words l :=
  h.mono fun _ => Token.avoids_of_tame

theorem Tame.subset {words more : List (List Char)} {l : String} (h : Tame more l)
    (hsub : words ⊆ more) : Tame words l :=
  h.mono fun _ => Token.tame_subset hsub

/-- None of the words is quiet. -/
def Loud (words : List (List Char)) : Prop := ∀ w ∈ words, w.all isQuiet = false

instance (words : List (List Char)) : Decidable (Loud words) :=
  inferInstanceAs (Decidable (∀ w ∈ words, _))

theorem tame_of_voicedIn {words : List (List Char)} (hloud : Loud words) {t : Token}
    (h : t.VoicedIn isQuiet fun _ => True) : t.tame words = true := by
  cases t with
  | quoted cs => rfl
  | sign c => rfl
  | word w =>
    have hquiet : w.all isQuiet = true := h
    have hw : w ∉ words := by
      intro hw
      rw [hloud w hw] at hquiet
      cases hquiet
    refine Token.tame_word.mpr ⟨hw, ?_⟩
    rintro ⟨rest, rfl⟩
    simp [nodeStart, isQuiet, telltales] at hquiet

/-- The text is spelled like this, with quiet text in the gaps. -/
inductive Said : Spelling → String → Prop where
  | nil : Said [] ""
  | last {cs : List Char} : Said [some cs] (String.ofList cs)
  | text {cs : List Char} {s : Spelling} {x : String} (h : Said s x) :
      Said (some cs :: s) (String.ofList cs ++ x)
  | gap {s : Spelling} {g x : String} (hg : Spoken isQuiet g) (h : Said s x) :
      Said (none :: s) (g ++ x)

theorem spoken_int (k : Int) : Spoken isQuiet (toString k) :=
  voiced_of_inert (inert_int k) (madeOf_int letters_isQuiet.toNumerals k)

theorem said_lineCode (parts : List Part) :
    Said (spell (parts.map Part.fixed?)) (lineCode parts) := by
  induction parts with
  | nil => exact .nil
  | cons p rest ih =>
    rw [lineCode_cons]
    cases p with
    | text s =>
      have htext := @Said.text s.toList _ _ ih
      rwa [String.ofList_toList] at htext
    | expr e => exact .gap (spoken_expr e) ih
    | number k => exact .gap (spoken_int k) ih

/-- Whether a line that is spelled like this is tame, whatever stands in the gaps. -/
def hears (words : List (List Char)) : Cursor → Spelling → Bool := passes (·.tame words)

theorem heard_of_spoken {words : List (List Char)} (hloud : Loud words) {g : String}
    (h : Spoken isQuiet g) : Heard (fun ts => ∀ t ∈ ts, t.tame words = true) g := by
  obtain ⟨ts, held, hscan, hheld, hts⟩ := h [] rfl
  refine ⟨ts, held, hscan, List.forall_mem_append.mpr ⟨?_, ?_⟩⟩
  · exact fun t ht => tame_of_voicedIn hloud (hts t ht)
  · exact fun t ht => tame_of_voicedIn hloud (voicedIn_heldWord hheld t ht)

theorem Said.written {words : List (List Char)} (hloud : Loud words) {s : Spelling} {x : String}
    (h : Said s x) : Written (fun ts => ∀ t ∈ ts, t.tame words = true) s x := by
  induction h with
  | nil => exact .nil
  | last => exact .last
  | text _ ih => exact .text ih
  | gap hg _ ih => exact .gap (heard_of_spoken hloud hg) ih

theorem Said.tame {words : List (List Char)} (hloud : Loud words) {s : Spelling} {x : String}
    (h : Said s x) (hs : hears words .start s = true) : Tame words x :=
  (h.written hloud).keeps hs

theorem tame_of_said {words : List (List Char)} (hloud : Loud words) {ss : List Spelling}
    {ls : List String} (h : List.Forall₂ Said ss ls)
    (hs : ss.all (hears words .start) = true) : ∀ l ∈ ls, Tame words l :=
  forall_of_spellings (fun hl => hl.tame hloud) h hs

/-! ## The words that are looked for -/

/-- A service that a script may call only with a permission. -/
inductive Service where
  | gmail
  | spreadsheet
  | drive
  | urlFetch
  | mail
deriving DecidableEq, Repr

namespace Service

/-- All services. -/
def all : List Service := [gmail, spreadsheet, drive, urlFetch, mail]

/-- The object by which a script calls a service. -/
def object : Service → String
  | .gmail => "GmailApp"
  | .spreadsheet => "SpreadsheetApp"
  | .drive => "DriveApp"
  | .urlFetch => "UrlFetchApp"
  | .mail => "MailApp"

/-- The letters of the object. -/
def letters : Service → List Char
  | .gmail => ['G', 'm', 'a', 'i', 'l', 'A', 'p', 'p']
  | .spreadsheet => ['S', 'p', 'r', 'e', 'a', 'd', 's', 'h', 'e', 'e', 't', 'A', 'p', 'p']
  | .drive => ['D', 'r', 'i', 'v', 'e', 'A', 'p', 'p']
  | .urlFetch => ['U', 'r', 'l', 'F', 'e', 't', 'c', 'h', 'A', 'p', 'p']
  | .mail => ['M', 'a', 'i', 'l', 'A', 'p', 'p']

theorem toList_object (s : Service) : s.object.toList = s.letters := by cases s <;> rfl

theorem mem_all (s : Service) : s ∈ all := by cases s <;> decide

/-- The services that the function of a node calls, by its kind and by whether it saves its message
to a sheet. -/
def ofKind (saves : Bool) : Option Kind → List Service
  | some .gmailTrigger => [gmail]
  | some .sheetsTrigger => [spreadsheet]
  | some .gmailSend => [mail]
  | some .gmailRead => [gmail]
  | some .sheetsAppend => [spreadsheet]
  | some .sheetsRead => [spreadsheet]
  | some .driveCreate => [drive]
  | some .httpRequest => [urlFetch]
  | some .slackPost => [urlFetch]
  | some .logger => if saves then [spreadsheet] else []
  | _ => []

end Service

/-- The letters of all services. -/
def services : List (List Char) := Service.all.map Service.letters

/-- The letters of the method that reads a script property. -/
def getProperty : List Char := ['g', 'e', 't', 'P', 'r', 'o', 'p', 'e', 'r', 't', 'y']

/-- The letters of the helper that keeps rate limits. -/
def checkRateLimit : List Char :=
  ['c', 'h', 'e', 'c', 'k', 'R', 'a', 't', 'e', 'L', 'i', 'm', 'i', 't']

/-- The letters of the function that removes triggers. -/
def deleteTriggers : List Char :=
  ['d', 'e', 'l', 'e', 't', 'e', 'T', 'r', 'i', 'g', 'g', 'e', 'r', 's']

/-- The letters of the function that answers requests. -/
def handleWebhookRequest : List Char :=
  ['h', 'a', 'n', 'd', 'l', 'e', 'W', 'e', 'b', 'h', 'o', 'o', 'k', 'R', 'e', 'q', 'u', 'e', 's', 't']

/-- The helpers that are not called from a main file, where the rate limiter is wanted or not. -/
def missing (limited : Bool) : List (List Char) :=
  if limited then [deleteTriggers, handleWebhookRequest]
  else [checkRateLimit, deleteTriggers, handleWebhookRequest]

/-- The services, and the helpers that are not called. -/
def guarded (limited : Bool) : List (List Char) := services ++ missing limited

/-- The method that reads a script property, and what is guarded. -/
def watched : List (List Char) := getProperty :: guarded false

theorem guarded_subset (limited : Bool) : guarded limited ⊆ guarded false := by
  cases limited <;> decide

theorem guarded_subset_watched (limited : Bool) : guarded limited ⊆ watched :=
  List.subset_cons_of_subset _ (guarded_subset limited)

theorem services_subset_watched : services ⊆ watched :=
  List.subset_cons_of_subset _ (List.subset_append_left ..)

theorem loud_watched : Loud watched := by decide

theorem Loud.subset {words more : List (List Char)} (h : Loud more) (hsub : words ⊆ more) :
    Loud words := fun w hw => h w (hsub hw)

/-- The watched words that do not belong into the body of a node: a property is never read there, and
only the services of its kind are called. -/
def foreign (saves : Bool) (k : Option Kind) : List (List Char) :=
  watched.filter fun w => w ∉ (Service.ofKind saves k).map Service.letters

/-- Whether a token is no string between double quotes. -/
def Token.isBare : Token → Bool
  | .quoted (c :: _) => c ≠ '"'
  | _ => true

/-- The fixed text of a body has no foreign words and no strings between double quotes. -/
theorem passes_trialShapes (saves : Bool) (k : Option Kind) :
    ∀ s ∈ trialShapes saves k,
      passes (fun t => t.tame (foreign saves k) && t.isBare) .start (spell s) = true := by
  cases k with
  | none =>
    exact Spelled.all (passes _ .start) (by repeat' constructor) (by decide +kernel +revert)
  | some k =>
    cases k with
    | logger =>
      cases saves <;>
        exact Spelled.all (passes _ .start) (by repeat' constructor) (by decide +kernel)
    | _ =>
      exact Spelled.all (passes _ .start) (by repeat' constructor) (by decide +kernel +revert)

theorem hears_trialShapes (saves : Bool) (k : Option Kind) :
    ∀ s ∈ trialShapes saves k, hears (foreign saves k) .start (spell s) = true :=
  fun s hs => passes_mono (fun _ ht => (Bool.and_eq_true_iff.mp ht).1)
    (passes_trialShapes saves k s hs)

/-- A line of a node's body has no foreign words, whatever the node's configuration is. -/
theorem tame_body {n : PlannedNode} {c : Choices} {steps : List Step}
    (h : (n.recipe.body n c).outcome = .ok steps) {parts : List Part} (hline : .line parts ∈ steps) :
    Tame (foreign n.saves n.kind?) (lineCode parts) :=
  (said_lineCode parts).tame (loud_watched.subset (List.filter_subset_self _))
    (hears_trialShapes n.saves n.kind? _ (shape_mem_of_body h hline))

/-! ## Snippets -/

theorem spoken_hoursCode {f : Facts} (hf : Usual f) {hours : String}
    (h : Snippet.hoursCode f.ttlHours = .ok hours) : Inert hours ∧ Spoken isQuiet hours := by
  have hinert := inert_hoursCode hf.ttlHours h
  exact ⟨hinert, voiced_of_inert hinert (madeOf_hoursCode letters_isQuiet.toNumerals
    (by decide) (by decide) hf.ttlHours h)⟩

/-- The fixed text of the lines has none of the words and no strings between double quotes, and the
tokens in the gaps have the property. -/
def Scripted (words : List (List Char)) (D : List Token → Prop) (lines : List String) : Prop :=
  ∃ ss, List.Forall₂ (Written D) ss lines ∧
    ss.all (passes (fun t => t.tame words && t.isBare) .start) = true

theorem Scripted.tame {words : List (List Char)} {lines : List String}
    (h : Scripted words (fun ts => ∀ t ∈ ts, t.tame words = true) lines) :
    ∀ l ∈ lines, Tame words l := by
  obtain ⟨ss, hlines, hss⟩ := h
  refine forall_of_spellings (fun hl hs => hl.keeps (passes_mono (fun t ht => ?_) hs)) hlines hss
  exact (Bool.and_eq_true_iff.mp ht).1

section

variable {D : List Token → Prop} {f : Facts} {lines : List String}

theorem scripted_errorLines (hf : Usual f)
    (hname : Heard D (Json.quote (f.connectorName ++ " API error ("))) :
    Scripted watched D (Snippet.errorLines f) := by
  simp only [Snippet.errorLines, hf.responseVar, String.append_assoc] at hname ⊢
  exact ⟨_, by
    repeat' first
      | with_reducible apply Written.gap hname
      | with_reducible apply Written.text
      | constructor, by decide +kernel⟩

theorem scripted_rateLimitLines (hslug : Heard D (Json.literal f.slug))
    (hnumber : ∀ k : Int, Heard D (toString k)) (h : Snippet.rateLimitLines f = .ok lines) :
    Scripted (getProperty :: guarded f.rateLimiting) D lines := by
  rcases Snippet.rateLimitLines_eq_ok h with ⟨_, rfl⟩ | ⟨requests, window, hlimited, _, _, rfl⟩
  · exact ⟨[], .nil, rfl⟩
  · have hrequests := hnumber requests
    have hwindow := hnumber window
    simp only [Snippet.limitCode, hlimited, String.append_assoc]
    exact ⟨_, by
      repeat' first
        | with_reducible apply Written.gap hslug
        | with_reducible apply Written.gap hrequests
        | with_reducible apply Written.gap hwindow
        | with_reducible apply Written.text
        | constructor, by decide +kernel⟩

end

theorem tame_errorLines {f : Facts} (hf : Usual f) :
    ∀ l ∈ Snippet.errorLines f, Tame watched l :=
  (scripted_errorLines hf (heard_of_spoken loud_watched (spoken_quote _))).tame

/-- The rate limiter is called where it is wanted, and no other helper. -/
theorem tame_rateLimitLines {f : Facts} {lines : List String}
    (h : Snippet.rateLimitLines f = .ok lines) :
    ∀ l ∈ lines, Tame (getProperty :: guarded f.rateLimiting) l := by
  have hloud : Loud (getProperty :: guarded f.rateLimiting) :=
    loud_watched.subset (List.cons_subset_cons _ (guarded_subset _))
  exact (scripted_rateLimitLines (heard_of_spoken hloud (spoken_literal letters_isQuiet _))
    (fun k => heard_of_spoken hloud (spoken_int k)) h).tame

/-- A comment up to the end of the line has no tokens. -/
theorem keeps_remark {cs : List Char} {x : String} (hcs : Text.noBreaks cs = true)
    (hx : Unbroken x) (P : Token → Prop) :
    Keeps P (String.ofList ('/' :: '/' :: cs) ++ x) := by
  have hinside : ∀ ds : List Char, (∀ c ∈ ds, Text.isLineBreak c = false) →
      Scans ⟨.remark, []⟩ (ds ++ ['\n']) [] .start := by
    intro ds hds
    induction ds with
    | nil => rfl
    | cons c ds ih =>
      have hc := endsLine_of_isLineBreak (hds c (by simp))
      refine scans_cons.mpr ⟨[], ?_, rfl⟩
      simpa [Cursor.after, Mode.after, Cursor.heldAfter, hc] using
        ih fun d hd => hds d (List.mem_cons_of_mem _ hd)
  have hopen : Scans .start ['/', '/'] [] ⟨.remark, []⟩ := rfl
  have hrest := hinside (cs ++ x.toList) fun c hc =>
    (List.mem_append.mp hc).elim (Text.noBreaks_iff.mp hcs c) (hx c)
  refine keeps_of_scans (?_ : Scans .start _ [] .start) (List.forall_mem_nil _)
  rw [String.toList_append, String.toList_ofList]
  exact hopen.append hrest

/-- The lines behind the comment that says how long items are remembered. -/
theorem scripted_dedupLines {D : List Token → Prop} {f : Facts} (hf : Usual f) {lines : List String}
    (h : Snippet.dedupLines f = .ok lines) :
    ∃ remark rest hours stem, lines = remark :: rest ∧ (∀ P, Keeps P remark) ∧ Inert hours ∧
      Spoken isQuiet hours ∧ f.itemStem = .ok stem ∧
      (Heard D hours → Heard D (Json.quote stem) → Scripted watched D rest) := by
  obtain ⟨hours, hhours, h⟩ := except_bind_eq_ok.mp h
  obtain ⟨stem, hstem, h⟩ := except_bind_eq_ok.mp h
  cases h
  obtain ⟨hinert, hspoken⟩ := spoken_hoursCode hf (except_mapError_eq_ok.mp hhours)
  refine ⟨_, _, hours, stem, rfl, fun P => ?_, hinert, hspoken, hstem, fun hnumber hkey => ?_⟩
  · rw [String.append_assoc]
    exact keeps_remark rfl (hinert.unbroken.append (Text.unbroken_ofList rfl)) P
  · simp only [hf.itemsVar, String.append_assoc]
    exact ⟨_, by
      repeat' first
        | with_reducible apply Written.gap hnumber
        | with_reducible apply Written.gap hkey
        | with_reducible apply Written.text
        | constructor, by decide +kernel⟩

theorem tame_dedupLines {f : Facts} (hf : Usual f) {lines : List String}
    (h : Snippet.dedupLines f = .ok lines) : ∀ l ∈ lines, Tame watched l := by
  obtain ⟨remark, rest, hours, stem, rfl, hremark, _, hhours, _, hrest⟩ := scripted_dedupLines hf h
  exact List.forall_mem_cons.mpr ⟨hremark _, (hrest (heard_of_spoken loud_watched hhours)
    (heard_of_spoken loud_watched (spoken_quote stem))).tame⟩

/-! ## Credentials -/

/-- The line that keeps a script property, with what stands in front of the read. -/
def readLine (start : String) (name : Value) : String := start ++ Snippet.readProperty name ++ ";"

/-- The text leads from code to code, and none of its tokens is watched. -/
def Opens (start : String) : Prop :=
  ∃ ts, Scans .start start.toList ts .start ∧ ∀ t ∈ ts, t.tame watched = true

theorem opens_fixed {cs : List Char} (hscan : (scan .start cs).1 = .start)
    (hts : (scan .start cs).2.all (·.tame watched) = true) : Opens (String.ofList cs) := by
  exact ⟨_, scans_fixed (Prod.ext hscan rfl), List.all_eq_true.mp hts⟩

/-- The tokens of the store of script properties. -/
def storeTokens : List Token :=
  [.word "PropertiesService".toList, .sign '.', .word "getScriptProperties".toList, .sign '(',
    .sign ')', .sign '.']

theorem scans_reader : Scans .start "PropertiesService.getScriptProperties().getProperty(".toList
    (storeTokens ++ [.word getProperty, .sign '(']) .start := scans_fixed (by decide +kernel)

theorem scans_readLine {start : String} {ts us : List Token} {name : Value} {held : List Char}
    (hstart : Scans .start start.toList ts .start)
    (hname : Scans .start (Json.literal name).toList us ⟨.code, held⟩) :
    Scans .start ((readLine start name).toList ++ ['\n'])
      (ts ++ storeTokens ++ .word getProperty :: .sign '(' :: (us ++ heldWord held) ++
        [.sign ')', .sign ';']) .start := by
  have hclose : Scans ⟨.code, held⟩ ")".toList (heldWord held ++ [.sign ')']) .start := by
    rw [show ")".toList = [')'] from rfl]
    exact Scans.apart rfl rfl held
  have hend : Scans .start ";".toList [.sign ';'] .start := scans_fixed rfl
  have hfeed : Scans .start ['\n'] [] .start := rfl
  have hread : Scans .start (Snippet.readProperty name).toList
      (storeTokens ++ [.word getProperty, .sign '('] ++ us ++ (heldWord held ++ [.sign ')']))
      .start := (scans_reader.joined hname).joined hclose
  have hall : Scans .start ((readLine start name).toList ++ ['\n']) _ .start :=
    ((hstart.joined hread).joined hend).append hfeed
  simpa using hall

/-- The properties are read in a row, and no other line has a watched word. -/
def ReadsInARow (names : List Value) (lines : List String) : Prop :=
  ∃ before starts after, lines = before ++ List.zipWith readLine starts names ++ after ∧
    starts.length = names.length ∧ (∀ start ∈ starts, Opens start) ∧
    ∀ l ∈ before ++ after, Tame watched l

theorem readsInARow_schemeLines {f : Facts} (hf : Usual f) {scheme : Scheme} {names : List Value}
    (h : f.propertiesOf scheme = .ok names) :
    ReadsInARow names (Snippet.schemeLines f (names.map Snippet.readProperty) scheme) := by
  have hheader := spoken_literal letters_isQuiet f.apiKeyHeader
  cases scheme
  case' apiKey =>
    obtain ⟨key, _, h⟩ := except_bind_eq_ok.mp h
    cases h
    refine ⟨_ :: _ :: [], ["const apiKey = "], _, rfl, rfl,
      List.forall_mem_singleton.mpr (opens_fixed rfl rfl), ?_⟩
  case' bearer =>
    obtain ⟨token, _, h⟩ := except_bind_eq_ok.mp h
    cases h
    refine ⟨_ :: _ :: [], ["const token = "], _, rfl, rfl,
      List.forall_mem_singleton.mpr (opens_fixed rfl rfl), ?_⟩
  case' basic =>
    obtain ⟨username, _, h⟩ := except_bind_eq_ok.mp h
    obtain ⟨password, _, h⟩ := except_bind_eq_ok.mp h
    cases h
    refine ⟨_ :: _ :: [], ["const username = ", "const password = "], _, rfl, rfl,
      List.forall_mem_cons.mpr ⟨opens_fixed rfl rfl,
        List.forall_mem_singleton.mpr (opens_fixed rfl rfl)⟩, ?_⟩
  case' oauth2 =>
    obtain ⟨token, _, h⟩ := except_bind_eq_ok.mp h
    cases h
    refine ⟨_ :: _ :: [], ["const accessToken = "], _, rfl, rfl,
      List.forall_mem_singleton.mpr (opens_fixed rfl rfl), ?_⟩
  all_goals
    simp only [Snippet.headersLine, hf.optionsVar, String.append_assoc, List.cons_append,
      List.nil_append]
    exact tame_of_said loud_watched
      (by
        repeat' first
          | with_reducible apply Said.gap hheader
          | with_reducible apply Said.text
          | constructor)
      (by decide +kernel)

/-- The code that adds credentials reads just the properties that hold the secrets. -/
theorem readsInARow_authLines {f : Facts} (hf : Usual f) {lines : List String}
    (h : (Snippet.authLines f).outcome = .ok lines) :
    ∃ names, f.secretProperties = .ok names ∧ ReadsInARow names lines := by
  rcases Snippet.authLines_eq_ok h with ⟨hscheme, rfl⟩ | ⟨scheme, names, hscheme, hnames, rfl⟩
  · exact ⟨[], by rw [Facts.secretProperties, hscheme],
      [], [], [], rfl, rfl, List.forall_mem_nil _, List.forall_mem_nil _⟩
  · exact ⟨names, by rw [Facts.secretProperties, hscheme]; exact hnames,
      readsInARow_schemeLines hf hnames⟩

/-- Nothing that is guarded has a part in a read, whatever the property is called. -/
theorem tame_readLine {start : String} (hstart : Opens start) (name : Value) :
    Tame (guarded false) (readLine start name) := by
  obtain ⟨ts, hscan, hts⟩ := hstart
  obtain ⟨us, held, hname, hheld, hus⟩ := spoken_literal letters_isQuiet name [] rfl
  have hloud : Loud (guarded false) := loud_watched.subset (guarded_subset_watched false)
  have hstore : ∀ t ∈ storeTokens, t.tame (guarded false) = true := by decide +kernel
  apply keeps_of_scans (scans_readLine hscan hname)
  simp only [List.forall_mem_append, List.forall_mem_cons]
  refine ⟨⟨⟨?_, hstore⟩, by decide, rfl, ?_, ?_⟩, rfl, rfl, List.forall_mem_nil _⟩
  · exact fun t ht => Token.tame_subset (guarded_subset_watched false) (hts t ht)
  · exact fun t ht => tame_of_voicedIn hloud (hus t ht)
  · exact fun t ht => tame_of_voicedIn hloud (voicedIn_heldWord hheld t ht)

theorem ReadsInARow.tame {names : List Value} {lines : List String}
    (h : ReadsInARow names lines) : ∀ l ∈ lines, Tame (guarded false) l := by
  obtain ⟨before, starts, after, rfl, _, hstarts, hothers⟩ := h
  have hother : ∀ l ∈ before ++ after, Tame (guarded false) l :=
    fun l hl => (hothers l hl).subset (guarded_subset_watched false)
  simp only [List.forall_mem_append] at hother ⊢
  refine ⟨⟨hother.1, ?_⟩, hother.2⟩
  intro l hl
  obtain ⟨i, hi, rfl⟩ := List.getElem_of_mem hl
  rw [List.getElem_zipWith]
  exact tame_readLine (hstarts _ (List.getElem_mem _)) _

/-- No snippet calls a service, or a helper that may be missing. -/
theorem tame_snippet {kind : SlotKind} {f : Facts} (hf : Usual f) {lines : List String}
    (h : (Snippet.lines kind f).outcome = .ok lines) :
    ∀ l ∈ lines, Tame (guarded f.rateLimiting) l := by
  have hquiet : (∀ l ∈ lines, Tame watched l) → ∀ l ∈ lines, Tame (guarded f.rateLimiting) l :=
    fun hlines l hl => (hlines l hl).subset (guarded_subset_watched _)
  cases kind with
  | auth =>
    obtain ⟨names, _, hreads⟩ := readsInARow_authLines hf (Snippet.authLines_of_lines h)
    exact fun l hl => (hreads.tame l hl).subset (guarded_subset _)
  | error =>
    cases h
    exact hquiet (tame_errorLines hf)
  | rateLimit =>
    exact fun l hl => (tame_rateLimitLines (except_mapError_eq_ok.mp h) l hl).subset
      (List.subset_cons_self ..)
  | dedup => exact hquiet (tame_dedupLines hf h)

end Flowscript.Lexer
