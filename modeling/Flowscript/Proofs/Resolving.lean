-- Resolving a template in two stages. Where braces stand in placeholders only
-- and no value brings one in, the text that the first stage leaves falls into
-- the pieces of the template again, with characters in the place of each
-- placeholder that was resolved. The second stage therefore meets just the
-- placeholders that the first one kept, and the two together do what one
-- stage does.
import Flowscript.Placeholder
import Flowscript.Proofs.Lines
import Mathlib.Data.List.Infix
import Mathlib.Data.List.TakeWhile

namespace Flowscript.Placeholder

/-! ## Placeholders in a text -/

/-- A placeholder that can stand in a template: its inside is not empty and has no brace. -/
structure Hole.Sound (h : Hole) : Prop where
  inner_ne_nil : h.inner ≠ []
  isBrace_eq_false : ∀ c ∈ h.inner, isBrace c = false

theorem holeOf?_eq_some {style : Style} {cs rest : List Char} {h : Hole}
    (hsome : holeOf? style cs = some (h, rest)) :
    h.style = style ∧ h.Sound ∧ cs = h.written ++ rest := by
  unfold holeOf? at hsome
  obtain ⟨body, hbody, hsome⟩ := Option.bind_eq_some_iff.mp hsome
  dsimp only at hsome
  split at hsome
  · cases hsome
  · rename_i hne
    obtain ⟨after, hafter, hsome⟩ := Option.bind_eq_some_iff.mp hsome
    cases hsome
    rw [List.isPrefixOf?_eq_some_iff_append_eq] at hbody hafter
    refine ⟨rfl, ⟨by simpa using hne, fun c hc => ?_⟩, ?_⟩
    · simpa using List.mem_takeWhile_imp hc
    · calc cs = style.opening ++ body := hbody.symm
        _ = style.opening ++ (body.takeWhile (!isBrace ·) ++ body.dropWhile (!isBrace ·)) := by
          rw [List.takeWhile_append_dropWhile]
        _ = _ := by simp [Hole.written, hafter]

theorem holeOf?_written {h : Hole} (hs : h.Sound) (rest : List Char) :
    holeOf? h.style (h.written ++ rest) = some (h, rest) := by
  obtain ⟨style, inner⟩ := h
  have hinner : ∀ c ∈ inner, (!isBrace c) = true := fun c hc => by simp [hs.isBrace_eq_false c hc]
  have hstop : ∀ p : Char → Bool, p '\x7d' = false →
      (style.closing ++ rest).takeWhile p = [] ∧
        (style.closing ++ rest).dropWhile p = style.closing ++ rest := by
    intro p hp
    cases style <;> simp [Style.closing, hp]
  obtain ⟨htake, hdrop⟩ := hstop (fun c => !isBrace c) rfl
  unfold holeOf?
  rw [Hole.written, List.append_assoc, List.append_assoc]
  refine Option.bind_eq_some_iff.mpr
    ⟨inner ++ (style.closing ++ rest), List.isPrefixOf?_eq_some_iff_append_eq.mpr rfl, ?_⟩
  simp only [List.takeWhile_append_of_pos hinner, List.dropWhile_append_of_pos hinner, htake, hdrop,
    List.append_nil, List.isEmpty_iff, hs.inner_ne_nil, if_false]
  exact Option.bind_eq_some_iff.mpr ⟨rest, List.isPrefixOf?_eq_some_iff_append_eq.mpr rfl, rfl⟩

theorem hole?_eq_some {cs rest : List Char} {h : Hole} (hsome : hole? cs = some (h, rest)) :
    h.Sound ∧ cs = h.written ++ rest := by
  unfold hole? at hsome
  cases hbraces : holeOf? .braces cs with
  | some found =>
    rw [hbraces] at hsome
    cases hsome
    exact (holeOf?_eq_some hbraces).2
  | none =>
    rw [hbraces] at hsome
    exact (holeOf?_eq_some hsome).2

theorem hole?_written {h : Hole} (hs : h.Sound) (rest : List Char) :
    hole? (h.written ++ rest) = some (h, rest) := by
  have hown := holeOf?_written hs rest
  obtain ⟨style, inner⟩ := h
  unfold hole?
  cases style with
  | braces => rw [hown]; rfl
  | dollar =>
    have hother : holeOf? .braces (Hole.written ⟨.dollar, inner⟩ ++ rest) = none := rfl
    rw [hother]
    exact hown

/-! ## Pieces -/

/-- Whether a piece is a brace that belongs to no placeholder. -/
def Piece.isStray : Piece → Bool
  | .char c => isBrace c
  | .hole _ => false

/-- A character that is no brace, or a placeholder that can stand in a template. -/
def Piece.Calm : Piece → Prop
  | .char c => isBrace c = false
  | .hole h => h.Sound

theorem piecesFrom_append {skip : Nat} {xs : List Char} (h : xs.length = skip) (cs : List Char) :
    piecesFrom skip (xs ++ cs) = piecesFrom 0 cs := by
  subst h
  induction xs with
  | nil => rfl
  | cons x xs ih => exact ih

/-- No placeholder opens with a character that is no brace, in front of calm pieces. A dollar sign
before two braces is the case to look at: the second brace would have to stand inside. -/
theorem hole?_char {c : Char} {ps : List Piece} (hc : isBrace c = false) (hps : ∀ p ∈ ps, p.Calm) :
    hole? (c :: ps.flatMap Piece.written) = none := by
  cases hsome : hole? (c :: ps.flatMap Piece.written) with
  | none => rfl
  | some found =>
    obtain ⟨⟨style, inner⟩, rest⟩ := found
    obtain ⟨hs, heq⟩ := hole?_eq_some hsome
    obtain ⟨d, inner', hinner⟩ := List.exists_cons_of_ne_nil hs.inner_ne_nil
    have hd := hs.isBrace_eq_false d (by rw [hinner]; simp)
    dsimp only at hinner
    subst hinner
    cases style with
    | braces =>
      rw [(List.cons.inj heq).1] at hc
      cases hc
    | dollar =>
      have htail : ps.flatMap Piece.written = '\x7b' :: d :: (inner' ++ ['\x7d'] ++ rest) :=
        (List.cons.inj heq).2
      cases ps with
      | nil => cases htail
      | cons p ps =>
        have hp := hps p (by simp)
        rw [List.flatMap_cons] at htail
        cases p with
        | char x =>
          have hx : isBrace x = false := hp
          rw [(List.cons.inj htail).1] at hx
          cases hx
        | hole g =>
          obtain ⟨style, ginner⟩ := g
          cases style with
          | braces =>
            rw [← (List.cons.inj (List.cons.inj htail).2).1] at hd
            cases hd
          | dollar => cases (List.cons.inj htail).1

theorem pieces_hole {h : Hole} (hs : h.Sound) (cs : List Char) :
    pieces (h.written ++ cs) = .hole h :: pieces cs := by
  obtain ⟨c, tail, hwritten⟩ : ∃ c tail, h.written = c :: tail := by
    obtain ⟨style, inner⟩ := h
    cases style <;> exact ⟨_, _, rfl⟩
  have hfound := hole?_written hs cs
  unfold pieces
  rw [hwritten, List.cons_append] at hfound ⊢
  rw [piecesFrom, hfound]
  dsimp only
  rw [hwritten, List.length_cons, Nat.add_sub_cancel, piecesFrom_append rfl]

theorem pieces_char {c : Char} {cs : List Char} (h : hole? (c :: cs) = none) :
    pieces (c :: cs) = .char c :: pieces cs := by
  unfold pieces
  rw [piecesFrom, h]

/-- Calm pieces, written one behind the other, are the pieces of the text. -/
theorem pieces_written {ps : List Piece} (h : ∀ p ∈ ps, p.Calm) :
    pieces (ps.flatMap Piece.written) = ps := by
  induction ps with
  | nil => rfl
  | cons p ps ih =>
    have hp := h p (by simp)
    have hps : ∀ q ∈ ps, q.Calm := fun q hq => h q (List.mem_cons_of_mem _ hq)
    rw [List.flatMap_cons]
    cases p with
    | char c =>
      rw [Piece.written, List.singleton_append, pieces_char (hole?_char hp hps), ih hps]
    | hole g => rw [Piece.written, pieces_hole hp, ih hps]

/-- The placeholders of a text can stand in a template. -/
theorem sound_of_mem_piecesFrom {skip : Nat} {cs : List Char} {h : Hole}
    (hmem : .hole h ∈ piecesFrom skip cs) : h.Sound := by
  fun_induction piecesFrom skip cs with
  | case1 => cases hmem
  | case2 skip c cs ih => exact ih hmem
  | case3 c cs g rest hsome ih =>
    rcases List.mem_cons.mp hmem with he | hmem
    · cases he
      exact (hole?_eq_some hsome).1
    · exact ih hmem
  | case4 c cs hnone ih =>
    rcases List.mem_cons.mp hmem with he | hmem
    · cases he
    · exact ih hmem

theorem calm_of_mem_pieces {cs : List Char} {p : Piece} (hmem : p ∈ pieces cs)
    (hstray : p.isStray = false) : p.Calm := by
  cases p with
  | char c => exact hstray
  | hole h => exact sound_of_mem_piecesFrom hmem

/-- The placeholders of a text, from left to right. -/
def holes (cs : List Char) : List Hole := (pieces cs).filterMap fun
  | .hole h => some h
  | .char _ => none

theorem mem_holes {cs : List Char} {h : Hole} : h ∈ holes cs ↔ .hole h ∈ pieces cs := by
  unfold holes
  rw [List.mem_filterMap]
  constructor
  · rintro ⟨p, hp, he⟩
    cases p with
    | char c => cases he
    | hole g =>
      cases he
      exact hp
  · intro hmem
    exact ⟨_, hmem, rfl⟩

/-! ## Resolving as a map on pieces -/

/-- The value that a placeholder is resolved to, if there is one. -/
def Hole.value? (values : Value) (h : Hole) : Option Value :=
  if h.path.isEmpty then none
  else match lookup values (String.ofList h.path) with
    | .ok found => found
    | .error _ => none

/-- The pieces that resolving leaves in the place of a piece: the characters of the value for a
placeholder that has one, and the piece itself for any other. -/
def Piece.settle (values : Value) : Piece → List Piece
  | .char c => [.char c]
  | .hole h => match h.value? values with
    | some v => (format v).toList.map .char
    | none => [.hole h]

theorem write_of_isPrintable {v : Value} (h : v.isPrintable = true) : write v = .ok (format v) := by
  rw [write, if_pos h]

/-- Every path of the pieces can be looked up, and every value there can be printed. -/
structure Reachable (values : Value) (ps : List Piece) : Prop where
  isOk : ∀ h, .hole h ∈ ps → (lookup values (String.ofList h.path)).isOk = true
  isPrintable : ∀ h, .hole h ∈ ps → ∀ v ∈ h.value? values, v.isPrintable = true

theorem Reachable.subset {values : Value} {ps qs : List Piece} (h : Reachable values ps)
    (hsub : ∀ g, .hole g ∈ qs → .hole g ∈ ps) : Reachable values qs :=
  ⟨fun g hg => h.isOk g (hsub g hg), fun g hg => h.isPrintable g (hsub g hg)⟩

theorem fillPiece_eq {values : Value} {p : Piece} (h : Reachable values [p]) :
    fillPiece values p = .ok ((p.settle values).flatMap Piece.written) := by
  cases p with
  | char c => rfl
  | hole g =>
    have hok := h.isOk g (by simp)
    have hprint := h.isPrintable g (by simp)
    unfold Hole.value? at hprint
    simp only [fillPiece, fillHole, Piece.settle, Hole.value?]
    split
    · simp [Piece.written]
    · rename_i hpath
      cases hlook : lookup values (String.ofList g.path) with
      | error e =>
        rw [hlook] at hok
        cases hok
      | ok found =>
        cases found with
        | none => simp [bind, Except.bind, pure, Except.pure, Piece.written]
        | some v =>
          have hv : write v = .ok (format v) :=
            write_of_isPrintable (hprint v (by rw [if_neg hpath, hlook]; rfl))
          simp [bind, Except.bind, pure, Except.pure, Piece.written, List.flatMap_map, hv]

theorem fillPieces_eq {values : Value} {ps : List Piece} (h : Reachable values ps) :
    fillPieces values ps = .ok ((ps.flatMap (Piece.settle values)).flatMap Piece.written) := by
  induction ps with
  | nil => rfl
  | cons p ps ih =>
    have hp : fillPiece values p = .ok ((p.settle values).flatMap Piece.written) :=
      fillPiece_eq (h.subset fun g hg => by simp_all)
    have hps := ih (h.subset fun g hg => List.mem_cons_of_mem _ hg)
    rw [fillPieces, hp, hps]
    simp [bind, Except.bind, pure, Except.pure]

theorem resolve_eq {t : String} {values : Value} (h : Reachable values (pieces t.toList)) :
    resolve t values =
      .ok (String.ofList (((pieces t.toList).flatMap (Piece.settle values)).flatMap
        Piece.written)) := by
  unfold resolve
  rw [fillPieces_eq h]
  rfl

/-! ## Two objects together -/

/-- The first name of a placeholder's path. -/
def Hole.root (h : Hole) : String := (Text.splitAt '.' (String.ofList h.path)).headD ""

/-- A path is followed from the field that its first name picks. -/
theorem lookup_object (fields : Fields) (h : Hole) :
    lookup (.object fields) (String.ofList h.path) =
      match Fields.get? fields h.root with
      | some v => walk v (Text.splitAt '.' (String.ofList h.path)).tail
      | none => .ok none := by
  unfold lookup Hole.root
  obtain ⟨part, rest, hparts⟩ :=
    List.exists_cons_of_ne_nil (Text.splitAt_ne_nil '.' (String.ofList h.path))
  rw [hparts, walk]
  simp only [child, List.headD_cons, List.tail_cons]
  cases Fields.get? fields part <;> rfl

theorem get?_eq_none {fields : Fields} {key : String} (h : key ∉ fields.map Prod.fst) :
    Fields.get? fields key = none := by
  refine List.lookup_eq_none_iff.mpr fun e he => bne_iff_ne.mpr ?_
  rintro rfl
  exact h (List.mem_map_of_mem he)

section Staged

variable {early late : Fields}

/-- A placeholder whose path starts with no field of the object is kept. -/
theorem value?_eq_none {h : Hole} (hroot : h.root ∉ early.map Prod.fst) :
    h.value? (.object early) = none := by
  unfold Hole.value?
  rw [lookup_object, get?_eq_none hroot]
  simp

variable (hdisj : ∀ key ∈ early.map Prod.fst, key ∉ late.map Prod.fst)

include hdisj in
/-- A path leads through one of two objects that have no field name in common. -/
theorem lookup_append (h : Hole) :
    lookup (.object (early ++ late)) (String.ofList h.path) =
      if h.root ∈ early.map Prod.fst then lookup (.object early) (String.ofList h.path)
      else lookup (.object late) (String.ofList h.path) := by
  have hget : Fields.get? (early ++ late) h.root =
      (Fields.get? early h.root).or (Fields.get? late h.root) := List.lookup_append
  rw [lookup_object, lookup_object, lookup_object, hget]
  by_cases hroot : h.root ∈ early.map Prod.fst
  · have hlate := get?_eq_none (hdisj _ hroot)
    rw [if_pos hroot, hlate, Option.or_none]
  · have hearly := get?_eq_none hroot
    rw [if_neg hroot, hearly, Option.none_or]

include hdisj in
theorem value?_append (h : Hole) :
    h.value? (.object (early ++ late)) =
      (h.value? (.object early)).or (h.value? (.object late)) := by
  by_cases hroot : h.root ∈ early.map Prod.fst
  · have hlate : h.value? (.object late) = none := value?_eq_none (hdisj _ hroot)
    rw [hlate, Option.or_none]
    unfold Hole.value?
    rw [lookup_append hdisj, if_pos hroot]
  · have hearly := value?_eq_none hroot
    rw [hearly, Option.none_or]
    unfold Hole.value?
    rw [lookup_append hdisj, if_neg hroot]

include hdisj in
theorem root_notMem_of_value? {h : Hole} {v : Value} (hv : h.value? (.object late) = some v) :
    h.root ∉ early.map Prod.fst := by
  intro hroot
  cases (value?_eq_none (hdisj _ hroot)).symm.trans hv

include hdisj in
/-- One stage does to a piece what the second stage does to what the first one left of it. -/
theorem settle_append (p : Piece) :
    p.settle (.object (early ++ late)) =
      (p.settle (.object early)).flatMap (Piece.settle (.object late)) := by
  cases p with
  | char c => rfl
  | hole h =>
    simp only [Piece.settle, value?_append hdisj]
    cases h.value? (.object early) with
    | some v => simp [List.flatMap_map, Piece.settle, ← List.map_eq_flatMap]
    | none => simp [Piece.settle]

include hdisj in
theorem reachable_append {ps : List Piece} (hearly : Reachable (.object early) ps)
    (hlate : Reachable (.object late) ps) : Reachable (.object (early ++ late)) ps := by
  refine ⟨fun h hmem => ?_, fun h hmem v hv => ?_⟩
  · rw [lookup_append hdisj]
    split
    · exact hearly.isOk h hmem
    · exact hlate.isOk h hmem
  · rw [value?_append hdisj] at hv
    rcases Option.or_eq_some_iff.mp hv with hv | ⟨_, hv⟩
    · exact hearly.isPrintable h hmem v hv
    · exact hlate.isPrintable h hmem v hv

end Staged

theorem mem_of_mem_settle {values : Value} {p : Piece} {h : Hole}
    (hmem : .hole h ∈ p.settle values) : p = .hole h := by
  cases p with
  | char c => cases List.mem_singleton.mp hmem
  | hole g =>
    simp only [Piece.settle] at hmem
    split at hmem
    · simp at hmem
    · rw [List.mem_singleton.mp hmem]

theorem calm_of_mem_settle {values : Value} {p q : Piece} (hp : p.Calm)
    (hvalue : ∀ h, p = .hole h → ∀ v ∈ h.value? values, ∀ c ∈ (format v).toList, isBrace c = false)
    (hq : q ∈ p.settle values) : q.Calm := by
  cases p with
  | char c =>
    rw [List.mem_singleton.mp hq]
    exact hp
  | hole h =>
    simp only [Piece.settle] at hq
    split at hq
    · rename_i v hv
      obtain ⟨c, hc, rfl⟩ := List.mem_map.mp hq
      exact hvalue h rfl v hv c hc
    · rw [List.mem_singleton.mp hq]
      exact hp

/-- The text that one stage leaves has the settled pieces of the template as its pieces. -/
theorem pieces_settled {t : String} {values : Value}
    (hstray : ∀ p ∈ pieces t.toList, p.isStray = false)
    (hvalue : ∀ h ∈ holes t.toList, ∀ v ∈ h.value? values,
      ∀ c ∈ (format v).toList, isBrace c = false) :
    pieces (((pieces t.toList).flatMap (Piece.settle values)).flatMap Piece.written) =
      (pieces t.toList).flatMap (Piece.settle values) := by
  refine pieces_written fun q hq => ?_
  obtain ⟨p, hp, hq⟩ := List.mem_flatMap.mp hq
  refine calm_of_mem_settle (calm_of_mem_pieces hp (hstray p hp)) ?_ hq
  rintro h rfl
  exact hvalue h (mem_holes.mpr hp)

/-! ## The law -/

/-- Resolving in two stages is resolving at once, for objects without a common field name, where
braces stand in placeholders only and every value can be looked up and printed. The second stage
meets the pieces of the template with characters for what the first one resolved; what starts with
no field of the first object is still there. -/
theorem resolving_in_two_stages_is_resolving_at_once (t : String) (early late : Fields)
    (hstray : ∀ p ∈ pieces t.toList, p.isStray = false)
    (hdisj : ∀ key ∈ early.map Prod.fst, key ∉ late.map Prod.fst)
    (hearly : ∀ h ∈ holes t.toList, (lookup (.object early) (String.ofList h.path)).isOk = true)
    (hlate : ∀ h ∈ holes t.toList, (lookup (.object late) (String.ofList h.path)).isOk = true)
    (hprint : ∀ h ∈ holes t.toList, ∀ v ∈ h.value? (.object (early ++ late)), v.isPrintable = true)
    (hvalue : ∀ h ∈ holes t.toList, ∀ v ∈ h.value? (.object early),
      ∀ c ∈ (format v).toList, isBrace c = false) :
    ∃ half whole,
      resolve t (.object early) = .ok half ∧
      resolve half (.object late) = .ok whole ∧
      resolve t (.object (early ++ late)) = .ok whole ∧
      pieces half.toList = (pieces t.toList).flatMap (Piece.settle (.object early)) ∧
      ∀ h ∈ holes t.toList, h.root ∉ early.map Prod.fst →
        Piece.settle (.object early) (.hole h) = [.hole h] ∧ h ∈ holes half.toList := by
  have hseen : Reachable (.object early) (pieces t.toList) :=
    ⟨fun h hh => hearly h (mem_holes.mpr hh), fun h hh v hv => hprint h (mem_holes.mpr hh) v <| by
      rw [value?_append hdisj, hv]
      rfl⟩
  have hlater : Reachable (.object late) (pieces t.toList) :=
    ⟨fun h hh => hlate h (mem_holes.mpr hh), fun h hh v hv => hprint h (mem_holes.mpr hh) v <| by
      rw [value?_append hdisj, value?_eq_none (root_notMem_of_value? hdisj hv)]
      exact hv⟩
  let staged := (pieces t.toList).flatMap (Piece.settle (.object early))
  have hpieces : pieces (String.ofList (staged.flatMap Piece.written)).toList = staged := by
    rw [String.toList_ofList]
    exact pieces_settled hstray hvalue
  have hsecond : Reachable (.object late)
      (pieces (String.ofList (staged.flatMap Piece.written)).toList) := by
    refine hlater.subset fun h hh => ?_
    rw [hpieces] at hh
    obtain ⟨p, hp, hmem⟩ := List.mem_flatMap.mp hh
    rw [mem_of_mem_settle hmem] at hp
    exact hp
  refine ⟨_, _, resolve_eq hseen, resolve_eq hsecond, ?_, hpieces, fun h hh hroot => ?_⟩
  · rw [resolve_eq (reachable_append hdisj hseen hlater), hpieces, List.flatMap_assoc]
    simp only [settle_append hdisj, staged, List.flatMap_assoc]
  · have hkept : Piece.settle (.object early) (.hole h) = [.hole h] := by
      rw [Piece.settle, value?_eq_none hroot]
    refine ⟨hkept, mem_holes.mpr ?_⟩
    rw [hpieces]
    exact List.mem_flatMap.mpr ⟨_, mem_holes.mp hh, by rw [hkept]; simp⟩

theorem isBrace_eq_false_of_any {cs : List Char} (h : cs.any isBrace = false) :
    ∀ c ∈ cs, isBrace c = false :=
  fun c hc => Bool.eq_false_iff.mpr (List.any_eq_false.mp h c hc)

/-- A resolved dollar sign in front of a placeholder that is kept, blanks inside a placeholder, and
both styles next to each other. -/
theorem resolving_past_a_dollar_sign_in_two_stages :
    ∃ half whole,
      resolve "\x7b\x7ba\x7d\x7d\x7b\x7bd\x7d\x7d-\x7b\x7b b.x \x7d\x7d$\x7bc.0\x7d"
        (.object [("a", .text "$"), ("b", .object [("x", .int 5)])]) = .ok half ∧
      resolve half (.object [("c", .list [.text "z"]), ("d", .null)]) = .ok whole ∧
      resolve "\x7b\x7ba\x7d\x7d\x7b\x7bd\x7d\x7d-\x7b\x7b b.x \x7d\x7d$\x7bc.0\x7d"
        (.object [("a", .text "$"), ("b", .object [("x", .int 5)]), ("c", .list [.text "z"]),
          ("d", .null)]) = .ok whole ∧
      ⟨.braces, ['d']⟩ ∈ holes half.toList := by
  obtain ⟨half, whole, hhalf, hwhole, honce, -, hkept⟩ :=
    resolving_in_two_stages_is_resolving_at_once
      "\x7b\x7ba\x7d\x7d\x7b\x7bd\x7d\x7d-\x7b\x7b b.x \x7d\x7d$\x7bc.0\x7d"
      [("a", .text "$"), ("b", .object [("x", .int 5)])] [("c", .list [.text "z"]), ("d", .null)]
      (by decide) (by decide) (by decide) (by decide) (by decide)
      (by
        intro h hh v hv
        apply isBrace_eq_false_of_any
        revert v
        revert h
        decide)
  exact ⟨half, whole, hhalf, hwhole, honce, (hkept _ (by decide) (by decide)).2⟩

end Flowscript.Placeholder
