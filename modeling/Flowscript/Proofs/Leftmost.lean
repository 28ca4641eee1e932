-- A template read from the left. Where a placeholder begins it is taken
-- whole, and where none begins one character is taken. Two styles, with
-- braces doubled, nested or left open, leave no choice in this, so every text
-- has one reading. Resolving fills the placeholders of that reading and
-- copies the rest, and a text in which no placeholder stands anywhere is
-- copied as it is.
import Flowscript.Proofs.Resolving

namespace Flowscript.Placeholder

/-! ## The reading of a text -/

/-- A text is read into pieces from the left. -/
inductive Reads : List Char → List Piece → Prop
  | nil : Reads [] []
  | hole {h : Hole} {cs : List Char} {ps : List Piece} :
      h.Sound → Reads cs ps → Reads (h.written ++ cs) (.hole h :: ps)
  | char {c : Char} {cs : List Char} {ps : List Piece} :
      (∀ h : Hole, h.Sound → ¬ h.written <+: c :: cs) → Reads cs ps →
        Reads (c :: cs) (.char c :: ps)

theorem hole?_eq_none_iff {cs : List Char} :
    hole? cs = none ↔ ∀ h : Hole, h.Sound → ¬ h.written <+: cs := by
  constructor
  · rintro hnone h hs ⟨rest, rfl⟩
    rw [hole?_written hs] at hnone
    cases hnone
  · intro hall
    cases hfound : hole? cs with
    | none => rfl
    | some found =>
      obtain ⟨hs, heq⟩ := hole?_eq_some hfound
      exact absurd ⟨found.2, heq.symm⟩ (hall found.1 hs)

theorem Hole.written_length_pos (h : Hole) : 0 < h.written.length := by
  obtain ⟨style, inner⟩ := h
  cases style <;> simp [Hole.written, Style.opening]

theorem reads_piecesFrom (skip : Nat) (cs : List Char) :
    Reads (cs.drop skip) (piecesFrom skip cs) := by
  fun_induction piecesFrom skip cs with
  | case1 skip =>
    rw [List.drop_nil]
    exact .nil
  | case2 skip c cs ih => exact ih
  | case3 c cs h rest hfound ih =>
    obtain ⟨hs, heq⟩ := hole?_eq_some hfound
    have hrest : cs.drop (h.written.length - 1) = rest := by
      calc cs.drop (h.written.length - 1) = (c :: cs).drop h.written.length := by
            rw [List.drop_cons h.written_length_pos]
        _ = (h.written ++ rest).drop h.written.length := by rw [heq]
        _ = rest := List.drop_left
    rw [hrest] at ih
    rw [List.drop_zero, heq]
    exact .hole hs ih
  | case4 c cs hnone ih => exact .char (hole?_eq_none_iff.mp hnone) ih

theorem Reads.eq_pieces {cs : List Char} {ps : List Piece} (h : Reads cs ps) : ps = pieces cs := by
  induction h with
  | nil => rfl
  | hole hs _ ih => rw [pieces_hole hs, ih]
  | char hnone _ ih => rw [pieces_char (hole?_eq_none_iff.mpr hnone), ih]

/-- Every text has one reading. -/
theorem reads_iff {cs : List Char} {ps : List Piece} : Reads cs ps ↔ ps = pieces cs := by
  constructor
  · exact Reads.eq_pieces
  · rintro rfl
    exact reads_piecesFrom 0 cs

theorem Reads.written_eq {cs : List Char} {ps : List Piece} (h : Reads cs ps) :
    ps.flatMap Piece.written = cs := by
  induction h with
  | nil => rfl
  | hole _ _ ih => rw [List.flatMap_cons, ih, Piece.written]
  | char _ _ ih => rw [List.flatMap_cons, ih, Piece.written, List.singleton_append]

theorem flatMap_written_pieces (cs : List Char) : (pieces cs).flatMap Piece.written = cs :=
  (reads_iff.mpr rfl).written_eq

/-! ## Placeholders anywhere in a text -/

theorem infix_of_mem_pieces {cs : List Char} {h : Hole} (hmem : .hole h ∈ pieces cs) :
    h.written <:+: cs := by
  obtain ⟨front, back, hsplit⟩ := List.append_of_mem hmem
  have hcs := flatMap_written_pieces cs
  rw [hsplit, List.flatMap_append, List.flatMap_cons, ← List.append_assoc] at hcs
  exact ⟨_, _, hcs⟩

/-- A reading passes no placeholder: it finds one wherever one stands. -/
theorem Reads.exists_hole {cs : List Char} {ps : List Piece} (h : Reads cs ps) {g : Hole}
    (hg : g.Sound) (hin : g.written <:+: cs) : ∃ found, .hole found ∈ ps := by
  induction h with
  | nil =>
    have hpos := g.written_length_pos
    rw [List.infix_nil.mp hin] at hpos
    cases hpos
  | @hole found cs ps _ _ _ => exact ⟨found, by simp⟩
  | char hnone _ ih =>
    rcases List.infix_cons_iff.mp hin with hfront | hrest
    · exact absurd hfront (hnone g hg)
    · obtain ⟨found, hfound⟩ := ih hrest
      exact ⟨found, List.mem_cons_of_mem _ hfound⟩

theorem occursIn_iff_holes {t : String} : occursIn t = true ↔ ∃ h, h ∈ holes t.toList := by
  unfold occursIn
  rw [List.any_eq_true]
  constructor
  · rintro ⟨p, hp, hhole⟩
    cases p with
    | char c => cases hhole
    | hole h => exact ⟨h, mem_holes.mpr hp⟩
  · rintro ⟨h, hh⟩
    exact ⟨.hole h, mem_holes.mp hh, rfl⟩

theorem occursIn_iff {t : String} :
    occursIn t = true ↔ ∃ h : Hole, h.Sound ∧ h.written <:+: t.toList := by
  rw [occursIn_iff_holes]
  constructor
  · rintro ⟨h, hh⟩
    have hmem := mem_holes.mp hh
    exact ⟨h, sound_of_mem_piecesFrom hmem, infix_of_mem_pieces hmem⟩
  · rintro ⟨h, hs, hin⟩
    obtain ⟨found, hfound⟩ := (reads_iff.mpr rfl).exists_hole hs hin
    exact ⟨found, mem_holes.mpr hfound⟩

/-! ## What is written for a piece -/

/-- What resolving writes for a piece: the value of a placeholder whose path leads to one, and for
any other piece what stands there. -/
def Piece.filled (values : Value) : Piece → List Char
  | .char c => [c]
  | .hole h => match h.value? values with
    | some v => (format v).toList
    | none => h.written

theorem flatMap_written_settle (values : Value) (p : Piece) :
    (p.settle values).flatMap Piece.written = p.filled values := by
  cases p with
  | char c => rfl
  | hole h =>
    simp only [Piece.settle, Piece.filled]
    cases h.value? values with
    | none => simp [Piece.written]
    | some v => simp [List.flatMap_map, Piece.written]

theorem isOk_lookup_nil (values : Value) : (lookup values (String.ofList [])).isOk = true := by
  cases values with
  | object fields =>
    unfold lookup
    simp only [Text.splitAt, String.toList_ofList, Text.cutAt, List.map, walk, child]
    cases Fields.get? fields (String.ofList []) <;> rfl
  | _ => rfl

/-- Where no path that is looked up is refused and every value can be printed, resolving fills piece
after piece. -/
theorem resolve_eq_filled {t : String} {values : Value}
    (h : ∀ g ∈ holes t.toList, g.path ≠ [] → (lookup values (String.ofList g.path)).isOk = true)
    (hprint : ∀ g ∈ holes t.toList, ∀ v ∈ g.value? values, v.isPrintable = true) :
    resolve t values = .ok (String.ofList ((pieces t.toList).flatMap (Piece.filled values))) := by
  have hreach : Reachable values (pieces t.toList) := by
    refine ⟨fun g hg => ?_, fun g hg => hprint g (mem_holes.mpr hg)⟩
    by_cases hpath : g.path = []
    · rw [hpath]
      exact isOk_lookup_nil values
    · exact h g (mem_holes.mpr hg) hpath
  rw [resolve_eq hreach, List.flatMap_assoc]
  simp only [flatMap_written_settle]

theorem Piece.filled_of_value? {values : Value} {h : Hole} (hnone : h.value? values = none) :
    Piece.filled values (.hole h) = h.written := by
  simp only [Piece.filled, hnone]

/-- A template whose placeholders all lead nowhere is left as it is. -/
theorem resolve_eq_self {t : String} {values : Value}
    (h : ∀ g ∈ holes t.toList, lookup values (String.ofList g.path) = .ok none) :
    resolve t values = .ok t := by
  have hnone : ∀ g ∈ holes t.toList, g.value? values = none := by
    intro g hg
    unfold Hole.value?
    rw [h g hg]
    simp
  have hkept : (pieces t.toList).flatMap (Piece.filled values) = t.toList := by
    calc (pieces t.toList).flatMap (Piece.filled values)
        = (pieces t.toList).flatMap Piece.written := by
          apply List.flatMap_congr
          intro p hp
          cases p with
          | char c => rfl
          | hole g => rw [Piece.filled_of_value? (hnone g (mem_holes.mpr hp)), Piece.written]
      _ = t.toList := flatMap_written_pieces t.toList
  rw [resolve_eq_filled (fun g hg _ => by rw [h g hg]; rfl)
    (fun g hg v hv => by cases (hnone g hg).symm.trans hv), hkept, String.ofList_toList]

theorem lookup_object_nil (g : Hole) :
    lookup (.object []) (String.ofList g.path) = .ok none := by
  rw [lookup_object]
  rfl

/-! ## The law -/

/-- The pieces of a template are its only reading from the left, and where no look-up is refused and
every value that is found can be printed, resolving writes them one after the other, each
placeholder as its value or as it stands. A text has a placeholder in its reading where one stands
anywhere in it; without one it is left as it is, and so is every text where there are no values. -/
theorem resolving_fills_the_leftmost_placeholders (t : String) :
    (∀ ps, Reads t.toList ps ↔ ps = pieces t.toList) ∧
    (∀ values, (∀ h ∈ holes t.toList, h.path ≠ [] →
        (lookup values (String.ofList h.path)).isOk = true) →
      (∀ h ∈ holes t.toList, ∀ v ∈ h.value? values, v.isPrintable = true) →
      resolve t values = .ok (String.ofList ((pieces t.toList).flatMap (Piece.filled values)))) ∧
    (occursIn t = true ↔ ∃ h : Hole, h.Sound ∧ h.written <:+: t.toList) ∧
    (occursIn t = false → ∀ values, resolve t values = .ok t) ∧
    resolve t (.object []) = .ok t := by
  refine ⟨fun ps => reads_iff, fun values h hprint => resolve_eq_filled h hprint, occursIn_iff, ?_,
    ?_⟩
  · intro hnone values
    apply resolve_eq_self
    intro g hg
    rw [occursIn_iff_holes.mpr ⟨g, hg⟩] at hnone
    cases hnone
  · exact resolve_eq_self fun g _ => lookup_object_nil g

/-- Braces doubled and nested around placeholders of both styles, a value that looks like one of
them, and braces around nothing. -/
theorem placeholders_among_other_braces_are_filled :
    resolve
      "\x7b\x7b\x7ba\x7d\x7d\x7d$\x7b\x7ba\x7d\x7d\x7b\x7b$\x7ba\x7d\x7d\x7d\x7b\x7b \x7d\x7d"
        (.object [("a", .text "$\x7ba\x7d")]) =
      .ok "\x7b$\x7ba\x7d\x7d$$\x7ba\x7d\x7b\x7b$\x7ba\x7d\x7d\x7d\x7b\x7b \x7d\x7d" ∧
    resolve "plain \x7btext\x7d $ \x7b\x7b\x7d\x7d" (.int 3) =
      .ok "plain \x7btext\x7d $ \x7b\x7b\x7d\x7d" := by
  refine ⟨?_, (resolving_fills_the_leftmost_placeholders _).2.2.2.1 (by decide) _⟩
  rw [(resolving_fills_the_leftmost_placeholders _).2.1 _ (by decide) (by decide)]
  decide

end Flowscript.Placeholder
