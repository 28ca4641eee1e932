-- Keys of polled items. The function of a node that polls remembers each item
-- under a key: the source, the id of the node and the item's own id, with a
-- colon after each of the first two. Since ids may hold colons themselves,
-- two nodes of a plan can build the same key, and this happens just where the
-- id of one continues the id of the other behind a colon.
import Flowscript.Proofs.Statements

namespace Flowscript

/-! ## Keys -/

/-- What stands in front of an item's own id in the keys of a node. -/
def keyStem (source id : String) : String := source ++ ":" ++ id ++ ":"

/-- The statement that builds the key of an item. -/
def keyStatement (stem : String) : String :=
  "const itemKey = " ++ Json.quote stem ++ " + (item.id || item.uuid || JSON.stringify(item));"

/-- The function of a node that polls builds keys in one place. -/
theorem statements_itemKey {n : PlannedNode} {source : String} (hpolls : n.Polls source)
    {c : Choices} {sheet : Sheet} (h : (NodeFunction.build n c).outcome = .ok sheet) :
    statements "const itemKey = " (sheet.lines false) = [keyStatement (keyStem source n.id)] := by
  obtain ⟨body, facts, hcomposed⟩ := composed_of_build h
  obtain ⟨_, _, _, _, hkey, _⟩ := hcomposed.statements_of_polling hpolls
  unfold keyStatement
  simp only [String.append_assoc]
  exact hkey

/-! ## Keys that meet -/

/-- Two texts with a mark between two parts are the same in two ways only where one of the first parts
continues the other behind a mark. -/
theorem append_mark_eq_iff {mark : Char} {a b : List Char} (hne : a ≠ b) :
    (∃ x y, a ++ mark :: x = b ++ mark :: y) ↔
      (∃ rest, b = a ++ mark :: rest) ∨ ∃ rest, a = b ++ mark :: rest := by
  constructor
  · rintro ⟨x, y, h⟩
    rcases List.append_eq_append_iff.mp h with ⟨middle, hb, hx⟩ | ⟨middle, ha, hy⟩
    · cases middle with
      | nil => exact absurd (by simpa using hb.symm) hne
      | cons d rest =>
        cases (List.cons.inj hx).1
        exact Or.inl ⟨rest, hb⟩
    · cases middle with
      | nil => exact absurd (by simpa using ha) hne
      | cons d rest =>
        cases (List.cons.inj hy).1
        exact Or.inr ⟨rest, ha⟩
  · rintro (⟨rest, rfl⟩ | ⟨rest, rfl⟩)
    · exact ⟨rest ++ [mark], [], by simp⟩
    · exact ⟨[], rest ++ [mark], by simp⟩

/-- The id continues another one behind a colon. -/
def Continues (id other : String) : Prop := ∃ rest, id = other ++ ":" ++ rest

theorem continues_iff {id other : String} :
    Continues id other ↔ ∃ rest, id.toList = other.toList ++ ':' :: rest := by
  constructor
  · rintro ⟨rest, rfl⟩
    exact ⟨rest.toList, by simp⟩
  · rintro ⟨rest, h⟩
    refine ⟨String.ofList rest, String.toList_inj.mp ?_⟩
    rw [h]
    simp

theorem keys_meet_iff {source id other : String} (hne : id ≠ other) :
    (∃ item item', keyStem source id ++ item = keyStem source other ++ item') ↔
      Continues other id ∨ Continues id other := by
  rw [continues_iff, continues_iff, ← append_mark_eq_iff (mt String.toList_inj.mp hne)]
  have hkey (id item : String) : (keyStem source id ++ item).toList =
      (source ++ ":").toList ++ (id.toList ++ ':' :: item.toList) := by
    simp [keyStem]
  constructor
  · rintro ⟨item, item', h⟩
    refine ⟨item.toList, item'.toList, ?_⟩
    have hlists := congrArg String.toList h
    rw [hkey, hkey] at hlists
    exact List.append_cancel_left hlists
  · rintro ⟨x, y, h⟩
    refine ⟨String.ofList x, String.ofList y, String.toList_inj.mp ?_⟩
    rw [hkey, hkey, String.toList_ofList, String.toList_ofList, h]

/-- Keys of different sources differ in their first letter. -/
theorem keys_of_sources {n m : PlannedNode} {source source' : String} (hn : n.Polls source)
    (hm : m.Polls source') (hne : source ≠ source') (item item' : String) :
    keyStem source n.id ++ item ≠ keyStem source' m.id ++ item' := by
  intro h
  have hlists := congrArg String.toList h
  rcases hn.kind with ⟨-, rfl⟩ | ⟨-, rfl⟩ <;> rcases hm.kind with ⟨-, rfl⟩ | ⟨-, rfl⟩
  · exact hne rfl
  · simp [keyStem] at hlists
  · simp [keyStem] at hlists
  · exact hne rfl

theorem id_ne_of_mem {g : Graph} {c : Choices} {p : Plan} (h : (Plan.build g c).outcome = .ok p)
    {a b : PlannedNode} (ha : a ∈ p.nodes) (hb : b ∈ p.nodes) (hne : a ≠ b) : a.id ≠ b.id :=
  fun hid => hne (List.inj_on_of_nodup_map (Plan.sound_of_build h).nodup_ids ha hb hid)

theorem Continues.colon_mem {id other : String} (h : Continues id other) : ':' ∈ id.toList := by
  obtain ⟨rest, hrest⟩ := continues_iff.mp h
  rw [hrest]
  simp

/-- Two nodes of a plan that poll build their keys in one place each, from the source, the id of the
node and the id of the item. Some item of one gets the key of some item of the other just where both
poll the same source and the id of one continues the id of the other behind a colon; so they never
share a key where neither id has a colon in it. -/
theorem keys_of_polled_items_meet_only_behind_a_colon {g : Graph} {c : Choices} {p : Plan}
    (hplan : (Plan.build g c).outcome = .ok p) {a b : PlannedNode} (ha : a ∈ p.nodes)
    (hb : b ∈ p.nodes) (hne : a ≠ b) {source source' : String} (hsource : a.Polls source)
    (hsource' : b.Polls source') {sheet sheet' : Sheet}
    (hsheet : (NodeFunction.build a p.choices).outcome = .ok sheet)
    (hsheet' : (NodeFunction.build b p.choices).outcome = .ok sheet') :
    statements "const itemKey = " (sheet.lines false) = [keyStatement (keyStem source a.id)] ∧
      statements "const itemKey = " (sheet'.lines false) = [keyStatement (keyStem source' b.id)] ∧
      ((∃ item item', keyStem source a.id ++ item = keyStem source' b.id ++ item') ↔
        source = source' ∧ (Continues b.id a.id ∨ Continues a.id b.id)) ∧
      (':' ∉ a.id.toList → ':' ∉ b.id.toList →
        ∀ item item', keyStem source a.id ++ item ≠ keyStem source' b.id ++ item') := by
  have hid := id_ne_of_mem hplan ha hb hne
  have hmeet : (∃ item item', keyStem source a.id ++ item = keyStem source' b.id ++ item') ↔
      source = source' ∧ (Continues b.id a.id ∨ Continues a.id b.id) := by
    by_cases hsame : source = source'
    · subst hsame
      rw [keys_meet_iff hid]
      simp
    · refine iff_of_false ?_ fun h => hsame h.1
      rintro ⟨item, item', h⟩
      exact keys_of_sources hsource hsource' hsame item item' h
  refine ⟨statements_itemKey hsource hsheet, statements_itemKey hsource' hsheet', hmeet, ?_⟩
  intro hcolon hcolon' item item' h
  rcases (hmeet.mp ⟨item, item', h⟩).2 with hb | ha
  · exact hcolon' hb.colon_mem
  · exact hcolon ha.colon_mem

/-- Two nodes that poll a mailbox. -/
def mailboxes (first second : String) : Graph := ⟨"w", "Mail", none,
  [⟨first, "trigger.gmail.new_email", []⟩, ⟨second, "trigger.gmail.new_email", []⟩], []⟩

/-- The mailboxes are planned, and their functions are written. -/
def Polled (first second : String) (p : Plan) (a b : PlannedNode) (sheet sheet' : Sheet) : Prop :=
  (Plan.build (mailboxes first second) ⟨none, true, true, false, "UTC", "1"⟩).outcome = .ok p ∧
    (a ∈ p.nodes ∧ a.id = first ∧ a.Polls "gmail" ∧
      (NodeFunction.build a p.choices).outcome = .ok sheet) ∧
    b ∈ p.nodes ∧ b.id = second ∧ b.Polls "gmail" ∧
      (NodeFunction.build b p.choices).outcome = .ok sheet'

theorem the_keys_of_two_mailboxes_differ :
    ∃ p a b sheet sheet', Polled "inbox" "work" p a b sheet sheet' ∧
      ∀ item item', keyStem "gmail" a.id ++ item ≠ keyStem "gmail" b.id ++ item' := by
  have hrun : ∃ p a b sheet sheet', Polled "inbox" "work" p a b sheet sheet' :=
    ⟨_, _, _, _, _, rfl, ⟨.head _, rfl, rfl, rfl⟩, .tail _ (.head _), rfl, rfl, rfl⟩
  obtain ⟨p, a, b, sheet, sheet', hpolled⟩ := hrun
  obtain ⟨hplan, ⟨ha, hida, hsource, hsheet⟩, hb, hidb, hsource', hsheet'⟩ := id hpolled
  have hne : a ≠ b := by
    rintro rfl
    exact absurd (hida.symm.trans hidb) (by decide)
  obtain ⟨_, _, _, hdiffer⟩ := keys_of_polled_items_meet_only_behind_a_colon hplan ha hb hne hsource
    hsource' hsheet hsheet'
  refine ⟨p, a, b, sheet, sheet', hpolled, hdiffer ?_ ?_⟩
  · rw [hida]
    decide
  · rw [hidb]
    decide

/-- An item of one mailbox is taken for an item of another one whose id continues the id of the
first. -/
theorem two_mailboxes_share_a_key :
    ∃ p a b sheet sheet', Polled "a" "a:b" p a b sheet sheet' ∧ a ≠ b ∧
      statements "const itemKey = " (sheet.lines false) = [keyStatement "gmail:a:"] ∧
      statements "const itemKey = " (sheet'.lines false) = [keyStatement "gmail:a:b:"] ∧
      "gmail:a:" ++ "b:1" = "gmail:a:b:" ++ "1" := by
  have hrun : ∃ p a b sheet sheet', Polled "a" "a:b" p a b sheet sheet' :=
    ⟨_, _, _, _, _, rfl, ⟨.head _, rfl, rfl, rfl⟩, .tail _ (.head _), rfl, rfl, rfl⟩
  obtain ⟨p, a, b, sheet, sheet', hpolled⟩ := hrun
  obtain ⟨_, ⟨_, hida, hsource, hsheet⟩, _, hidb, hsource', hsheet'⟩ := id hpolled
  have hne : a ≠ b := by
    rintro rfl
    exact absurd (hida.symm.trans hidb) (by decide)
  have hkey := statements_itemKey hsource hsheet
  have hkey' := statements_itemKey hsource' hsheet'
  rw [hida] at hkey
  rw [hidb] at hkey'
  exact ⟨p, a, b, sheet, sheet', hpolled, hne, hkey, hkey', by decide⟩

end Flowscript
