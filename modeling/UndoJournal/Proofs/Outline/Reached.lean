import UndoJournal.Proofs.Outline.Acts

/-!
# Outlines that can come about

An outline comes about from an empty one by being shown timelines, by the commands of a program, by
the gestures of a user and by settings of how it looks (`Outline.Reached`). Anything but showing
another timeline only selects and marks what is there (`Outline.Moves`), and a rebuild drops what is
no longer there, so **what an outline keeps in mind is always in the timeline that it shows**
(`Reached.grounded`).
-/

namespace UndoJournal

namespace Outline

variable {o o' : Outline} {r : Response} {t : Timeline} {id : EntryId} {group : Nat} {row : Row}

/-! ### What is there -/

/-- The row of an entry is there exactly if the entry is. -/
private theorem has_of_mem_rows (h : row ∈ o.rows) (hkey : row.key = .entry id) :
    o.shown.Has id := by
  have hmem : RowKey.entry id ∈ o.rows.map Row.key := List.mem_map.mpr ⟨row, h, hkey⟩
  simpa [map_key_rows, Timeline.Has] using hmem

private theorem exists_row_of_has (h : o.shown.Has id) : ∃ row ∈ o.rows, row.key = .entry id := by
  have hmem : RowKey.entry id ∈ o.rows.map Row.key := by
    simpa [map_key_rows, Timeline.Has] using h
  exact List.mem_map.mp hmem

/-- A row is found exactly if it is the sentinel's or its entry is there. -/
private theorem isSome_row?_iff {key : RowKey} :
    (o.row? key).isSome = true ↔ ∀ id, key = .entry id → o.shown.Has id := by
  simp only [row?, List.find?_isSome, beq_iff_eq]
  constructor
  · rintro ⟨row, hrow, hkey⟩ id rfl
    exact has_of_mem_rows hrow hkey
  · intro h
    cases key with
    | sentinel => exact ⟨o.sentinel, List.mem_cons_self, rfl⟩
    | entry id => exact exists_row_of_has (h id rfl)

/-! ### Everything but a rebuild -/

/-- What anything but showing another timeline comes to: what is selected or marked afterwards was
so before, or it is there. -/
structure Moves (o o' : Outline) : Prop where
  shown : o'.shown = o.shown
  selected : ∀ id, o'.selected = some (.entry id) →
    o.selected = some (.entry id) ∨ o.shown.Has id
  expanded : ∀ id ∈ o'.expanded, id ∈ o.expanded ∨ o.shown.Has id

private theorem Moves.refl (o : Outline) : o.Moves o := ⟨rfl, fun _ => .inl, fun _ => .inl⟩

private theorem moves_selecting (h : row ∈ o.rows) : o.Moves { o with selected := some row.key } :=
  ⟨rfl, fun _ hkey => .inr (has_of_mem_rows h (Option.some.inj hkey)), fun _ => .inl⟩

private theorem moves_expand (o : Outline) (group : Nat) : o.Moves (o.expand group).2 := by
  refine ⟨by rw [expand_eq], fun id hid => .inl ?_, fun id hid => ?_⟩
  · rw [expand_eq] at hid
    exact hid
  · exact (mem_expanded_expand_iff.mp hid).imp_right Timeline.HeadedBy.has

/-- Collapsing a run that is not expanded does nothing. -/
private theorem outline_collapse_of_not_isExpanded (h : o.isExpanded group = false)
    (source : String) :
    (o.collapse group source).2.outline = o := by
  have hshut : (o.shut group).1 = false := by
    unfold isExpanded at h
    unfold shut
    split at h <;> simp_all
  simp only [collapse, hshut, Bool.not_false, if_true]

private theorem moves_collapse (o : Outline) (group : Nat) (source : String) :
    o.Moves (o.collapse group source).2.outline := by
  refine ⟨(stays_collapse o group source).shown, fun id hid => ?_,
    fun id hid => .inl (mem_expanded_collapse_iff.mp hid).1⟩
  rcases hexp : o.isExpanded group with _ | _
  · rw [outline_collapse_of_not_isExpanded hexp] at hid
    exact .inl hid
  · -- the selection stays, or it moves to the head
    obtain ⟨e, he, hcollapse⟩ := collapse_of_isExpanded hexp source
    rw [hcollapse] at hid
    split at hid
    · obtain rfl : e.id = id := RowKey.entry.inj (Option.some.inj hid)
      exact .inr (Timeline.HeadedBy.has ⟨e, he, rfl⟩)
    · dsimp only at hid
      rw [shut_eq] at hid
      exact .inl hid

private theorem moves_of_perform {c : ViewCommand} (hc : c.op ≠ .rebuild)
    (h : o.perform c = .ok r) :
    o.Moves r.outline := by
  cases c with
  | rebuild t => exact absurd rfl hc
  | select node =>
    obtain ⟨row, hrow, hr⟩ := select_eq_ok h
    rw [hr]
    exact moves_selecting (of_rowAt?_eq_some hrow).1
  | clearSelection =>
    cases h
    exact ⟨rfl, nofun, fun _ => .inl⟩
  | expandTo node =>
    rw [outline_of_expandTo h]
    split
    · exact moves_expand o node.group
    · exact .refl o
  | collapseGroup group =>
    simp only [perform, collapseGroup] at h
    split at h <;> cases h
    exact moves_collapse o group "sync"
  | scrollTo node =>
    obtain ⟨row, -, ⟨-, hr⟩ | ⟨i, -, hr⟩⟩ := scrollTo_eq_ok h <;> rw [hr]
    · exact .refl o
    · exact ⟨rfl, fun _ => .inl, fun _ => .inl⟩

private theorem moves_of_respond {g : Gesture} {changed : Bool}
    (h : o.respond g = .ok (changed, r)) :
    o.Moves r.outline := by
  obtain ⟨index, h | h | h⟩ := respond_eq_ok h
  · obtain ⟨row, hrow, houtline, -⟩ := click_eq_ok h
    rw [houtline]
    exact moves_selecting (List.mem_filter.mp (List.mem_of_getElem? hrow)).1
  · obtain rfl | ⟨group, houtline, -⟩ := expandRow_eq_ok h
    · exact .refl o
    · rw [houtline]
      exact moves_expand o group
  · obtain rfl | ⟨group, rfl⟩ := collapseRow_eq_ok h
    · exact .refl o
    · exact moves_collapse o group "user"

/-! ### A rebuild -/

/-- The outline that shows another timeline, before it is looked whether the selection is left. -/
def reshown (o : Outline) (t : Timeline) : Outline :=
  { o with shown := t, expanded := o.expanded.filter fun id => (t.toList.map Entry.id).contains id }

/-- A rebuild looks for the row of the selection among the new ones. -/
private theorem rebuild_eq (o : Outline) (t : Timeline) :
    let notes := [.event .debug "history_tree.rebuild" [("rows", toString t.size)]]
    o.rebuild t = match (o.reshown t).selected with
      | none => ⟨o.reshown t, notes, []⟩
      | some key => match (o.reshown t).row? key with
        | some _ => ⟨o.reshown t, notes, []⟩
        | none => ⟨{ o.reshown t with selected := none }, notes, [.selectionChanged none]⟩ := rfl

/-- A selection that is still there stays, silently. -/
theorem rebuild_of_kept (h : ∀ id, o.selected = some (.entry id) → t.Has id) :
    (o.rebuild t).outline = o.reshown t ∧ (o.rebuild t).signals = [] := by
  rw [rebuild_eq]
  rcases hselected : (o.reshown t).selected with _ | key
  · exact ⟨rfl, rfl⟩
  · obtain ⟨row, hrow⟩ := Option.isSome_iff_exists.mp (isSome_row?_iff (o := o.reshown t).mpr
      fun id hid => h id (hid ▸ hselected))
    simp only [hrow, and_self]

/-- A selection that is gone is dropped, which is told. -/
theorem rebuild_of_lost (h : o.selected = some (.entry id)) (hlost : ¬ t.Has id) :
    (o.rebuild t).outline = { o.reshown t with selected := none } ∧
      (o.rebuild t).signals = [.selectionChanged none] := by
  have hselected : (o.reshown t).selected = some (.entry id) := h
  have hnone : (o.reshown t).row? (.entry id) = none := by
    rw [← Option.not_isSome_iff_eq_none, isSome_row?_iff]
    exact fun hall => hlost (hall id rfl)
  rw [rebuild_eq]
  simp only [hselected, hnone, and_self]

/-! ### What comes about -/

/-- The outlines that can come about. -/
inductive Reached : Outline → Prop where
  | empty (settings : Settings) (guides : Guides) (viewport : Nat) :
      Reached (.empty settings guides viewport)
  | rebuild {o : Outline} {grouping : Bool} {given : List Entry} {t : Timeline} (h : Reached o)
      (ht : Timeline.Made grouping given t) : Reached (o.rebuild t).outline
  | perform {o : Outline} {c : ViewCommand} {r : Response} (h : Reached o)
      (hc : c.op ≠ .rebuild) (hr : o.perform c = .ok r) : Reached r.outline
  | respond {o : Outline} {g : Gesture} {changed : Bool} {r : Response} (h : Reached o)
      (hr : o.respond g = .ok (changed, r)) : Reached r.outline
  | restyle {o : Outline} (guides : Guides) (viewport : Nat) (h : Reached o) :
      Reached { o with guides := guides, viewport := viewport }

/-- What an outline keeps in mind is there. -/
structure Grounded (o : Outline) : Prop where
  numbered : o.shown.Numbered
  selected : ∀ id, o.selected = some (.entry id) → o.shown.Has id
  expanded : ∀ id ∈ o.expanded, o.shown.Has id

private theorem Grounded.moves (h : o.Grounded) (hm : o.Moves o') : o'.Grounded := by
  refine ⟨hm.shown ▸ h.numbered, fun id hid => ?_, fun id hid => ?_⟩ <;> rw [hm.shown]
  · exact (hm.selected id hid).elim (h.selected id) fun hhas => hhas
  · exact (hm.expanded id hid).elim (h.expanded id) fun hhas => hhas

/-- Whatever was kept in mind, a rebuild keeps what is there. -/
private theorem grounded_rebuild (o : Outline) (ht : t.Numbered) :
    (o.rebuild t).outline.Grounded := by
  refine ⟨by rwa [shown_rebuild], fun id hid => ?_, fun id hid => ?_⟩ <;> rw [shown_rebuild]
  · by_contra hlost
    by_cases hkept : ∀ id, o.selected = some (.entry id) → t.Has id
    · rw [(rebuild_of_kept hkept).1] at hid
      exact hlost (hkept id hid)
    · obtain ⟨id', hid'⟩ := not_forall.mp hkept
      obtain ⟨hselected, hgone⟩ := Classical.not_imp.mp hid'
      rw [(rebuild_of_lost hselected hgone).1] at hid
      cases hid
  · exact (mem_expanded_rebuild.mp hid).2

/-- **What an outline keeps in mind is in the timeline that it shows**, however it came about. -/
theorem Reached.grounded (h : o.Reached) : o.Grounded := by
  induction h with
  | empty settings guides viewport => exact ⟨.empty settings.grouping, nofun, nofun⟩
  | rebuild _ ht _ => exact grounded_rebuild _ ht.sound.numbered
  | perform _ hc hr ih => exact ih.moves (moves_of_perform hc hr)
  | respond _ hr ih => exact ih.moves (moves_of_respond hr)
  | restyle _ _ _ ih => exact ⟨ih.numbered, ih.selected, ih.expanded⟩

end Outline

end UndoJournal
