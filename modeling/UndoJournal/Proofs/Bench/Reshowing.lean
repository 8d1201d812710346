import UndoJournal.Proofs.Bench.Gestures
import UndoJournal.Proofs.Outline.Reached
import UndoJournal.Proofs.Timeline.Succession

/-!
# Selection and expansion follow the event

While an outline shows a timeline, that timeline changes behind its back: it grows, is cut and is
cleared, and the addresses of what is left shift. When the outline is shown what became of it,
**what was selected and expanded stays with the events and not with the addresses**
(`Outline.reshows_rebuild`): a selected event that is still there is selected at its new address,
one that is gone is selected no more, and a head is expanded exactly if its identity was marked.

A rebuild fires nothing but the loss of the selection, once (`WidgetBench.gives_rebuild`).
-/

namespace UndoJournal

namespace Outline

variable {o : Outline} {t : Timeline} {a : Address} {i : Nat} {e : Entry}

/-! ### The row of an event -/

/-- The row of an event that sits somewhere. -/
private theorem exists_row_of_sits (h : o.shown.Sits a i e) : ∃ row ∈ o.rows,
    row.position = .on a ∧ row.key = .entry e.id ∧ row.label = e.event.description := by
  have hcontains : o.shown.contains (.on a) = true :=
    Timeline.contains_iff_exists_ordinal.mpr ⟨_, h.ordinal⟩
  obtain ⟨row, hrow⟩ := exists_rowAt? hcontains
  obtain ⟨hmem, hposition⟩ := of_rowAt?_eq_some hrow
  obtain rfl | ⟨p, hp, n, rfl⟩ := cases_of_mem_rows hmem
  · cases hposition
  · have haddress : p.address = a := Position.on.inj hposition
    have hnamed := h.named
    rw [← haddress, Timeline.get?_of_mem_placed hp] at hnamed
    obtain rfl : p.entry = e := Option.some.inj hnamed
    exact ⟨_, hmem, hposition, rfl, rfl⟩

/-- What is selected is the event that sits there. -/
private theorem selectedPosition?_eq_on_iff (hn : o.shown.Numbered) (h : o.shown.Sits a i e) :
    o.selectedPosition? = some (.on a) ↔ o.selected = some (.entry e.id) := by
  obtain ⟨row, hrow, hposition, hkey, -⟩ := exists_row_of_sits h
  rw [← hposition, ← hkey]
  exact selectedPosition?_eq_iff hn hrow

/-- While no event is selected, there is nothing to be lost. -/
private theorem Grounded.selected_ne (h : o.Grounded)
    (hp : o.selectedPosition? = none ∨ o.selectedPosition? = some .start) (id : EntryId) :
    o.selected ≠ some (.entry id) := by
  intro hselected
  obtain ⟨e, he, rfl⟩ := h.selected id hselected
  obtain ⟨a, i, hsits⟩ := Timeline.exists_sits_of_mem he
  rw [(selectedPosition?_eq_on_iff h.numbered hsits).mpr hselected] at hp
  obtain hp | hp := hp <;> cases hp

/-! ### Showing what became of a timeline -/

/-- The event is selected at that address, and its row says so. -/
structure Selects (o : Outline) (a : Address) (e : Entry) : Prop where
  sits : ∃ i, o.shown.Sits a i e
  selected : o.selectedPosition? = some (.on a)
  row : ∃ row ∈ o.rows, row.position = .on a ∧ row.key = .entry e.id ∧
    row.label = e.event.description

/-- What becomes of selection and expansion, and what is fired, when another timeline is shown. -/
structure Reshows (o : Outline) (t : Timeline) (r : Response) : Prop where
  shown : r.outline.shown = t
  /-- A selected event that is left is selected where it sits now. -/
  kept : ∀ a i e, o.shown.Sits a i e → o.selectedPosition? = some (.on a) → e ∈ t.toList →
    (∃ a', t.find? e.id = some a' ∧ r.outline.Selects a' e) ∧ r.signals = []
  /-- A selected event that is gone is selected no more. -/
  lost : ∀ a i e, o.shown.Sits a i e → o.selectedPosition? = some (.on a) → e ∉ t.toList →
    r.outline.selectedPosition? = none ∧ r.outline.selected = none ∧
      r.signals = [.selectionChanged none]
  /-- Without a selected event nothing is touched. -/
  unselected : (o.selectedPosition? = none ∨ o.selectedPosition? = some .start) →
    r.outline.selectedPosition? = o.selectedPosition? ∧ r.outline.selected = o.selected ∧
      r.signals = []
  /-- A head is expanded exactly if its identity was marked. -/
  marked : ∀ group e, t.head? group = some e →
    (r.outline.isExpanded group = true ↔ e.id ∈ o.expanded)
  /-- So a head from before is expanded exactly if it was, wherever it stands now. -/
  heads : ∀ group group' e, o.shown.head? group = some e → t.head? group' = some e →
    r.outline.isExpanded group' = o.isExpanded group
  /-- A head that is left is still a head. -/
  headed : ∀ group e, o.shown.head? group = some e → e ∈ t.toList →
    ∃ group', t.head? group' = some e
  /-- A head that is new is not expanded. -/
  fresh : ∀ group e, t.head? group = some e → e ∉ o.shown.toList →
    r.outline.isExpanded group = false
  /-- No expansion is told. -/
  silent : ∀ group, .rowExpanded group ∉ r.signals ∧ .rowCollapsed group ∉ r.signals

/-- A rebuild is silent, or it tells that the selection is lost. -/
private theorem signals_rebuild (o : Outline) (t : Timeline) :
    (o.rebuild t).signals = [] ∨ (o.rebuild t).signals = [.selectionChanged none] := by
  by_cases hkept : ∀ id, o.selected = some (.entry id) → t.Has id
  · exact .inl (rebuild_of_kept hkept).2
  · obtain ⟨id, hid⟩ := not_forall.mp hkept
    obtain ⟨hselected, hlost⟩ := Classical.not_imp.mp hid
    exact .inr (rebuild_of_lost hselected hlost).2

/-- A head is expanded after a rebuild exactly if its identity was marked. -/
private theorem isExpanded_rebuild_iff {group : Nat} (he : t.head? group = some e) :
    (o.rebuild t).outline.isExpanded group = true ↔ e.id ∈ o.expanded := by
  rw [isExpanded_iff, shown_rebuild]
  simp only [he, Option.some.injEq, exists_eq_left', mem_expanded_rebuild, and_iff_left_iff_imp]
  exact fun _ => ⟨e, Timeline.mem_toList_of_head? he, rfl⟩

/-- A selected event that is left is selected where it sits now. -/
private theorem selects_rebuild (hn : t.Numbered) (hselected : o.selected = some (.entry e.id))
    (he : e ∈ t.toList) :
    (∃ a, t.find? e.id = some a ∧ (o.rebuild t).outline.Selects a e) ∧
      (o.rebuild t).signals = [] := by
  have hkept : ∀ id, o.selected = some (.entry id) → t.Has id := fun id hid =>
    ⟨e, he, RowKey.entry.inj (Option.some.inj (hselected.symm.trans hid))⟩
  obtain ⟨houtline, hsignals⟩ := rebuild_of_kept hkept
  obtain ⟨a, i, hsits⟩ := Timeline.exists_sits_of_mem he
  refine ⟨⟨a, hn.find?_eq_some_iff.mpr ⟨i, e, hsits, rfl⟩, ?_⟩, hsignals⟩
  have hsits' : (o.reshown t).shown.Sits a i e := hsits
  rw [houtline]
  exact ⟨⟨i, hsits⟩, (selectedPosition?_eq_on_iff (o := o.reshown t) hn hsits').mpr hselected,
    exists_row_of_sits hsits'⟩

/-- **What is selected and expanded stays with the events**, whatever became of the timeline. -/
theorem reshows_rebuild (h : o.Reached) (ht : o.shown.Becomes t) :
    o.Reshows t (o.rebuild t) := by
  have hg : o.Grounded := h.grounded
  have hn : t.Numbered := (ht.precedes hg.numbered).numbered
  have hselected : ∀ {a i e}, o.shown.Sits a i e → o.selectedPosition? = some (.on a) →
      o.selected = some (.entry e.id) := fun hsits =>
    (selectedPosition?_eq_on_iff hg.numbered hsits).mp
  refine ⟨o.shown_rebuild t, fun a i e hsits hp he => selects_rebuild hn (hselected hsits hp) he,
    fun a i e hsits hp he => ?_, fun hp => ?_, fun group e => isExpanded_rebuild_iff,
    fun group group' e he he' => ?_, fun group e => ht.headed hg.numbered,
    fun group e he hnew => ?_, fun group => ?_⟩
  · -- no other entry took over the identity of the one that is gone
    have hlost : ¬ t.Has e.id := by
      rintro ⟨e', he', hid⟩
      rw [ht.eq_of_id_eq hg.numbered (List.mem_of_getElem? hsits.listed) he' hid.symm] at he
      exact he he'
    obtain ⟨houtline, hsignals⟩ := rebuild_of_lost (hselected hsits hp) hlost
    rw [houtline]
    exact ⟨rfl, rfl, hsignals⟩
  · obtain ⟨houtline, hsignals⟩ := rebuild_of_kept (t := t) fun id hid =>
      absurd hid (hg.selected_ne hp id)
    refine ⟨?_, by rw [houtline]; rfl, hsignals⟩
    rw [houtline, selectedPosition?, selectedPosition?]
    rcases hkey : o.selected with _ | _ | id
    · rw [show (o.reshown t).selected = none from hkey]
      rfl
    · rw [show (o.reshown t).selected = some .sentinel from hkey]
      rfl
    · exact absurd hkey (hg.selected_ne hp id)
  · rw [Bool.eq_iff_iff, isExpanded_rebuild_iff he', isExpanded_iff]
    simp [he]
  · -- the mark would be that of an entry from before
    rw [Bool.eq_false_iff, Ne, isExpanded_rebuild_iff he]
    intro hmarked
    obtain ⟨e', he', hid⟩ := hg.expanded e.id hmarked
    rw [← ht.eq_of_id_eq hg.numbered he' (Timeline.mem_toList_of_head? he) hid] at hnew
    exact hnew he'
  · obtain hsignals | hsignals := o.signals_rebuild t <;> rw [hsignals] <;> simp

end Outline

/-! ### At the bench -/

namespace WidgetBench

/-- A program that shows a timeline has it shown, and what is told is told to all who listen. -/
theorem gives_rebuild {b : WidgetBench} {t : Timeline} (h : b.widget.outline.Reached)
    (ht : b.widget.outline.shown.Becomes t) :
    (wiring.perform (.rebuild t)).Gives b fun answer b' =>
      answer = .ok () ∧ ∃ r, b.widget.outline.Reshows t r ∧ b' = b.told r := by
  have hperform : (wiring.widget.get b).outline.perform (.rebuild t) =
      .ok (b.widget.outline.rebuild t) := rfl
  simp only [Wiring.perform, Wiring.outline, Action.gives_bind, Action.gives_get,
    Action.gives_pure]
  rw [hperform, Action.gives_bind]
  refine (gives_enact _ b).mono ?_
  rintro _ _ rfl
  exact (Action.gives_pure _).mpr ⟨rfl, _, Outline.reshows_rebuild h ht, rfl⟩

/-- What a user does keeps the outline among those that can come about. -/
private theorem reached_make {b : WidgetBench} (h : b.widget.outline.Reached) (g : Gesture) :
    (make g).Gives b fun _ b' => b'.widget.outline.Reached := by
  refine (gives_make g b).mono fun answer b' hb => ?_
  rcases hr : b.widget.outline.respond g with e | ⟨changed, r⟩ <;> rw [hr] at hb <;>
    obtain ⟨-, rfl⟩ := hb
  · exact h
  · exact .respond h hr

private theorem reached_after {b : WidgetBench} (h : b.widget.outline.Reached) (gs : List Gesture) :
    (b.after gs).widget.outline.Reached := by
  induction gs generalizing b with
  | nil => exact h
  | cons g gs ih =>
    have hstep : (make g).Leaves b fun _ b' => b'.widget.outline.Reached :=
      (reached_make h g).leaves fun _ _ h' => h'
    exact ih hstep

/-- The user opened the strokes and selected the second one. Then the first one is cut away and one
more stroke is filed: the selected one now heads a run, and nobody hears anything. Where everything
is cleared then, it is heard once that the selection is lost. -/
theorem gives_rebuild_rerooted :
    let b := (showing {} .unicode 0 strokes attended []).after [.expand 1, .click 2]
    ∃ cut, strokes.truncateThrough (.on (.ofHead 0)) = .ok (1, cut) ∧
      let t := (cut.append ⟨⟨3⟩, "stroke", ""⟩).2
      (∀ t', t' = t ∨ t' = t.clear.2 → (wiring.perform (.rebuild t')).Gives b fun answer b' =>
        answer = .ok () ∧ ∃ r, b.widget.outline.Reshows t' r ∧ b' = b.told r) ∧
      b.widget.outline.selectedPosition? = some (.on (.ofChild 0 0)) ∧
      ((wiring.perform (.rebuild t)).run b).state.widget.outline.selectedPosition? =
        some (.on (.ofHead 0)) ∧
      ((wiring.perform (.rebuild t)).run b).state.heard = b.heard ∧
      ((wiring.perform (.rebuild t.clear.2)).run b).state.heard =
        b.heard ++ [⟨0, .selectionChanged none, none, 1⟩] := by
  have hempty : Timeline.Made true [] (.empty true) := .empty
  have hstrokes := ((hempty.append ⟨⟨0⟩, "stroke", ""⟩).append ⟨⟨1⟩, "stroke", ""⟩).append
    ⟨⟨2⟩, "erasure", ""⟩
  have hreached := reached_after (b := showing {} .unicode 0 strokes attended [])
    (.rebuild (.empty {} .unicode 0) hstrokes) [.expand 1, .click 2]
  refine ⟨_, rfl, ?_, by decide +kernel, by decide +kernel, by decide +kernel, by decide +kernel⟩
  have hbecomes := (Relation.ReflTransGen.single (Timeline.Edited.truncateThrough (t := strokes)
    (p := .on (.ofHead 0)) rfl)).tail (.append ⟨⟨3⟩, "stroke", ""⟩)
  rintro t' (rfl | rfl)
  · exact gives_rebuild hreached hbecomes
  · exact gives_rebuild hreached (hbecomes.tail .clear)

end WidgetBench

end UndoJournal
