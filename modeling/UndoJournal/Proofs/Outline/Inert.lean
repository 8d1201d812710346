import UndoJournal.Proofs.Action.Quiet
import UndoJournal.Proofs.Outline.Expansion
import UndoJournal.Screen.Link

/-!
# Commands that have nothing left to do

A command is **inert** if carrying it out changes nothing and fires nothing (`Outline.Inert`), which
is a matter of what the command asks for and of what is the case already. What a push asks about the
cursor is inert as soon as it has been done (`Outline.inert_of_performAll`): the run is open, the
row is selected, and a place that was scrolled to is on the screen.
-/

namespace UndoJournal

namespace Outline

variable {o o' : Outline} {a : Address} {row : Row}

/-- The outline does what it is asked by changing nothing and firing nothing. -/
def Inert (o : Outline) (c : ViewCommand) : Prop :=
  ∃ notes, o.perform c = .ok ⟨o, notes, []⟩ ∧ Note.Silent notes

/-- Showing the same timeline anew changes nothing, if the marks and the selection are of entries
that are shown. -/
theorem inert_rebuild {t : Timeline} (ht : o.shown = t)
    (hlive : ∀ id ∈ o.expanded, o.shown.Has id)
    (hselected : ∀ key, o.selected = some key → ∃ row, o.row? key = some row) :
    o.Inert (.rebuild t) := by
  subst ht
  have hexpanded : (o.expanded.filter fun id => (o.shown.toList.map Entry.id).contains id) =
      o.expanded := by
    refine List.filter_eq_self.mpr fun id hid => ?_
    obtain ⟨e, he, rfl⟩ := hlive id hid
    simpa using ⟨e, he, rfl⟩
  refine ⟨[.event .debug "history_tree.rebuild" [("rows", toString o.shown.size)]], ?_,
    Note.silent_event (by decide) _⟩
  simp only [perform, rebuild, hexpanded]
  rcases hsel : o.selected with _ | key
  · simp only [← hsel]
  · obtain ⟨row, hrow⟩ := hselected key hsel
    simp only [← hsel, hrow]

private theorem inert_clearSelection (h : o.selected = none) : o.Inert .clearSelection := by
  have hsame : { o with selected := none } = o := by rw [← h]
  exact ⟨[], by simp [perform, clearSelection, h, hsame], Note.silent_nil⟩

/-- Expanding to a node whose run is open. -/
private theorem inert_expandTo (hrow : o.rowAt? (.on a) = some row)
    (hopen : a.isChild = true → o.isExpanded a.group = true) : o.Inert (.expandTo a) := by
  refine ⟨[], ?_, Note.silent_nil⟩
  simp only [perform, expandTo, hrow]
  rcases hchild : a.isChild with _ | _
  · rfl
  · obtain ⟨e, he, hmem⟩ := isExpanded_iff.mp (hopen hchild)
    have hcontains : o.expanded.contains e.id = true := by simpa using hmem
    simp only [expand, he, hcontains, if_true, Bool.not_true, Bool.false_eq_true, if_false,
      unmoved]

/-- Selecting the row that is selected. -/
private theorem inert_select (hrow : o.rowAt? (.on a) = some row)
    (hsel : o.selected = some row.key) :
    o.Inert (.select a) := by
  have hsame : { o with selected := some row.key } = o := by rw [← hsel]
  refine ⟨[], ?_, Note.silent_nil⟩
  simp only [perform, select, hrow, choose, hsel, hsame, if_true]

/-- A place that was scrolled to is on the screen, so scrolling to it again is needless. -/
private theorem scrolled_scrolled (o : Outline) (i : Nat) :
    ({ o with scrollOffset := o.scrolled i } : Outline).scrolled i = o.scrolled i := by
  unfold scrolled
  dsimp only
  split
  · rfl
  · split
    · simp
      omega
    · split
      · rw [if_neg (by omega), if_neg (by omega)]
      · rfl

/-- Scrolling to where the outline is scrolled to. -/
private theorem inert_scrollTo (hrow : o.rowAt? (.on a) = some row)
    (hplace : ∀ i, o.placeOrHead? a row.key = some i → o.scrolled i = o.scrollOffset) :
    o.Inert (.scrollTo a) := by
  refine ⟨[], ?_, Note.silent_nil⟩
  simp only [perform, scrollTo, hrow]
  rcases hi : o.placeOrHead? a row.key with _ | i
  · rfl
  · simp only [hplace i hi, unmoved]

/-- **What was followed can be followed again to no effect**: the commands about the cursor leave an
outline where each of them is inert, and where the selection is a row. -/
theorem inert_of_performAll {l : Link} {p : Position}
    (h : o.performAll (l.following p) = .ok o') :
    (∀ c ∈ l.following p, o'.Inert c) ∧
      ∀ key, o'.selected = some key → ∃ row, o'.row? key = some row := by
  rcases p with _ | a
  · obtain rfl : o.clearSelection.outline = o' := Except.ok.inj h
    refine ⟨fun c hc => ?_, nofun⟩
    obtain rfl := List.mem_singleton.mp hc
    exact inert_clearSelection rfl
  · obtain ⟨o₁, row, hrest, -, hrow, hsel, hexp⟩ := exists_selected_of_performAll h
    -- scrolling is all that may have been done since
    have hscrolled : o' = { o₁ with scrollOffset := o'.scrollOffset } ∧
        (l.settings.scrollToCurrent = true → ∀ i, o'.placeOrHead? a row.key = some i →
          o'.scrolled i = o'.scrollOffset) := by
      rcases hset : l.settings.scrollToCurrent with _ | _ <;> rw [hset] at hrest
      · obtain rfl : o₁ = o' := Except.ok.inj hrest
        exact ⟨rfl, nofun⟩
      · obtain ⟨r, hscroll, hr⟩ := performAll_cons_eq_ok.mp hrest
        obtain rfl : r.outline = o' := Except.ok.inj hr
        obtain ⟨row', hrow', hplace⟩ := scrollTo_eq_ok hscroll
        obtain rfl : row = row' := Option.some.inj (hrow.symm.trans hrow')
        obtain ⟨hnone, heq⟩ | ⟨j, hsome, heq⟩ := hplace <;> rw [heq]
        · exact ⟨rfl, fun _ i hi => by cases hnone.symm.trans hi⟩
        · refine ⟨rfl, fun _ i hi => ?_⟩
          have hi : o₁.placeOrHead? a row.key = some i := hi
          obtain rfl : j = i := Option.some.inj (hsome.symm.trans hi)
          exact scrolled_scrolled _ _
    obtain ⟨heq, hplace⟩ := hscrolled
    have hrow' : o'.rowAt? (.on a) = some row := by
      rw [heq]
      exact hrow
    have hsel' : o'.selected = some row.key := by
      rw [heq]
      exact hsel
    have hexp' : a.isChild = true → o'.isExpanded a.group = true := by
      rw [heq]
      exact hexp
    refine ⟨fun c hc => ?_, fun key hkey => ?_⟩
    · simp only [Link.following, List.cons_append, List.nil_append, List.mem_cons] at hc
      obtain rfl | rfl | hc := hc
      · exact inert_expandTo hrow' hexp'
      · exact inert_select hrow' hsel'
      · split at hc
        · obtain rfl := List.mem_singleton.mp hc
          exact inert_scrollTo hrow' (hplace ‹_›)
        · cases hc
    · obtain rfl : row.key = key := Option.some.inj (hsel'.symm.trans hkey)
      have hmem := (of_rowAt?_eq_some hrow').1
      exact Option.isSome_iff_exists.mp (List.find?_isSome.mpr ⟨row, hmem, beq_self_eq_true _⟩)

end Outline

end UndoJournal
