import UndoJournal.Proofs.Session.Gestures

/-!
# Folding runs

What the user of a session does by closing and opening runs, after any deeds of the document and of
the user.

* **The document is left alone but for a cursor in the run that is closed**, which ends on the last
  entry of the run; a run that is opened shows its entries and, if the cursor is in it, the cursor
  (`Session.folding_exactly`).
* **Closing a run does not always close it**: where the cursor is behind the head and marked there,
  it is walked back to the head, each step has the view show where the cursor is, and that opens the
  run again unless there was only one step (`Session.reopened_iff`).
-/

namespace UndoJournal

namespace Session

variable {s s' : Session} {group : Nat}

/-! ### The document -/

/-- Closing a run leaves the timeline, and takes a cursor in the run to its last entry, with the
document. -/
structure Folded (s : Session) (group : Nat) (run : Run) (s' : Session) : Prop where
  listed : s.desk.journal.timeline.runs[group]? = some run
  timeline : s'.desk.journal.timeline = s.desk.journal.timeline
  /-- A cursor in the run ends on its last entry. -/
  cursor : s'.desk.journal.cursor = if s.desk.journal.cursor.group? = some group
    then .on (run.lastAddress group) else s.desk.journal.cursor
  /-- What is applied in the document are the entries up to the cursor, in order. -/
  applied : ∀ n, s'.desk.journal.timeline.ordinal s'.desk.journal.cursor = .ok n →
    s'.document.applied = (s'.desk.journal.timeline.toList.take n).map Entry.event
  agrees : s'.Agrees

/-- Document and journal agree about what is applied. -/
private theorem Agrees.applied_eq (h : s.Agrees) {n : Nat}
    (hn : s.desk.journal.timeline.ordinal s.desk.journal.cursor = .ok n) :
    s.document.applied = (s.desk.journal.timeline.toList.take n).map Entry.event := by
  obtain rfl : s.document.applied.length = n := Except.ok.inj (h.cursor.symm.trans hn)
  rw [List.map_take, h.events, List.take_left]

/-- **What closing and opening runs does to the document**, after any deeds of the document and of
the user. Either can only fail because there is no such row, and where it fails or does nothing, the
session is as it was. A run that is closed takes a cursor that is in it to its last entry, and any
other cursor stays where it is; the timeline is what it was, and what is applied are the entries up
to the cursor. A run that is opened leaves journal and document as they are; its entries are shown,
and the selection is the cursor if that is in the run, and what it was otherwise. -/
theorem folding_exactly (settings : Settings) (o : Outline) {ds : List Deed}
    (hds : ∀ d ∈ ds, d.ordinary = true) (row : Nat) :
    let s := (wired settings o).after ds
    (collapse row).Gives s (s.Used row fun group run s' => s.Folded group run s') ∧
      (expand row).Gives s (s.Used row fun group _ s' => s.Opens group s') := by
  intro s
  have h : s.AtRest := (atRest_wired settings o).after hds
  refine ⟨(h.gives_collapse row).mono fun answer s' hused => ?_,
    (h.gives_expand row).mono fun answer s' hused => ?_⟩
  · refine hused.imp_right fun ⟨hlt, hdone⟩ => ⟨hlt, hdone.imp_right ?_⟩
    rintro ⟨group, run, hheads, hanswer, ⟨⟨n, h'⟩, -⟩, hcloses⟩
    have hagrees : s'.Agrees := (h'.settled h.step.navigator).step.agrees
    exact ⟨group, run, hheads, hanswer, h.moored.abreast.shown ▸ hheads.listed, h'.holds.timeline,
      hcloses.cursor, fun _ => hagrees.applied_eq, hagrees⟩
  · refine hused.imp_right fun ⟨hlt, hdone⟩ => ⟨hlt, hdone.imp_right ?_⟩
    rintro ⟨group, run, hheads, hanswer, -, hopens⟩
    exact ⟨group, run, hheads, hanswer, hopens⟩

/-- Three events make a run, and the user clicks its second entry. -/
def clicked : List Deed :=
  [.commit "Move" "one", .commit "Move" "two", .commit "Move" "three", .click 2]

/-- Closing that run and opening it work as is said. -/
theorem folding_exactly_clicked :
    let s := (wired {} (.empty {} .unicode 0)).after clicked
    (collapse 1).Gives s (s.Used 1 fun group run s' => s.Folded group run s') ∧
      (expand 1).Gives s (s.Used 1 fun group _ s' => s.Opens group s') :=
  folding_exactly {} (.empty {} .unicode 0) (by decide) 1

/-! ### The view -/

/-- The cursor is behind the head of the run and not next to it, and the view marks it there. -/
def Retraces (s : Session) (group : Nat) : Prop :=
  ∃ i, s.desk.journal.cursor = .on (.ofChild group (i + 1)) ∧
    s.outline.selectedPosition? = some s.desk.journal.cursor

/-- The view shows the run as expanded, and an entry behind its head can be seen. -/
structure ShowsOpen (s : Session) (group : Nat) : Prop where
  expanded : s.outline.isExpanded group = true
  seen : ∃ row ∈ s.outline.visible, ∃ i, row.position = .on (.ofChild group i)

/-- The view shows the run as collapsed, and no entry behind its head can be seen. -/
structure ShowsClosed (s : Session) (group : Nat) : Prop where
  collapsed : s.outline.isExpanded group = false
  unseen : ∀ row ∈ s.outline.visible, ∀ i, row.position ≠ .on (.ofChild group i)

/-- **When a run that is closed is open afterwards**, after any deeds of the document and of the
user: exactly if the cursor was behind its head, not next to it, and marked there. In all other
cases the run is closed, wherever the cursor was. -/
theorem reopened_iff (settings : Settings) (o : Outline) {ds : List Deed}
    (hds : ∀ d ∈ ds, d.ordinary = true) (row : Nat) :
    let s := (wired settings o).after ds
    (collapse row).Gives s (s.Used row fun group _ s' =>
      (s.Retraces group → s'.ShowsOpen group) ∧ (¬ s.Retraces group → s'.ShowsClosed group)) := by
  intro s
  have h : s.AtRest := (atRest_wired settings o).after hds
  refine (h.gives_collapse row).mono fun answer s' hused => ?_
  refine hused.imp_right fun ⟨hlt, hdone⟩ => ⟨hlt, hdone.imp_right ?_⟩
  rintro ⟨group, run, hheads, hanswer, ⟨⟨n, h'⟩, -⟩, hcloses⟩
  refine ⟨group, run, hheads, hanswer, fun hretraces => ?_, fun hnot => ?_⟩
  · have hexpanded := hcloses.expanded.mpr hretraces
    have hshown : s'.outline.shown = s.desk.journal.timeline :=
      (h.moored.abreast.since h'.holds.good).shown
    have hrun : s'.outline.shown.runs[group]? = some run := by
      rw [hshown, ← h.moored.abreast.shown]
      exact hheads.listed
    obtain ⟨seen, hseen, hpos⟩ := Outline.exists_visible_of_isExpanded hrun hexpanded
      (List.length_pos_iff.mpr hheads.more)
    exact ⟨hexpanded, seen, hseen, 0, hpos⟩
  · have hcollapsed : s'.outline.isExpanded group = false := by
      rw [← Bool.not_eq_true]
      exact fun hexpanded => hnot (hcloses.expanded.mp hexpanded)
    -- an entry behind a head can only be seen while the run is expanded
    refine ⟨hcollapsed, fun seen hseen i hpos => ?_⟩
    have hexpanded := Outline.isExpanded_of_mem_visible hseen hpos
    exact nomatch hexpanded.symm.trans hcollapsed

/-- Three events make a run, whose last entry the cursor is on. -/
def committed : List Deed :=
  [.commit "Move" "one", .commit "Move" "two", .commit "Move" "three"]

/-- The view marks the cursor there. -/
theorem reopened_iff_committed :
    let s := (wired {} (.empty {} .unicode 0)).after committed
    (collapse 1).Gives s (s.Used 1 fun group _ s' =>
      (s.Retraces group → s'.ShowsOpen group) ∧ (¬ s.Retraces group → s'.ShowsClosed group)) ∧
    s.Retraces 0 :=
  ⟨reopened_iff {} (.empty {} .unicode 0) (by decide) 1, 0, by decide +kernel, by decide +kernel⟩

/-- **That run is open after the user has closed it.** -/
theorem collapse_leaves_run_open :
    let s := (wired {} (.empty {} .unicode 0)).after committed
    ((collapse 1).run s).result = .ok (.ok true) ∧
      ((collapse 1).run s).state.outline.isExpanded 0 = true ∧
      ((collapse 1).run s).state.outline.visible.map Row.position =
        [.start, .on (.ofHead 0), .on (.ofChild 0 0), .on (.ofChild 0 1)] := by
  decide +kernel

end Session

end UndoJournal
