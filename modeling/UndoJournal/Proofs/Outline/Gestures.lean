import UndoJournal.Proofs.Outline.Expansion

/-!
# What the gestures of a user come to

A user clicks a row or uses its expander. There is one thing that can be wrong with either: that
there is no such row. Otherwise the outline says exactly what it became and which signals are to be
fired (`click_cases`, `expandRow_cases`, `collapseRow_cases`), and **a gesture that fires nothing
has changed nothing**.
-/

namespace UndoJournal

namespace Outline

variable {o : Outline} {index group : Nat}

/-- The position that an outline marks: that of the selected row, or the start. -/
def marked (o : Outline) : Position := o.selectedPosition?.getD .start

/-- The row at a place heads a run that has more entries. -/
structure Heads (o : Outline) (index group : Nat) (run : Run) : Prop where
  seen : ∃ row, o.visible[index]? = some row ∧ row.position = .on (.ofHead group)
  listed : o.shown.runs[group]? = some run
  more : run.rest ≠ []

/-- The entry at the head of such a run. -/
theorem Heads.head {run : Run} (h : o.Heads index group run) :
    o.shown.head? group = some run.head := by
  rw [Timeline.head?, h.listed, Option.map_some]

/-! ### Rows that can be seen -/

/-- The entries behind a head can be seen exactly while the run is expanded. -/
theorem isExpanded_of_mem_visible {row : Row} {i : Nat} (h : row ∈ o.visible)
    (hpos : row.position = .on (.ofChild group i)) : o.isExpanded group = true := by
  obtain ⟨hmem, hvisible⟩ := List.mem_filter.mp h
  obtain rfl | ⟨p, -, n, rfl⟩ := cases_of_mem_rows hmem
  · cases hpos
  · have haddress : p.address = .ofChild group i := Position.on.inj hpos
    simpa [isVisible, Row.ofPlaced, haddress, Address.ofChild, Address.isChild] using hvisible

theorem exists_visible_of_isExpanded {run : Run} (hrun : o.shown.runs[group]? = some run)
    (hexp : o.isExpanded group = true) {i : Nat} (hi : i < run.rest.length) :
    ∃ row ∈ o.visible, row.position = .on (.ofChild group i) := by
  have hcontains : o.shown.contains (.on (.ofChild group i)) = true :=
    Timeline.get?_isSome_iff.mpr ⟨run, hrun, by simp only [Address.reach_ofChild, Run.size]; omega⟩
  obtain ⟨row, hrow⟩ := exists_rowAt? hcontains
  obtain ⟨hmem, hpos⟩ := of_rowAt?_eq_some hrow
  refine ⟨row, List.mem_filter.mpr ⟨hmem, ?_⟩, hpos⟩
  obtain rfl | ⟨p, -, n, rfl⟩ := cases_of_mem_rows hmem
  · cases hpos
  · have haddress : p.address = .ofChild group i := Position.on.inj hpos
    simp [isVisible, Row.ofPlaced, haddress, Address.ofChild, Address.isChild, hexp]

/-! ### Selections -/

/-- The selection is the row whose key was selected. -/
theorem selectedPosition?_of_key (hn : o.shown.Numbered) {row : Row} (hrow : row ∈ o.rows) :
    ({ o with selected := some row.key } : Outline).selectedPosition? = some row.position := by
  have hfound : o.row? row.key = some row := row?_key hn hrow
  change ((some row.key).bind o.row?).map Row.position = some row.position
  rw [Option.bind_some, hfound, Option.map_some]

/-- A node is marked by being selected. -/
theorem selectedPosition?_of_marked {a : Address} (h : o.marked = .on a) :
    o.selectedPosition? = some (.on a) := by
  unfold marked at h
  rcases hselected : o.selectedPosition? with _ | p <;> rw [hselected] at h
  · cases h
  · exact congrArg some h

/-- The head of a run as the selection. -/
theorem selectedPosition?_of_head (hn : o.shown.Numbered) {run : Run}
    (hrun : o.shown.runs[group]? = some run) :
    ({ o with selected := some (.entry run.head.id) } : Outline).selectedPosition? =
      some (.on (.ofHead group)) := by
  have hcontains : o.shown.contains (.on (.ofHead group)) = true :=
    Timeline.get?_isSome_iff.mpr ⟨run, hrun, run.size_pos⟩
  obtain ⟨row, hrow⟩ := exists_rowAt? hcontains
  obtain ⟨hmem, hpos⟩ := of_rowAt?_eq_some hrow
  have hkey : row.key = .entry run.head.id := by
    obtain rfl | ⟨p, hp, n, rfl⟩ := cases_of_mem_rows hmem
    · cases hpos
    · have haddress : p.address = .ofHead group := Position.on.inj hpos
      have hentry := Timeline.get?_of_mem_placed hp
      rw [haddress] at hentry
      simp only [Timeline.get?, Address.ofHead, hrun] at hentry
      have hhead : run.head = p.entry := Option.some.inj hentry
      rw [hhead]
      rfl
  rw [← hkey, ← hpos]
  exact selectedPosition?_of_key hn hmem

/-! ### Clicks -/

/-- The row that is clicked is the selection afterwards, and that is told if it is news. -/
theorem click_of_visible {row : Row} (h : o.visible[index]? = some row) : ∃ r,
    o.click index = .ok r ∧ r.outline = { o with selected := some row.key } ∧
      r.signals = if o.selected = some row.key then []
        else [.selectionChanged (some row.position)] := by
  unfold click
  rw [h]
  exact ⟨_, rfl, rfl, rfl⟩

/-- A click is refused where no row is; otherwise the row is the selection afterwards, and that is
told if it is news. -/
theorem click_cases (hn : o.shown.Numbered) (index : Nat) :
    (o.visible.length ≤ index ∧ o.click index = .error (.noVisibleRow index)) ∨
      ∃ row r, o.visible[index]? = some row ∧ o.click index = .ok r ∧
        ((r.outline = o ∧ r.signals = []) ∨
          (r.outline = { o with selected := some row.key } ∧
            o.shown.contains row.position = true ∧
            r.outline.selectedPosition? = some row.position ∧
            r.signals = [.selectionChanged (some row.position)])) := by
  rcases hrow : o.visible[index]? with _ | row
  · refine .inl ⟨List.getElem?_eq_none_iff.mp hrow, ?_⟩
    unfold click
    rw [hrow]
  · obtain ⟨r, hclick, houtline, hsignals⟩ := click_of_visible hrow
    have hmem : row ∈ o.rows := (List.mem_filter.mp (List.mem_of_getElem? hrow)).1
    refine .inr ⟨row, r, rfl, hclick, ?_⟩
    by_cases hsel : o.selected = some row.key
    · exact .inl ⟨by rw [houtline, ← hsel], by rw [hsignals, if_pos hsel]⟩
    · exact .inr ⟨houtline, contains_of_mem_rows hmem,
        houtline ▸ selectedPosition?_of_key hn hmem, by rw [hsignals, if_neg hsel]⟩

/-! ### Expanders -/

/-- Only the head of a run that has more entries has an expander. -/
theorem heads_of_expander? (h : o.expander? index = .ok (some group)) :
    ∃ run, o.Heads index group run := by
  unfold expander? at h
  split at h
  · cases h
  · rename_i row hrow
    have hmem : row ∈ o.rows := (List.mem_filter.mp (List.mem_of_getElem? hrow)).1
    have hgroup := Except.ok.inj h
    split at hgroup
    · cases hgroup
    · rename_i hexpander
      obtain ⟨hchild, hcount⟩ : row.isChild = false ∧ row.childCount ≠ 0 := by
        simpa using hexpander
      obtain rfl | ⟨p, hp, n, rfl⟩ := cases_of_mem_rows hmem
      · exact absurd rfl hcount
      · have hchild : p.address.isChild = false := hchild
        obtain rfl : p.address.group = group := Option.some.inj hgroup
        obtain ⟨run, hrun, hcounted⟩ := Timeline.childCount_of_mem_placed hp
        rw [hchild, if_neg Bool.false_ne_true] at hcounted
        refine ⟨run, ⟨_, hrow, ?_⟩, hrun, fun hnil => hcount ?_⟩
        · -- an address that is no child is that of the head
          have haddress : p.address = .ofHead p.address.group := by
            rcases ha : p.address with ⟨g, _ | i⟩
            · rfl
            · rw [ha] at hchild
              cases hchild
          exact congrArg Position.on haddress
        · exact hcounted.trans (by rw [hnil]; rfl)

/-- There is no row, or it has no expander, or it is the head of a run. -/
private theorem expander?_cases (o : Outline) (index : Nat) :
    (o.visible.length ≤ index ∧ o.expander? index = .error (.noVisibleRow index)) ∨
      (index < o.visible.length ∧ (o.expander? index = .ok none ∨
        ∃ group run, o.expander? index = .ok (some group) ∧ o.Heads index group run)) := by
  rcases hrow : o.visible[index]? with _ | row
  · exact .inl ⟨List.getElem?_eq_none_iff.mp hrow, by rw [expander?, hrow]⟩
  · refine .inr ⟨(List.getElem?_eq_some_iff.mp hrow).1, ?_⟩
    obtain ⟨group?, hexpander⟩ : ∃ group?, o.expander? index = .ok group? :=
      ⟨_, by rw [expander?, hrow]⟩
    rcases group? with _ | group
    · exact .inl hexpander
    · obtain ⟨run, hheads⟩ := heads_of_expander? hexpander
      exact .inr ⟨group, run, hexpander, hheads⟩

/-- How the expander of a row can be used: there is no row, nothing is done and nothing told, or a
run that the row heads is opened or closed, of which `changed` says how. -/
def Used (o : Outline) (index : Nat) (result : Except ViewError (Bool × Response))
    (changed : Nat → Run → Response → Prop) : Prop :=
  (o.visible.length ≤ index ∧ result = .error (.noVisibleRow index)) ∨
    (index < o.visible.length ∧
      ((∃ r, result = .ok (false, r) ∧ r.outline = o ∧ r.signals = []) ∨
        ∃ group run r, o.Heads index group run ∧ result = .ok (true, r) ∧ changed group run r))

/-- A run was opened: it is expanded besides those that were, and that is all that is told. -/
structure Opened (o : Outline) (group : Nat) (r : Response) : Prop where
  outline : r.outline = { o with expanded := r.outline.expanded }
  expanded : ∀ g, r.outline.isExpanded g = true ↔ o.isExpanded g = true ∨ g = group
  signals : r.signals = [.rowExpanded group]

/-- A run was closed: a selection that would be hidden moves to the head first. -/
structure Closed (o : Outline) (group : Nat) (r : Response) : Prop where
  shown : r.outline.shown = o.shown
  expanded : ∀ g, r.outline.isExpanded g = true ↔ o.isExpanded g = true ∧ g ≠ group
  told : (∃ i, o.selectedPosition? = some (.on (.ofChild group i)) ∧
      r.outline.selectedPosition? = some (.on (.ofHead group)) ∧
      r.signals = [.selectionChanged (some (.on (.ofHead group))), .rowCollapsed group]) ∨
    ((∀ i, o.selectedPosition? ≠ some (.on (.ofChild group i))) ∧
      r.outline.selectedPosition? = o.selectedPosition? ∧ r.signals = [.rowCollapsed group])

theorem expandRow_cases (hn : o.shown.Numbered) (index : Nat) :
    o.Used index (o.expandRow index) fun group _ r => o.Opened group r := by
  obtain ⟨hlen, h⟩ | ⟨hlt, h | ⟨group, run, h, hheads⟩⟩ := o.expander?_cases index <;>
    rw [expandRow, h]
  · exact .inl ⟨hlen, rfl⟩
  · exact .inr ⟨hlt, .inl ⟨_, rfl, rfl, rfl⟩⟩
  · refine .inr ⟨hlt, ?_⟩
    have hiff : ∀ g, (o.expand group).2.isExpanded g = true ↔
        o.isExpanded g = true ∨ g = group := fun g => isExpanded_expand_iff hn hheads.head
    have heq := expand_eq o group
    obtain hchanged | ⟨o', hchanged⟩ := o.expand_cases group <;> rw [hchanged] at hiff heq <;>
      simp only [hchanged]
    · exact .inl ⟨_, rfl, rfl, rfl⟩
    · exact .inr ⟨group, run, _, hheads, rfl, heq, hiff, rfl⟩

/-- The selection is behind the head of a run exactly if it is a child in it. -/
theorem selectsInside_iff :
    o.selectsInside group = true ↔ ∃ i, o.selectedPosition? = some (.on (.ofChild group i)) := by
  unfold selectsInside
  rcases o.selectedPosition? with _ | _ | ⟨g, _ | i⟩
  · simp
  · simp
  · simp [Address.isChild, Address.ofChild]
  · simp [Address.isChild, Address.ofChild]

/-- Closing a run that is expanded. -/
theorem collapse_of_isExpanded (hexp : o.isExpanded group = true) (source : String) :
    ∃ e, o.shown.head? group = some e ∧ o.collapse group source = (true,
      if o.selectsInside group then
        ⟨{ (o.shut group).2 with selected := some (.entry e.id) },
          [toggleNote "collapse" source group true],
          [.selectionChanged (some (.on (.ofHead group))), .rowCollapsed group]⟩
      else
        ⟨(o.shut group).2, [toggleNote "collapse" source group true], [.rowCollapsed group]⟩) := by
  obtain ⟨e, he, hmem⟩ := isExpanded_iff.mp hexp
  refine ⟨e, he, ?_⟩
  have hcontains : o.expanded.contains e.id = true := by simpa using hmem
  have hselects : (o.shut group).2.selectsInside group = o.selectsInside group := by
    simp only [shut, he]
    rfl
  have hshut : (o.shut group).1 = true := by simp only [shut, he, hcontains]
  have hshown : (o.shut group).2.shown.head? group = some e := by simp only [shut, he]
  simp only [collapse, hshut, hshown, hselects, Bool.not_true, Bool.false_eq_true, if_false]
  split <;> rfl

/-- Closing a run changes nothing, or it was expanded. -/
theorem collapse_cases (hn : o.shown.Numbered) {run : Run}
    (hrun : o.shown.runs[group]? = some run) (source : String) :
    ((o.collapse group source).1 = false ∧ (o.collapse group source).2.outline = o ∧
        (o.collapse group source).2.signals = []) ∨
      ((o.collapse group source).1 = true ∧ o.Closed group (o.collapse group source).2) := by
  have hhead : o.shown.head? group = some run.head := by
    rw [Timeline.head?, hrun, Option.map_some]
  rcases hexp : o.isExpanded group with _ | _
  · have hcontains : o.expanded.contains run.head.id = false := by
      simpa [isExpanded, hhead] using hexp
    refine .inl ?_
    simp only [collapse, shut, hhead, hcontains, Bool.not_false, if_true, and_self]
  · have hshown := (stays_collapse o group source).shown
    have hexpanded : ∀ g, (o.collapse group source).2.outline.isExpanded g = true ↔
        o.isExpanded g = true ∧ g ≠ group := fun g => isExpanded_collapse_iff hn group source
    obtain ⟨e, he, hcollapse⟩ := collapse_of_isExpanded hexp source
    obtain rfl : run.head = e := Option.some.inj (hhead.symm.trans he)
    have hselected : (o.shut group).2.selectedPosition? = o.selectedPosition? := by
      simp only [shut, hhead]
      rfl
    have hsame : (o.shut group).2.shown = o.shown := by simp only [shut, hhead]
    rw [hcollapse] at hshown hexpanded ⊢
    refine .inr ⟨rfl, hshown, hexpanded, ?_⟩
    split <;> rename_i hinside
    · -- the selection would be hidden
      obtain ⟨i, hi⟩ := selectsInside_iff.mp hinside
      exact .inl ⟨i, hi, selectedPosition?_of_head (hsame ▸ hn) (hsame ▸ hrun), rfl⟩
    · exact .inr ⟨fun i hi => hinside (selectsInside_iff.mpr ⟨i, hi⟩), hselected, rfl⟩

theorem collapseRow_cases (hn : o.shown.Numbered) (index : Nat) :
    o.Used index (o.collapseRow index) fun group _ r => o.Closed group r := by
  obtain ⟨hlen, h⟩ | ⟨hlt, h | ⟨group, run, h, hheads⟩⟩ := o.expander?_cases index <;>
    rw [collapseRow, h]
  · exact .inl ⟨hlen, rfl⟩
  · exact .inr ⟨hlt, .inl ⟨_, rfl, rfl, rfl⟩⟩
  · refine .inr ⟨hlt, ?_⟩
    obtain ⟨hchanged, houtline, hsignals⟩ | ⟨hchanged, hclosed⟩ :=
      collapse_cases hn hheads.listed "user"
    · exact .inl ⟨_, by rw [← hchanged], houtline, hsignals⟩
    · exact .inr ⟨group, run, _, hheads, by rw [← hchanged], hclosed⟩

end Outline

end UndoJournal
