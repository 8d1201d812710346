import UndoJournal.Proofs.Outline.Layout

/-!
# Where an outline is scrolled to

The first row on the screen should be one of those that can be seen (`Outline.InRange`), but the
number of rows that can be seen is no matter of the offset: **only scrolling to a node changes the
offset** (`scrollOffset_of_performAll`), whichever rows come and go meanwhile. An outline that
presents a node that was scrolled to is in range (`Presents.inRange`), and if that is the first
entry, at most the sentinel is above the screen (`Presents.near`).

`Outline.Aims` says what following an update to a position makes of the offset.
-/

namespace UndoJournal

namespace Outline

variable {o o' o'' : Outline} {r : Response} {a : Address} {index group : Nat}

/-- The first row on the screen is one of those that can be seen. -/
def InRange (o : Outline) : Prop := o.scrollOffset < o.visible.length

instance (o : Outline) : Decidable o.InRange := inferInstanceAs (Decidable (_ < _))

/-- The screen is as large as it was, and the sentinel is wanted or not as it was. -/
structure SameFrame (o o' : Outline) : Prop where
  viewport : o'.viewport = o.viewport
  showSentinel : o'.showSentinel = o.showSentinel

/-- In the same frame, the same row is the first on the screen. -/
structure Still (o o' : Outline) : Prop extends o.SameFrame o' where
  scrollOffset : o'.scrollOffset = o.scrollOffset

theorem Still.refl (o : Outline) : o.Still o := ⟨⟨rfl, rfl⟩, rfl⟩

theorem SameFrame.trans (h : o.SameFrame o') (h' : o'.SameFrame o'') : o.SameFrame o'' :=
  ⟨h'.viewport.trans h.viewport, h'.showSentinel.trans h.showSentinel⟩

/-! ### Commands and gestures -/

private theorem still_expand (o : Outline) (group : Nat) : o.Still (o.expand group).2 := by
  rw [expand_eq]
  exact ⟨⟨rfl, rfl⟩, rfl⟩

private theorem still_collapse (o : Outline) (group : Nat) (source : String) :
    o.Still (o.collapse group source).2.outline := by
  have hshut : o.Still (o.shut group).2 := by
    rw [shut_eq]
    exact ⟨⟨rfl, rfl⟩, rfl⟩
  unfold collapse
  dsimp only
  split
  · exact .refl o
  · split
    · split
      · exact ⟨⟨hshut.viewport, hshut.showSentinel⟩, hshut.scrollOffset⟩
      · exact hshut
    · exact hshut

theorem still_rebuild (o : Outline) (t : Timeline) : o.Still (o.rebuild t).outline := by
  unfold rebuild
  dsimp only
  split
  · exact ⟨⟨rfl, rfl⟩, rfl⟩
  · split <;> exact ⟨⟨rfl, rfl⟩, rfl⟩

/-- **Only scrolling to a node changes the offset**, and nothing changes the frame. -/
theorem still_of_perform {c : ViewCommand} (h : o.perform c = .ok r) :
    o.SameFrame r.outline ∧ (c.op ≠ .scrollTo → o.Still r.outline) := by
  have hstill : o.Still r.outline →
      o.SameFrame r.outline ∧ (c.op ≠ .scrollTo → o.Still r.outline) :=
    fun hs => ⟨hs.toSameFrame, fun _ => hs⟩
  cases c with
  | rebuild t =>
    cases h
    exact hstill (still_rebuild o t)
  | select node =>
    obtain ⟨row, -, hr⟩ := select_eq_ok h
    rw [hr] at hstill ⊢
    exact hstill ⟨⟨rfl, rfl⟩, rfl⟩
  | clearSelection =>
    cases h
    exact hstill ⟨⟨rfl, rfl⟩, rfl⟩
  | expandTo node =>
    rw [(expandTo_eq_ok h).1] at hstill ⊢
    exact hstill ⟨⟨rfl, rfl⟩, rfl⟩
  | collapseGroup group =>
    simp only [perform, collapseGroup] at h
    split at h <;> cases h
    exact hstill (still_collapse o group "sync")
  | scrollTo node =>
    refine ⟨?_, fun hop => absurd rfl hop⟩
    obtain ⟨row, -, ⟨-, hr⟩ | ⟨i, -, hr⟩⟩ := scrollTo_eq_ok h <;> rw [hr] <;> exact ⟨rfl, rfl⟩

theorem sameFrame_of_performAll {cs : List ViewCommand} (h : o.performAll cs = .ok o') :
    o.SameFrame o' := by
  induction cs generalizing o with
  | nil =>
    cases h
    exact ⟨rfl, rfl⟩
  | cons c cs ih =>
    obtain ⟨r, hr, h'⟩ := performAll_cons_eq_ok.mp h
    exact (still_of_perform hr).1.trans (ih h')

/-- Commands that scroll to no node leave the offset as it is. -/
theorem scrollOffset_of_performAll {cs : List ViewCommand} (hcs : ∀ c ∈ cs, c.op ≠ .scrollTo)
    (h : o.performAll cs = .ok o') : o'.scrollOffset = o.scrollOffset := by
  induction cs generalizing o with
  | nil =>
    cases h
    rfl
  | cons c cs ih =>
    obtain ⟨r, hr, h'⟩ := performAll_cons_eq_ok.mp h
    rw [ih (fun c' hc' => hcs c' (List.mem_cons_of_mem _ hc')) h']
    exact ((still_of_perform hr).2 (hcs c List.mem_cons_self)).scrollOffset

/-- No gesture of a user scrolls. -/
theorem still_expandRow {changed : Bool} (h : o.expandRow index = .ok (changed, r)) :
    o.Still r.outline := by
  obtain rfl | ⟨group, houtline, -⟩ := expandRow_eq_ok h
  · exact .refl o
  · rw [houtline]
    exact still_expand o group

theorem still_collapseRow {changed : Bool} (h : o.collapseRow index = .ok (changed, r)) :
    o.Still r.outline := by
  obtain rfl | ⟨group, rfl⟩ := collapseRow_eq_ok h
  · exact .refl o
  · exact still_collapse o group "user"

/-! ### How many rows can be seen -/

/-- Where the sentinel is wanted, it is the first row that can be seen, and the first entry is the
second. -/
private theorem layout_of_sentinel (hs : o.showSentinel = true) :
    ∃ rest, o.layout = .start :: rest ∧
      (o.shown.runs ≠ [] → ∃ rest', rest = .on (.ofHead 0) :: rest') := by
  rw [layout, if_pos hs]
  refine ⟨_, rfl, fun hruns => ?_⟩
  obtain ⟨run, runs, hcons⟩ := List.exists_cons_of_ne_nil hruns
  rw [hcons, List.zipIdx_cons, List.flatMap_cons]
  exact ⟨_, rfl⟩

private theorem length_visible (o : Outline) : o.visible.length = o.layout.length := by
  rw [← map_position_visible, List.length_map]

/-- The sentinel can be seen if it is wanted. -/
theorem visible_pos (hs : o.showSentinel = true) : 0 < o.visible.length := by
  obtain ⟨rest, hlayout, -⟩ := layout_of_sentinel hs
  rw [length_visible, hlayout]
  exact Nat.succ_pos _

/-- A row besides the sentinel can be seen if there is any entry. -/
theorem one_lt_length_visible (hs : o.showSentinel = true) (hruns : o.shown.runs ≠ []) :
    1 < o.visible.length := by
  obtain ⟨rest, hlayout, hrest⟩ := layout_of_sentinel hs
  obtain ⟨rest', rfl⟩ := hrest hruns
  rw [length_visible, hlayout]
  exact Nat.succ_lt_succ (Nat.succ_pos _)

/-- The row of the first entry is right below the sentinel. -/
private theorem eq_one_of_first (hn : o.shown.Numbered) (hs : o.showSentinel = true) {row : Row}
    (hrow : o.visible[index]? = some row) (hpos : row.position = .on (.ofHead 0)) : index = 1 := by
  have hmem : row ∈ o.rows := (List.mem_filter.mp (List.mem_of_getElem? hrow)).1
  have hruns : o.shown.runs ≠ [] := by
    obtain ⟨e, he⟩ := exists_head_of_mem_rows hmem hpos
    rintro hnil
    simp [Timeline.head?, hnil] at he
  obtain ⟨rest, hlayout, hrest⟩ := layout_of_sentinel hs
  obtain ⟨rest', rfl⟩ := hrest hruns
  have hfirst : (o.visible.map Row.position)[1]? = some (.on (.ofHead 0)) := by
    rw [map_position_visible, hlayout]
    rfl
  rw [List.getElem?_map] at hfirst
  obtain ⟨row', hrow', hpos'⟩ := Option.map_eq_some_iff.mp hfirst
  have hmem' : row' ∈ o.rows := (List.mem_filter.mp (List.mem_of_getElem? hrow')).1
  -- rows at one position are one row, which has one place
  have hkey : row.key = row'.key := key_eq_of_position_eq hmem hmem' (hpos.trans hpos'.symm)
  have hnodup : (o.visible.map Row.key).Nodup := (nodup_keys hn).sublist (List.filter_sublist.map _)
  refine (List.getElem?_inj ?_ hnodup).mp ?_
  · rw [List.length_map]
    exact (List.getElem?_eq_some_iff.mp hrow).1
  · rw [List.getElem?_map, List.getElem?_map, hrow, hrow', Option.map_some, Option.map_some, hkey]

/-- Where no run is closed, no fewer rows can be seen. -/
theorem length_visible_le (hframe : o' = { o with expanded := o'.expanded })
    (hexpanded : ∀ g, o.isExpanded g = true → o'.isExpanded g = true) :
    o.visible.length ≤ o'.visible.length := by
  have hrows : o'.rows = o.rows := by rw [hframe]; rfl
  have hsentinel : o'.showSentinel = o.showSentinel := by rw [hframe]
  rw [visible, visible, hrows]
  refine (List.monotone_filter_right _ fun row hrow => ?_).length_le
  unfold isVisible at hrow ⊢
  split at hrow
  · rw [hsentinel]
    exact hrow
  · rfl
  · rename_i a _ _
    rcases hchild : a.isChild with _ | _
    · rfl
    · rw [hchild] at hrow
      exact hexpanded _ hrow

/-! ### Rows that are presented -/

/-- A node that was scrolled to is not above the screen. -/
private theorem Presents.exists_row (h : o.Presents (.on a) true) (hv : 0 < o.viewport) :
    ∃ i row, o.visible[i]? = some row ∧ row.position = .on a ∧ o.scrollOffset ≤ i := by
  obtain ⟨i, v, hi, hpos, -, hwindow⟩ := h.visible a rfl
  simp only [visibleRows, List.getElem?_map, Option.map_eq_some_iff] at hi
  obtain ⟨⟨row, j⟩, hrow, rfl⟩ := hi
  rw [List.getElem?_zipIdx] at hrow
  obtain ⟨row', hrow', hpair⟩ := Option.map_eq_some_iff.mp hrow
  obtain rfl : row' = row := congrArg Prod.fst hpair
  exact ⟨i, row', hrow', hpos, (hwindow rfl hv).1⟩

/-- **An outline that was scrolled to a node is in range.** -/
theorem Presents.inRange (h : o.Presents (.on a) true) (hv : 0 < o.viewport) : o.InRange := by
  obtain ⟨i, row, hrow, -, hle⟩ := h.exists_row hv
  exact Nat.lt_of_le_of_lt hle (List.getElem?_eq_some_iff.mp hrow).1

/-- Above the first entry there is the sentinel at most. -/
theorem Presents.near (h : o.Presents (.on (.ofHead 0)) true) (hn : o.shown.Numbered)
    (hv : 0 < o.viewport) (hs : o.showSentinel = true) : o.scrollOffset ≤ 1 := by
  obtain ⟨i, row, hrow, hpos, hle⟩ := h.exists_row hv
  exact eq_one_of_first hn hs hrow hpos ▸ hle

/-- What following an update to a position makes of where an outline is scrolled to. -/
structure Aims (o : Outline) (scroll : Bool) (p : Position) (o' : Outline) : Prop
    extends o.SameFrame o' where
  /-- To the start there is no scrolling. -/
  still : scroll = false ∨ p = .start → o'.scrollOffset = o.scrollOffset
  inRange : scroll = true → p ≠ .start → 0 < o.viewport → o'.InRange
  /-- Above the first entry there is the sentinel at most. -/
  near : scroll = true → p = .on (.ofHead 0) → 0 < o.viewport → o.showSentinel = true →
    o'.scrollOffset ≤ 1

/-! ### Which gestures change something -/

/-- A row heads one run. -/
theorem Heads.group_eq {group' : Nat} {run run' : Run} (h : o.Heads index group run)
    (h' : o.Heads index group' run') : group = group' := by
  obtain ⟨row, hrow, hpos⟩ := h.seen
  obtain ⟨row', hrow', hpos'⟩ := h'.seen
  obtain rfl : row = row' := Option.some.inj (hrow.symm.trans hrow')
  cases hpos.symm.trans hpos'
  rfl

/-- The head of a run that has more entries has an expander. -/
private theorem Heads.expander? {run : Run} (h : o.Heads index group run) :
    o.expander? index = .ok (some group) := by
  obtain ⟨row, hrow, hpos⟩ := h.seen
  have hmem : row ∈ o.rows := (List.mem_filter.mp (List.mem_of_getElem? hrow)).1
  have hcount : row.childCount ≠ 0 := by
    obtain rfl | ⟨p, hp, n, rfl⟩ := cases_of_mem_rows hmem
    · cases hpos
    · have haddress : p.address = .ofHead group := Position.on.inj hpos
      obtain ⟨run', hrun', hcounted⟩ := Timeline.childCount_of_mem_placed hp
      rw [haddress] at hrun' hcounted
      obtain rfl : run = run' := Option.some.inj (h.listed.symm.trans hrun')
      change p.childCount ≠ 0
      rw [hcounted]
      exact fun hzero => h.more (List.length_eq_zero_iff.mp hzero)
  have hchild : row.isChild = false := by simp [Row.isChild, hpos, Address.ofHead, Address.isChild]
  simp only [Outline.expander?, hrow, hchild, hpos]
  simp [hcount, Position.group?, Position.address?, Address.ofHead]

/-- **An expander opens a run exactly if that is collapsed.** -/
theorem Heads.expandRow {run : Run} (h : o.Heads index group run) :
    ∃ r, o.expandRow index = .ok (!o.isExpanded group, r) := by
  refine ⟨⟨(o.expand group).2, [toggleNote "expand" "user" index (!o.isExpanded group)],
    if !o.isExpanded group then [.rowExpanded group] else []⟩, ?_⟩
  have hchanged : (o.expand group).1 = !o.isExpanded group := by
    simp only [expand, isExpanded, h.head]
    split <;> simp_all
  simp only [Outline.expandRow, h.expander?, hchanged]

/-- **An expander closes a run exactly if that is expanded.** -/
theorem Heads.collapseRow {run : Run} (h : o.Heads index group run) :
    ∃ r, o.collapseRow index = .ok (o.isExpanded group, r) := by
  have hchanged : (o.collapse group "user").1 = o.isExpanded group := by
    rcases hexp : o.isExpanded group with _ | _
    · have hcontains : o.expanded.contains run.head.id = false := by
        simpa [isExpanded, h.head] using hexp
      simp only [collapse, shut, h.head, hcontains, Bool.not_false, if_true]
    · obtain ⟨e, -, hcollapse⟩ := collapse_of_isExpanded hexp "user"
      rw [hcollapse]
  refine ⟨(o.collapse group "user").2, ?_⟩
  simp only [Outline.collapseRow, h.expander?]
  rw [← hchanged]

end Outline

end UndoJournal
