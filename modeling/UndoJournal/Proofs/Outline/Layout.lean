import UndoJournal.Proofs.Outline.Gestures

/-!
# What can be seen

The rows that can be seen are **laid out by what is expanded**: the sentinel, if it is wanted, and
every head, each followed by the rest of its run while that is expanded (`map_position_visible`).
While the selected row is one of them (`Outline.InSight`), no other row is flagged as selected, and
the position that an outline calls selected is that of the flagged row (`InSight.coherent`).
-/

namespace UndoJournal

namespace Outline

variable {o : Outline}

/-! ### The layout -/

/-- The positions that can be seen, in order, as what is expanded lays them out. -/
def layout (o : Outline) : List Position :=
  (if o.showSentinel then [.start] else []) ++ o.shown.runs.zipIdx.flatMap fun (run, group) =>
    .on (.ofHead group) :: if o.isExpanded group then
      (List.range run.rest.length).map fun i => .on (.ofChild group i) else []

/-- Whether the row at an address can be seen. -/
private def shows (o : Outline) (a : Address) : Bool := !a.isChild || o.isExpanded a.group

/-- Of a run, the head can be seen, and the entries behind it while it is expanded. -/
private theorem filter_placed (o : Outline) (run : Run) (group : Nat) :
    ((run.placed group).filter fun p => o.shows p.address).map (fun p => Position.on p.address) =
      .on (.ofHead group) :: if o.isExpanded group then
        (List.range run.rest.length).map fun i => .on (.ofChild group i) else [] := by
  have hhead : o.shows (.ofHead group) = true := rfl
  have hchild : ∀ i, o.shows (.ofChild group i) = o.isExpanded group := fun _ => rfl
  have hindices : (List.range run.rest.length).map (fun i => Position.on (.ofChild group i)) =
      run.rest.zipIdx.map fun q => .on (.ofChild group q.2) := by
    rw [List.range_eq_range', ← List.zipIdx_map_snd 0 run.rest, List.map_map]
    rfl
  simp only [Run.placed, List.filter_cons, hhead, if_true, List.map_cons, List.filter_map,
    Function.comp_def, hchild, List.map_map]
  rcases o.isExpanded group with _ | _
  · simp
  · rw [if_pos rfl, hindices]
    simp

/-- **The rows that can be seen** are the sentinel, if it is wanted, and every head, each followed
by the rest of its run while that is expanded. -/
theorem map_position_visible (o : Outline) : o.visible.map Row.position = o.layout := by
  have hentries : ((rowsOf o.shown).filter o.isVisible).map Row.position =
      (o.shown.placed.filter fun p => o.shows p.address).map fun p => .on p.address := by
    have hvisible : (o.isVisible ∘ fun q : Placed × Nat => Row.ofPlaced q.1 q.2) =
        (fun p : Placed => o.shows p.address) ∘ Prod.fst := rfl
    have hposition : (Row.position ∘ fun q : Placed × Nat => Row.ofPlaced q.1 q.2) =
        (fun p : Placed => Position.on p.address) ∘ Prod.fst := rfl
    rw [rowsOf, List.filter_map, List.map_map, hvisible, hposition, ← List.map_map,
      ← List.filter_map, List.zipIdx_map_fst]
  have hsentinel : o.isVisible o.sentinel = o.showSentinel := rfl
  rw [visible, rows, List.filter_cons, hsentinel, layout]
  rw [Timeline.placed, List.filter_flatMap, List.map_flatMap] at hentries
  simp only [filter_placed] at hentries
  split
  · rw [List.map_cons, hentries]
    rfl
  · rw [hentries]
    rfl

/-! ### What is selected -/

/-- The row that is selected can be seen. -/
def InSight (o : Outline) : Prop :=
  ∀ key, o.selected = some key → ∃ row ∈ o.visible, row.key = key

/-- What a user can see fits together. -/
structure Coherent (o : Outline) : Prop where
  /-- The rows that can be seen are those that what is expanded lays out. -/
  rows : o.visibleRows.map VisibleRow.position = o.layout
  /-- One row at most is flagged as selected. -/
  flagged : ∀ v ∈ o.visibleRows, ∀ v' ∈ o.visibleRows, v.selected = true → v'.selected = true →
    v = v'
  /-- The position that is called selected is that of the flagged row. -/
  selected : ∀ p, o.selectedPosition? = some p ↔
    ∃ v ∈ o.visibleRows, v.selected = true ∧ v.position = p

private theorem mem_visibleRows {v : VisibleRow} :
    v ∈ o.visibleRows ↔ ∃ row i, o.visible[i]? = some row ∧ o.display row i = v := by
  simp [visibleRows, List.mem_map, List.mk_mem_zipIdx_iff_getElem?]

/-- The row that is flagged is the one that is selected. -/
private theorem selected_display {row : Row} {i : Nat} :
    (o.display row i).selected = true ↔ o.selected = some row.key := by
  simp [display]

/-- **While the selected row can be seen, what can be seen fits together.** -/
theorem InSight.coherent (h : o.InSight) (hn : o.shown.Numbered) : o.Coherent where
  rows := by
    have hposition : (VisibleRow.position ∘ fun q : Row × Nat => o.display q.1 q.2) =
        Row.position ∘ Prod.fst := rfl
    rw [visibleRows, List.map_map, hposition, ← List.map_map, List.zipIdx_map_fst,
      map_position_visible]
  flagged := by
    intro v hv v' hv' hsel hsel'
    obtain ⟨row, i, hrow, rfl⟩ := mem_visibleRows.mp hv
    obtain ⟨row', i', hrow', rfl⟩ := mem_visibleRows.mp hv'
    have hkey : row.key = row'.key :=
      Option.some.inj ((selected_display.mp hsel).symm.trans (selected_display.mp hsel'))
    -- no two rows share a key, so the two are one row at one place
    have hnodup : (o.visible.map Row.key).Nodup :=
      (nodup_keys hn).sublist (List.filter_sublist.map _)
    have hplace : i = i' := by
      refine (List.getElem?_inj ?_ hnodup).mp ?_
      · rw [List.length_map]
        exact (List.getElem?_eq_some_iff.mp hrow).1
      · rw [List.getElem?_map, List.getElem?_map, hrow, hrow', Option.map_some, Option.map_some,
          hkey]
    subst hplace
    obtain rfl : row = row' := Option.some.inj (hrow.symm.trans hrow')
    rfl
  selected p := by
    constructor
    · intro hp
      obtain ⟨row, hrow, rfl⟩ := Option.map_eq_some_iff.mp hp
      obtain ⟨key, hkey, hfind⟩ := Option.bind_eq_some_iff.mp hrow
      obtain ⟨row', hmem, hkey'⟩ := h key hkey
      have hrow' := row?_key hn (List.mem_filter.mp hmem).1
      rw [hkey', hfind] at hrow'
      obtain rfl : row = row' := Option.some.inj hrow'
      obtain ⟨i, hi⟩ := List.getElem?_of_mem hmem
      exact ⟨o.display row i, mem_visibleRows.mpr ⟨row, i, hi, rfl⟩,
        selected_display.mpr (hkey'.symm ▸ hkey), rfl⟩
    · rintro ⟨v, hv, hsel, rfl⟩
      obtain ⟨row, i, hrow, rfl⟩ := mem_visibleRows.mp hv
      have hmem : row ∈ o.rows := (List.mem_filter.mp (List.mem_of_getElem? hrow)).1
      rw [selectedPosition?, selected_display.mp hsel, Option.bind_some, row?_key hn hmem]
      rfl

/-- No two rows share a position. -/
theorem key_eq_of_position_eq {row row' : Row} (hrow : row ∈ o.rows) (hrow' : row' ∈ o.rows)
    (h : row.position = row'.position) : row.key = row'.key := by
  obtain rfl | ⟨p, hp, n, rfl⟩ := cases_of_mem_rows hrow <;>
    obtain rfl | ⟨p', hp', n', rfl⟩ := cases_of_mem_rows hrow'
  · rfl
  · cases h
  · cases h
  · have hget := Timeline.get?_of_mem_placed hp
    have haddress : p.address = p'.address := Position.on.inj h
    rw [haddress, Timeline.get?_of_mem_placed hp'] at hget
    exact congrArg (fun e : Entry => RowKey.entry e.id) (Option.some.inj hget).symm

/-- A row is selected exactly if its position is. -/
theorem selectedPosition?_eq_iff (hn : o.shown.Numbered) {row : Row} (hrow : row ∈ o.rows) :
    o.selectedPosition? = some row.position ↔ o.selected = some row.key := by
  constructor
  · intro h
    obtain ⟨row', hbind, hposition⟩ := Option.map_eq_some_iff.mp h
    obtain ⟨key, hkey, hfind⟩ := Option.bind_eq_some_iff.mp hbind
    have hkey' : row'.key = key := by simpa using List.find?_some hfind
    rw [hkey, ← hkey', key_eq_of_position_eq (List.mem_of_find?_eq_some hfind) hrow hposition]
  · intro h
    rw [selectedPosition?, h, Option.bind_some, row?_key hn hrow]
    rfl

/-! ### Rows that stay in sight -/

/-- A row that can be seen still can, as long as the run it is behind the head of is expanded. -/
theorem mem_visible_of {o' : Outline}
    (hframe : o' = { o with expanded := o'.expanded, selected := o'.selected }) {row : Row}
    (h : row ∈ o.visible) (hexpanded : ∀ a, row.position = .on a → a.isChild = true →
      o.isExpanded a.group = true → o'.isExpanded a.group = true) : row ∈ o'.visible := by
  obtain ⟨hmem, hvisible⟩ := List.mem_filter.mp h
  refine List.mem_filter.mpr ⟨?_, ?_⟩
  · rw [hframe]
    exact hmem
  · have hsentinel : o'.showSentinel = o.showSentinel := by rw [hframe]
    unfold isVisible at hvisible ⊢
    split at hvisible
    · rw [hsentinel]
      exact hvisible
    · rfl
    · rename_i a _ hposition
      rcases hchild : a.isChild with _ | _
      · rfl
      · rw [hchild] at hvisible
        exact hexpanded a hposition hchild hvisible

/-- A head can be seen. -/
theorem mem_visible_ofHead {row : Row} (h : row ∈ o.rows)
    (hposition : row.position = .on (.ofHead group)) : row ∈ o.visible := by
  refine List.mem_filter.mpr ⟨h, ?_⟩
  obtain rfl | ⟨p, -, n, rfl⟩ := cases_of_mem_rows h
  · cases hposition
  · have haddress : p.address = .ofHead group := Position.on.inj hposition
    simp [isVisible, Row.ofPlaced, haddress, Address.ofHead, Address.isChild]

end Outline

end UndoJournal
