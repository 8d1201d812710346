import UndoJournal.Proofs.Outline.Layout

/-!
# What a user can do

What a gesture comes to is one of four things (`Outline.Acts`): there is no such row; the row is
clicked; it has no expander; or its expander turns the run one way or the other, which is told
exactly if that changes anything (`acts_respond`).

**No gesture hides the selected row** (`InSight.of_respond`): collapsing a run moves a selection
that would be hidden to the head.
-/

namespace UndoJournal

/-! ### Gestures -/

namespace Gesture

/-- The place of the row. -/
def index : Gesture → Nat
  | click index | expand index | collapse index | toggle index => index

/-- Whether it is the expander of the row that is used. -/
def usesExpander : Gesture → Bool
  | click _ => false
  | expand _ | collapse _ | toggle _ => true

/-- Whether the run is to be expanded afterwards, given whether it was. -/
def wants : Gesture → Bool → Bool
  | click _, expanded => expanded
  | expand _, _ => true
  | collapse _, _ => false
  | toggle _, expanded => !expanded

end Gesture

namespace Outline

variable {o : Outline} {r : Response} {group : Nat} {changed : Bool}

/-- What a click comes to: the row is selected, and that is told if another one was. -/
structure Clicked (o : Outline) (row : Row) (r : Response) : Prop where
  outline : r.outline = { o with selected := r.outline.selected }
  selected : r.outline.selectedPosition? = some row.position
  signals : r.signals = if o.selectedPosition? = some row.position then []
    else [.selectionChanged (some row.position)]

/-- What using the expander of a run comes to: the run is expanded or not, as was wanted, and other
runs are as they were. If that changed something, that is told; otherwise nothing is. -/
structure Turned (o : Outline) (group : Nat) (wanted changed : Bool) (r : Response) : Prop where
  outline : r.outline = { o with expanded := r.outline.expanded, selected := r.outline.selected }
  expanded : r.outline.isExpanded group = wanted
  others : ∀ g, g ≠ group → r.outline.isExpanded g = o.isExpanded g
  news : changed = true ↔ r.outline.isExpanded group ≠ o.isExpanded group
  /-- A selection that can be seen still can. -/
  inSight : o.InSight → r.outline.InSight
  idle : changed = false → r.outline = o ∧ r.signals = []
  opened : changed = true → wanted = true → o.Opened group r
  closed : changed = true → wanted = false → o.Closed group r

/-- The four ways in which a gesture goes: its row is missing, is clicked, has no expander, or has
its expander used. -/
inductive Acts (o : Outline) : Gesture → Except ViewError (Bool × Response) → Prop where
  /-- There is no such row. -/
  | missing {g : Gesture} (h : o.visible.length ≤ g.index) :
    Acts o g (.error (.noVisibleRow g.index))
  /-- A row is clicked. -/
  | click {index : Nat} {row : Row} {r : Response} (hrow : o.visible[index]? = some row)
    (hclicked : o.Clicked row r) : Acts o (.click index) (.ok (false, r))
  /-- The row has no expander. -/
  | leaf {g : Gesture} {row : Row} {r : Response} (hg : g.usesExpander = true)
    (hrow : o.visible[g.index]? = some row) (hleaf : row.isChild = true ∨ row.childCount = 0)
    (houtline : r.outline = o) (hsignals : r.signals = []) : Acts o g (.ok (false, r))
  /-- The expander of the row is used. -/
  | turn {g : Gesture} {row : Row} {group : Nat} {changed : Bool} {r : Response}
    (hg : g.usesExpander = true) (hrow : o.visible[g.index]? = some row)
    (hcount : row.childCount ≠ 0) (hposition : row.position = .on (.ofHead group))
    (hturned : o.Turned group (g.wants (o.isExpanded group)) changed r) :
    Acts o g (.ok (changed, r))

/-! ### Clicks -/

private theorem clicked_of_visible (hn : o.shown.Numbered) {index : Nat} {row : Row}
    (hrow : o.visible[index]? = some row) :
    ∃ r, o.respond (.click index) = .ok (false, r) ∧ o.Clicked row r := by
  obtain ⟨r, hclick, houtline, hsignals⟩ := click_of_visible hrow
  have hmem : row ∈ o.rows := (List.mem_filter.mp (List.mem_of_getElem? hrow)).1
  refine ⟨r, by rw [respond, hclick]; rfl, by rw [houtline], ?_, ?_⟩
  · rw [houtline]
    exact selectedPosition?_of_key hn hmem
  · rw [hsignals]
    simp only [selectedPosition?_eq_iff hn hmem]

/-! ### Expanders -/

/-- Expanding a run that is there changes something unless it is expanded. -/
private theorem expand_fst {e : Entry} (h : o.shown.head? group = some e) :
    (o.expand group).1 = !o.isExpanded group := by
  unfold expand isExpanded
  rw [h]
  dsimp only
  split <;> simp_all

private theorem turned_expand (hn : o.shown.Numbered) {e : Entry}
    (he : o.shown.head? group = some e)
    (notes : List Note) : o.Turned group true (o.expand group).1
      ⟨(o.expand group).2, notes, if (o.expand group).1 then [.rowExpanded group] else []⟩ := by
  have hiff : ∀ g, (o.expand group).2.isExpanded g = true ↔ o.isExpanded g = true ∨ g = group :=
    fun g => isExpanded_expand_iff hn he
  have hexpanded : (o.expand group).2.isExpanded group = true := isExpanded_expand he
  refine ⟨by rw [expand_eq], hexpanded, fun g hg => ?_, ?_, fun hsight key hkey => ?_,
    fun hsame => ?_, fun hchanged _ => ⟨expand_eq o group, hiff, by rw [if_pos hchanged]⟩,
    fun _ => nofun⟩
  · rw [Bool.eq_iff_iff, hiff]
    simp [hg]
  · rw [hexpanded, expand_fst he]
    cases o.isExpanded group <;> simp
  · dsimp only at hkey ⊢
    rw [expand_eq] at hkey
    obtain ⟨row, hrow, rfl⟩ := hsight key hkey
    exact ⟨row, mem_visible_of (by rw [expand_eq]) hrow fun a _ _ hexp => (hiff _).mpr (.inl hexp),
      rfl⟩
  · obtain h | ⟨o', h⟩ := o.expand_cases group
    · simp [h]
    · cases hsame.symm.trans (congrArg Prod.fst h)

/-- Collapsing touches nothing but what is expanded and selected. -/
private theorem outline_collapse (o : Outline) (group : Nat) (source : String) :
    (o.collapse group source).2.outline = { o with
      expanded := (o.collapse group source).2.outline.expanded
      selected := (o.collapse group source).2.outline.selected } := by
  unfold collapse
  dsimp only
  split
  · rfl
  · split
    · split <;> rw [shut_eq]
    · rw [shut_eq]

/-- Collapsing a run changes something if it is expanded. -/
private theorem collapse_fst {e : Entry} (he : o.shown.head? group = some e) (source : String) :
    (o.collapse group source).1 = o.isExpanded group := by
  rcases hexp : o.isExpanded group with _ | _
  · have hcontains : o.expanded.contains e.id = false := by simpa [isExpanded, he] using hexp
    simp only [collapse, shut, he, hcontains, Bool.not_false, if_true]
  · obtain ⟨e, -, hcollapse⟩ := collapse_of_isExpanded hexp source
    rw [hcollapse]

/-- **Collapsing a run hides no selection**: one that would be hidden moves to the head. -/
theorem inSight_collapse (hn : o.shown.Numbered) {run : Run}
    (hrun : o.shown.runs[group]? = some run) (source : String) (h : o.InSight) :
    (o.collapse group source).2.outline.InSight := by
  have hframe := outline_collapse o group source
  have hiff : ∀ g, (o.collapse group source).2.outline.isExpanded g = true ↔
      o.isExpanded g = true ∧ g ≠ group := fun g => isExpanded_collapse_iff hn group source
  obtain ⟨-, hidle, -⟩ | ⟨hchanged, -⟩ := collapse_cases hn hrun source
  · rw [hidle]
    exact h
  rw [collapse_fst (Timeline.head?_of_getElem? hrun)] at hchanged
  obtain ⟨e, he, hcollapse⟩ := collapse_of_isExpanded hchanged source
  obtain rfl : run.head = e := Option.some.inj ((Timeline.head?_of_getElem? hrun).symm.trans he)
  intro key hkey
  rcases hinside : o.selectsInside group with _ | _
  · -- the selected row is behind no head of that run, so it can still be seen
    rw [hcollapse, hinside, if_neg Bool.false_ne_true] at hkey
    dsimp only at hkey
    rw [shut_eq] at hkey
    obtain ⟨row, hrow, rfl⟩ := h key hkey
    refine ⟨row, mem_visible_of hframe hrow fun a hposition hchild hexp => ?_, rfl⟩
    refine (hiff _).mpr ⟨hexp, fun hgroup => ?_⟩
    have hselected := (selectedPosition?_eq_iff hn (List.mem_filter.mp hrow).1).mpr hkey
    rcases a with ⟨g, _ | i⟩
    · cases hchild
    · obtain rfl : g = group := hgroup
      have hselects := selectsInside_iff.mpr ⟨i, hselected.trans (congrArg some hposition)⟩
      cases hinside.symm.trans hselects
  · -- the selection moved to the head, which nothing hides
    rw [hcollapse, hinside, if_pos rfl] at hkey
    obtain rfl : .entry run.head.id = key := Option.some.inj hkey
    obtain ⟨row, hfind, hposition⟩ := Option.map_eq_some_iff.mp (selectedPosition?_of_head hn hrun)
    have hfind : o.row? (.entry run.head.id) = some row := hfind
    have hvisible := mem_visible_ofHead (List.mem_of_find?_eq_some hfind) hposition
    refine ⟨row, mem_visible_of hframe hvisible fun a ha hchild _ => ?_,
      by simpa using List.find?_some hfind⟩
    rw [hposition] at ha
    cases ha
    cases hchild

private theorem turned_collapse (hn : o.shown.Numbered) {run : Run}
    (hrun : o.shown.runs[group]? = some run)
    (source : String) :
    o.Turned group false (o.collapse group source).1 (o.collapse group source).2 := by
  have hiff : ∀ g, (o.collapse group source).2.outline.isExpanded g = true ↔
      o.isExpanded g = true ∧ g ≠ group := fun g => isExpanded_collapse_iff hn group source
  have hcollapsed : (o.collapse group source).2.outline.isExpanded group = false := by
    rw [Bool.eq_false_iff, Ne, hiff]
    exact fun h => h.2 rfl
  refine ⟨outline_collapse o group source, hcollapsed, fun g hg => ?_, ?_,
    inSight_collapse hn hrun source, fun hsame => ?_, fun _ => nofun, fun hchanged _ => ?_⟩
  · rw [Bool.eq_iff_iff, hiff]
    simp [hg]
  · rw [hcollapsed, collapse_fst (Timeline.head?_of_getElem? hrun)]
    cases o.isExpanded group <;> simp
  · obtain ⟨-, hidle⟩ | ⟨hchanged, -⟩ := collapse_cases hn hrun source
    · exact hidle
    · cases hsame.symm.trans hchanged
  · obtain ⟨hsame, -⟩ | ⟨-, hclosed⟩ := collapse_cases hn hrun source
    · cases hsame.symm.trans hchanged
    · exact hclosed

variable {index : Nat}

private theorem exists_expandRow (hn : o.shown.Numbered)
    (h : o.expander? index = .ok (some group)) :
    ∃ changed r, o.expandRow index = .ok (changed, r) ∧ o.Turned group true changed r := by
  obtain ⟨run, hheads⟩ := heads_of_expander? h
  refine ⟨_, _, ?_, turned_expand hn hheads.head
    [toggleNote "expand" "user" index (o.expand group).1]⟩
  simp only [expandRow, h]

private theorem exists_collapseRow (hn : o.shown.Numbered)
    (h : o.expander? index = .ok (some group)) :
    ∃ changed r, o.collapseRow index = .ok (changed, r) ∧ o.Turned group false changed r := by
  obtain ⟨run, hheads⟩ := heads_of_expander? h
  exact ⟨_, _, by simp only [collapseRow, h], turned_collapse hn hheads.listed "user"⟩

/-- Using the expander of a row that has one turns its run. -/
private theorem exists_respond (hn : o.shown.Numbered) {g : Gesture} (hg : g.usesExpander = true)
    (h : o.expander? g.index = .ok (some group)) : ∃ changed r,
      o.respond g = .ok (changed, r) ∧ o.Turned group (g.wants (o.isExpanded group)) changed r := by
  cases g with
  | click index => cases hg
  | expand index => exact exists_expandRow hn h
  | collapse index => exact exists_collapseRow hn h
  | toggle index =>
    have h : o.expander? index = .ok (some group) := h
    simp only [respond, toggleRow, h, Gesture.wants]
    rcases o.isExpanded group with _ | _
    · exact exists_expandRow hn h
    · exact exists_collapseRow hn h

/-- Using the expander of a row that has none does nothing, and one that is not there is missed. -/
private theorem respond_of_expander? {g : Gesture} (hg : g.usesExpander = true) :
    (∀ e, o.expander? g.index = .error e → o.respond g = .error e) ∧
      (o.expander? g.index = .ok none → o.respond g = .ok (false, o.unmoved)) := by
  cases g with
  | click index => cases hg
  | expand index =>
    exact ⟨fun e h => by simp only [respond, expandRow, show o.expander? index = _ from h],
      fun h => by simp only [respond, expandRow, show o.expander? index = _ from h]⟩
  | collapse index =>
    exact ⟨fun e h => by simp only [respond, collapseRow, show o.expander? index = _ from h],
      fun h => by simp only [respond, collapseRow, show o.expander? index = _ from h]⟩
  | toggle index =>
    exact ⟨fun e h => by simp only [respond, toggleRow, show o.expander? index = _ from h],
      fun h => by simp only [respond, toggleRow, show o.expander? index = _ from h]⟩

/-- Which rows have an expander. -/
private theorem expander?_of_visible {row : Row} (hrow : o.visible[index]? = some row) :
    (row.isChild = true ∨ row.childCount = 0) ∧ o.expander? index = .ok none ∨
      row.childCount ≠ 0 ∧
        ∃ group, o.expander? index = .ok (some group) ∧ row.position = .on (.ofHead group) := by
  have hexpander : o.expander? index =
      .ok (if row.isChild || row.childCount == 0 then none else row.position.group?) := by
    unfold expander?
    rw [hrow]
  by_cases hleaf : row.isChild = true ∨ row.childCount = 0
  · exact .inl ⟨hleaf, by rw [hexpander, if_pos (by simpa using hleaf)]⟩
  · rw [if_neg (by simpa using hleaf)] at hexpander
    obtain ⟨-, hcount⟩ := not_or.mp hleaf
    rcases hposition : row.position with _ | a
    · -- of all rows only the sentinel is in front, and it has nothing behind it
      obtain rfl | ⟨p, -, n, rfl⟩ :=
        cases_of_mem_rows (List.mem_filter.mp (List.mem_of_getElem? hrow)).1
      · exact absurd rfl hcount
      · cases hposition
    · rw [hposition] at hexpander
      obtain ⟨run, ⟨row', hrow', hposition'⟩, -, -⟩ := heads_of_expander? hexpander
      obtain rfl : row = row' := Option.some.inj (hrow.symm.trans hrow')
      exact .inr ⟨hcount, a.group, hexpander, hposition.symm.trans hposition'⟩

/-- **What a gesture comes to.** -/
theorem acts_respond (hn : o.shown.Numbered) (g : Gesture) : o.Acts g (o.respond g) := by
  rcases hg : g.usesExpander with _ | _
  · cases g with
    | click index =>
      rcases hrow : o.visible[index]? with _ | row
      · have hmissing : o.respond (.click index) = .error (.noVisibleRow index) := by
          simp only [respond, click, hrow]
          rfl
        rw [hmissing]
        exact .missing (List.getElem?_eq_none_iff.mp hrow)
      · obtain ⟨r, hrespond, hclicked⟩ := clicked_of_visible hn hrow
        rw [hrespond]
        exact .click hrow hclicked
    | expand | collapse | toggle => cases hg
  · obtain ⟨hmissing, hleaf⟩ := respond_of_expander? (o := o) hg
    rcases hrow : o.visible[g.index]? with _ | row
    · have herror : o.expander? g.index = .error (.noVisibleRow g.index) := by
        unfold expander?
        rw [hrow]
      rw [hmissing _ herror]
      exact .missing (List.getElem?_eq_none_iff.mp hrow)
    · obtain ⟨hcount, hnone⟩ | ⟨hcount, group, hsome, hposition⟩ := expander?_of_visible hrow
      · rw [hleaf hnone]
        exact .leaf hg hrow hcount rfl rfl
      · obtain ⟨changed, r, hrespond, hturned⟩ := exists_respond hn hg hsome
        rw [hrespond]
        exact .turn hg hrow hcount hposition hturned

/-- A click leaves the selection in sight. -/
private theorem Clicked.inSight (hn : o.shown.Numbered) {row : Row} (h : o.Clicked row r)
    (hrow : row ∈ o.visible) : r.outline.InSight := by
  have hvisible : r.outline.visible = o.visible := by
    rw [h.outline]
    rfl
  have hn' : r.outline.shown.Numbered := by
    rw [h.outline]
    exact hn
  have hselected : r.outline.selected = some row.key :=
    (selectedPosition?_eq_iff hn' (List.mem_filter.mp (hvisible ▸ hrow)).1).mp h.selected
  intro key hkey
  obtain rfl : row.key = key := Option.some.inj (hselected.symm.trans hkey)
  exact ⟨row, hvisible ▸ hrow, rfl⟩

/-- **No gesture hides the selected row**, or shows another timeline. -/
theorem InSight.of_respond (h : o.InSight) (hn : o.shown.Numbered) {g : Gesture}
    (hr : o.respond g = .ok (changed, r)) : r.outline.InSight ∧ r.outline.shown = o.shown := by
  have hacts := acts_respond hn g
  rw [hr] at hacts
  cases hacts with
  | click hrow hclicked =>
    refine ⟨hclicked.inSight hn (List.mem_of_getElem? hrow), ?_⟩
    rw [hclicked.outline]
  | leaf _ _ _ houtline _ =>
    rw [houtline]
    exact ⟨h, rfl⟩
  | turn _ _ _ _ hturned =>
    refine ⟨hturned.inSight h, ?_⟩
    rw [hturned.outline]

end Outline

end UndoJournal
