import UndoJournal.Proofs.Outline.Rows
import UndoJournal.Outline.Edit

/-!
# What commands and gestures do to an outline

Only a rebuild changes the timeline that an outline shows (`shown_of_perform`); neither do the
gestures of a user, whose signals name positions that the outline shows (`Response.Stays`).

`Outline.performAll` sends commands one after the other, up to the first that fails. Where a node is
expanded to, selected and scrolled to, and nothing fails, the outline **presents** it
(`presents_of_performAll`): it is the selection, its row can be seen, and it is on the screen.
-/

namespace UndoJournal

/-- A response that leaves the shown timeline as it is and only speaks of positions in it. -/
structure Response.Stays (r : Response) (o : Outline) : Prop where
  shown : r.outline.shown = o.shown
  positions : ∀ p, .selectionChanged (some p) ∈ r.signals → o.shown.contains p = true

/-- The timeline has the node, or the run, that a command names. -/
def ViewCommand.Possible (t : Timeline) : ViewCommand → Prop
  | .rebuild _ => True
  | .clearSelection => True
  | .select a => t.contains (.on a) = true
  | .expandTo a => t.contains (.on a) = true
  | .scrollTo a => t.contains (.on a) = true
  | .collapseGroup group => ∃ e, t.head? group = some e

/-- What a user can do to the row at a place. -/
inductive Gesture where
  /-- Click the row. -/
  | click (index : Nat)
  /-- Expand the run of the row. -/
  | expand (index : Nat)
  /-- Collapse the run of the row. -/
  | collapse (index : Nat)
  /-- Click the expander of the row. -/
  | toggle (index : Nat)
deriving DecidableEq

namespace Outline

variable {o : Outline} {r : Response} {a : Address} {group : Nat}

private theorem stays_unmoved (o : Outline) : o.unmoved.Stays o := ⟨rfl, by simp [unmoved]⟩

/-! ### Expanding and collapsing -/

/-- Expanding touches nothing but what is expanded. -/
theorem expand_eq (o : Outline) (group : Nat) :
    (o.expand group).2 = { o with expanded := (o.expand group).2.expanded } := by
  unfold expand
  split
  · rfl
  · split <;> rfl

/-- A run is expanded, or it was before and nothing is done. -/
theorem expand_cases (o : Outline) (group : Nat) :
    o.expand group = (false, o) ∨ ∃ o', o.expand group = (true, o') := by
  unfold expand
  split
  · exact .inl rfl
  · split
    · exact .inl rfl
    · exact .inr ⟨_, rfl⟩

/-- Where there is a run, it is expanded after it was expanded. -/
theorem isExpanded_expand {e : Entry} (h : o.shown.head? group = some e) :
    (o.expand group).2.isExpanded group = true := by
  unfold expand
  rw [h]
  dsimp only
  split
  · simpa [isExpanded, h] using ‹o.expanded.contains e.id = true›
  · simp [isExpanded, h]

theorem shut_eq (o : Outline) (group : Nat) :
    (o.shut group).2 = { o with expanded := (o.shut group).2.expanded } := by
  unfold shut
  split <;> rfl

/-- The head of a run that is there has a position. -/
private theorem contains_ofHead {t : Timeline} {e : Entry} (h : t.head? group = some e) :
    t.contains (.on (.ofHead group)) = true := by
  obtain ⟨run, hrun, -⟩ := Option.map_eq_some_iff.mp h
  exact Timeline.get?_isSome_iff.mpr ⟨run, hrun, run.size_pos⟩

/-- Collapsing a run moves the selection to its head at most. -/
theorem stays_collapse (o : Outline) (group : Nat) (source : String) :
    (o.collapse group source).2.Stays o := by
  have hshown : (o.shut group).2.shown = o.shown := by rw [shut_eq]
  unfold collapse
  dsimp only
  split
  · exact ⟨rfl, by simp⟩
  · split
    · rename_i e he
      have hhead : o.shown.contains (.on (.ofHead group)) = true := contains_ofHead (hshown ▸ he)
      split
      · refine ⟨hshown, fun p hp => ?_⟩
        obtain rfl : p = .on (.ofHead group) := by simpa using hp
        exact hhead
      · exact ⟨hshown, by simp⟩
    · exact ⟨hshown, by simp⟩

/-! ### Commands -/

/-- Selecting a node that has a row selects that row. -/
theorem select_eq_ok (h : o.select a = .ok r) :
    ∃ row, o.rowAt? (.on a) = some row ∧ r.outline = { o with selected := some row.key } := by
  unfold select at h
  split at h <;> cases h
  exact ⟨_, ‹_›, rfl⟩

/-- Expanding to a node is expanding its run, if that is what hides it. -/
theorem outline_of_expandTo (h : o.expandTo a = .ok r) :
    r.outline = if a.isChild then (o.expand a.group).2 else o := by
  unfold expandTo at h
  split at h
  · cases h
  · rcases hchild : a.isChild with _ | _ <;> rw [hchild] at h
    · cases h
      rfl
    · obtain hchanged | ⟨o', hchanged⟩ := o.expand_cases a.group <;> rw [hchanged] at h ⊢ <;>
        cases h <;> rfl

/-- What is expanded to is there, so its run has a head. -/
theorem exists_head_of_expandTo (h : o.expandTo a = .ok r) :
    ∃ e, o.shown.head? a.group = some e := by
  unfold expandTo at h
  split at h
  · cases h
  · obtain ⟨hmem, hpos⟩ := of_rowAt?_eq_some ‹_›
    exact exists_head_of_mem_rows hmem hpos

/-- Expanding to a node touches nothing but what is expanded, and nothing hides the node then. -/
theorem expandTo_eq_ok (h : o.expandTo a = .ok r) :
    r.outline = { o with expanded := r.outline.expanded } ∧
      (a.isChild = true → r.outline.isExpanded a.group = true) := by
  rw [outline_of_expandTo h]
  refine ⟨?_, fun hchild => ?_⟩
  · split
    · exact expand_eq o _
    · rfl
  · obtain ⟨e, he⟩ := exists_head_of_expandTo h
    rw [if_pos hchild]
    exact isExpanded_expand he

/-- Scrolling to a node brings its row, or the head that hides it, into the window. -/
theorem scrollTo_eq_ok (h : o.scrollTo a = .ok r) :
    ∃ row, o.rowAt? (.on a) = some row ∧
      ((o.placeOrHead? a row.key = none ∧ r.outline = o) ∨
        ∃ i, o.placeOrHead? a row.key = some i ∧
          r.outline = { o with scrollOffset := o.scrolled i }) := by
  unfold scrollTo at h
  split at h
  · cases h
  · rename_i row hrow
    refine ⟨row, hrow, ?_⟩
    split at h <;> cases h
    · exact .inl ⟨‹_›, rfl⟩
    · exact .inr ⟨_, ‹_›, rfl⟩

/-- A place that is scrolled to is on the screen, if the screen has room for any. -/
private theorem scrolled_le (o : Outline) (i : Nat) (h : 0 < o.viewport) :
    o.scrolled i ≤ i ∧ i < o.scrolled i + o.viewport := by
  unfold scrolled
  rw [if_neg (by omega)]
  split
  · omega
  · split <;> omega

theorem shown_rebuild (o : Outline) (t : Timeline) : (o.rebuild t).outline.shown = t := by
  unfold rebuild
  dsimp only
  split
  · rfl
  · split <;> rfl

/-- **Only a rebuild changes what is shown.** -/
theorem shown_of_perform {c : ViewCommand} (hc : c.op ≠ .rebuild) (h : o.perform c = .ok r) :
    r.outline.shown = o.shown := by
  cases c with
  | rebuild t => exact absurd rfl hc
  | select node =>
    obtain ⟨row, -, hr⟩ := select_eq_ok h
    rw [hr]
  | clearSelection =>
    cases h
    rfl
  | expandTo node => rw [(expandTo_eq_ok h).1]
  | collapseGroup group =>
    simp only [perform, collapseGroup] at h
    split at h <;> cases h
    exact (stays_collapse o group "sync").shown
  | scrollTo node =>
    obtain ⟨row, -, ⟨-, hr⟩ | ⟨i, -, hr⟩⟩ := scrollTo_eq_ok h <;> rw [hr]

/-- Commands one after the other, up to the first that fails. -/
def performAll (o : Outline) : List ViewCommand → Except ViewError Outline
  | [] => .ok o
  | c :: cs =>
    match o.perform c with
    | .error e => .error e
    | .ok r => r.outline.performAll cs

theorem performAll_cons_eq_ok {o' : Outline} {c : ViewCommand} {cs : List ViewCommand} :
    o.performAll (c :: cs) = .ok o' ↔
      ∃ r, o.perform c = .ok r ∧ r.outline.performAll cs = .ok o' := by
  rw [performAll]
  cases o.perform c <;> simp

theorem performAll_append_eq_ok {o' : Outline} {cs cs' : List ViewCommand} :
    o.performAll (cs ++ cs') = .ok o' ↔
      ∃ o'', o.performAll cs = .ok o'' ∧ o''.performAll cs' = .ok o' := by
  induction cs generalizing o with
  | nil => simp [performAll]
  | cons c cs ih =>
    rw [List.cons_append, performAll_cons_eq_ok]
    constructor
    · rintro ⟨r, hr, h⟩
      obtain ⟨o'', h', h''⟩ := ih.mp h
      exact ⟨o'', performAll_cons_eq_ok.mpr ⟨r, hr, h'⟩, h''⟩
    · rintro ⟨o'', h, h''⟩
      obtain ⟨r, hr, h'⟩ := performAll_cons_eq_ok.mp h
      exact ⟨r, hr, ih.mpr ⟨o'', h', h''⟩⟩

theorem shown_of_performAll {o' : Outline} {cs : List ViewCommand}
    (hcs : ∀ c ∈ cs, c.op ≠ .rebuild) (h : o.performAll cs = .ok o') : o'.shown = o.shown := by
  induction cs generalizing o with
  | nil =>
    cases h
    rfl
  | cons c cs ih =>
    obtain ⟨r, hr, h'⟩ := performAll_cons_eq_ok.mp h
    rw [ih (fun c' hc' => hcs c' (List.mem_cons_of_mem _ hc')) h']
    exact shown_of_perform (hcs c List.mem_cons_self) hr

/-! ### What can be done -/

/-- **What is possible is done.** -/
theorem exists_perform {c : ViewCommand} (h : c.Possible o.shown) : ∃ r, o.perform c = .ok r := by
  cases c with
  | rebuild t => exact ⟨_, rfl⟩
  | clearSelection => exact ⟨_, rfl⟩
  | select a =>
    obtain ⟨row, hrow⟩ := exists_rowAt? h
    simp [perform, select, hrow]
  | expandTo a =>
    obtain ⟨row, hrow⟩ := exists_rowAt? h
    simp only [perform, expandTo, hrow]
    split
    · exact ⟨_, rfl⟩
    · split <;> exact ⟨_, rfl⟩
  | scrollTo a =>
    obtain ⟨row, hrow⟩ := exists_rowAt? h
    simp only [perform, scrollTo, hrow]
    split <;> exact ⟨_, rfl⟩
  | collapseGroup group =>
    obtain ⟨e, he⟩ := h
    simp [perform, collapseGroup, he]

/-- Commands that are possible are all done, as long as none of them shows another timeline. -/
theorem exists_performAll {t : Timeline} {cs : List ViewCommand} (ho : o.shown = t)
    (hcs : ∀ c ∈ cs, c.op ≠ .rebuild ∧ c.Possible t) : ∃ o', o.performAll cs = .ok o' := by
  induction cs generalizing o with
  | nil => exact ⟨o, rfl⟩
  | cons c cs ih =>
    obtain ⟨hop, hc⟩ := hcs c List.mem_cons_self
    obtain ⟨r, hr⟩ := exists_perform (ho ▸ hc)
    obtain ⟨o', ho'⟩ := ih ((shown_of_perform hop hr).trans ho)
      fun c' hc' => hcs c' (List.mem_cons_of_mem _ hc')
    exact ⟨o', performAll_cons_eq_ok.mpr ⟨r, hr, ho'⟩⟩

/-! ### Presenting a position -/

/-- A position is presented: it is the selection, and the row of a node can be seen and, if it was
scrolled to, is on the screen. The start is presented by no selection. -/
structure Presents (o : Outline) (p : Position) (scroll : Bool) : Prop where
  selected : o.selectedPosition? = p.address?.map .on
  visible : ∀ a, p = .on a → ∃ i v, o.visibleRows[i]? = some v ∧ v.position = .on a ∧
    v.selected = true ∧
    (scroll = true → 0 < o.viewport → o.scrollOffset ≤ i ∧ i < o.scrollOffset + o.viewport)

/-- The row of a node can be seen once its run is expanded. -/
private theorem isVisible_of_rowAt? {row : Row} (hrow : o.rowAt? (.on a) = some row)
    (hexp : a.isChild = true → o.isExpanded a.group = true) : o.isVisible row = true := by
  obtain ⟨hmem, hpos⟩ := of_rowAt?_eq_some hrow
  obtain rfl | ⟨p, -, n, rfl⟩ := cases_of_mem_rows hmem
  · cases hpos
  · cases hpos
    rcases hc : p.address.isChild with _ | _
    · simp [isVisible, Row.ofPlaced, hc]
    · simp [isVisible, Row.ofPlaced, hexp hc]

/-- What is selected and can be seen is presented, once it was scrolled to. -/
private theorem presents_of_selected {row : Row} {scroll : Bool} (hn : o.shown.Numbered)
    (hrow : o.rowAt? (.on a) = some row) (hsel : o.selected = some row.key)
    (hexp : a.isChild = true → o.isExpanded a.group = true)
    (hscroll : ∀ i, scroll = true → o.visibleIndex? row.key = some i → 0 < o.viewport →
      o.scrollOffset ≤ i ∧ i < o.scrollOffset + o.viewport) : o.Presents (.on a) scroll := by
  obtain ⟨hmem, hpos⟩ := of_rowAt?_eq_some hrow
  obtain ⟨i, hindex, hi⟩ := visibleIndex?_key hn hmem (isVisible_of_rowAt? hrow hexp)
  refine ⟨?_, ?_⟩
  · rw [selectedPosition?, hsel, Option.bind_some, row?_key hn hmem, Option.map_some, hpos]
    rfl
  · intro a' ha'
    cases ha'
    refine ⟨i, o.display row i, ?_, hpos, ?_, fun hs => hscroll i hs hindex⟩
    · simp [visibleRows, List.getElem?_map, List.getElem?_zipIdx, hi]
    · simp [display, hsel]

/-- Before it is scrolled to, a node is selected by its row, which nothing hides any more. -/
theorem exists_selected_of_performAll {o' : Outline} {scroll : Bool}
    (h : o.performAll ([.expandTo a, .select a] ++ if scroll then [.scrollTo a] else []) =
      .ok o') :
    ∃ (o₁ : Outline) (row : Row), o₁.performAll (if scroll then [.scrollTo a] else []) = .ok o' ∧
      o₁.shown = o.shown ∧ o₁.rowAt? (.on a) = some row ∧ o₁.selected = some row.key ∧
      (a.isChild = true → o₁.isExpanded a.group = true) := by
  obtain ⟨o₁, h₁, hscroll⟩ := performAll_append_eq_ok.mp h
  obtain ⟨r, hexpand, h₁⟩ := performAll_cons_eq_ok.mp h₁
  obtain ⟨r₁, hselect, h₁⟩ := performAll_cons_eq_ok.mp h₁
  obtain ⟨heq, hexp⟩ := expandTo_eq_ok hexpand
  obtain ⟨row, hrow, heq₁⟩ := select_eq_ok hselect
  obtain rfl : r₁.outline = o₁ := Except.ok.inj h₁
  refine ⟨r₁.outline, row, hscroll, ?_, ?_, ?_, ?_⟩ <;> rw [heq₁]
  · rw [heq]
  · exact hrow
  · exact hexp

/-- **What is expanded to, selected and scrolled to is presented**, where nothing failed. -/
theorem presents_of_performAll {o' : Outline} {scroll : Bool} (hn : o.shown.Numbered)
    (h : o.performAll ([.expandTo a, .select a] ++ if scroll then [.scrollTo a] else []) =
      .ok o') : o'.Presents (.on a) scroll := by
  obtain ⟨o₁, row, hrest, hshown, hrow, hsel, hexp⟩ := exists_selected_of_performAll h
  have hn₁ : o₁.shown.Numbered := hshown ▸ hn
  cases scroll with
  | false =>
    obtain rfl : o₁ = o' := Except.ok.inj hrest
    exact presents_of_selected hn₁ hrow hsel hexp nofun
  | true =>
    obtain ⟨r, hscroll, hr⟩ := performAll_cons_eq_ok.mp hrest
    obtain rfl : r.outline = o' := Except.ok.inj hr
    obtain ⟨row', hrow', hplace⟩ := scrollTo_eq_ok hscroll
    obtain rfl : row = row' := Option.some.inj (hrow.symm.trans hrow')
    obtain ⟨i, hindex, -⟩ := visibleIndex?_key hn₁ (of_rowAt?_eq_some hrow).1
      (isVisible_of_rowAt? hrow hexp)
    -- the row can be seen, so it is the row itself that is scrolled to
    obtain ⟨hnone, -⟩ | ⟨i', hsome, heq⟩ := hplace
    · simp [placeOrHead?, hindex] at hnone
    · obtain rfl : i = i' := by simpa [placeOrHead?, hindex] using hsome
      rw [heq]
      refine presents_of_selected hn₁ hrow hsel hexp fun i' _ hindex' hv => ?_
      obtain rfl : i = i' := Option.some.inj (hindex.symm.trans hindex')
      exact o₁.scrolled_le i hv

/-- **The start is presented by selecting nothing.** -/
theorem presents_clearSelection (o : Outline) (scroll : Bool) :
    o.clearSelection.outline.Presents .start scroll :=
  ⟨rfl, nofun⟩

/-! ### Gestures -/

/-- What a gesture comes to, and whether an expander changed something. -/
def respond (o : Outline) : Gesture → Except ViewError (Bool × Response)
  | .click index => (o.click index).map fun r => (false, r)
  | .expand index => o.expandRow index
  | .collapse index => o.collapseRow index
  | .toggle index => o.toggleRow index

/-- A click selects the row at its place. -/
theorem click_eq_ok {index : Nat} (h : o.click index = .ok r) :
    ∃ row, o.visible[index]? = some row ∧ r.outline = { o with selected := some row.key } ∧
      r.signals = (o.choose row).1 := by
  unfold click at h
  split at h <;> cases h
  exact ⟨_, ‹_›, rfl, rfl⟩

/-- A user who expands a row expands a run, or changes nothing. -/
theorem expandRow_eq_ok {index : Nat} {changed : Bool} (h : o.expandRow index = .ok (changed, r)) :
    r = o.unmoved ∨ ∃ group, r.outline = (o.expand group).2 ∧
      r.signals = if (o.expand group).1 then [.rowExpanded group] else [] := by
  unfold expandRow at h
  split at h <;> cases h
  · exact .inl rfl
  · exact .inr ⟨_, rfl, rfl⟩

/-- A user who collapses a row collapses a run, or changes nothing. -/
theorem collapseRow_eq_ok {index : Nat} {changed : Bool}
    (h : o.collapseRow index = .ok (changed, r)) :
    r = o.unmoved ∨ ∃ group, r = (o.collapse group "user").2 := by
  unfold collapseRow at h
  split at h
  · cases h
  · cases h
    exact .inl rfl
  · exact .inr ⟨_, (congrArg Prod.snd (Except.ok.inj h)).symm⟩

/-- **A gesture is a click, or it expands or collapses a row**: an expander that is clicked does one
of the two. -/
theorem respond_eq_ok {g : Gesture} {changed : Bool} (h : o.respond g = .ok (changed, r)) :
    ∃ index, o.click index = .ok r ∨ o.expandRow index = .ok (changed, r) ∨
      o.collapseRow index = .ok (changed, r) := by
  cases g with
  | click index =>
    simp only [respond] at h
    rcases hclick : o.click index with e | r' <;> rw [hclick] at h <;> cases h
    exact ⟨index, .inl hclick⟩
  | expand index => exact ⟨index, .inr (.inl h)⟩
  | collapse index => exact ⟨index, .inr (.inr h)⟩
  | toggle index =>
    refine ⟨index, .inr ?_⟩
    simp only [respond, toggleRow] at h
    split at h
    · cases h
    · rename_i hnone
      exact .inl (by rw [expandRow, hnone, ← h])
    · split at h
      · exact .inr h
      · exact .inl h

/-- A click speaks of the row that was clicked. -/
theorem stays_click {index : Nat} (h : o.click index = .ok r) : r.Stays o := by
  obtain ⟨row, hrow, houtline, hsignals⟩ := click_eq_ok h
  refine ⟨by rw [houtline], fun p hp => ?_⟩
  simp only [hsignals, choose] at hp
  split at hp
  · simp at hp
  · obtain rfl : p = row.position := by simpa using hp
    exact contains_of_mem_rows (List.mem_filter.mp (List.mem_of_getElem? hrow)).1

theorem stays_expandRow {index : Nat} {changed : Bool} (h : o.expandRow index = .ok (changed, r)) :
    r.Stays o := by
  obtain rfl | ⟨group, houtline, hsignals⟩ := expandRow_eq_ok h
  · exact stays_unmoved o
  · refine ⟨by rw [houtline, expand_eq], fun p hp => ?_⟩
    rw [hsignals] at hp
    split at hp <;> simp at hp

theorem stays_collapseRow {index : Nat} {changed : Bool}
    (h : o.collapseRow index = .ok (changed, r)) : r.Stays o := by
  obtain rfl | ⟨group, rfl⟩ := collapseRow_eq_ok h
  · exact stays_unmoved o
  · exact stays_collapse o group "user"

theorem stays_respond {g : Gesture} {changed : Bool} (h : o.respond g = .ok (changed, r)) :
    r.Stays o := by
  obtain ⟨index, h | h | h⟩ := respond_eq_ok h
  · exact stays_click h
  · exact stays_expandRow h
  · exact stays_collapseRow h

end Outline

end UndoJournal
