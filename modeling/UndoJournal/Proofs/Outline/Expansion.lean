import UndoJournal.Proofs.Outline.Commands
import UndoJournal.Proofs.Timeline.Runs

/-!
# What is expanded

An outline marks expanded runs by the identities of their heads, and is told of runs by their
indices. What commands do to the marks is settled by the two together, whatever else is marked:
**a mark goes exactly if the run that is collapsed has that head, and comes exactly if the node that
is expanded to is behind it** (`Outline.mem_expanded_perform`).

A push first collapses runs and then expands to one node at most, so the marks that it leaves can be
read off its commands (`Outline.mem_expanded_performAll`). Where identities rise, the heads of two
runs are told apart by them, so the same holds of the runs (`Outline.isExpanded_of_performAll`):
expanded are those that were and are not collapsed, and that of a child that is expanded to.
-/

namespace UndoJournal

/-- A command takes no mark away: it neither shows another timeline nor collapses a run. -/
def ViewCommand.Gentle (c : ViewCommand) : Prop :=
  c.op ≠ .rebuild ∧ ∀ group, c ≠ .collapseGroup group

/-- The run at an index is headed by the entry of that identity. -/
def Timeline.HeadedBy (t : Timeline) (group : Nat) (id : EntryId) : Prop :=
  ∃ e, t.head? group = some e ∧ e.id = id

/-- Some entry has that identity. -/
def Timeline.Has (t : Timeline) (id : EntryId) : Prop := ∃ e ∈ t.toList, e.id = id

namespace Timeline

variable {t : Timeline} {group : Nat} {run : Run} {id : EntryId}

theorem headedBy_of_getElem? (h : t.runs[group]? = some run) : t.HeadedBy group run.head.id :=
  ⟨run.head, head?_of_getElem? h, rfl⟩

private theorem headedBy_iff_of_head? {e : Entry} (h : t.head? group = some e) :
    t.HeadedBy group id ↔ id = e.id := by
  simp [HeadedBy, h, eq_comm]

/-- The head of a run is an entry. -/
theorem HeadedBy.has (h : t.HeadedBy group id) : t.Has id := by
  obtain ⟨e, he, hid⟩ := h
  exact ⟨e, mem_toList_of_head? he, hid⟩

/-- Runs are told apart by the identities of their heads. -/
theorem HeadedBy.unique (hn : t.Numbered) {group' : Nat} (h : t.HeadedBy group id)
    (h' : t.HeadedBy group' id) : group = group' := by
  obtain ⟨e, he, rfl⟩ := h
  obtain ⟨e', he', hid⟩ := h'
  exact hn.group_unique he he' hid.symm

end Timeline

namespace Outline

variable {o o' : Outline} {r : Response} {id : EntryId} {group : Nat} {c : ViewCommand}

/-! ### Which heads are marked -/

/-- Showing another timeline expands nothing, and forgets what is not there. -/
theorem mem_expanded_rebuild {t : Timeline} :
    id ∈ (o.rebuild t).outline.expanded ↔ id ∈ o.expanded ∧ ∃ e ∈ t.toList, e.id = id := by
  have h : (o.rebuild t).outline.expanded =
      o.expanded.filter fun id => (t.toList.map Entry.id).contains id := by
    unfold rebuild
    dsimp only
    split
    · rfl
    · split <;> rfl
  simp [h]

/-- Expanding a run marks its head, and no other. -/
theorem mem_expanded_expand_iff :
    id ∈ (o.expand group).2.expanded ↔ id ∈ o.expanded ∨ o.shown.HeadedBy group id := by
  unfold expand
  rcases he : o.shown.head? group with _ | e
  · simp [Timeline.HeadedBy, he]
  · rw [Timeline.headedBy_iff_of_head? he]
    dsimp only
    split
    · -- the head is marked already
      refine (or_iff_left_of_imp ?_).symm
      rintro rfl
      simpa using ‹o.expanded.contains e.id = true›
    · simp

/-- Shutting a run takes the mark of its head away, and no other. -/
private theorem mem_expanded_shut_iff :
    id ∈ (o.shut group).2.expanded ↔ id ∈ o.expanded ∧ ¬ o.shown.HeadedBy group id := by
  unfold shut
  rcases he : o.shown.head? group with _ | e
  · simp [Timeline.HeadedBy, he]
  · simp [Timeline.headedBy_iff_of_head? he]

/-- Collapsing a run takes the mark of its head away, and no other. -/
theorem mem_expanded_collapse_iff {source : String} :
    id ∈ (o.collapse group source).2.outline.expanded ↔
      id ∈ o.expanded ∧ ¬ o.shown.HeadedBy group id := by
  rw [← mem_expanded_shut_iff]
  unfold collapse
  dsimp only
  split
  · -- the head was not marked, so shutting its run takes nothing away
    rename_i hnot
    rw [mem_expanded_shut_iff]
    refine (and_iff_left_of_imp ?_).symm
    rintro hid ⟨e, he, rfl⟩
    simp [shut, he, hid] at hnot
  · split
    · split <;> rfl
    · rfl

/-- **What a command does to the marks.** -/
theorem mem_expanded_perform (hc : c.op ≠ .rebuild) (h : o.perform c = .ok r) :
    id ∈ r.outline.expanded ↔
      (id ∈ o.expanded ∧ ∀ group, c = .collapseGroup group → ¬ o.shown.HeadedBy group id) ∨
        ∃ a, c = .expandTo a ∧ a.isChild = true ∧ o.shown.HeadedBy a.group id := by
  cases c with
  | rebuild t => exact absurd rfl hc
  | select node =>
    obtain ⟨row, -, hr⟩ := select_eq_ok h
    simp [hr]
  | clearSelection =>
    cases h
    simp [clearSelection]
  | scrollTo node => obtain ⟨row, -, ⟨-, hr⟩ | ⟨i, -, hr⟩⟩ := scrollTo_eq_ok h <;> simp [hr]
  | expandTo a =>
    rw [outline_of_expandTo h]
    rcases hchild : a.isChild with _ | _
    · simp [hchild]
    · rw [if_pos rfl, mem_expanded_expand_iff]
      simp [hchild]
  | collapseGroup group =>
    simp only [perform, collapseGroup] at h
    split at h <;> cases h
    rw [mem_expanded_collapse_iff]
    simp

/-- Commands that are gentle only add the mark of what they expand to. -/
private theorem mem_expanded_of_gentle {cs : List ViewCommand} (hcs : ∀ c ∈ cs, c.Gentle)
    (h : o.performAll cs = .ok o') :
    id ∈ o'.expanded ↔ id ∈ o.expanded ∨
      ∃ a, .expandTo a ∈ cs ∧ a.isChild = true ∧ o.shown.HeadedBy a.group id := by
  induction cs generalizing o with
  | nil =>
    cases h
    simp
  | cons c cs ih =>
    obtain ⟨r, hr, h⟩ := performAll_cons_eq_ok.mp h
    obtain ⟨hop, hcollapse⟩ := hcs c List.mem_cons_self
    rw [ih (fun c' hc' => hcs c' (List.mem_cons_of_mem _ hc')) h, mem_expanded_perform hop hr,
      shown_of_perform hop hr]
    simp [hcollapse, or_and_right, exists_or, or_assoc, eq_comm (a := c)]

/-- **Which heads are marked after some runs were collapsed** and gentle commands carried out. -/
theorem mem_expanded_performAll {groups : List Nat} {cs : List ViewCommand}
    (hcs : ∀ c ∈ cs, c.Gentle) (h : o.performAll (groups.map .collapseGroup ++ cs) = .ok o') :
    id ∈ o'.expanded ↔
      (id ∈ o.expanded ∧ ∀ group ∈ groups, ¬ o.shown.HeadedBy group id) ∨
        ∃ a, .expandTo a ∈ cs ∧ a.isChild = true ∧ o.shown.HeadedBy a.group id := by
  -- each collapse takes its mark away before anything is expanded
  induction groups generalizing o with
  | nil => simpa using mem_expanded_of_gentle hcs h
  | cons g groups ih =>
    rw [List.map_cons, List.cons_append] at h
    obtain ⟨r, hr, h⟩ := performAll_cons_eq_ok.mp h
    have hop : (ViewCommand.collapseGroup g).op ≠ .rebuild := nofun
    rw [ih h, mem_expanded_perform hop hr, shown_of_perform hop hr]
    simp [and_assoc]

/-! ### Which runs are expanded -/

/-- A run is expanded exactly if the identity of its head is listed. -/
theorem isExpanded_iff : o.isExpanded group = true ↔
    ∃ e, o.shown.head? group = some e ∧ e.id ∈ o.expanded := by
  unfold isExpanded
  cases o.shown.head? group <;> simp

private theorem isExpanded_iff_headedBy : o.isExpanded group = true ↔
    ∃ id ∈ o.expanded, o.shown.HeadedBy group id := by
  rw [isExpanded_iff]
  exact ⟨fun ⟨e, he, hmem⟩ => ⟨e.id, hmem, e, he, rfl⟩,
    fun ⟨_, hmem, e, he, hid⟩ => ⟨e, he, hid ▸ hmem⟩⟩

/-- Expanding a run that is there expands it and no other. -/
theorem isExpanded_expand_iff (hn : o.shown.Numbered) {other : Nat} {e : Entry}
    (he : o.shown.head? other = some e) :
    (o.expand other).2.isExpanded group = true ↔ o.isExpanded group = true ∨ group = other := by
  have hshown : (o.expand other).2.shown = o.shown := by rw [expand_eq]
  simp only [isExpanded_iff_headedBy, hshown, mem_expanded_expand_iff, or_and_right, exists_or]
  refine or_congr_right ⟨fun ⟨id, hother, hgroup⟩ => hgroup.unique hn hother, ?_⟩
  rintro rfl
  exact ⟨e.id, ⟨e, he, rfl⟩, ⟨e, he, rfl⟩⟩

/-- Collapsing a run collapses it and no other. -/
theorem isExpanded_collapse_iff (hn : o.shown.Numbered) (other : Nat) (source : String) :
    (o.collapse other source).2.outline.isExpanded group = true ↔
      o.isExpanded group = true ∧ group ≠ other := by
  simp only [isExpanded_iff_headedBy, (stays_collapse o other source).shown,
    mem_expanded_collapse_iff]
  constructor
  · rintro ⟨id, ⟨hmem, hnot⟩, hgroup⟩
    exact ⟨⟨id, hmem, hgroup⟩, fun heq => hnot (heq ▸ hgroup)⟩
  · rintro ⟨⟨id, hmem, hgroup⟩, hne⟩
    exact ⟨id, ⟨hmem, fun hother => hne (hgroup.unique hn hother)⟩, hgroup⟩

/-- A run that is expanded to is there. -/
private theorem exists_head_of_mem {cs : List ViewCommand} {a : Address}
    (hcs : ∀ c ∈ cs, c.op ≠ .rebuild) (h : o.performAll cs = .ok o') (ha : .expandTo a ∈ cs) :
    ∃ e, o.shown.head? a.group = some e := by
  obtain ⟨before, after, rfl⟩ := List.append_of_mem ha
  obtain ⟨mid, hmid, hrest⟩ := performAll_append_eq_ok.mp h
  obtain ⟨r, hr, -⟩ := performAll_cons_eq_ok.mp hrest
  rw [← shown_of_performAll (fun c hc => hcs c (List.mem_append_left _ hc)) hmid]
  exact exists_head_of_expandTo hr

/-- **Exactly what is expanded after some runs were collapsed** and gentle commands carried out. -/
theorem isExpanded_of_performAll (hn : o.shown.Numbered) {groups : List Nat}
    {cs : List ViewCommand} (hcs : ∀ c ∈ cs, c.Gentle)
    (h : o.performAll (groups.map .collapseGroup ++ cs) = .ok o') :
    o'.isExpanded group = true ↔ (o.isExpanded group = true ∧ group ∉ groups) ∨
      ∃ a, .expandTo a ∈ cs ∧ a.isChild = true ∧ a.group = group := by
  have hops : ∀ c ∈ groups.map .collapseGroup ++ cs, c.op ≠ .rebuild := fun c hc => by
    obtain hc | hc := List.mem_append.mp hc
    · obtain ⟨g, -, rfl⟩ := List.mem_map.mp hc
      exact nofun
    · exact (hcs c hc).1
  simp only [isExpanded_iff_headedBy, shown_of_performAll hops h, mem_expanded_performAll hcs h,
    or_and_right, exists_or]
  refine or_congr ⟨?_, ?_⟩ ⟨?_, ?_⟩
  · rintro ⟨id, ⟨hmem, hnot⟩, hgroup⟩
    exact ⟨⟨id, hmem, hgroup⟩, fun hin => hnot group hin hgroup⟩
  · rintro ⟨⟨id, hmem, hgroup⟩, hout⟩
    exact ⟨id, ⟨hmem, fun g hg hother => hout (hgroup.unique hn hother ▸ hg)⟩, hgroup⟩
  · rintro ⟨id, ⟨a, ha, hchild, hother⟩, hgroup⟩
    exact ⟨a, ha, hchild, hother.unique hn hgroup⟩
  · rintro ⟨a, ha, hchild, rfl⟩
    obtain ⟨e, he⟩ := exists_head_of_mem hops h (List.mem_append_right _ ha)
    exact ⟨e.id, ⟨a, ha, hchild, e, he, rfl⟩, ⟨e, he, rfl⟩⟩

/-- Showing the same timeline anew leaves expanded what was. -/
theorem isExpanded_rebuild : (o.rebuild o.shown).outline.isExpanded group = o.isExpanded group := by
  have hshown := o.shown_rebuild o.shown
  rw [Bool.eq_iff_iff, isExpanded_iff, isExpanded_iff, hshown]
  refine exists_congr fun e => and_congr_right fun he => ?_
  rw [mem_expanded_rebuild]
  exact and_iff_left ⟨e, Timeline.mem_toList_of_head? he, rfl⟩

/-! ### Gestures -/

/-- A click expands nothing. -/
theorem expanded_click {index : Nat} (h : o.click index = .ok r) :
    r.outline.expanded = o.expanded := by
  obtain ⟨row, -, houtline, -⟩ := click_eq_ok h
  rw [houtline]

/-- What a user collapses was expanded. -/
theorem expanded_collapseRow {index : Nat} {changed : Bool}
    (h : o.collapseRow index = .ok (changed, r)) : r.outline.expanded ⊆ o.expanded := by
  obtain rfl | ⟨group, rfl⟩ := collapseRow_eq_ok h
  · exact fun _ hid => hid
  · exact fun _ hid => (mem_expanded_collapse_iff.mp hid).1

/-- What is marked as expanded afterwards was before, or is shown; and what is shown is the same. -/
def Grows (o o' : Outline) : Prop :=
  o'.shown = o.shown ∧ ∀ id ∈ o'.expanded, id ∈ o.expanded ∨ o.shown.Has id

theorem grows_respond {g : Gesture} {changed : Bool} (h : o.respond g = .ok (changed, r)) :
    o.Grows r.outline := by
  refine ⟨(stays_respond h).shown, fun id hid => ?_⟩
  obtain ⟨index, h | h | h⟩ := respond_eq_ok h
  · exact .inl (expanded_click h ▸ hid)
  · obtain rfl | ⟨group, houtline, -⟩ := expandRow_eq_ok h
    · exact .inl hid
    · rw [houtline] at hid
      exact (mem_expanded_expand_iff.mp hid).imp_right Timeline.HeadedBy.has
  · exact .inl (expanded_collapseRow h hid)

end Outline

end UndoJournal
