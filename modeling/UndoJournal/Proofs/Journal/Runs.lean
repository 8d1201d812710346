import UndoJournal.Proofs.Journal.Leaving
import UndoJournal.Proofs.Timeline.Runs

/-!
# What an update tells about runs

A view knows runs by the identities of their heads and is told of them by their indices, while a
journal drops runs, gives them new heads, and lets them grow. Still an update **accounts** for every
run that has entries behind its head (`CursorUpdate.Accounts`): the cursor is in it now, or it is
the run that the update says was left, or its head has just become one, or it was there before with
the cursor elsewhere. Clears name no run that was left, and need not
(`Journal.accounts_hear`).
-/

namespace UndoJournal

/-- What has become of the runs of the timeline `t`, with the cursor at `p`, that are now those of
`t'`: entries behind heads were so before or are new, and a run that has some holds the cursor, was
left by it, or was away from it. -/
structure CursorUpdate.Covers (u : CursorUpdate) (t : Timeline) (p : Position) (t' : Timeline) :
    Prop where
  nextId_le : t.nextId ≤ t'.nextId
  trailing : ∀ e ∈ t'.trailing, e ∈ t.trailing ∨ t.nextId ≤ e.id.raw
  run : ∀ group run, t'.runs[group]? = some run → run.rest ≠ [] →
    u.current.group? = some group ∨ u.left = some group ∨ run.head ∈ t.trailing ∨ t.Away p run

/-- An update that is told with the timeline `t'` accounts for what has become of the runs since the
timeline was `t` and the cursor at `p`. -/
structure CursorUpdate.Accounts (u : CursorUpdate) (t : Timeline) (p : Position) (t' : Timeline) :
    Prop extends u.Covers t p t' where
  reshaped : u.reshaped = false → t' = t
  numbered : t'.Numbered
  contains : t'.contains u.current = true

theorem Timeline.hasChildren_iff {t : Timeline} {group : Nat} :
    t.hasChildren group = true ↔ ∃ run, t.runs[group]? = some run ∧ run.rest ≠ [] := by
  unfold hasChildren
  cases t.runs[group]? <;> simp

namespace Journal

variable {j : Journal} {r : Reaction} {u : CursorUpdate} {s : Stack}

/-- The run of the cursor is the one that a move leaves, unless the cursor stays in it. -/
private theorem current_or_left {t : Timeline} {previous current : Position} {group : Nat}
    {run : Run}
    (hrun : t.runs[group]? = some run) (hrest : run.rest ≠ [])
    (hp : previous.group? = some group) :
    current.group? = some group ∨ leftBy t previous current = some group :=
  (em (current.group? = some group)).imp_right fun hc =>
    leftBy_eq_some_iff.mpr ⟨hp, hc, Timeline.hasChildren_iff.mpr ⟨run, hrun, hrest⟩⟩

/-- Telling the whole state accounts for all runs, as nothing has become of them. -/
theorem accounts_standing (hj : j.Traces s) (hn : j.timeline.Numbered) (cause : Cause) :
    (j.standing cause).Accounts j.timeline j.cursor j.timeline where
  reshaped _ := rfl
  numbered := hn
  contains := hj.contains_cursor
  nextId_le := Nat.le_refl _
  trailing _ he := .inl he
  run _ _ hrun _ := (Timeline.away_of_getElem? hrun).imp_right fun haway => .inr (.inr haway)

/-- A run in which the cursor was is the one that was left or stayed in. -/
private theorem covered_of_before {t t₀ : Timeline} {previous current : Position} {group : Nat}
    {run : Run} (hrun : t.runs[group]? = some run) (hrest : run.rest ≠ [])
    (h : previous.group? = some group ∨ t₀.Away previous run) :
    current.group? = some group ∨ leftBy t previous current = some group ∨
      run.head ∈ t₀.trailing ∨ t₀.Away previous run := by
  obtain hp | haway := h
  · exact (current_or_left hrun hrest hp).imp_right .inl
  · exact .inr (.inr (.inr haway))

/-- A move along the timeline leaves all runs as they are. -/
private theorem covers_moved (j : Journal) (p : Position) (cause : Cause) (reshaped : Bool) :
    (⟨j.cursor, p, cause, reshaped, leftBy j.timeline j.cursor p⟩ : CursorUpdate).Covers
      j.timeline j.cursor j.timeline where
  nextId_le := Nat.le_refl _
  trailing _ hx := .inl hx
  run _ _ hrun hrest := covered_of_before hrun hrest (Timeline.away_of_getElem? hrun)

/-- A commit cuts the last runs, and the entry that is filed joins the last one or is a new run. -/
private theorem covers_committed {e : Event} (h : j.hearCommitted e = .ok r)
    (hu : r.update = some u) : u.Covers j.timeline j.cursor r.journal.timeline := by
  obtain ⟨dropping, kept, rfl, hkept⟩ := hearCommitted_cases h
  obtain rfl := Option.some.inj hu
  have hcut : kept.nextId = j.timeline.nextId ∧ (∀ x ∈ kept.trailing, x ∈ j.timeline.trailing) ∧
      ∀ group run, kept.runs[group]? = some run →
        j.cursor.group? = some group ∨ j.timeline.Away j.cursor run := by
    obtain rfl | ⟨dropped, hcut⟩ := hkept
    · exact ⟨rfl, fun _ hx => hx, fun _ _ hrun => Timeline.away_of_getElem? hrun⟩
    · exact ⟨(Timeline.runs_truncateAfter hcut).1, fun _ => Timeline.trailing_truncateAfter hcut,
        fun _ _ => Timeline.away_truncateAfter hcut⟩
  obtain ⟨hid, htrailing, hruns⟩ := hcut
  refine ⟨?_, fun x hx => ?_, fun group run hrun hrest => ?_⟩
  · change _ ≤ (kept.append e).2.nextId
    rw [Timeline.nextId_append, hid]
    exact Nat.le_succ _
  · exact (Timeline.trailing_append hx).imp (htrailing x) fun hx => Nat.le_of_eq (by rw [hx, hid])
  · obtain hgroup | hbefore := Timeline.getElem?_runs_append hrun hrest
    · exact .inl (congrArg some hgroup)
    · exact covered_of_before hrun hrest (hruns group run hbefore)

/-- What is left of a timeline up to the cursor was there before, away from it or with it. -/
private theorem covers_redoCleared (h : j.hearRedoCleared = .ok r) (hu : r.update = some u) :
    u.Covers j.timeline j.cursor r.journal.timeline := by
  rcases hcut : j.timeline.truncateAfter j.cursor with fault | ⟨dropped, t⟩ <;>
    simp only [hearRedoCleared, hcut, bind, Except.bind] at h <;> cases h
  obtain rfl := Option.some.inj hu
  refine ⟨Nat.le_of_eq (Timeline.runs_truncateAfter hcut).1.symm,
    fun _ hx => .inl (Timeline.trailing_truncateAfter hcut hx), fun _ _ hrun _ => ?_⟩
  exact (Timeline.away_truncateAfter hcut hrun).imp_right fun haway => .inr (.inr haway)

/-- What is left of a timeline behind the cursor was away from it, or has just become a head. -/
private theorem covers_undoCleared (h : j.hearUndoCleared = .ok r) :
    u.Covers j.timeline j.cursor r.journal.timeline := by
  rcases hcut : j.timeline.truncateThrough j.cursor with fault | ⟨dropped, t⟩ <;>
    simp only [hearUndoCleared, hcut, bind, Except.bind] at h <;> cases h
  refine ⟨Nat.le_of_eq (Timeline.runs_truncateThrough hcut).1.symm,
    fun _ hx => .inl (Timeline.trailing_truncateThrough hcut hx), fun _ _ hrun _ => ?_⟩
  exact .inr (.inr (Timeline.away_truncateThrough hcut (List.mem_of_getElem? hrun)))

/-- What is told of a notice says what has become of the runs. -/
private theorem covers_hear {notice : Notice} (h : j.hear notice = .ok r)
    (hu : r.update = some u) : u.Covers j.timeline j.cursor r.journal.timeline := by
  cases notice with
  | committed e => exact covers_committed h hu
  | undone e =>
    obtain ⟨level, message, fields, rfl⟩ | ⟨target, rfl⟩ := hearUndone_cases h
    · cases hu
    · exact Option.some.inj hu ▸ covers_moved j target .undo false
  | redone e =>
    obtain ⟨level, message, fields, rfl⟩ | ⟨target, rfl⟩ := hearRedone_cases h
    · cases hu
    · exact Option.some.inj hu ▸ covers_moved j target .redo false
  | undoCleared => exact covers_undoCleared h
  | redoCleared => exact covers_redoCleared h hu

/-- **What is told of a notice accounts for all runs.** -/
theorem accounts_hear (hj : j.Traces s) (hn : j.timeline.Numbered) {notice : Notice}
    (h : j.hear notice = .ok r) (hu : r.update = some u) :
    u.Accounts j.timeline j.cursor r.journal.timeline where
  toCovers := covers_hear h hu
  reshaped := (announces_hear h).reshaped u hu
  numbered := (announces_hear h).numbered hn
  contains := by
    obtain ⟨r', hr', htraces⟩ := hj.hear notice
    obtain rfl : r = r' := Except.ok.inj (h.symm.trans hr')
    rw [(announces_hear h).current u hu]
    exact htraces.contains_cursor

/-- **No notice brings back what is gone**: the entries afterwards were there, or have an identity
that had not been given out. -/
theorem entries_hear {notice : Notice} (h : j.hear notice = .ok r) :
    ∀ e ∈ r.journal.timeline.toList,
      e ∈ j.timeline.toList ∨ j.timeline.nextId ≤ e.id.raw := by
  have hafter : ∀ {dropped : Nat} {t : Timeline},
      j.timeline.truncateAfter j.cursor = .ok (dropped, t) → t.toList ⊆ j.timeline.toList := by
    intro dropped t hcut
    obtain ⟨n, hn⟩ := Timeline.exists_ordinal_of_truncateAfter hcut
    rw [Timeline.toList_truncateAfter hn hcut]
    exact List.take_subset _ _
  cases notice with
  | committed event =>
    obtain ⟨dropping, kept, rfl, hkept⟩ := hearCommitted_cases h
    have hkept : kept.nextId = j.timeline.nextId ∧ kept.toList ⊆ j.timeline.toList := by
      obtain rfl | ⟨dropped, hcut⟩ := hkept
      · exact ⟨rfl, List.Subset.refl _⟩
      · exact ⟨(Timeline.runs_truncateAfter hcut).1, hafter hcut⟩
    intro e he
    obtain he | he := List.mem_append.mp (Timeline.toList_append kept event ▸ he)
    · exact .inl (hkept.2 he)
    · obtain rfl := List.mem_singleton.mp he
      exact .inr (Nat.le_of_eq hkept.1.symm)
  | undone event => exact fun e he => .inl (timeline_of_hearUndone h ▸ he)
  | redone event => exact fun e he => .inl (timeline_of_hearRedone h ▸ he)
  | undoCleared =>
    rcases hcut : j.timeline.truncateThrough j.cursor with fault | ⟨dropped, t⟩ <;>
      simp only [hear, hearUndoCleared, hcut, bind, Except.bind] at h <;> cases h
    obtain ⟨n, hn⟩ := Timeline.exists_ordinal_of_truncateThrough hcut
    have hdrop : t.toList = j.timeline.toList.drop n := (Timeline.toList_truncateThrough hn hcut).2
    exact fun e he => .inl (List.mem_of_mem_drop (hdrop ▸ he))
  | redoCleared =>
    rcases hcut : j.timeline.truncateAfter j.cursor with fault | ⟨dropped, t⟩ <;>
      simp only [hear, hearRedoCleared, hcut, bind, Except.bind] at h <;> cases h
    exact fun e he => .inl (hafter hcut he)

end Journal

end UndoJournal
