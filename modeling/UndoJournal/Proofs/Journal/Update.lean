import UndoJournal.Proofs.Journal.Stack

/-!
# What an update says about the journal

A follower only learns of a journal through the updates it is told. `Reaction.Announces` says what
it can rely on: the update names the cursor as it is, and **a timeline that changed is announced as
reshaped**, so a follower that shows the timeline before such a change knows that it has to look
again. Where a reaction tells nothing, the journal is as it was.

Undo and redo notices never change the timeline (`timeline_of_hearUndone`,
`timeline_of_hearRedone`).
-/

namespace UndoJournal

/-- What the update of a reaction says about the change of a journal. -/
structure Reaction.Announces (r : Reaction) (j : Journal) : Prop where
  settings : r.journal.settings = j.settings
  /-- Nothing changes without an update. -/
  silent : r.update = none → r.journal = j
  /-- The update names the cursor. -/
  current : ∀ u, r.update = some u → u.current = r.journal.cursor
  /-- The timeline changes only with an update that says so. -/
  reshaped : ∀ u, r.update = some u → u.reshaped = false → r.journal.timeline = j.timeline
  /-- Identities keep rising. -/
  numbered : j.timeline.Numbered → r.journal.timeline.Numbered

namespace Journal

variable {j : Journal} {r : Reaction} {e : Event}

private theorem announces_ignoring (j : Journal) (level : Level) (message : String)
    (fields : List Field) : (j.ignoring level message fields).Announces j :=
  ⟨rfl, fun _ => rfl, nofun, nofun, id⟩

private theorem announces_moved (j : Journal) (p : Position) (cause : Cause) (word : String)
    (e : Event) :
    (j.moved p cause word e).Announces j :=
  ⟨rfl, nofun, fun _ h => by cases h; rfl, fun _ _ _ => rfl, id⟩

private theorem announces_filing {kept : Timeline} (h : j.timeline.Numbered → kept.Numbered)
    (dropping : List Note) (e : Event) : (j.filing dropping kept e).Announces j :=
  ⟨rfl, nofun, fun _ h => by cases h; rfl, fun _ h => by cases h; nofun, fun hn => (h hn).append e⟩

/-- An undo notice is ignored or moves the cursor. -/
theorem hearUndone_cases (h : j.hearUndone e = .ok r) :
    (∃ level message fields, r = j.ignoring level message fields) ∨
      ∃ p, r = j.moved p .undo "undo" e := by
  unfold hearUndone at h
  split at h
  · cases h
    exact .inl ⟨_, _, _, rfl⟩
  · split at h
    · cases h
      exact .inl ⟨_, _, _, rfl⟩
    · split at h
      · cases h
        exact .inl ⟨_, _, _, rfl⟩
      · rcases ht : j.timeline.prev j.cursor with _ | target <;> rw [ht] at h <;> cases h
        exact .inr ⟨_, rfl⟩

/-- A redo notice is ignored or moves the cursor. -/
theorem hearRedone_cases (h : j.hearRedone e = .ok r) :
    (∃ level message fields, r = j.ignoring level message fields) ∨
      ∃ p, r = j.moved p .redo "redo" e := by
  unfold hearRedone at h
  split at h
  · cases h
    exact .inl ⟨_, _, _, rfl⟩
  · rcases hnext : j.redoEvent? with _ | _ | expected <;> rw [hnext] at h
    · cases h
    · cases h
      exact .inl ⟨_, _, _, rfl⟩
    · simp only [bind, Except.bind] at h
      split at h
      · cases h
        exact .inl ⟨_, _, _, rfl⟩
      · rcases ht : j.timeline.next j.cursor with _ | target <;> rw [ht] at h <;> cases h
        exact .inr ⟨_, rfl⟩

/-- A commit is filed behind what is kept of the timeline. -/
theorem hearCommitted_cases (h : j.hearCommitted e = .ok r) :
    ∃ dropping kept, r = j.filing dropping kept e ∧
      (kept = j.timeline ∨ ∃ dropped, j.timeline.truncateAfter j.cursor = .ok (dropped, kept)) := by
  rcases hr : j.redoable with _ | _
  · rw [hearCommitted_of_not_redoable hr] at h
    cases h
    exact ⟨_, _, rfl, .inl rfl⟩
  · rcases hcut : j.timeline.truncateAfter j.cursor with fault | ⟨dropped, kept⟩
    · simp [hearCommitted, hr, hcut, bind, Except.bind] at h
    · rw [hearCommitted_of_redoable hr hcut] at h
      cases h
      exact ⟨_, kept, rfl, .inr ⟨dropped, rfl⟩⟩

private theorem announces_hearUndoCleared (h : j.hearUndoCleared = .ok r) : r.Announces j := by
  rcases hcut : j.timeline.truncateThrough j.cursor with fault | ⟨dropped, t⟩ <;>
    simp only [hearUndoCleared, hcut, bind, Except.bind] at h <;> cases h
  refine ⟨rfl, by simp, fun _ hu => by cases hu; rfl, fun _ hu hshape => ?_, fun hn => ?_⟩
  · cases hu
    obtain rfl : dropped = 0 := by simpa using hshape
    exact Timeline.eq_of_truncateThrough hcut
  · exact hn.truncateThrough hcut

private theorem announces_hearRedoCleared (h : j.hearRedoCleared = .ok r) : r.Announces j := by
  rcases hcut : j.timeline.truncateAfter j.cursor with fault | ⟨dropped, t⟩ <;>
    simp only [hearRedoCleared, hcut, bind, Except.bind] at h <;> cases h
  refine ⟨rfl, by simp, fun _ hu => by cases hu; rfl, fun _ hu hshape => ?_, fun hn => ?_⟩
  · cases hu
    obtain rfl : dropped = 0 := by simpa using hshape
    exact Timeline.eq_of_truncateAfter hcut
  · exact hn.truncateAfter hcut

/-- **Every change is announced**, whatever the notice. -/
theorem announces_hear {notice : Notice} (h : j.hear notice = .ok r) : r.Announces j := by
  cases notice with
  | committed e =>
    obtain ⟨dropping, kept, rfl, hkept⟩ := hearCommitted_cases h
    refine announces_filing (fun hn => ?_) dropping e
    obtain rfl | ⟨dropped, hcut⟩ := hkept
    · exact hn
    · exact hn.truncateAfter hcut
  | undone e =>
    obtain ⟨level, message, fields, rfl⟩ | ⟨p, rfl⟩ := hearUndone_cases h
    · exact announces_ignoring ..
    · exact announces_moved ..
  | redone e =>
    obtain ⟨level, message, fields, rfl⟩ | ⟨p, rfl⟩ := hearRedone_cases h
    · exact announces_ignoring ..
    · exact announces_moved ..
  | undoCleared => exact announces_hearUndoCleared h
  | redoCleared => exact announces_hearRedoCleared h

/-- An undo notice leaves the timeline as it is. -/
theorem timeline_of_hearUndone (h : j.hear (.undone e) = .ok r) :
    r.journal.timeline = j.timeline := by
  obtain ⟨level, message, fields, rfl⟩ | ⟨p, rfl⟩ := hearUndone_cases h <;> rfl

/-- A redo notice leaves the timeline as it is. -/
theorem timeline_of_hearRedone (h : j.hear (.redone e) = .ok r) :
    r.journal.timeline = j.timeline := by
  obtain ⟨level, message, fields, rfl⟩ | ⟨p, rfl⟩ := hearRedone_cases h <;> rfl

/-- Placing the cursor leaves everything else as it is, and tells nobody. -/
theorem place_eq_ok {p : Position} (h : j.place p = .ok r) :
    r.journal = { j with cursor := p } ∧ r.update = none := by
  unfold place at h
  split at h <;> cases h
  exact ⟨rfl, rfl⟩

/-- The cursor is only placed where the timeline has a position, so some stack is traced. -/
theorem Traces.of_place {s : Stack} {p : Position} (h : j.Traces s) (hr : j.place p = .ok r) :
    ∃ s', r.journal.Traces s' := by
  have hcontains : j.timeline.contains p = true := by
    unfold Journal.place at hr
    split at hr
    · assumption
    · cases hr
  obtain ⟨n, hn⟩ := Timeline.contains_iff_exists_ordinal.mp hcontains
  obtain ⟨r', hr', htraces⟩ := h.place hn
  obtain rfl : r = r' := Except.ok.inj (hr.symm.trans hr')
  exact ⟨_, htraces⟩

end Journal

end UndoJournal
