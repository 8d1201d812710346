import UndoJournal.Proofs.Journal.Update

/-!
# What an update tells

A journal tells its follower of a notice exactly if it heeds it (`Journal.heeds`), which is a
question of the state before. What it tells is settled by the cursor before and after and by the
timeline after (`Reaction.Tells`): a move names the run that it leaves if that run **still has
entries behind its head**, and the run it names has the head that it had before
(`Journal.hear_tells`).
-/

namespace UndoJournal

/-- The cause that an update about a notice names. -/
def Notice.cause : Notice → Cause
  | committed _ => .commit
  | undone _ => .undo
  | redone _ => .redo
  | undoCleared => .clearUndo
  | redoCleared => .clearRedo

/-- Whether a notice makes the cursor move along the timeline. -/
def Notice.moves : Notice → Bool
  | committed _ | undone _ | redone _ => true
  | undoCleared | redoCleared => false

namespace Journal

/-- Whether a journal heeds a notice: an undo or a redo has to be of the event at the cursor, and is
ignored while such notices are muted. -/
def heeds (j : Journal) : Notice → Bool
  | .undone e => !j.muted && j.undoEvent?.any fun expected => expected.id == e.id
  | .redone e => !j.muted &&
    match j.redoEvent? with
    | .ok (some expected) => expected.id == e.id
    | _ => false
  | .committed _ | .undoCleared | .redoCleared => true

/-- The run that a move leaves is the one the cursor was in and is no longer in, as long as it has
entries behind its head. -/
theorem leftBy_eq_some_iff {t : Timeline} {previous current : Position} {group : Nat} :
    leftBy t previous current = some group ↔
      previous.group? = some group ∧ current.group? ≠ some group ∧
        t.hasChildren group = true := by
  rcases hp : previous.group? with _ | g
  · simp [leftBy, hp]
  · simp only [leftBy, hp, Option.bind_eq_bind, Option.bind_some, Option.some.injEq]
    constructor
    · intro h
      split at h
      · cases h
      · split at h
        · obtain rfl : g = group := Option.some.inj h
          exact ⟨rfl, ‹_›, ‹_›⟩
        · cases h
    · rintro ⟨rfl, hne, hchildren⟩
      rw [if_neg hne, if_pos hchildren]

end Journal

/-- An update tells of a notice: its cause, the cursor before and after, and the run that was
left. -/
structure Reaction.Tells (r : Reaction) (j : Journal) (notice : Notice) (u : CursorUpdate) :
    Prop where
  cause : u.cause = notice.cause
  /-- The cursor as it was. -/
  previous : u.previous = j.cursor
  /-- The cursor as it is. -/
  current : u.current = r.journal.cursor
  /-- A timeline that changed is announced as reshaped. -/
  reshaped : u.reshaped = false → r.journal.timeline = j.timeline
  /-- The run that a move left; the other notices leave none. -/
  left : u.left =
    if notice.moves then Journal.leftBy r.journal.timeline j.cursor r.journal.cursor else none
  /-- Where the cursor was, a move leaves the head of the run in its place. -/
  head : notice.moves = true → ∀ group, j.cursor.group? = some group →
    ∃ e, j.timeline.head? group = some e ∧ r.journal.timeline.head? group = some e

/-- The reaction moves the cursor along the timeline at most, which muting prevents; an update about
that says of no run that the cursor is in that it was left. -/
structure Reaction.Strolls (r : Reaction) (j : Journal) : Prop where
  timeline : r.journal.timeline = j.timeline
  silent : r.update = none → r.journal = j
  muted : j.muted = true → r.update = none
  current : ∀ u, r.update = some u → u.current = r.journal.cursor
  reshaped : ∀ u, r.update = some u → u.reshaped = false
  left : ∀ u, r.update = some u → ∀ group, u.left = some group → u.current.group? ≠ some group

namespace Journal

variable {j : Journal} {r : Reaction} {e : Event}

/-- The run of the cursor has a head. -/
private theorem exists_head_of_cursor (hc : j.timeline.contains j.cursor = true) {group : Nat}
    (hgroup : j.cursor.group? = some group) : ∃ e, j.timeline.head? group = some e := by
  rcases hcursor : j.cursor with _ | a
  · rw [hcursor] at hgroup
    cases hgroup
  · rw [hcursor] at hgroup hc
    obtain rfl : a.group = group := Option.some.inj hgroup
    obtain ⟨run, hrun, -⟩ := Timeline.get?_isSome_iff.mp hc
    exact ⟨run.head, by rw [Timeline.head?, hrun, Option.map_some]⟩

/-- A move by an undo or a redo leaves the timeline alone. -/
private theorem tells_moved (hc : j.timeline.contains j.cursor = true) (notice : Notice)
    (hmoves : notice.moves = true) (p : Position) (word : String) (e : Event) :
    (j.moved p notice.cause word e).Tells j notice
      ⟨j.cursor, p, notice.cause, false, leftBy j.timeline j.cursor p⟩ where
  cause := rfl
  previous := rfl
  current := rfl
  reshaped _ := rfl
  left := by rw [if_pos hmoves]; rfl
  head _ group hgroup := by
    obtain ⟨e, he⟩ := exists_head_of_cursor hc hgroup
    exact ⟨e, he, he⟩

/-- A commit cuts behind the cursor at most, and files at the end. -/
private theorem tells_filing (hc : j.timeline.contains j.cursor = true) {kept : Timeline}
    (hkept : kept = j.timeline ∨
      ∃ dropped, j.timeline.truncateAfter j.cursor = .ok (dropped, kept))
    (dropping : List Note) (e : Event) {u : CursorUpdate}
    (hu : (j.filing dropping kept e).update = some u) :
    (j.filing dropping kept e).Tells j (.committed e) u := by
  obtain rfl := Option.some.inj hu
  refine ⟨rfl, rfl, rfl, by simp, rfl, fun _ group hgroup => ?_⟩
  have hcut : ∃ x, j.timeline.head? group = some x ∧ kept.head? group = some x := by
    rcases hkept with rfl | ⟨dropped, hcut⟩
    · obtain ⟨x, hx⟩ := exists_head_of_cursor hc hgroup
      exact ⟨x, hx, hx⟩
    · exact Timeline.head?_truncateAfter hcut hgroup
  obtain ⟨x, hx, hx'⟩ := hcut
  exact ⟨x, hx, Timeline.head?_append hx' e⟩

/-- An undo notice is heeded exactly if the cursor moves. -/
private theorem isSome_update_hearUndone (h : j.hearUndone e = .ok r) :
    r.update.isSome = j.heeds (.undone e) := by
  unfold hearUndone at h
  unfold heeds
  cases hm : j.muted with
  | true =>
    rw [if_pos hm] at h
    cases h
    rfl
  | false =>
    rw [if_neg (by simp [hm])] at h
    rcases he : j.undoEvent? with _ | expected <;> rw [he] at h
    · cases h
      rfl
    · dsimp only at h
      by_cases hid : expected.id = e.id
      · rw [if_neg (not_not_intro hid)] at h
        rcases ht : j.timeline.prev j.cursor with fault | target <;> rw [ht] at h <;> cases h
        simp [moved, hid]
      · rw [if_pos hid] at h
        cases h
        simp [ignoring, hid]

/-- A redo notice is heeded exactly if the cursor moves. -/
private theorem isSome_update_hearRedone (h : j.hearRedone e = .ok r) :
    r.update.isSome = j.heeds (.redone e) := by
  unfold hearRedone at h
  unfold heeds
  cases hm : j.muted with
  | true =>
    rw [if_pos hm] at h
    cases h
    rfl
  | false =>
    rw [if_neg (by simp [hm])] at h
    rcases hnext : j.redoEvent? with fault | _ | expected <;> rw [hnext] at h
    · cases h
    · cases h
      rfl
    · simp only [bind, Except.bind] at h
      by_cases hid : expected.id = e.id
      · rw [if_neg (not_not_intro hid)] at h
        rcases ht : j.timeline.next j.cursor with fault | target <;> rw [ht] at h <;> cases h
        simp [moved, hid]
      · rw [if_pos hid] at h
        cases h
        simp [ignoring, hid]

/-- **A follower is told of a notice exactly if it is heeded**, and what it is told is settled by
the journal before and after. -/
theorem hear_tells (hc : j.timeline.contains j.cursor = true) {notice : Notice}
    (h : j.hear notice = .ok r) :
    r.update.isSome = j.heeds notice ∧ ∀ u, r.update = some u → r.Tells j notice u := by
  have hann := announces_hear h
  cases notice with
  | committed e =>
    obtain ⟨dropping, kept, rfl, hkept⟩ := hearCommitted_cases h
    exact ⟨rfl, fun u hu => tells_filing hc hkept dropping e hu⟩
  | undone e =>
    refine ⟨isSome_update_hearUndone h, fun u hu => ?_⟩
    obtain ⟨level, message, fields, rfl⟩ | ⟨p, rfl⟩ := hearUndone_cases h
    · cases hu
    · obtain rfl := Option.some.inj hu
      exact tells_moved hc (.undone e) rfl p "undo" e
  | redone e =>
    refine ⟨isSome_update_hearRedone h, fun u hu => ?_⟩
    obtain ⟨level, message, fields, rfl⟩ | ⟨p, rfl⟩ := hearRedone_cases h
    · cases hu
    · obtain rfl := Option.some.inj hu
      exact tells_moved hc (.redone e) rfl p "redo" e
  | undoCleared =>
    rcases hcut : j.timeline.truncateThrough j.cursor with fault | ⟨dropped, t⟩ <;>
      simp only [hear, hearUndoCleared, hcut, bind, Except.bind] at h <;> cases h
    refine ⟨rfl, fun u hu => ?_⟩
    obtain rfl := Option.some.inj hu
    exact ⟨rfl, rfl, rfl, hann.reshaped _ rfl, rfl, by simp [Notice.moves]⟩
  | redoCleared =>
    rcases hcut : j.timeline.truncateAfter j.cursor with fault | ⟨dropped, t⟩ <;>
      simp only [hear, hearRedoCleared, hcut, bind, Except.bind] at h <;> cases h
    refine ⟨rfl, fun u hu => ?_⟩
    obtain rfl := Option.some.inj hu
    exact ⟨rfl, rfl, rfl, hann.reshaped _ rfl, rfl, by simp [Notice.moves]⟩

private theorem strolls_moved (p : Position) (cause : Cause) (word : String) (e : Event)
    (hm : j.muted = false) : (j.moved p cause word e).Strolls j where
  timeline := rfl
  silent := nofun
  muted h := nomatch hm.symm.trans h
  current u hu := by
    obtain rfl := Option.some.inj hu
    rfl
  reshaped u hu := by
    obtain rfl := Option.some.inj hu
    rfl
  left u hu group hleft := by
    obtain rfl := Option.some.inj hu
    exact (leftBy_eq_some_iff.mp hleft).2.1

private theorem strolls_ignoring (j : Journal) (level : Level) (message : String)
    (fields : List Field) :
    (j.ignoring level message fields).Strolls j :=
  ⟨rfl, fun _ => rfl, fun _ => rfl, nofun, nofun, nofun⟩

/-- **An undo notice moves the cursor at most.** -/
theorem strolls_hearUndone (h : j.hear (.undone e) = .ok r) : r.Strolls j := by
  have hheeds := isSome_update_hearUndone h
  obtain ⟨level, message, fields, rfl⟩ | ⟨p, rfl⟩ := hearUndone_cases h
  · exact strolls_ignoring ..
  · refine strolls_moved p .undo "undo" e ?_
    rcases hm : j.muted with _ | _
    · rfl
    · simp [heeds, hm, moved] at hheeds

/-- **A redo notice moves the cursor at most.** -/
theorem strolls_hearRedone (h : j.hear (.redone e) = .ok r) : r.Strolls j := by
  have hheeds := isSome_update_hearRedone h
  obtain ⟨level, message, fields, rfl⟩ | ⟨p, rfl⟩ := hearRedone_cases h
  · exact strolls_ignoring ..
  · refine strolls_moved p .redo "redo" e ?_
    rcases hm : j.muted with _ | _
    · rfl
    · simp [heeds, hm, moved] at hheeds

end Journal

end UndoJournal
