import UndoJournal.Proofs.Screen.Stopping
import UndoJournal.Proofs.Screen.Tidiness

/-!
# Episodes of a screen

An `Episode` is an update that a screen was told, with the screen as it was found and as it was left
and the answer. It is **sound** (`Episode.Sound`) if the screen did what a screen does, and found
what a history of updates leads to: rows that are not due to be shown anew are those of the
timeline, a link that is not stale has only identities marked as expanded that the view shows, the
update names the run that the cursor has just left, and each run that is kept in mind was left by
the cursor in an earlier episode, during a pause.

What is kept in mind afterwards follows from that alone: nothing comes to it but what the cursor
leaves during a pause (`Episode.Sound.mem_left_after`), and that comes to it
(`Episode.Sound.mem_left_of_skipped`).

Between episodes a program can do things to the link without ending it (`Control`), which concern
neither rows nor marks, nor what the link keeps in mind.
-/

namespace UndoJournal

/-- What happened when a screen was told an update. -/
structure Episode where
  /-- The timeline that was told. -/
  timeline : Timeline
  /-- The update that was told. -/
  update : CursorUpdate
  /-- The screen as it was found. -/
  before : Screen
  /-- What the screen answered. -/
  answer : Except ViewError Unit
  /-- The screen as it was left. -/
  after : Screen

/-! ### Between episodes -/

/-- What can be done to the link of a screen without ending it, and to the record between both. -/
inductive Control where
  /-- Updates are skipped. -/
  | pause
  /-- Updates are followed. -/
  | resume
  /-- A guard is taken from outside. -/
  | hold
  /-- A guard that was taken from outside is let go of. -/
  | release
  /-- The listeners of the link are blocked or unblocked. -/
  | block (blocked : Bool)
  /-- The next call of an operation fails. -/
  | plant (op : ViewOp)

namespace Control

/-- The screen after something was done to its link. -/
def use : Control → Screen → Screen
  | pause => Screen.pause
  | resume => Screen.resume
  | hold => Screen.onLink Link.hold
  | release => Screen.onLink fun l => l.release.2
  | block blocked => Screen.blockListeners blocked
  | plant op => Screen.plant op .error

variable (k : Control) (s : Screen)

theorem outline_use : (k.use s).widget.outline = s.widget.outline := by cases k <;> rfl

/-- Of the link it concerns pauses and guards at most. -/
theorem link_use : (k.use s).link = { s.link with
    depth := (k.use s).link.depth
    held := (k.use s).link.held
    paused := (k.use s).link.paused } := by
  cases k with
  | release =>
    simp only [use, Screen.onLink, Link.release]
    split <;> rfl
  | _ => rfl

theorem sturdy_use {s : Screen} (h : s.Sturdy) : (k.use s).Sturdy := by
  cases k with
  | plant op => exact h.plant op
  | _ => exact h

end Control

/-! ### Sound episodes -/

/-- What a link that is not stale marks as expanded are identities of entries that are shown. -/
def Screen.Live (s : Screen) : Prop :=
  s.link.stale = false → ∀ id ∈ s.widget.outline.expanded, s.widget.outline.shown.Has id

namespace Episode

/-- The screen did what a screen does that is told an update. -/
def Follows (x : Episode) : Prop :=
  (Stage.alone.follow x.timeline x.update).Gives x.before fun answer s =>
    answer = x.answer ∧ s = x.after

/-- The update was skipped, since the screen was paused. -/
def Skipped (x : Episode) : Prop :=
  x.before.link.disconnected = false ∧ x.before.link.paused = true

/-- The cursor has just left the run headed by that identity, which has entries behind its head. -/
def Leaves (x : Episode) (id : EntryId) : Prop :=
  ∃ group run, x.update.left = some group ∧ x.timeline.runs[group]? = some run ∧
    run.head.id = id ∧ run.rest ≠ [] ∧ x.update.previous.group? = some group ∧
    x.update.current.group? ≠ some group

/-- The cursor left the run headed by that identity during the pause that the newest episodes are
of. -/
def LeftInPause (id : EntryId) : List Episode → Prop
  | [] => False
  | x :: older => x.Skipped ∧ (x.Leaves id ∨ LeftInPause id older)

variable {x : Episode} {older : List Episode} {id : EntryId}

/-- The cursor can have left one run only. -/
private theorem leaves_iff : x.Leaves id ↔ ∃ group ∈ x.update.left, ∃ run ∈ x.timeline.runs[group]?,
    run.head.id = id ∧ run.rest ≠ [] ∧ x.update.previous.group? = some group ∧
      x.update.current.group? ≠ some group := by
  constructor
  · rintro ⟨group, run, hleft, hrun, hleaves⟩
    exact ⟨group, hleft, run, hrun, hleaves⟩
  · rintro ⟨group, hleft, run, hrun, hleaves⟩
    exact ⟨group, run, hleft, hrun, hleaves⟩

instance : Decidable x.Skipped := inferInstanceAs (Decidable (_ ∧ _))

instance : Decidable (x.Leaves id) := decidable_of_iff' _ leaves_iff

instance decidableLeftInPause (id : EntryId) :
    (episodes : List Episode) → Decidable (LeftInPause id episodes)
  | [] => isFalse False.elim
  | x :: older =>
    have := decidableLeftInPause id older
    inferInstanceAs (Decidable (x.Skipped ∧ (x.Leaves id ∨ LeftInPause id older)))

/-- There is one good answer. -/
theorem answer_of_isOk (h : x.answer.isOk = true) : x.answer = .ok () := by
  rcases ha : x.answer with e | ⟨⟩
  · rw [ha] at h
    cases h
  · rfl

/-- What is true of whatever the screen does is true of what it did. -/
theorem Follows.of_leaves (h : x.Follows)
    {post : Except Fault (Except ViewError Unit) → Screen → Prop}
    (hpost : (Stage.alone.follow x.timeline x.update).Leaves x.before post) :
    post (.ok x.answer) x.after := by
  obtain ⟨answer, hanswer, rfl, hafter⟩ := h
  rw [Action.Leaves, hanswer, hafter] at hpost
  exact hpost

/-- What is true of every episode, given what happened before. -/
structure Sound (x : Episode) (older : List Episode) : Prop where
  follows : x.Follows
  numbered : x.timeline.Numbered
  contains : x.timeline.contains x.update.current = true
  left : ∀ group, x.update.left = some group → x.update.previous.group? = some group ∧
    x.update.current.group? ≠ some group ∧ x.timeline.hasChildren group = true
  sturdy : x.before.Sturdy
  rows : x.update.reshaped = false → x.before.link.disconnected = false →
    x.before.link.stale = false → x.before.widget.outline.shown = x.timeline
  live : x.before.Live
  /-- What is kept in mind was left by the cursor, during a pause. -/
  recalled : ∀ id ∈ x.before.link.left, ∃ y ∈ older, y.Skipped ∧ y.Leaves id

end Episode

namespace Episode.Sound

variable {x : Episode} {older : List Episode} (h : x.Sound older)

include h

theorem rows_of_due (hd : x.before.link.disconnected = false)
    (hdue : x.before.due x.update = false) : x.before.widget.outline.shown = x.timeline :=
  have ⟨hr, hs⟩ := Screen.due_eq_false_iff.mp hdue
  h.rows hr hd hs

theorem of_leaves {post : Except Fault (Except ViewError Unit) → Screen → Prop}
    (hpost : (Stage.alone.follow x.timeline x.update).Leaves x.before post) :
    post (.ok x.answer) x.after := h.follows.of_leaves hpost

/-- What an episode names as left is a run that the cursor left. -/
theorem leaves_of_head {group : Nat} {e : Entry} (hleft : x.update.left = some group)
    (he : x.timeline.head? group = some e) : x.Leaves e.id := by
  obtain ⟨hprevious, hcurrent, hchildren⟩ := h.left group hleft
  obtain ⟨run, hrun, rfl⟩ := Option.map_eq_some_iff.mp he
  obtain ⟨run', hrun', hrest⟩ := Timeline.hasChildren_iff.mp hchildren
  obtain rfl : run = run' := Option.some.inj (hrun.symm.trans hrun')
  exact ⟨group, run, hleft, hrun, rfl, hrest, hprevious, hcurrent⟩

/-- What an update that is not skipped leaves in mind was there before. -/
private theorem left_subset (hp : x.before.link.paused = false) :
    x.after.link.left ⊆ x.before.link.left := by
  rcases hd : x.before.link.disconnected with _ | _
  · exact h.of_leaves (Screen.left_subset_of_follow (h.rows_of_due hd) h.contains hp h.sturdy)
  · have hsame := h.of_leaves (Screen.leaves_follow_of_disconnected hd)
    rw [hsame.2]
    exact List.Subset.refl _

/-- **What is kept in mind after an episode** was before, or the episode was skipped and left it. -/
theorem mem_left_after {id : EntryId} (hid : id ∈ x.after.link.left) :
    id ∈ x.before.link.left ∨ x.Skipped ∧ x.Leaves id := by
  rcases hp : x.before.link.paused with _ | _
  · exact .inl (h.left_subset hp hid)
  · rcases hd : x.before.link.disconnected with _ | _
    · have hskip := h.of_leaves (Screen.leaves_follow_of_paused hd hp)
      rw [hskip.2] at hid
      obtain hid | ⟨e, he, rfl⟩ := Link.mem_left_skip.mp hid
      · exact .inl hid
      · obtain ⟨group, hleft, hhead⟩ := Option.bind_eq_some_iff.mp he
        exact .inr ⟨⟨hd, hp⟩, h.leaves_of_head hleft hhead⟩
    · have hsame := h.of_leaves (Screen.leaves_follow_of_disconnected hd)
      rw [hsame.2] at hid
      exact .inl hid

/-- **What is left during a pause is kept in mind.** -/
theorem mem_left_of_skipped (hskipped : x.Skipped) {id : EntryId}
    (hid : x.Leaves id ∨ id ∈ x.before.link.left) : id ∈ x.after.link.left := by
  have hskip := h.of_leaves (Screen.leaves_follow_of_paused hskipped.1 hskipped.2)
  rw [hskip.2]
  refine Link.mem_left_skip.mpr (hid.symm.imp_right ?_)
  rintro ⟨group, run, hleft, hrun, rfl, -⟩
  exact ⟨run.head, by rw [hleft, Option.bind_some, Timeline.head?_of_getElem? hrun], rfl⟩

/-- An update that is followed well leaves the right rows, and marks nothing as expanded that is
not there. -/
theorem live_after : x.after.Live := by
  intro hstale id hid
  rcases hd : x.before.link.disconnected with _ | _
  · rcases hp : x.before.link.paused with _ | _
    · obtain ⟨-, -, hdone⟩ := h.of_leaves (Screen.leaves_follow hd hp)
      rcases ha : x.answer with e | ⟨⟩
      · rw [ha] at hdone
        cases hdone.1.symm.trans hstale
      · rw [ha] at hdone
        have hshown := hdone.shown (h.rows_of_due hd)
        rw [hshown]
        obtain ⟨a, e, -, he, hid⟩ | ⟨hid, -⟩ := hdone.expanded (h.rows_of_due hd) hid
        · exact Timeline.HeadedBy.has ⟨e, he, hid⟩
        · rcases hdue : x.before.due x.update with _ | _
          · rw [Screen.refreshed, hdue, if_neg Bool.false_ne_true] at hid
            rw [← h.rows_of_due hd hdue]
            exact h.live (Screen.due_eq_false_iff.mp hdue).2 id hid
          · rw [Screen.refreshed, hdue, if_pos rfl] at hid
            exact (Outline.mem_expanded_rebuild.mp hid).2
    · have hskip := h.of_leaves (Screen.leaves_follow_of_paused hd hp)
      rw [hskip.2] at hstale
      cases hstale
  · have hsame := h.of_leaves (Screen.leaves_follow_of_disconnected hd)
    rw [hsame.2] at hstale hid ⊢
    exact h.live hstale id hid

end Episode.Sound

end UndoJournal
