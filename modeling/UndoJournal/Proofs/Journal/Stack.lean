import UndoJournal.Proofs.Timeline.Cut
import UndoJournal.Journal

/-!
# A journal is a flat undo stack

A `Stack` is a list of events and the number of those that are applied. It hears the same notices
as a journal, and each of its answers is a line or two about the list. `Journal.Traces` says that a
journal has the events of a stack, in order, and its cursor right behind the applied ones, however
the events are grouped.

* **No notice makes such a journal fail**, and afterwards it traces the stack that heard the same
  (`Traces.hear`).
* Whatever a journal is asked, it answers from the stack (`Traces.mirrors`). Whether there is
  something to redo, which it finds by comparing addresses, is whether the stack has more events
  than are applied.
-/

namespace UndoJournal

/-- A flat undo stack. -/
structure Stack where
  /-- The events, in commit order. -/
  events : List Event
  /-- The number of events that are applied: those at the front. -/
  applied : Nat
  /-- Whether undo and redo notices are ignored. -/
  muted : Bool
deriving DecidableEq

namespace Stack

/-- A stack without history. -/
def empty : Stack := ⟨[], 0, false⟩

/-- The event that the next undo reverts. -/
def undoEvent? (s : Stack) : Option Event :=
  if s.applied = 0 then none else s.events[s.applied - 1]?

/-- The event that the next redo applies again. -/
def redoEvent? (s : Stack) : Option Event := s.events[s.applied]?

/-- Hear a notice: one that does not name the event at the boundary changes nothing. -/
def hear (s : Stack) : Notice → Stack
  | .committed e => { s with events := s.events.take s.applied ++ [e], applied := s.applied + 1 }
  | .undone e =>
    if !s.muted ∧ s.undoEvent?.map Event.id = some e.id then { s with applied := s.applied - 1 }
    else s
  | .redone e =>
    if !s.muted ∧ s.redoEvent?.map Event.id = some e.id then { s with applied := s.applied + 1 }
    else s
  | .undoCleared => { s with events := s.events.drop s.applied, applied := 0 }
  | .redoCleared => { s with events := s.events.take s.applied }

theorem hear_undone_of_muted {s : Stack} (hm : s.muted = true) (e : Event) :
    s.hear (.undone e) = s := by
  simp [hear, hm]

theorem hear_redone_of_muted {s : Stack} (hm : s.muted = true) (e : Event) :
    s.hear (.redone e) = s := by
  simp [hear, hm]

/-- Undoing the event at the boundary moves the boundary. -/
theorem hear_undone {events : List Event} {n : Nat} {e : Event} (he : events[n]? = some e) :
    hear ⟨events, n + 1, false⟩ (.undone e) = ⟨events, n, false⟩ := by
  simp [hear, undoEvent?, he]

/-- Redoing the event behind the boundary moves the boundary. -/
theorem hear_redone {events : List Event} {n : Nat} {e : Event} (he : events[n]? = some e) :
    hear ⟨events, n, false⟩ (.redone e) = ⟨events, n + 1, false⟩ := by
  simp [hear, redoEvent?, he]

end Stack

/-- The event at a place of the flat list is the one that the position behind that place names. -/
private theorem Timeline.eventAt_positionAt? (t : Timeline) (n : Nat) :
    (((t.positionAt? (n + 1)).bind Position.address?).bind t.get?).map (fun run => run.head.event) =
      (t.toList.map Entry.event)[n]? := by
  by_cases hn : n < t.size
  · obtain ⟨p, hp⟩ := t.exists_ordinal_of_le hn
    rw [positionAt?_eq_some_iff.mpr hp]
    cases p with
    | start => simp [ordinal] at hp
    | on a =>
      obtain ⟨r, hr, hentry⟩ := get?_of_ordinal hp
      simp [Position.address?, hr, hentry]
  · rw [positionAt?_eq_none (by omega), List.getElem?_eq_none (by simp; omega)]
    rfl

namespace Journal

/-- A journal has the events of a stack and its cursor behind the applied ones. -/
structure Traces (j : Journal) (s : Stack) : Prop where
  /-- The events are those of the stack, in order. -/
  events : j.timeline.toList.map Entry.event = s.events
  /-- The cursor is behind the applied events. -/
  cursor : j.timeline.ordinal j.cursor = .ok s.applied
  /-- Both ignore undo and redo notices, or neither does. -/
  muted : j.muted = s.muted

/-- Everything a journal can be asked is answered as the stack has it. -/
structure Mirrors (j : Journal) (s : Stack) : Prop where
  /-- What is listed with its places is the list of the stack. -/
  placed : j.timeline.placed.map (fun p => p.entry.event) = s.events
  size : j.timeline.size = s.events.length
  ordinal : j.timeline.ordinal j.cursor = .ok s.applied
  muted : j.muted = s.muted
  undoable : j.undoable = decide (0 < s.applied)
  undoEvent : j.undoEvent? = s.undoEvent?
  undoVerb : j.undoVerb.enabled = decide (0 < s.applied)
  redoable : j.redoable = decide (s.applied < s.events.length)
  redoEvent : j.redoEvent? = .ok s.redoEvent?
  redoVerb : ∃ verb, j.redoVerb = .ok verb ∧
    verb.enabled = decide (s.applied < s.events.length)
  pristine : j.isPristine = decide (s.applied = 0)

@[simp] theorem journal_ignoring (j : Journal) (level : Level) (message : String)
    (fields : List Field) : (j.ignoring level message fields).journal = j := rfl

private theorem enabled_verbFor (j : Journal) (verb : String) (event : Option Event) :
    (j.verbFor verb event).enabled = event.isSome := by
  cases event <;> rfl

/-- What hearing of a commit comes to, once it is settled what is kept in front of it. -/
def filing (j : Journal) (dropping : List Note) (kept : Timeline) (e : Event) : Reaction :=
  let current := Position.on (kept.append e).1.address
  ⟨{ j with timeline := (kept.append e).2, cursor := current },
    dropping ++ [filedNote e (kept.append e).1],
    some ⟨j.cursor, current, .commit, true, leftBy (kept.append e).2 j.cursor current⟩⟩

/-- The report of entries that a commit drops. -/
def droppingNote (j : Journal) (dropped : Nat) : Note :=
  .event .debug "redo tail discarded by commit"
    [("at", j.cursor.text), ("dropped", toString dropped)]

theorem hearCommitted_of_not_redoable {j : Journal} (h : j.redoable = false) (e : Event) :
    j.hearCommitted e = .ok (j.filing [] j.timeline e) := by
  simp [hearCommitted, h, filing, bind, Except.bind]

theorem hearCommitted_of_redoable {j : Journal} (h : j.redoable = true) {dropped : Nat}
    {kept : Timeline} (hcut : j.timeline.truncateAfter j.cursor = .ok (dropped, kept)) (e : Event) :
    j.hearCommitted e = .ok (j.filing [j.droppingNote dropped] kept e) := by
  simp [hearCommitted, h, hcut, filing, droppingNote, bind, Except.bind]

theorem traces_empty (settings : Settings) : (empty settings).Traces .empty := ⟨rfl, rfl, rfl⟩

/-- The way to a position is as long as the ordinals are apart. -/
theorem stepsTo_eq {j : Journal} {target : Position} {m n : Nat}
    (hm : j.timeline.ordinal j.cursor = .ok m) (hn : j.timeline.ordinal target = .ok n) :
    j.stepsTo target = .ok (if (n : Int) - m = 0 then .stay
      else if (n : Int) - m < 0 then .undo ((n : Int) - m).natAbs
      else .redo ((n : Int) - m).natAbs) := by
  simp only [Journal.stepsTo, Timeline.distance_of_ordinal hm hn, bind, Except.bind]

namespace Traces

variable {j : Journal} {s : Stack}

/-! ### Queries -/

theorem size_eq (h : j.Traces s) : j.timeline.size = s.events.length := by
  rw [← h.events, List.length_map, Timeline.length_toList]

private theorem applied_le (h : j.Traces s) : s.applied ≤ s.events.length :=
  h.size_eq ▸ Timeline.ordinal_le_size h.cursor

/-- The cursor is at a position that the timeline has. -/
theorem contains_cursor (h : j.Traces s) : j.timeline.contains j.cursor = true :=
  Timeline.contains_iff_exists_ordinal.mpr ⟨_, h.cursor⟩

/-- The cursor is on a node exactly if something is applied. -/
theorem isStart_eq (h : j.Traces s) : j.cursor.isStart = decide (s.applied = 0) := by
  have hcursor := h.cursor
  rcases hc : j.cursor with _ | a
  · rw [hc] at hcursor
    obtain hzero : 0 = s.applied := by simpa [Timeline.ordinal] using hcursor
    simp [Position.isStart, ← hzero]
  · rw [hc] at hcursor
    obtain ⟨run, -, -, hn⟩ := Timeline.ordinal_on_eq_ok_iff.mp hcursor
    have := a.reach_pos
    have hpos : ¬ s.applied = 0 := by omega
    simp [Position.isStart, hpos]

private theorem undoEvent?_eq (h : j.Traces s) : j.undoEvent? = s.undoEvent? := by
  unfold Stack.undoEvent?
  rcases hn : s.applied with _ | n
  · have hstart := h.isStart_eq
    rw [hn] at hstart
    rcases hc : j.cursor with _ | a
    · simp [undoEvent?, currentNode?, hc, Position.address?]
    · simp [hc, Position.isStart] at hstart
  · -- the cursor has the ordinal `n + 1`, so it names the event at index `n`
    have hat := j.timeline.eventAt_positionAt? n
    rw [Timeline.positionAt?_eq_some_iff.mpr (hn ▸ h.cursor), h.events] at hat
    rw [if_neg (Nat.succ_ne_zero n), Nat.add_sub_cancel]
    exact hat

/-- Looking for the next event meets no fault. -/
theorem redoEvent?_eq (h : j.Traces s) : j.redoEvent? = .ok s.redoEvent? := by
  have hat := j.timeline.eventAt_positionAt? s.applied
  rw [h.events] at hat
  simp only [redoEvent?, Timeline.next_of_ordinal h.cursor, bind, Except.bind]
  rw [hat]
  rfl

/-- Comparing the cursor with the last position tells whether more can be applied. -/
private theorem redoable_eq (h : j.Traces s) :
    j.redoable = decide (s.applied < s.events.length) := by
  have hlast := Timeline.eq_lastPosition_iff h.cursor
  have hle := h.applied_le
  rw [h.size_eq] at hlast
  by_cases heq : j.cursor = j.timeline.lastPosition
  · have : ¬ s.applied < s.events.length := by
      have := hlast.mp heq
      omega
    simp [redoable, heq, this]
  · have : s.applied < s.events.length := by
      have : s.applied ≠ s.events.length := fun hn => heq (hlast.mpr hn)
      omega
    simp [redoable, heq, this]

/-- **The journal mirrors the stack it traces**, in everything it can be asked. -/
theorem mirrors (h : j.Traces s) : j.Mirrors s where
  placed := by
    rw [← h.events, ← Timeline.map_entry_placed, List.map_map]
    rfl
  size := h.size_eq
  ordinal := h.cursor
  muted := h.muted
  undoable := by
    rw [undoable, h.isStart_eq]
    simp only [Nat.pos_iff_ne_zero, ne_eq, decide_not]
  undoEvent := h.undoEvent?_eq
  undoVerb := by
    have hsome : s.undoEvent?.isSome = decide (0 < s.applied) := by
      have hle := h.applied_le
      unfold Stack.undoEvent?
      split
      · simp [*]
      · rw [List.getElem?_eq_getElem (by omega), Option.isSome_some, eq_comm, decide_eq_true_eq]
        omega
    rw [undoVerb, enabled_verbFor, h.undoEvent?_eq, hsome]
  redoable := h.redoable_eq
  redoEvent := h.redoEvent?_eq
  redoVerb := by
    refine ⟨_, by rw [redoVerb, h.redoEvent?_eq]; rfl, ?_⟩
    rw [enabled_verbFor, Stack.redoEvent?]
    by_cases hlt : s.applied < s.events.length <;> simp [hlt]
  pristine := h.isStart_eq

/-! ### Notices -/

/-- A journal with a stack's events under another cursor. -/
private theorem of_cursor (h : j.Traces s) {p : Position} {n : Nat}
    (hp : j.timeline.ordinal p = .ok n) :
    Traces { j with cursor := p } { s with applied := n } :=
  ⟨h.events, hp, h.muted⟩

private theorem hearUndone (h : j.Traces s) (e : Event) :
    ∃ r, j.hearUndone e = .ok r ∧ r.journal.Traces (s.hear (.undone e)) := by
  have hmuted := h.muted
  unfold Journal.hearUndone
  rw [h.undoEvent?_eq]
  rcases hm : s.muted with _ | _
  · rw [if_neg (by simp [hmuted, hm])]
    rcases he : s.undoEvent? with _ | expected
    · exact ⟨_, rfl, by simpa [Stack.hear, he] using h⟩
    · by_cases hid : expected.id = e.id
      · obtain ⟨n, hn⟩ : ∃ n, s.applied = n + 1 :=
          Nat.exists_eq_succ_of_ne_zero fun hz => by simp [Stack.undoEvent?, hz] at he
        obtain ⟨q, hq, hord⟩ := Timeline.prev_of_ordinal (hn ▸ h.cursor)
        refine ⟨j.moved q .undo "undo" e, ?_, ?_⟩
        · simp [hid, hq, bind, Except.bind]
        · have hhear : s.hear (.undone e) = { s with applied := n } := by
            simp [Stack.hear, hm, he, hid, hn]
          exact hhear ▸ h.of_cursor hord
      · refine ⟨_, if_pos hid, ?_⟩
        simpa [Stack.hear, he, hid] using h
  · rw [if_pos (by simp [hmuted, hm])]
    exact ⟨_, rfl, by simpa [Stack.hear, hm] using h⟩

private theorem hearRedone (h : j.Traces s) (e : Event) :
    ∃ r, j.hearRedone e = .ok r ∧ r.journal.Traces (s.hear (.redone e)) := by
  have hmuted := h.muted
  unfold Journal.hearRedone
  rw [h.redoEvent?_eq]
  rcases hm : s.muted with _ | _
  · rw [if_neg (by simp [hmuted, hm])]
    rcases he : s.redoEvent? with _ | expected
    · exact ⟨_, rfl, by simpa [Stack.hear, he] using h⟩
    · by_cases hid : expected.id = e.id
      · -- an event to redo lies behind the cursor, so there is a position to move to
        have hlt : s.applied < j.timeline.size := by
          rw [h.size_eq]
          exact (List.getElem?_eq_some_iff.mp he).1
        obtain ⟨q, hq⟩ := j.timeline.exists_ordinal_of_le hlt
        refine ⟨j.moved q .redo "redo" e, ?_, ?_⟩
        · simp [hid, Timeline.next_of_ordinal h.cursor, Timeline.positionAt?_eq_some_iff.mpr hq,
            bind, Except.bind]
        · have hhear : s.hear (.redone e) = { s with applied := s.applied + 1 } := by
            simp [Stack.hear, hm, he, hid]
          exact hhear ▸ h.of_cursor hq
      · refine ⟨j.ignoring .warn "redo notified for an event that is not next"
          [("event_id", e.id.text), ("expected", expected.id.text)], ?_, ?_⟩
        · simp [hid, bind, Except.bind]
        · simpa [Stack.hear, he, hid] using h
  · rw [if_pos (by simp [hmuted, hm])]
    exact ⟨_, rfl, by simpa [Stack.hear, hm] using h⟩

private theorem hearCommitted (h : j.Traces s) (e : Event) :
    ∃ r, j.hearCommitted e = .ok r ∧ r.journal.Traces (s.hear (.committed e)) := by
  have hle : s.applied ≤ j.timeline.toList.length := by
    rw [Timeline.length_toList, h.size_eq]
    exact h.applied_le
  -- what is kept are the applied events, whether or not others had to be cut off
  obtain ⟨dropping, kept, hhear, hlist⟩ : ∃ dropping kept,
      j.hearCommitted e = .ok (j.filing dropping kept e) ∧
        kept.toList = j.timeline.toList.take s.applied := by
    rcases hr : j.redoable with _ | _
    · refine ⟨[], j.timeline, hearCommitted_of_not_redoable hr e, (List.take_of_length_le ?_).symm⟩
      have : ¬ s.applied < s.events.length := by simpa [hr] using h.redoable_eq
      rw [Timeline.length_toList, h.size_eq]
      omega
    · obtain ⟨kept, hcut, hlist, -, -⟩ := Timeline.exists_truncateAfter h.cursor
      exact ⟨_, kept, hearCommitted_of_redoable hr hcut e, hlist⟩
  have hsize : kept.size = s.applied := by
    rw [← Timeline.length_toList, hlist, List.length_take_of_le hle]
  refine ⟨_, hhear, ?_, ?_, h.muted⟩
  · simp [filing, Stack.hear, hlist, ← h.events, List.map_take]
  · have hlast := kept.ordinal_append e
    rw [hsize] at hlast
    exact hlast

private theorem hearUndoCleared (h : j.Traces s) :
    ∃ r, j.hearUndoCleared = .ok r ∧ r.journal.Traces (s.hear .undoCleared) := by
  obtain ⟨t', hcut, hlist, -⟩ := Timeline.exists_truncateThrough h.cursor
  refine ⟨_, by rw [Journal.hearUndoCleared, hcut]; rfl, ?_, rfl, h.muted⟩
  simp [Stack.hear, hlist, ← h.events, List.map_drop]

private theorem hearRedoCleared (h : j.Traces s) :
    ∃ r, j.hearRedoCleared = .ok r ∧ r.journal.Traces (s.hear .redoCleared) := by
  obtain ⟨t', hcut, hlist, -, hord⟩ := Timeline.exists_truncateAfter h.cursor
  refine ⟨_, by rw [Journal.hearRedoCleared, hcut]; rfl, ?_, hord, h.muted⟩
  simp [Stack.hear, hlist, ← h.events, List.map_take]

/-- **Journal and stack stay together**: whatever the notice, the journal meets no fault and then
traces the stack that heard the same. -/
theorem hear (h : j.Traces s) (notice : Notice) :
    ∃ r, j.hear notice = .ok r ∧ r.journal.Traces (s.hear notice) := by
  cases notice with
  | committed e => exact h.hearCommitted e
  | undone e => exact h.hearUndone e
  | redone e => exact h.hearRedone e
  | undoCleared => exact h.hearUndoCleared
  | redoCleared => exact h.hearRedoCleared

/-! ### Requests of a caller -/

theorem mute (h : j.Traces s) (muted : Bool) :
    (j.mute muted).Traces { s with muted := muted } :=
  ⟨h.events, h.cursor, rfl⟩

/-- The cursor can be placed wherever the timeline has a position. -/
theorem place (h : j.Traces s) {p : Position} {n : Nat} (hp : j.timeline.ordinal p = .ok n) :
    ∃ r, j.place p = .ok r ∧ r.journal.Traces { s with applied := n } :=
  ⟨_, if_pos (Timeline.contains_iff_exists_ordinal.mpr ⟨n, hp⟩), h.of_cursor hp⟩

end Traces

end Journal

end UndoJournal
