import UndoJournal.Timeline.Order

/-!
# Changing a timeline

Through the flat list, `Timeline.append` adds one entry at the end, `Timeline.truncateAfter` keeps
a beginning and `Timeline.truncateThrough` keeps the rest. A run that is cut keeps its grouping:
the first entry that survives becomes the head of the others.

Identities come from a counter that no operation sets back, so an entry that was removed never
shares its identity with a later one.
-/

namespace UndoJournal

/-! ### The counter -/

@[simp] theorem Run.total_single (e : Entry) : total [single e] = 1 := rfl

/-- One more entry behind the last run is one entry more. -/
theorem Run.total_push_getLast? {rs : List Run} {run : Run} (h : rs.getLast? = some run)
    (e : Entry) : total (rs.dropLast ++ [run.push e]) = total rs + 1 := by
  obtain ⟨front, rfl⟩ := List.getLast?_eq_some_iff.mp h
  simp [push, size, Nat.add_assoc]

/-- The entries in front of a run, of the run, and behind it. -/
theorem Run.total_eq_around {rs : List Run} {i : Nat} {run : Run} (h : rs[i]? = some run) :
    total rs = total (rs.take i) + run.size + total (rs.drop (i + 1)) := by
  obtain ⟨hlt, hget⟩ := List.getElem?_eq_some_iff.mp h
  have hsplit : rs = rs.take i ++ run :: rs.drop (i + 1) := by
    rw [← hget, List.getElem_cons_drop, List.take_append_drop]
  conv => lhs; rw [hsplit]
  rw [total_append, total_cons, Nat.add_assoc]

/-- The entries that a run is made of are counted by its total. -/
@[simp] theorem Run.total_ofEntries? (es : List Entry) :
    total (ofEntries? es).toList = es.length := by
  cases es <;> rfl

namespace Timeline

/-- The run that an address of a timeline lies in, which reaches as far as the address does. -/
structure Reached (t : Timeline) (a : Address) where
  /-- The run at the index. -/
  run : Run
  /-- The run is there. -/
  run_eq : t.runs[a.group]? = some run
  /-- It reaches so far. -/
  reach_le : a.reach ≤ run.size

/-- The run that an address lies in, or the fault of looking it up. -/
def locate (t : Timeline) (lookup : Lookup) (a : Address) : Except Fault (t.Reached a) :=
  let fault := .unknownAddress lookup a t.runs.length t.size
  match hrun : t.runs[a.group]? with
  | none => .error fault
  | some run => if hreach : a.reach ≤ run.size then .ok ⟨run, hrun, hreach⟩ else .error fault

/-- File an event at the end. With grouping on it joins the last run if it is of the kind of that
run's head. -/
def append (t : Timeline) (event : Event) : Filed × Timeline :=
  let entry : Entry := ⟨⟨t.nextId⟩, event⟩
  let alone : Filed × Timeline :=
    (⟨.ofHead t.runs.length, entry.id, .newRun⟩,
      { t with
        runs := t.runs ++ [.single entry]
        nextId := t.nextId + 1
        size := t.size + 1
        size_eq_total := by rw [Run.total_append, Run.total_single, t.size_eq_total] })
  match hlast : t.runs.getLast? with
  | none => alone
  | some run =>
    if t.grouping && run.head.event.kind == event.kind then
      let group := t.runs.length - 1
      (⟨.ofChild group run.rest.length, entry.id, .joined (.ofHead group)⟩,
        { t with
          runs := t.runs.dropLast ++ [run.push entry]
          nextId := t.nextId + 1
          size := t.size + 1
          size_eq_total := by rw [Run.total_push_getLast? hlast, t.size_eq_total] })
    else
      alone

/-- Remove everything; the number of entries removed comes along. -/
def clear (t : Timeline) : Nat × Timeline :=
  (t.size, { t with runs := [], size := 0, size_eq_total := Run.zero_eq_total_nil })

/-- Remove everything behind a position; the number of entries removed comes along. -/
def truncateAfter (t : Timeline) (p : Position) : Except Fault (Nat × Timeline) :=
  match p with
  | .start => .ok t.clear
  | .on a => do
    let ⟨run, hrun, hreach⟩ ← t.locate .truncateAfter a
    let keep := a.reach - 1
    let later := Run.total (t.runs.drop (a.group + 1))
    let removed := later + (run.rest.length - keep)
    .ok (removed,
      { t with
        runs := t.runs.take a.group ++ [{ run with rest := run.rest.take keep }]
        size := t.size - removed
        size_eq_total := by
          rw [t.size_eq_total, Run.total_eq_around hrun]
          simp only [Run.total_append, Run.total_cons, Run.total_nil, Run.size, List.length_take]
          omega })

/-- Remove everything up to and including a position; the number of entries removed comes along. -/
def truncateThrough (t : Timeline) (p : Position) : Except Fault (Nat × Timeline) :=
  match p with
  | .start => .ok (0, t)
  | .on a => do
    let ⟨run, hrun, hreach⟩ ← t.locate .truncateThrough a
    let survivors := run.rest.drop (a.reach - 1)
    let removed := t.sizeBefore a.group + a.reach
    .ok (removed,
      { t with
        runs := (Run.ofEntries? survivors).toList ++ t.runs.drop (a.group + 1)
        size := t.size - removed
        size_eq_total := by
          have hpos := a.reach_pos
          rw [t.size_eq_total, Run.total_eq_around hrun]
          simp only [Run.total_append, Run.total_ofEntries?, survivors, List.length_drop,
            removed, sizeBefore, Run.size] at hreach ⊢
          omega })

end Timeline

end UndoJournal
