import UndoJournal.Timeline.Edit

/-!
# The flat list of a timeline

What each operation on a timeline does to the flat list `Timeline.toList`.

* `Timeline.append` adds one entry at the end, which has the next identity (`toList_append`).
* `Timeline.truncateAfter` keeps as many entries as the ordinal of the position says, and
  `Timeline.truncateThrough` keeps the others (`toList_truncateAfter`, `toList_truncateThrough`).
* `Timeline.placed` lists the same entries with their places (`map_entry_placed`).
-/

namespace UndoJournal

/-! ### Runs -/

namespace Run

@[simp] theorem entries_single (e : Entry) : (single e).entries = [e] := rfl

@[simp] theorem length_entries (r : Run) : r.entries.length = r.size := rfl

@[simp] theorem entries_push (r : Run) (e : Entry) : (r.push e).entries = r.entries ++ [e] := rfl

/-- A list of entries is the entries of the run that it makes. -/
theorem flatMap_entries_ofEntries? (es : List Entry) :
    (ofEntries? es).toList.flatMap entries = es := by
  cases es <;> simp [ofEntries?, entries]

/-- The entries of some runs are as many as they have. -/
theorem length_flatMap_entries (rs : List Run) : (rs.flatMap entries).length = total rs := by
  induction rs with
  | nil => rfl
  | cons r rs ih => simp [ih]

/-- Giving the entries of a run their places changes neither the entries nor their order. -/
theorem map_entry_placed (r : Run) (group : Nat) :
    (r.placed group).map Placed.entry = r.entries := by
  simp only [placed, entries, List.map_cons, List.map_map]
  exact congrArg _ ((List.map_congr_left fun _ _ => rfl).trans (List.zipIdx_map_fst 0 r.rest))

end Run

namespace Timeline

/-! ### Views -/

@[simp] theorem toList_empty (grouping : Bool) : (empty grouping).toList = [] := rfl

/-- The number of entries is the length of the flat list. -/
@[simp] theorem length_toList (t : Timeline) : t.toList.length = t.size := by
  rw [t.size_eq_total, toList, Run.length_flatMap_entries]

/-- A timeline is known by its runs and its settings; the counter follows. -/
theorem ext_runs {t t' : Timeline} (hruns : t.runs = t'.runs) (hgrouping : t.grouping = t'.grouping)
    (hid : t.nextId = t'.nextId) : t = t' := by
  have hsize : t.size = t'.size := by rw [t.size_eq_total, t'.size_eq_total, hruns]
  cases t
  cases t'
  simp_all

/-- The flat list lists the entries that have places. -/
theorem map_entry_placed (t : Timeline) : t.placed.map Placed.entry = t.toList := by
  simp only [placed, toList, List.map_flatMap]
  have h : ∀ (rs : List Run) (n : Nat),
      ((rs.zipIdx n).flatMap fun p => (p.1.placed p.2).map Placed.entry) =
        rs.flatMap Run.entries := by
    intro rs
    induction rs with
    | nil => intro n; rfl
    | cons r rs ih =>
      intro n
      rw [List.zipIdx_cons, List.flatMap_cons, List.flatMap_cons, ih, Run.map_entry_placed]
  exact h t.runs 0

/-- Every entry has one place. -/
theorem length_placed (t : Timeline) : t.placed.length = t.size := by
  rw [← length_toList, ← map_entry_placed, List.length_map]

/-! ### Filing -/

/-- An event starts a run of its own, or it joins the last run, which is of its kind. -/
theorem append_cases (t : Timeline) (event : Event) :
    ((∀ run, t.runs.getLast? = some run →
        t.grouping = false ∨ run.head.event.kind ≠ event.kind) ∧
      (t.append event).1.address = .ofHead t.runs.length ∧
      (t.append event).2.runs = t.runs ++ [.single ⟨⟨t.nextId⟩, event⟩]) ∨
    ∃ front run, t.runs = front ++ [run] ∧ t.grouping = true ∧
      run.head.event.kind = event.kind ∧
      (t.append event).1.address = .ofChild front.length run.rest.length ∧
      (t.append event).2.runs = front ++ [run.push ⟨⟨t.nextId⟩, event⟩] := by
  unfold append
  dsimp only
  split
  · next hlast => exact .inl ⟨fun run hrun => by simp [hlast] at hrun, rfl, rfl⟩
  · next run hlast =>
    obtain ⟨front, hfront⟩ := List.getLast?_eq_some_iff.mp hlast
    split
    · next hjoins =>
      simp only [Bool.and_eq_true, beq_iff_eq] at hjoins
      refine .inr ⟨front, run, hfront, hjoins.1, hjoins.2, ?_, ?_⟩
      · simp [hfront]
      · simp [hfront]
    · next hapart =>
      refine .inl ⟨fun run' hrun' => ?_, rfl, rfl⟩
      obtain rfl : run = run' := Option.some.inj (hlast.symm.trans hrun')
      by_cases hg : t.grouping = true
      · exact .inr fun hkind => hapart (by simp [hg, hkind])
      · exact .inl (by simpa using hg)

@[simp] theorem grouping_append (t : Timeline) (event : Event) :
    (t.append event).2.grouping = t.grouping := by
  unfold append
  dsimp only
  split
  · rfl
  · split <;> rfl

@[simp] theorem nextId_append (t : Timeline) (event : Event) :
    (t.append event).2.nextId = t.nextId + 1 := by
  unfold append
  dsimp only
  split
  · rfl
  · split <;> rfl

@[simp] theorem id_append (t : Timeline) (event : Event) :
    (t.append event).1.id = ⟨t.nextId⟩ := by
  unfold append
  dsimp only
  split
  · rfl
  · split <;> rfl

/-- Filing an event puts it behind all entries, with the next identity. -/
@[simp] theorem toList_append (t : Timeline) (event : Event) :
    (t.append event).2.toList = t.toList ++ [⟨⟨t.nextId⟩, event⟩] := by
  rcases t.append_cases event with ⟨-, -, hruns⟩ | ⟨front, run, hfront, -, -, -, hruns⟩
  · simp [toList, hruns]
  · simp [toList, hruns, hfront]

/-! ### Cutting -/

@[simp] theorem toList_clear (t : Timeline) : t.clear.2.toList = [] := rfl

/-- The entries of the runs in front of an index. -/
theorem length_flatMap_take (t : Timeline) (group : Nat) :
    ((t.runs.take group).flatMap Run.entries).length = t.sizeBefore group :=
  Run.length_flatMap_entries _

/-- The flat list around the run at an index. -/
theorem toList_eq_of_getElem? {t : Timeline} {group : Nat} {run : Run}
    (h : t.runs[group]? = some run) :
    t.toList = (t.runs.take group).flatMap Run.entries ++ run.entries ++
      (t.runs.drop (group + 1)).flatMap Run.entries := by
  obtain ⟨hlt, hget⟩ := List.getElem?_eq_some_iff.mp h
  have hsplit : t.runs = t.runs.take group ++ run :: t.runs.drop (group + 1) := by
    rw [← hget, List.getElem_cons_drop, List.take_append_drop]
  conv => lhs; rw [toList, hsplit]
  simp

/-- An address that names a node lies in a run that reaches so far. -/
theorem exists_run_of_get?_eq_some {t : Timeline} {a : Address} {r : Run}
    (h : t.get? a = some r) : ∃ run, t.runs[a.group]? = some run ∧ a.reach ≤ run.size := by
  rcases hrun : t.runs[a.group]? with _ | run
  · simp [get?, hrun] at h
  · refine ⟨run, rfl, ?_⟩
    rcases hc : a.child with _ | i
    · simp [Address.reach, hc, Run.size]
    · have hi : run.rest[i]?.isSome := by
        cases hr : run.rest[i]? <;> simp [get?, hrun, hc, hr] at h ⊢
      have hlt : i < run.rest.length := by simpa using hi
      simp only [Address.reach, hc, Run.size]
      omega

/-- The run that a position with an ordinal is in, and the ordinal. -/
theorem ordinal_on_eq_ok {t : Timeline} {a : Address} {n : Nat} (h : t.ordinal (.on a) = .ok n) :
    n = t.sizeBefore a.group + a.reach ∧ ∃ r, t.get? a = some r := by
  rcases hget : t.get? a with _ | r
  · simp [ordinal, expect, hget, bind, Except.bind] at h
  · simp only [ordinal, expect, hget, bind, Except.bind, Except.ok.injEq] at h
    exact ⟨h.symm, r, rfl⟩

/-- A look-up finds the run that is there and reaches so far. -/
theorem locate_eq_ok {t : Timeline} {a : Address} {run : Run} (hrun : t.runs[a.group]? = some run)
    (hreach : a.reach ≤ run.size) (lookup : Lookup) :
    t.locate lookup a = .ok ⟨run, hrun, hreach⟩ := by
  unfold locate
  dsimp only
  split
  · next hnone => simp [hrun] at hnone
  · next run' hrun' =>
    obtain rfl : run = run' := Option.some.inj (hrun.symm.trans hrun')
    rw [dif_pos hreach]

/-- Cutting behind a node: its run is the last one that is left, cut behind the node. -/
theorem exists_truncateAfter_on {t : Timeline} {a : Address} {run : Run}
    (hrun : t.runs[a.group]? = some run) (hreach : a.reach ≤ run.size) :
    ∃ t', t.truncateAfter (.on a) =
        .ok (Run.total (t.runs.drop (a.group + 1)) + (run.rest.length - (a.reach - 1)), t') ∧
      t'.runs = t.runs.take a.group ++ [{ run with rest := run.rest.take (a.reach - 1) }] ∧
      t'.grouping = t.grouping ∧ t'.nextId = t.nextId := by
  simp only [truncateAfter, locate_eq_ok hrun hreach, bind, Except.bind]
  exact ⟨_, rfl, rfl, rfl, rfl⟩

/-- Cutting through a node: what is left of its run is a run of its own, with a new head. -/
theorem exists_truncateThrough_on {t : Timeline} {a : Address} {run : Run}
    (hrun : t.runs[a.group]? = some run) (hreach : a.reach ≤ run.size) :
    ∃ t', t.truncateThrough (.on a) = .ok (t.sizeBefore a.group + a.reach, t') ∧
      t'.runs = (Run.ofEntries? (run.rest.drop (a.reach - 1))).toList ++
        t.runs.drop (a.group + 1) ∧
      t'.grouping = t.grouping ∧ t'.nextId = t.nextId := by
  simp only [truncateThrough, locate_eq_ok hrun hreach, bind, Except.bind]
  exact ⟨_, rfl, rfl, rfl, rfl⟩

/-- Cutting behind a position keeps as many entries as its ordinal says. -/
theorem toList_truncateAfter {t t' : Timeline} {p : Position} {n dropped : Nat}
    (hn : t.ordinal p = .ok n) (h : t.truncateAfter p = .ok (dropped, t')) :
    t'.toList = t.toList.take n := by
  cases p with
  | start =>
    simp only [ordinal, Except.ok.injEq] at hn
    simp only [truncateAfter, Except.ok.injEq] at h
    subst hn
    rw [List.take_zero, ← toList_clear t, h]
  | on a =>
    obtain ⟨rfl, r, hget⟩ := ordinal_on_eq_ok hn
    obtain ⟨run, hrun, hreach⟩ := exists_run_of_get?_eq_some hget
    obtain ⟨kept, hcut, hruns, -, -⟩ := exists_truncateAfter_on hrun hreach
    obtain rfl : kept = t' := (Prod.mk.inj (Except.ok.inj (hcut.symm.trans h))).2
    have hpos : a.reach = a.reach - 1 + 1 := (Nat.succ_pred_eq_of_pos a.reach_pos).symm
    rw [toList_eq_of_getElem? hrun, List.append_assoc, ← length_flatMap_take,
      List.take_length_add_append, List.take_append_of_le_length (by simpa using hreach), hpos]
    simp [toList, hruns, Run.entries]

/-- Cutting through a position keeps the entries behind as many as its ordinal says. -/
theorem toList_truncateThrough {t t' : Timeline} {p : Position} {n dropped : Nat}
    (hn : t.ordinal p = .ok n) (h : t.truncateThrough p = .ok (dropped, t')) :
    dropped = n ∧ t'.toList = t.toList.drop n := by
  cases p with
  | start =>
    simp only [ordinal, Except.ok.injEq] at hn
    simp only [truncateThrough, Except.ok.injEq, Prod.mk.injEq] at h
    obtain ⟨rfl, rfl⟩ := h
    subst hn
    exact ⟨rfl, rfl⟩
  | on a =>
    obtain ⟨rfl, r, hget⟩ := ordinal_on_eq_ok hn
    obtain ⟨run, hrun, hreach⟩ := exists_run_of_get?_eq_some hget
    obtain ⟨kept, hcut, hruns, -, -⟩ := exists_truncateThrough_on hrun hreach
    obtain ⟨rfl, rfl⟩ := Prod.mk.inj (Except.ok.inj (hcut.symm.trans h))
    have hpos : a.reach = a.reach - 1 + 1 := (Nat.succ_pred_eq_of_pos a.reach_pos).symm
    refine ⟨rfl, ?_⟩
    rw [toList_eq_of_getElem? hrun, List.append_assoc, ← length_flatMap_take,
      List.drop_length_add_append, List.drop_append_of_le_length (by simpa using hreach), hpos]
    simp [toList, hruns, Run.entries, Run.flatMap_entries_ofEntries?]

end Timeline

end UndoJournal
