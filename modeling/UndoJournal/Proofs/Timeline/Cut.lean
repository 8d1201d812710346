import UndoJournal.Proofs.Timeline.Order

/-!
# What a change does to positions and identities

A position that a timeline is cut behind keeps its ordinal (`exists_truncateAfter`), and a filed
event has the last one (`ordinal_append`). A cut that drops nothing changes nothing
(`eq_of_truncateAfter`, `eq_of_truncateThrough`).

**Identities rise** along the flat list of every timeline that was made by filing and cutting
(`Numbered`), so no two entries share one.
-/

namespace UndoJournal

namespace Timeline

/-! ### Filing -/

@[simp] theorem size_append (t : Timeline) (event : Event) :
    (t.append event).2.size = t.size + 1 := by
  rw [← length_toList, toList_append, List.length_append, length_toList]
  rfl

/-- A filed event is where the filing says, and it is the last one. -/
theorem ordinal_append (t : Timeline) (event : Event) :
    (t.append event).2.ordinal (.on (t.append event).1.address) = .ok (t.size + 1) := by
  suffices h : (t.append event).2.lastPosition = .on (t.append event).1.address by
    rw [← h, ordinal_lastPosition, size_append]
  rcases t.append_cases event with ⟨-, haddress, hruns⟩ | ⟨front, run, -, -, -, haddress, hruns⟩
  · simp [lastPosition, last?, Run.lastAddress, Run.single, haddress, hruns]
  · simp [lastPosition, last?, Run.lastAddress, Run.push, haddress, hruns]

/-- Filing leaves the heads of runs where they are. -/
theorem head?_append {t : Timeline} {group : Nat} {e : Entry} (h : t.head? group = some e)
    (event : Event) : (t.append event).2.head? group = some e := by
  obtain ⟨run, hrun, rfl⟩ := Option.map_eq_some_iff.mp h
  have hlt : group < t.runs.length := (List.getElem?_eq_some_iff.mp hrun).1
  rcases t.append_cases event with ⟨-, -, hruns⟩ | ⟨front, last, hfront, -, -, -, hruns⟩
  · rw [head?, hruns, List.getElem?_append_left hlt, hrun, Option.map_some]
  · rw [hfront] at hrun hlt
    rw [head?, hruns]
    -- the last run got one more entry, behind the same head
    rcases Nat.lt_or_ge group front.length with hin | hout
    · rw [List.getElem?_append_left hin] at hrun ⊢
      rw [hrun, Option.map_some]
    · obtain rfl : group = front.length := by
        rw [List.length_append, List.length_singleton] at hlt
        omega
      rw [List.getElem?_concat_length] at hrun ⊢
      obtain rfl : last = run := Option.some.inj hrun
      rfl

/-! ### Cutting -/

/-- The run in whose place another is put behind those before it. -/
private theorem getElem?_take_append {runs : List Run} {group : Nat} {run run' : Run}
    (h : runs[group]? = some run) : (runs.take group ++ [run'])[group]? = some run' := by
  have hlen : (runs.take group).length = group :=
    List.length_take_of_le (Nat.le_of_lt (List.getElem?_eq_some_iff.mp h).1)
  rw [List.getElem?_append_right (Nat.le_of_eq hlen), hlen, Nat.sub_self]
  rfl

/-- Cutting behind a position that the timeline has: the ordinal of the position says how much is
left, and the position stays where it is. -/
theorem exists_truncateAfter {t : Timeline} {p : Position} {n : Nat} (h : t.ordinal p = .ok n) :
    ∃ t', t.truncateAfter p = .ok (t.size - n, t') ∧ t'.toList = t.toList.take n ∧
      t'.nextId = t.nextId ∧ t'.ordinal p = .ok n := by
  cases p with
  | start =>
    obtain rfl : 0 = n := by simpa [ordinal] using h
    exact ⟨t.clear.2, rfl, rfl, rfl, rfl⟩
  | on a =>
    obtain ⟨run, hrun, hreach, rfl⟩ := ordinal_on_eq_ok_iff.mp h
    obtain ⟨t', hcut, hruns, -, hid⟩ := exists_truncateAfter_on hrun hreach
    have hpos := a.reach_pos
    have hdropped : Run.total (t.runs.drop (a.group + 1)) + (run.rest.length - (a.reach - 1)) =
        t.size - (t.sizeBefore a.group + a.reach) := by
      rw [t.size_eq_total, Run.total_eq_around hrun, sizeBefore]
      simp only [Run.size] at hreach ⊢
      omega
    rw [hdropped] at hcut
    refine ⟨t', hcut, toList_truncateAfter h hcut, hid, ordinal_on_eq_ok_iff.mpr ?_⟩
    -- the run of the position is the last one that is left, cut behind its reach
    have hlen : (t.runs.take a.group).length = a.group :=
      List.length_take_of_le (Nat.le_of_lt (List.getElem?_eq_some_iff.mp hrun).1)
    refine ⟨{ run with rest := run.rest.take (a.reach - 1) }, ?_, ?_, ?_⟩
    · rw [hruns, getElem?_take_append hrun]
    · simp only [Run.size, List.length_take] at hreach ⊢
      omega
    · rw [sizeBefore, sizeBefore, hruns, List.take_append_of_le_length (Nat.le_of_eq hlen.symm),
        List.take_take, Nat.min_self]

/-- Cutting through a position that the timeline has. -/
theorem exists_truncateThrough {t : Timeline} {p : Position} {n : Nat} (h : t.ordinal p = .ok n) :
    ∃ t', t.truncateThrough p = .ok (n, t') ∧ t'.toList = t.toList.drop n ∧
      t'.nextId = t.nextId := by
  cases p with
  | start =>
    obtain rfl : 0 = n := by simpa [ordinal] using h
    exact ⟨t, rfl, rfl, rfl⟩
  | on a =>
    obtain ⟨run, hrun, hreach, rfl⟩ := ordinal_on_eq_ok_iff.mp h
    obtain ⟨t', hcut, -, -, hid⟩ := exists_truncateThrough_on hrun hreach
    exact ⟨t', hcut, (toList_truncateThrough h hcut).2, hid⟩

/-- A node that was found is a position of the timeline. -/
private theorem Reached.exists_ordinal {t : Timeline} {a : Address} (found : t.Reached a) :
    ∃ n, t.ordinal (.on a) = .ok n :=
  ⟨_, ordinal_on_eq_ok_iff.mpr ⟨found.run, found.run_eq, found.reach_le, rfl⟩⟩

/-- Where a cut succeeds, the timeline has the position. -/
theorem exists_ordinal_of_truncateAfter {t : Timeline} {p : Position} {r : Nat × Timeline}
    (h : t.truncateAfter p = .ok r) : ∃ n, t.ordinal p = .ok n := by
  cases p with
  | start => exact ⟨0, rfl⟩
  | on a =>
    rcases hfound : t.locate .truncateAfter a with _ | found
    · simp [truncateAfter, hfound, bind, Except.bind] at h
    · exact found.exists_ordinal

/-- Where a cut succeeds, the timeline has the position. -/
theorem exists_ordinal_of_truncateThrough {t : Timeline} {p : Position} {r : Nat × Timeline}
    (h : t.truncateThrough p = .ok r) : ∃ n, t.ordinal p = .ok n := by
  cases p with
  | start => exact ⟨0, rfl⟩
  | on a =>
    rcases hfound : t.locate .truncateThrough a with _ | found
    · simp [truncateThrough, hfound, bind, Except.bind] at h
    · exact found.exists_ordinal

/-- A cut behind a position that succeeds, in terms of runs. -/
theorem runs_truncateAfter {t t' : Timeline} {p : Position} {dropped : Nat}
    (h : t.truncateAfter p = .ok (dropped, t')) :
    t'.nextId = t.nextId ∧ ((p = .start ∧ t'.runs = []) ∨
      ∃ a run, p = .on a ∧ t.runs[a.group]? = some run ∧
        t'.runs = t.runs.take a.group ++ [{ run with rest := run.rest.take (a.reach - 1) }]) := by
  cases p with
  | start =>
    cases h
    exact ⟨rfl, .inl ⟨rfl, rfl⟩⟩
  | on a =>
    obtain ⟨n, hn⟩ := exists_ordinal_of_truncateAfter h
    obtain ⟨run, hrun, hreach, -⟩ := ordinal_on_eq_ok_iff.mp hn
    obtain ⟨kept, hcut, hruns, -, hid⟩ := exists_truncateAfter_on hrun hreach
    obtain rfl : kept = t' := (Prod.mk.inj (Except.ok.inj (hcut.symm.trans h))).2
    exact ⟨hid, .inr ⟨a, run, rfl, hrun, hruns⟩⟩

/-- A cut through a position that succeeds, in terms of runs. -/
theorem runs_truncateThrough {t t' : Timeline} {p : Position} {dropped : Nat}
    (h : t.truncateThrough p = .ok (dropped, t')) :
    t'.nextId = t.nextId ∧ ((p = .start ∧ t' = t) ∨
      ∃ a run, p = .on a ∧ t.runs[a.group]? = some run ∧
        t'.runs = (Run.ofEntries? (run.rest.drop (a.reach - 1))).toList ++
          t.runs.drop (a.group + 1)) := by
  cases p with
  | start =>
    cases h
    exact ⟨rfl, .inl ⟨rfl, rfl⟩⟩
  | on a =>
    obtain ⟨n, hn⟩ := exists_ordinal_of_truncateThrough h
    obtain ⟨run, hrun, hreach, -⟩ := ordinal_on_eq_ok_iff.mp hn
    obtain ⟨kept, hcut, hruns, -, hid⟩ := exists_truncateThrough_on hrun hreach
    obtain rfl : kept = t' := (Prod.mk.inj (Except.ok.inj (hcut.symm.trans h))).2
    exact ⟨hid, .inr ⟨a, run, rfl, hrun, hruns⟩⟩

/-- Cutting behind a position leaves the head of its run where it is. -/
theorem head?_truncateAfter {t t' : Timeline} {p : Position} {group dropped : Nat}
    (h : t.truncateAfter p = .ok (dropped, t')) (hp : p.group? = some group) :
    ∃ e, t.head? group = some e ∧ t'.head? group = some e := by
  obtain ⟨-, ⟨rfl, -⟩ | ⟨a, run, rfl, hrun, hruns⟩⟩ := runs_truncateAfter h
  · cases hp
  · obtain rfl : a.group = group := Option.some.inj hp
    refine ⟨run.head, by rw [head?, hrun, Option.map_some], ?_⟩
    rw [head?, hruns, getElem?_take_append hrun]
    rfl

/-- Runs without entries are no runs. -/
private theorem eq_nil_of_total {rs : List Run} (h : Run.total rs = 0) : rs = [] := by
  cases rs with
  | nil => rfl
  | cons r rs =>
    rw [Run.total_cons] at h
    have := r.size_pos
    omega

/-- A cut behind a position that drops nothing changes nothing. -/
theorem eq_of_truncateAfter {t t' : Timeline} {p : Position}
    (h : t.truncateAfter p = .ok (0, t')) : t' = t := by
  obtain ⟨n, hn⟩ := exists_ordinal_of_truncateAfter h
  cases p with
  | start =>
    simp only [truncateAfter, clear, Except.ok.injEq, Prod.mk.injEq] at h
    obtain ⟨hsize, rfl⟩ := h
    exact ext_runs (eq_nil_of_total (t.size_eq_total ▸ hsize)).symm rfl rfl
  | on a =>
    obtain ⟨run, hrun, hreach, rfl⟩ := ordinal_on_eq_ok_iff.mp hn
    obtain ⟨kept, hcut, hruns, hgrouping, hid⟩ := exists_truncateAfter_on hrun hreach
    obtain ⟨hnothing, rfl⟩ := Prod.mk.inj (Except.ok.inj (hcut.symm.trans h))
    obtain ⟨hlater, hrest⟩ := Nat.add_eq_zero_iff.mp hnothing
    -- nothing behind the run and nothing behind the position in it: the run is the last one
    have hall : run.rest.take (a.reach - 1) = run.rest := List.take_of_length_le (by omega)
    have hlast : t.runs = t.runs.take a.group ++ [run] := by
      conv => lhs; rw [← List.take_append_drop (a.group + 1) t.runs, eq_nil_of_total hlater]
      rw [List.append_nil, List.take_add_one, hrun]
      rfl
    refine ext_runs ?_ hgrouping hid
    rw [hruns, hall]
    exact hlast.symm

/-- A cut through a position that drops nothing changes nothing. -/
theorem eq_of_truncateThrough {t t' : Timeline} {p : Position}
    (h : t.truncateThrough p = .ok (0, t')) : t' = t := by
  obtain ⟨n, hn⟩ := exists_ordinal_of_truncateThrough h
  obtain ⟨rfl, -⟩ := toList_truncateThrough hn h
  obtain rfl : p = .start := eq_of_ordinal_eq hn rfl
  simpa [truncateThrough, eq_comm] using h

/-! ### Identities -/

/-- Identities rise along the flat list, and the next one is above them. -/
structure Numbered (t : Timeline) : Prop where
  /-- A later entry has a greater identity. -/
  rising : t.toList.Pairwise fun x y => x.id.raw < y.id.raw
  /-- Every identity was given out. -/
  below : ∀ e ∈ t.toList, e.id.raw < t.nextId

namespace Numbered

theorem empty (grouping : Bool) : (Timeline.empty grouping).Numbered :=
  ⟨List.Pairwise.nil, by simp⟩

/-- Filing gives out the next identity. -/
theorem append {t : Timeline} (h : t.Numbered) (event : Event) :
    (t.append event).2.Numbered := by
  constructor
  · rw [toList_append, List.pairwise_append]
    refine ⟨h.rising, List.pairwise_singleton _ _, fun x hx y hy => ?_⟩
    obtain rfl := List.mem_singleton.mp hy
    exact h.below x hx
  · intro e he
    rw [nextId_append]
    rcases List.mem_append.mp (toList_append t event ▸ he) with he | he
    · exact Nat.lt_succ_of_lt (h.below e he)
    · obtain rfl := List.mem_singleton.mp he
      exact Nat.lt_succ_self _

/-- Entries that are left keep their identities. -/
private theorem of_sublist {t t' : Timeline} (h : t.Numbered) (hsub : t'.toList.Sublist t.toList)
    (hid : t'.nextId = t.nextId) : t'.Numbered :=
  ⟨h.rising.sublist hsub, fun e he => hid ▸ h.below e (hsub.mem he)⟩

theorem truncateAfter {t t' : Timeline} (h : t.Numbered) {p : Position} {dropped : Nat}
    (hcut : t.truncateAfter p = .ok (dropped, t')) : t'.Numbered := by
  obtain ⟨n, hn⟩ := exists_ordinal_of_truncateAfter hcut
  obtain ⟨t'', hcut', hlist, hid, -⟩ := exists_truncateAfter hn
  obtain ⟨-, rfl⟩ : t.size - n = dropped ∧ t'' = t' := by simpa using hcut'.symm.trans hcut
  exact h.of_sublist (hlist ▸ List.take_sublist n _) hid

theorem truncateThrough {t t' : Timeline} (h : t.Numbered) {p : Position} {dropped : Nat}
    (hcut : t.truncateThrough p = .ok (dropped, t')) : t'.Numbered := by
  obtain ⟨n, hn⟩ := exists_ordinal_of_truncateThrough hcut
  obtain ⟨t'', hcut', hlist, hid⟩ := exists_truncateThrough hn
  obtain ⟨-, rfl⟩ : n = dropped ∧ t'' = t' := by simpa using hcut'.symm.trans hcut
  exact h.of_sublist (hlist ▸ List.drop_sublist n _) hid

/-- No two entries share an identity. -/
theorem nodup_ids {t : Timeline} (h : t.Numbered) : (t.toList.map Entry.id).Nodup := by
  rw [List.Nodup, List.pairwise_map]
  exact h.rising.imp fun {x y} hlt heq => by
    rw [heq] at hlt
    omega

end Numbered

end Timeline

end UndoJournal
