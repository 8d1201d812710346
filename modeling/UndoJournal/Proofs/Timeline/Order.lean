import UndoJournal.Timeline.Lemmas

/-!
# Positions are ordinals

`Timeline.ordinal` and `Timeline.positionAt?` are inverse to each other, so the positions of a
timeline are the numbers from `0` to its size (`positionAt?_eq_some_iff`). Everything else about
sequence order is said through that number.

* `next` and `prev` are one more and one less (`next_of_ordinal`, `prev_of_ordinal`).
* The last position has the size as its ordinal, and no other position has
  (`eq_lastPosition_iff`).
* The address with an ordinal names the entry in front of that place of the flat list
  (`get?_of_ordinal`).
-/

namespace UndoJournal

private theorem Address.reach_ofHead (group : Nat) : (Address.ofHead group).reach = 1 := rfl

theorem Address.reach_ofChild (group i : Nat) : (Address.ofChild group i).reach = i + 2 := rfl

/-- An address is known by its run and by how far it reaches into it. -/
private theorem Address.ext_reach {a b : Address} (hg : a.group = b.group)
    (hr : a.reach = b.reach) :
    a = b := by
  obtain ⟨g, c⟩ := a
  obtain ⟨g', c'⟩ := b
  obtain rfl : g = g' := hg
  cases c <;> cases c' <;> simp_all [Address.reach]

theorem Run.size_pos (r : Run) : 0 < r.size := Nat.succ_pos _

theorem Run.group_lastAddress (r : Run) (group : Nat) : (r.lastAddress group).group = group := by
  unfold lastAddress
  split <;> rfl

/-- The last address is as far as one gets in a run. -/
private theorem Run.reach_lastAddress (r : Run) (group : Nat) :
    (r.lastAddress group).reach = r.size := by
  unfold lastAddress
  split <;> rename_i h <;> rw [size, h] <;> rfl

/-- Counting on from the index of an entry does not come round. -/
private theorem Run.wraps_eq_false {r : Run} {i : Nat} (h : i < r.rest.length) :
    r.wraps i = false := by
  simp [wraps, Nat.not_le.mpr h]

namespace Timeline

/-! ### Addresses of a timeline -/

/-- An address names a node if its run is there and reaches so far. -/
theorem get?_isSome_iff {t : Timeline} {a : Address} :
    (t.get? a).isSome ↔ ∃ run, t.runs[a.group]? = some run ∧ a.reach ≤ run.size := by
  constructor
  · intro h
    obtain ⟨r, hr⟩ := Option.isSome_iff_exists.mp h
    exact exists_run_of_get?_eq_some hr
  · rintro ⟨run, hrun, hreach⟩
    rcases hc : a.child with _ | i
    · simp [get?, hrun, hc]
    · have hi : i < run.rest.length := by
        simp only [Address.reach, hc, Run.size] at hreach
        omega
      simp [get?, hrun, hc, hi]

private theorem exists_get? {t : Timeline} {a : Address} {run : Run}
    (hrun : t.runs[a.group]? = some run)
    (hreach : a.reach ≤ run.size) : ∃ r, t.get? a = some r :=
  Option.isSome_iff_exists.mp (get?_isSome_iff.mpr ⟨run, hrun, hreach⟩)

/-- The ordinal of an address counts the runs in front and its reach. -/
theorem ordinal_on_eq_ok_iff {t : Timeline} {a : Address} {n : Nat} :
    t.ordinal (.on a) = .ok n ↔
      ∃ run, t.runs[a.group]? = some run ∧ a.reach ≤ run.size ∧
        n = t.sizeBefore a.group + a.reach := by
  constructor
  · intro h
    obtain ⟨hn, r, hr⟩ := ordinal_on_eq_ok h
    obtain ⟨run, hrun, hreach⟩ := exists_run_of_get?_eq_some hr
    exact ⟨run, hrun, hreach, hn⟩
  · rintro ⟨run, hrun, hreach, rfl⟩
    obtain ⟨r, hr⟩ := exists_get? hrun hreach
    simp [ordinal, expect, hr, bind, Except.bind]

/-- A position is in the timeline exactly if it has an ordinal. -/
theorem contains_iff_exists_ordinal {t : Timeline} {p : Position} :
    t.contains p = true ↔ ∃ n, t.ordinal p = .ok n := by
  cases p with
  | start => simp [contains, ordinal]
  | on a =>
    simp only [contains, get?_isSome_iff, ordinal_on_eq_ok_iff]
    constructor
    · rintro ⟨run, h, hr⟩
      exact ⟨_, run, h, hr, rfl⟩
    · rintro ⟨_, run, h, hr, _⟩
      exact ⟨run, h, hr⟩

@[simp] theorem sizeBefore_zero (t : Timeline) : t.sizeBefore 0 = 0 := by simp [sizeBefore]

private theorem sizeBefore_succ {t : Timeline} {group : Nat} {run : Run}
    (h : t.runs[group]? = some run) :
    t.sizeBefore (group + 1) = t.sizeBefore group + run.size := by
  simp [sizeBefore, List.take_add_one, h]

/-- All runs lie in front of the end. -/
private theorem sizeBefore_eq_size {t : Timeline} {group : Nat} (h : t.runs.length ≤ group) :
    t.sizeBefore group = t.size := by
  simp [sizeBefore, size_eq_total, List.take_of_length_le h]

/-- What lies at or before a run is part of the whole. -/
theorem sizeBefore_add_size_le {t : Timeline} {group : Nat} {run : Run}
    (h : t.runs[group]? = some run) : t.sizeBefore group + run.size ≤ t.size := by
  rw [← length_toList, toList_eq_of_getElem? h, ← length_flatMap_take, ← Run.length_entries]
  simp

/-! ### Ordinals and positions -/

/-- The address at an index of runs that begin at index `g`. -/
private theorem addressFrom?_eq_some_iff {runs : List Run} {g k : Nat} {a : Address} :
    addressFrom? g runs k = some a ↔
      ∃ i run, a.group = g + i ∧ runs[i]? = some run ∧ a.reach ≤ run.size ∧
        k + 1 = Run.total (runs.take i) + a.reach := by
  induction runs generalizing g k with
  | nil => simp [addressFrom?]
  | cons r runs ih =>
    simp only [addressFrom?]
    by_cases hk : k < r.size
    · rw [if_pos hk, Option.some.injEq]
      constructor
      · rintro rfl
        refine ⟨0, r, ?_, rfl, ?_, ?_⟩ <;> cases k <;>
          simp [Address.reach, Address.ofHead, Address.ofChild] <;> omega
      · rintro ⟨i, run, hg, hrun, hreach, hk'⟩
        cases i with
        | zero =>
          simp only [List.take_zero, Run.total_nil] at hk'
          refine Address.ext_reach ?_ ?_
          · cases k <;> exact hg.symm
          · cases k <;> simp only [Address.reach_ofHead, Address.reach_ofChild] <;> omega
        | succ i =>
          -- the address lies behind the first run, whose entries reach beyond `k`
          simp only [List.take_succ_cons, Run.total_cons] at hk'
          have := a.reach_pos
          omega
    · rw [if_neg hk, ih]
      constructor
      · rintro ⟨i, run, hg, hrun, hreach, hk'⟩
        refine ⟨i + 1, run, by omega, hrun, hreach, ?_⟩
        simp only [List.take_succ_cons, Run.total_cons]
        omega
      · rintro ⟨i, run, hg, hrun, hreach, hk'⟩
        cases i with
        | zero =>
          obtain rfl : r = run := by simpa using hrun
          simp only [List.take_zero, Run.total_nil] at hk'
          omega
        | succ i =>
          refine ⟨i, run, by omega, hrun, hreach, ?_⟩
          simp only [List.take_succ_cons, Run.total_cons] at hk'
          omega

/-- **Ordinals and positions are inverse**: the position at a number is the one that has it as its
ordinal. -/
theorem positionAt?_eq_some_iff {t : Timeline} {n : Nat} {p : Position} :
    t.positionAt? n = some p ↔ t.ordinal p = .ok n := by
  cases p with
  | start => cases n <;> simp [positionAt?, ordinal]
  | on a =>
    cases n with
    | zero =>
      simp only [positionAt?, Option.some.injEq, reduceCtorEq, ordinal_on_eq_ok_iff, false_iff]
      rintro ⟨run, -, -, h⟩
      have := a.reach_pos
      omega
    | succ k =>
      simp only [positionAt?, Option.map_eq_some_iff, Position.on.injEq, exists_eq_right,
        addressFrom?_eq_some_iff, ordinal_on_eq_ok_iff, Nat.zero_add]
      constructor
      · rintro ⟨i, run, rfl, hrun, hreach, hk⟩
        exact ⟨run, hrun, hreach, hk⟩
      · rintro ⟨run, hrun, hreach, hk⟩
        exact ⟨a.group, run, rfl, hrun, hreach, hk⟩

/-- A position is known by its ordinal. -/
theorem eq_of_ordinal_eq {t : Timeline} {p q : Position} {n : Nat} (hp : t.ordinal p = .ok n)
    (hq : t.ordinal q = .ok n) : p = q :=
  Option.some.inj ((positionAt?_eq_some_iff.mpr hp).symm.trans (positionAt?_eq_some_iff.mpr hq))

/-- No ordinal is greater than the size. -/
theorem ordinal_le_size {t : Timeline} {p : Position} {n : Nat} (h : t.ordinal p = .ok n) :
    n ≤ t.size := by
  cases p with
  | start =>
    simp only [ordinal, Except.ok.injEq] at h
    omega
  | on a =>
    obtain ⟨run, hrun, hreach, rfl⟩ := ordinal_on_eq_ok_iff.mp h
    have := sizeBefore_add_size_le hrun
    omega

/-- The head of a run is the first of its entries. -/
theorem ordinal_ofHead {t : Timeline} {group : Nat} {run : Run}
    (hrun : t.runs[group]? = some run) :
    t.ordinal (.on (.ofHead group)) = .ok (t.sizeBefore group + 1) :=
  ordinal_on_eq_ok_iff.mpr ⟨run, hrun, run.size_pos, rfl⟩

/-- Where a position has an entry at or before it, there is a run. -/
theorem runs_ne_nil_of_ordinal {t : Timeline} {p : Position} {n : Nat} (h : t.ordinal p = .ok n)
    (hn : 0 < n) : t.runs ≠ [] := by
  rintro hnil
  cases p with
  | start => exact absurd (Except.ok.inj h) (Nat.ne_of_lt hn)
  | on a =>
    obtain ⟨run, hrun, -⟩ := ordinal_on_eq_ok_iff.mp h
    simp [hnil] at hrun

/-- Only the first entry has one entry at or before it. -/
theorem eq_first_iff {t : Timeline} {p : Position} {n : Nat} (h : t.ordinal p = .ok n) :
    p = .on (.ofHead 0) ↔ n = 1 := by
  have hfirst : ∀ {run}, t.runs[0]? = some run → t.ordinal (.on (.ofHead 0)) = .ok 1 :=
    fun hrun => by rw [ordinal_ofHead hrun, sizeBefore_zero]
  constructor
  · rintro rfl
    obtain ⟨run, hrun, -⟩ := ordinal_on_eq_ok_iff.mp h
    exact Except.ok.inj (h.symm.trans (hfirst hrun))
  · rintro rfl
    obtain ⟨run, runs, hcons⟩ :=
      List.exists_cons_of_ne_nil (runs_ne_nil_of_ordinal h Nat.one_pos)
    exact eq_of_ordinal_eq h (hfirst (by rw [hcons]; rfl))

/-- The entries behind the head come in order. -/
theorem ordinal_ofChild {t : Timeline} {group i : Nat} {run : Run}
    (hrun : t.runs[group]? = some run) (hi : i < run.rest.length) :
    t.ordinal (.on (.ofChild group i)) = .ok (t.sizeBefore group + i + 2) :=
  ordinal_on_eq_ok_iff.mpr ⟨run, hrun, Nat.succ_le_succ hi, rfl⟩

/-- An entry behind the head that has an ordinal is one of the run. -/
theorem of_ordinal_ofChild {t : Timeline} {group i n : Nat} {run : Run}
    (hrun : t.runs[group]? = some run) (h : t.ordinal (.on (.ofChild group i)) = .ok n) :
    i < run.rest.length ∧ n = t.sizeBefore group + i + 2 := by
  obtain ⟨run', hrun', hreach, hn⟩ := ordinal_on_eq_ok_iff.mp h
  obtain rfl : run = run' := Option.some.inj (hrun.symm.trans hrun')
  exact ⟨Nat.lt_of_succ_le (Nat.le_of_succ_le_succ hreach), hn⟩

/-- The end of a run is behind all its entries. -/
theorem ordinal_lastAddress {t : Timeline} {group : Nat} {run : Run}
    (hrun : t.runs[group]? = some run) :
    t.ordinal (.on (run.lastAddress group)) = .ok (t.sizeBefore group + run.size) := by
  rw [ordinal_on_eq_ok_iff, run.group_lastAddress, run.reach_lastAddress]
  exact ⟨run, hrun, Nat.le_refl _, rfl⟩

/-- The last position has the size as its ordinal. -/
theorem ordinal_lastPosition (t : Timeline) : t.ordinal t.lastPosition = .ok t.size := by
  rcases hl : t.runs.getLast? with _ | run
  · have hnil : t.runs = [] := List.getLast?_eq_none_iff.mp hl
    simp [lastPosition, last?, size_eq_total, hnil, ordinal]
  · have hpos : 0 < t.runs.length := by
      rcases hr : t.runs with _ | ⟨r, rs⟩ <;> simp_all
    have hrun : t.runs[t.runs.length - 1]? = some run := by
      rwa [List.getLast?_eq_getElem?] at hl
    have hsize : t.sizeBefore (t.runs.length - 1) + run.size = t.size := by
      rw [← sizeBefore_succ hrun, sizeBefore_eq_size (by omega)]
    have hlast : t.lastPosition = .on (run.lastAddress (t.runs.length - 1)) := by
      simp [lastPosition, last?, hl]
    rw [hlast, ordinal_lastAddress hrun, hsize]

/-- Only the last position has the size as its ordinal. -/
theorem eq_lastPosition_iff {t : Timeline} {p : Position} {n : Nat} (h : t.ordinal p = .ok n) :
    p = t.lastPosition ↔ n = t.size := by
  constructor
  · rintro rfl
    simpa [ordinal_lastPosition, eq_comm] using h
  · rintro rfl
    exact eq_of_ordinal_eq h t.ordinal_lastPosition

/-- Every index of some runs has an address. -/
private theorem exists_addressFrom? {runs : List Run} (g : Nat) {k : Nat} (h : k < Run.total runs) :
    ∃ a, addressFrom? g runs k = some a := by
  induction runs generalizing g k with
  | nil => exact absurd h (Nat.not_lt_zero k)
  | cons r runs ih =>
    rw [Run.total_cons] at h
    simp only [addressFrom?]
    by_cases hk : k < r.size
    · exact ⟨_, if_pos hk⟩
    · rw [if_neg hk]
      exact ih _ (by omega)

/-- Every number up to the size is the ordinal of a position. -/
theorem exists_ordinal_of_le {t : Timeline} {n : Nat} (h : n ≤ t.size) :
    ∃ p, t.ordinal p = .ok n := by
  cases n with
  | zero => exact ⟨.start, rfl⟩
  | succ k =>
    obtain ⟨a, ha⟩ := exists_addressFrom? 0 (Nat.lt_of_lt_of_eq h t.size_eq_total)
    exact ⟨.on a, positionAt?_eq_some_iff.mp (by simp [positionAt?, ha])⟩

/-- Behind the size there is no position. -/
theorem positionAt?_eq_none {t : Timeline} {n : Nat} (h : t.size < n) :
    t.positionAt? n = none := by
  rcases hp : t.positionAt? n with _ | p
  · rfl
  · have := ordinal_le_size (positionAt?_eq_some_iff.mp hp)
    omega

/-! ### Steps -/

/-- A head behind a run that was reached to its end has the next ordinal. -/
private theorem headAfter?_eq {t : Timeline} {group : Nat} {run : Run}
    (hrun : t.runs[group]? = some run) :
    t.headAfter? group = t.positionAt? (t.sizeBefore group + run.size + 1) := by
  rw [← sizeBefore_succ hrun, headAfter?]
  by_cases hlt : group + 1 < t.runs.length
  · rw [if_pos hlt, eq_comm, positionAt?_eq_some_iff, ordinal_on_eq_ok_iff]
    refine ⟨t.runs[group + 1], ?_, Nat.succ_le_of_lt (Run.size_pos _), rfl⟩
    exact List.getElem?_eq_getElem hlt
  · rw [if_neg hlt, positionAt?_eq_none]
    rw [sizeBefore_eq_size (by omega)]
    omega

/-- **One step forward** is the position with the next ordinal, and there is none behind the last
position. -/
theorem next_of_ordinal {t : Timeline} {p : Position} {n : Nat} (h : t.ordinal p = .ok n) :
    t.next p = .ok (t.positionAt? (n + 1)) := by
  cases p with
  | start =>
    obtain rfl : 0 = n := by simpa [ordinal] using h
    rcases hr : t.runs with _ | ⟨r, rs⟩
    · simp [next, first?, positionAt?, addressFrom?, hr]
    · simp [next, first?, positionAt?, addressFrom?, hr, Run.size_pos]
  | on a =>
    obtain ⟨run, hrun, hreach, rfl⟩ := ordinal_on_eq_ok_iff.mp h
    have hhead : t.get? a.head = some run := by simp [get?, Address.head, Address.ofHead, hrun]
    -- inside its run an address is followed by the next entry, at its end by the next head
    have hin : ∀ i, i < run.rest.length → a.reach = i + 1 →
        t.positionAt? (t.sizeBefore a.group + a.reach + 1) = some (.on (.ofChild a.group i)) := by
      intro i hi hai
      rw [positionAt?_eq_some_iff, ordinal_on_eq_ok_iff]
      refine ⟨run, hrun, ?_, ?_⟩
      · rw [Address.reach_ofChild, Run.size]
        omega
      · rw [Address.reach_ofChild, hai]
        rfl
    have hout : a.reach = run.size →
        t.headAfter? a.group = t.positionAt? (t.sizeBefore a.group + a.reach + 1) := fun hend => by
      rw [headAfter?_eq hrun, hend]
    rcases hc : a.child with _ | i
    · have har : a.reach = 1 := by simp [Address.reach, hc]
      by_cases he : run.rest = []
      · rw [← hout (by simp [har, Run.size, he])]
        simp [next, expect, hhead, hc, he, bind, Except.bind]
      · rw [hin 0 (List.length_pos_iff.mpr he) har]
        simp [next, expect, hhead, hc, he, bind, Except.bind]
    · have har : a.reach = i + 2 := by simp [Address.reach, hc]
      have hi : i < run.rest.length := by
        rw [har, Run.size] at hreach
        omega
      by_cases hlt : i + 1 < run.rest.length
      · rw [hin (i + 1) hlt har]
        simp [next, expect, hhead, hc, hlt, bind, Except.bind]
      · obtain ⟨r, hr⟩ := exists_get? hrun hreach
        rw [← hout (by rw [har, Run.size]; omega)]
        simp [next, expect, hhead, hc, hlt, Run.wraps_eq_false hi, hr, bind, Except.bind]

/-- **One step back** is the position with the ordinal before. -/
theorem prev_of_ordinal {t : Timeline} {p : Position} {n : Nat} (h : t.ordinal p = .ok (n + 1)) :
    ∃ q, t.prev p = .ok (some q) ∧ t.ordinal q = .ok n := by
  cases p with
  | start => simp [ordinal] at h
  | on a =>
    obtain ⟨run, hrun, hreach, hn⟩ := ordinal_on_eq_ok_iff.mp h
    obtain ⟨r, hr⟩ := exists_get? hrun hreach
    refine ⟨t.before a, by simp [prev, expect, hr, bind, Except.bind], ?_⟩
    -- a head, the first entry behind one, and a later entry
    rcases hc : a.child with _ | _ | i
    · have har : a.reach = 1 := by simp [Address.reach, hc]
      rcases hg : a.group with _ | g
      · simp only [har, hg, sizeBefore_zero] at hn
        simp only [before, hc, hg, ordinal, Except.ok.injEq]
        omega
      · -- in front of a head lies the last entry of the run before
        have hg' : g < t.runs.length := by
          have := (List.getElem?_eq_some_iff.mp hrun).1
          omega
        obtain ⟨last, hlast⟩ : ∃ last, t.runs[g]? = some last :=
          ⟨_, List.getElem?_eq_getElem hg'⟩
        rw [hg, sizeBefore_succ hlast, har] at hn
        simp only [before, hc, hg, hlast, ordinal_on_eq_ok_iff, Run.lastAddress]
        split <;> refine ⟨last, hlast, ?_, ?_⟩ <;>
          simp_all [Address.reach, Address.ofHead, Address.ofChild, Run.size]
    · have har : a.reach = 2 := by simp [Address.reach, hc]
      simp only [before, hc, ordinal_on_eq_ok_iff, Address.head]
      refine ⟨run, hrun, Run.size_pos run, ?_⟩
      rw [Address.reach_ofHead]
      change n = t.sizeBefore a.group + 1
      omega
    · have har : a.reach = i + 3 := by simp [Address.reach, hc]
      simp only [before, hc, ordinal_on_eq_ok_iff]
      refine ⟨run, hrun, ?_, ?_⟩ <;> rw [Address.reach_ofChild]
      · omega
      · change n = t.sizeBefore a.group + (i + 2)
        omega

/-- A distance is a difference of ordinals. -/
theorem distance_of_ordinal {t : Timeline} {p q : Position} {m n : Nat} (hp : t.ordinal p = .ok m)
    (hq : t.ordinal q = .ok n) : t.distance p q = .ok ((n : Int) - m) := by
  simp only [distance, hp, hq, bind, Except.bind]

/-! ### Entries at addresses -/

/-- What an address names begins with the entry that lies in front of its ordinal. -/
theorem get?_of_ordinal {t : Timeline} {a : Address} {n : Nat}
    (h : t.ordinal (.on a) = .ok (n + 1)) :
    ∃ r, t.get? a = some r ∧ t.toList[n]? = some r.head := by
  obtain ⟨run, hrun, hreach, hn⟩ := ordinal_on_eq_ok_iff.mp h
  have hskip : t.toList[n]? = run.entries[a.reach - 1]? := by
    have := a.reach_pos
    have hlt : a.reach - 1 < run.entries.length := by
      rw [Run.length_entries]
      omega
    rw [toList_eq_of_getElem? hrun, List.append_assoc, List.getElem?_append_right
      (by rw [length_flatMap_take]; omega), length_flatMap_take,
      show n - t.sizeBefore a.group = a.reach - 1 by omega, List.getElem?_append_left hlt]
  rcases hc : a.child with _ | i
  · refine ⟨run, by simp [get?, hrun, hc], ?_⟩
    simp [hskip, Address.reach, hc, Run.entries]
  · have hi : i < run.rest.length := by
      simp only [Address.reach, hc, Run.size] at hreach
      omega
    refine ⟨.single run.rest[i], by simp [get?, hrun, hc, hi], ?_⟩
    simp [hskip, Address.reach, hc, Run.entries, Run.single, hi]

end Timeline

end UndoJournal
