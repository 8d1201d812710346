import UndoJournal.Proofs.Timeline.Order

/-!
# What a place says

`Timeline.placed` lists every entry with where it sits and how it is shown. A listed place is one
that the timeline has (`contains_of_mem_placed`), and the two things that are listed for the sake of
a view are what they stand for: `Placed.childCount` counts the entries behind a head
(`childCount_of_mem_placed`), and `Placed.endsRun` marks the last of them
(`endsRun_iff_of_mem_placed`).
-/

namespace UndoJournal

/-- The places of a run at index `group` are in that run, and say of it what they should. -/
private theorem Run.of_mem_placed {r : Run} {group : Nat} {p : Placed} (h : p ∈ r.placed group) :
    p.address.group = group ∧ p.address.reach ≤ r.size ∧
      p.childCount = (if p.address.isChild then 0 else r.rest.length) ∧
      (p.endsRun = true ↔ p.address.isChild = true ∧ p.address.reach = r.size) := by
  simp only [placed, List.mem_cons, List.mem_map] at h
  obtain rfl | ⟨⟨e, i⟩, hmem, rfl⟩ := h
  · exact ⟨rfl, r.size_pos, rfl, by simp [Address.ofHead, Address.isChild]⟩
  · have hlt : i < r.rest.length := (List.mem_zipIdx' hmem).1
    refine ⟨rfl, ?_, rfl, ?_⟩
    · simp only [Address.reach_ofChild, Run.size]
      omega
    · simp only [Address.ofChild, Address.isChild, Address.reach, Run.size, beq_iff_eq,
        Option.isSome_some, true_and]
      omega

namespace Timeline

variable {t : Timeline} {p : Placed}

/-- A listed place is in the run that its address names. -/
theorem exists_run_of_mem_placed (h : p ∈ t.placed) :
    ∃ run, t.runs[p.address.group]? = some run ∧ p ∈ run.placed p.address.group := by
  simp only [placed, List.mem_flatMap] at h
  obtain ⟨⟨run, group⟩, hmem, hp⟩ := h
  have hgroup : p.address.group = group := (Run.of_mem_placed hp).1
  rw [List.mk_mem_zipIdx_iff_getElem?] at hmem
  exact ⟨run, hgroup ▸ hmem, hgroup ▸ hp⟩

/-- A timeline has the positions that it lists. -/
theorem contains_of_mem_placed (h : p ∈ t.placed) : t.contains (.on p.address) = true := by
  obtain ⟨run, hrun, hp⟩ := exists_run_of_mem_placed h
  exact get?_isSome_iff.mpr ⟨run, hrun, (Run.of_mem_placed hp).2.1⟩

/-- Every node of a timeline is listed. -/
theorem exists_placed_of_contains {a : Address} (h : t.contains (.on a) = true) :
    ∃ p ∈ t.placed, p.address = a := by
  obtain ⟨run, hrun, hle⟩ := get?_isSome_iff.mp h
  have hmem : ∀ p ∈ run.placed a.group, p ∈ t.placed := fun p hp =>
    List.mem_flatMap.mpr ⟨(run, a.group), List.mk_mem_zipIdx_iff_getElem?.mpr hrun, hp⟩
  obtain ⟨group, _ | i⟩ := a
  · exact ⟨_, hmem _ List.mem_cons_self, rfl⟩
  · have hlt : i < run.rest.length := by
      simp only [Address.reach, Run.size] at hle
      omega
    refine ⟨_, hmem _ (List.mem_cons_of_mem _ (List.mem_map.mpr
      ⟨(run.rest[i], i), List.mk_mem_zipIdx_iff_getElem?.mpr ?_, rfl⟩)), rfl⟩
    exact List.getElem?_eq_getElem hlt

/-- The run of a listed place has a head. -/
theorem exists_head_of_mem_placed (h : p ∈ t.placed) : ∃ e, t.head? p.address.group = some e := by
  obtain ⟨run, hrun, -⟩ := exists_run_of_mem_placed h
  exact ⟨run.head, by simp [head?, hrun]⟩

/-- What is counted with a head is what lies behind it in its run. -/
theorem childCount_of_mem_placed (h : p ∈ t.placed) :
    ∃ run, t.runs[p.address.group]? = some run ∧
      p.childCount = if p.address.isChild then 0 else run.rest.length := by
  obtain ⟨run, hrun, hp⟩ := exists_run_of_mem_placed h
  exact ⟨run, hrun, (Run.of_mem_placed hp).2.2.1⟩

/-- What is marked is the last of the entries behind a head. -/
theorem endsRun_iff_of_mem_placed (h : p ∈ t.placed) :
    p.endsRun = true ↔ ∃ run, t.runs[p.address.group]? = some run ∧
      p.address.isChild = true ∧ p.address.reach = run.size := by
  obtain ⟨run, hrun, hp⟩ := exists_run_of_mem_placed h
  rw [(Run.of_mem_placed hp).2.2.2]
  constructor
  · exact fun hlast => ⟨run, hrun, hlast⟩
  · rintro ⟨run', hrun', hlast⟩
    obtain rfl : run = run' := Option.some.inj (hrun.symm.trans hrun')
    exact hlast

end Timeline

end UndoJournal
