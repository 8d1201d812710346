import UndoJournal.Proofs.Timeline.Grouping

/-!
# What becomes of runs

Filing an event touches the last run, and a cut touches the run of the position it is made at. Every
other run of the timeline afterwards is one of before, although it may have got another index, and
away from that position (`Timeline.Away`).

The **trailing** entries are those behind the heads of runs. An entry can stop trailing, by becoming
the head of what is left of its run, but none starts to trail except the one that is filed
(`trailing_append`, `trailing_truncateAfter`, `trailing_truncateThrough`).
-/

namespace UndoJournal

namespace Timeline

/-- The entries behind the heads of the runs, in commit order. -/
def trailing (t : Timeline) : List Entry := t.runs.flatMap Run.rest

/-- A run of the timeline that a position is not in. -/
def Away (t : Timeline) (p : Position) (run : Run) : Prop :=
  ∃ group, t.runs[group]? = some run ∧ p.group? ≠ some group

variable {t t' : Timeline} {p : Position} {run : Run} {group dropped : Nat} {e : Entry}

/-- A run is the one the position is in, or away from it. -/
theorem away_of_getElem? (h : t.runs[group]? = some run) : p.group? = some group ∨ t.Away p run :=
  (em (p.group? = some group)).imp_right fun hp => ⟨group, h, hp⟩

/-- A run that is there has a head. -/
theorem head?_of_getElem? (h : t.runs[group]? = some run) : t.head? group = some run.head := by
  rw [head?, h, Option.map_some]

/-- A head is an entry. -/
theorem mem_toList_of_head? (h : t.head? group = some e) : e ∈ t.toList := by
  obtain ⟨run, hrun, rfl⟩ := Option.map_eq_some_iff.mp h
  exact List.mem_flatMap.mpr ⟨run, List.mem_of_getElem? hrun, List.mem_cons_self⟩

private theorem exists_rest_of_mem_trailing (h : e ∈ t.trailing) :
    ∃ (group i : Nat) (run : Run), t.runs[group]? = some run ∧ run.rest[i]? = some e := by
  obtain ⟨run, hrun, he⟩ := List.mem_flatMap.mp h
  obtain ⟨group, hgroup⟩ := List.getElem?_of_mem hrun
  obtain ⟨i, hi⟩ := List.getElem?_of_mem he
  exact ⟨group, i, run, hgroup, hi⟩

/-! ### Filing -/

/-- A run with entries behind its head is the one that the event was filed in, or it was there. -/
theorem getElem?_runs_append {event : Event} (h : (t.append event).2.runs[group]? = some run)
    (hrest : run.rest ≠ []) :
    (t.append event).1.address.group = group ∨ t.runs[group]? = some run := by
  rcases t.append_cases event with ⟨-, -, hruns⟩ | ⟨front, last, hfront, -, -, haddress, hruns⟩
  · rw [hruns] at h
    rcases Nat.lt_or_ge group t.runs.length with hlt | hge
    · rw [List.getElem?_append_left hlt] at h
      exact .inr h
    · -- the run that was started has nothing behind its head
      rw [List.getElem?_append_right hge, List.getElem?_singleton] at h
      split at h <;> cases h
      exact absurd rfl hrest
  · rw [hruns] at h
    rcases Nat.lt_or_ge group front.length with hlt | hge
    · rw [List.getElem?_append_left hlt] at h
      rw [hfront, List.getElem?_append_left hlt]
      exact .inr h
    · rw [List.getElem?_append_right hge, List.getElem?_singleton] at h
      split at h <;> cases h
      rw [haddress]
      exact .inl (show front.length = group by omega)

/-- Only the entry that is filed can start to trail. -/
theorem trailing_append {event : Event} (h : e ∈ (t.append event).2.trailing) :
    e ∈ t.trailing ∨ e.id.raw = t.nextId := by
  rcases t.append_cases event with ⟨-, -, hruns⟩ | ⟨front, last, hfront, -, -, -, hruns⟩
  · refine .inl ?_
    simpa [trailing, hruns, Run.single] using h
  · rw [trailing, hruns, List.flatMap_append, List.flatMap_singleton, Run.push] at h
    rw [trailing, hfront, List.flatMap_append, List.flatMap_singleton]
    simp only [List.mem_append, List.mem_singleton] at h ⊢
    obtain h | h | rfl := h
    · exact .inl (.inl h)
    · exact .inl (.inr h)
    · exact .inr rfl

/-! ### Cutting -/

/-- The run of the position is the last one that a cut behind it leaves. -/
theorem away_truncateAfter (h : t.truncateAfter p = .ok (dropped, t'))
    (hrun : t'.runs[group]? = some run) : p.group? = some group ∨ t.Away p run := by
  obtain ⟨-, ⟨rfl, hnil⟩ | ⟨a, cut, rfl, hcut, hruns⟩⟩ := runs_truncateAfter h
  · simp [hnil] at hrun
  · have hlen : (t.runs.take a.group).length = a.group :=
      List.length_take_of_le (Nat.le_of_lt (List.getElem?_eq_some_iff.mp hcut).1)
    rw [hruns] at hrun
    rcases Nat.lt_or_ge group a.group with hlt | hge
    · rw [List.getElem?_append_left (by rwa [hlen]), List.getElem?_take_of_lt hlt] at hrun
      exact .inr ⟨group, hrun, fun heq => Nat.ne_of_gt hlt (Option.some.inj heq)⟩
    · rw [List.getElem?_append_right (by rwa [hlen]), List.getElem?_singleton] at hrun
      split at hrun
      · exact .inl (congrArg some (show a.group = group by omega))
      · cases hrun

theorem trailing_truncateAfter (h : t.truncateAfter p = .ok (dropped, t')) (he : e ∈ t'.trailing) :
    e ∈ t.trailing := by
  obtain ⟨-, ⟨-, hnil⟩ | ⟨a, cut, -, hcut, hruns⟩⟩ := runs_truncateAfter h
  · simp [trailing, hnil] at he
  · rw [trailing, hruns, List.flatMap_append, List.flatMap_singleton] at he
    obtain he | he := List.mem_append.mp he
    · obtain ⟨run, hrun, he⟩ := List.mem_flatMap.mp he
      exact List.mem_flatMap.mpr ⟨run, List.mem_of_mem_take hrun, he⟩
    · exact List.mem_flatMap.mpr ⟨cut, List.mem_of_getElem? hcut, List.mem_of_mem_take he⟩

/-- The run that is made of a list of entries. -/
private theorem mem_ofEntries? {es : List Entry} (h : run ∈ Run.ofEntries? es) :
    es = run.head :: run.rest := by
  cases es with
  | nil => cases h
  | cons e es =>
    obtain rfl := Option.some.inj h
    rfl

/-- What a cut through a position leaves of its run has a head that trailed before. -/
theorem away_truncateThrough (h : t.truncateThrough p = .ok (dropped, t')) (hrun : run ∈ t'.runs) :
    run.head ∈ t.trailing ∨ t.Away p run := by
  obtain ⟨-, ⟨rfl, rfl⟩ | ⟨a, cut, rfl, hcut, hruns⟩⟩ := runs_truncateThrough h
  · obtain ⟨group, hgroup⟩ := List.getElem?_of_mem hrun
    exact .inr ⟨group, hgroup, by simp [Position.group?, Position.address?]⟩
  · rw [hruns] at hrun
    obtain hrun | hrun := List.mem_append.mp hrun
    · have hrest := mem_ofEntries? (Option.mem_toList.mp hrun)
      have hmem : run.head ∈ cut.rest.drop (a.reach - 1) := hrest ▸ List.mem_cons_self
      exact .inl (List.mem_flatMap.mpr
        ⟨cut, List.mem_of_getElem? hcut, List.mem_of_mem_drop hmem⟩)
    · obtain ⟨i, hi⟩ := List.getElem?_of_mem hrun
      rw [List.getElem?_drop] at hi
      exact .inr ⟨a.group + 1 + i, hi, fun heq => by
        have hgroup : a.group = a.group + 1 + i := Option.some.inj heq
        omega⟩

theorem trailing_truncateThrough (h : t.truncateThrough p = .ok (dropped, t'))
    (he : e ∈ t'.trailing) : e ∈ t.trailing := by
  obtain ⟨-, ⟨-, rfl⟩ | ⟨a, cut, -, hcut, hruns⟩⟩ := runs_truncateThrough h
  · exact he
  · obtain ⟨run, hrun, he⟩ := List.mem_flatMap.mp he
    rw [hruns] at hrun
    obtain hrun | hrun := List.mem_append.mp hrun
    · have hrest := mem_ofEntries? (Option.mem_toList.mp hrun)
      have hmem : e ∈ cut.rest.drop (a.reach - 1) := hrest ▸ List.mem_cons_of_mem _ he
      exact List.mem_flatMap.mpr ⟨cut, List.mem_of_getElem? hcut, List.mem_of_mem_drop hmem⟩
    · exact List.mem_flatMap.mpr ⟨run, List.mem_of_mem_drop hrun, he⟩

/-! ### Looking up -/

/-- Looking up the identity of a head gives the address of the head. -/
theorem Numbered.find?_head (h : t.Numbered) (he : t.head? group = some e) :
    t.find? e.id = some (.ofHead group) := by
  obtain ⟨run, hrun, rfl⟩ := Option.map_eq_some_iff.mp he
  have hget : t.get? (.ofHead group) = some run := by simp [get?, Address.ofHead, hrun]
  obtain ⟨i, x, hsits⟩ :=
    exists_sits (t := t) (a := .ofHead group) (Option.isSome_iff_exists.mpr ⟨run, hget⟩)
  have hx : run.head = x := by simpa [hget] using hsits.named
  exact h.find?_eq_some_iff.mpr ⟨i, x, hsits, by rw [hx]⟩

/-- Looking up the identity of a trailing entry gives no head. -/
private theorem Numbered.find?_trailing (h : t.Numbered) (he : e ∈ t.trailing) :
    ∃ group i, t.find? e.id = some (.ofChild group i) := by
  obtain ⟨group, i, run, hrun, hi⟩ := exists_rest_of_mem_trailing he
  have hget : t.get? (.ofChild group i) = some (Run.single e) := by
    simp [get?, Address.ofChild, hrun, hi]
  obtain ⟨n, x, hsits⟩ :=
    exists_sits (t := t) (a := .ofChild group i) (Option.isSome_iff_exists.mpr ⟨_, hget⟩)
  have hx : e = x := by simpa [hget, Run.single] using hsits.named
  exact ⟨group, i, h.find?_eq_some_iff.mpr ⟨n, x, hsits, by rw [hx]⟩⟩

/-- Runs are told apart by the identities of their heads. -/
theorem Numbered.group_unique (h : t.Numbered) {group' : Nat} {e' : Entry}
    (he : t.head? group = some e) (he' : t.head? group' = some e') (hid : e.id = e'.id) :
    group = group' := by
  have hfind := (h.find?_head he).symm.trans (hid ▸ h.find?_head he')
  exact (Address.mk.inj (Option.some.inj hfind)).1

/-- No head trails. -/
theorem Numbered.head_ne_trailing (h : t.Numbered) {e' : Entry} (he : t.head? group = some e)
    (he' : e' ∈ t.trailing) : e.id ≠ e'.id := by
  intro hid
  obtain ⟨group', i, hfind⟩ := h.find?_trailing he'
  rw [← hid, h.find?_head he] at hfind
  cases hfind

end Timeline

end UndoJournal
