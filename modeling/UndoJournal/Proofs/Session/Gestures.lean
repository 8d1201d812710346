import UndoJournal.Proofs.Session.Attending

/-!
# What a gesture comes to in a session at rest

* **A click** takes the cursor to the row (`AtRest.gives_click`).
* **Opening a run** moves nothing, and has the view mark the cursor if that is in the run
  (`AtRest.gives_expand`).
* **Closing a run** that the cursor is in takes the cursor to the last entry of the run. A cursor
  that is marked behind the head walks back to the head first, and each step of that walk but the
  last opens the run again (`AtRest.gives_collapse`).

In no other way can a gesture fail than that there is no such row. Afterwards the session is at rest
again, as it is after any deed of the document (`AtRest.after`).
-/

namespace UndoJournal

/-- What is said of the outline while the cursor walks back to the head of a run that was closed,
from an entry behind it: the run is open after the first step, unless that was the only one. -/
def Outline.Reopens (t : Timeline) (group i : Nat) (k : Nat) (o : Outline) : Prop :=
  (k = t.sizeBefore group + 1 → o.selectedPosition? = some (.on (.ofHead group))) ∧
    (o.isExpanded group = true ↔ k < t.sizeBefore group + i + 2 ∧ 0 < i)

/-- **A walk back through a run opens it again.** -/
theorem Outline.carriesAlong_reopens {t : Timeline} {group i : Nat} {run : Run}
    (hrun : t.runs[group]? = some run) (hi : i < run.rest.length) :
    CarriesAlong t (Reopens t group i) (t.sizeBefore group + i + 2) (t.sizeBefore group + 1) := by
  refine ⟨fun k hle hlt o p o' hp hfollows hk => ?_, fun k hle hlt => by omega⟩
  obtain ⟨-, hexpanded⟩ := hk
  obtain ⟨j, rfl⟩ : ∃ j, k = t.sizeBefore group + 1 + j := ⟨k - (t.sizeBefore group + 1), by omega⟩
  rcases j with _ | j
  · -- the last step, to the head, leaves open what was open
    obtain rfl : p = .on (.ofHead group) :=
      Timeline.eq_of_ordinal_eq hp (Timeline.ordinal_ofHead hrun)
    refine ⟨fun _ => hfollows.selected, ?_⟩
    rw [hfollows.expanded group rfl, hexpanded]
    constructor
    · rintro (⟨-, hpos⟩ | ⟨j, hj⟩)
      · exact ⟨by omega, hpos⟩
      · cases hj
    · rintro ⟨-, hpos⟩
      exact .inl ⟨by omega, hpos⟩
  · have hj : t.ordinal (.on (.ofChild group j)) = .ok (t.sizeBefore group + 1 + (j + 1)) := by
      rw [Timeline.ordinal_ofChild hrun (by omega)]
      congr 1
      omega
    obtain rfl : p = .on (.ofChild group j) := Timeline.eq_of_ordinal_eq hp hj
    refine ⟨fun hhead => by omega, ?_⟩
    rw [hfollows.expanded group rfl]
    exact iff_of_true (.inr ⟨j, rfl⟩) ⟨hlt, by omega⟩

namespace Session

variable {s : Session}

/-- **A click takes the cursor to the row**, and the view marks it. -/
theorem AtRest.gives_click (h : s.AtRest) (row : Nat) :
    (click row).Gives s fun answer s' =>
      (s.outline.visible.length ≤ row ∧ answer = .error (.view (.noVisibleRow row)) ∧ s' = s) ∨
        (row < s.outline.visible.length ∧ answer = .ok () ∧ (∃ n, Walked s n n false s') ∧
          s'.Aligned) := by
  have hshown := h.moored.abreast.shown
  refine h.gives_click_of (fun e he => ?_) fun r hr => ?_
  all_goals
    obtain ⟨hlen, hresult⟩ | ⟨shownRow, r', hrow, hresult, hr'⟩ :=
      Outline.click_cases h.numbered_shown row
  · obtain rfl : e = .noVisibleRow row := Except.error.inj (he.symm.trans hresult)
    exact .inl ⟨hlen, rfl, rfl⟩
  · exact nomatch he.symm.trans hresult
  · exact nomatch hr.symm.trans hresult
  · obtain rfl : r = r' := Except.ok.inj (hr.symm.trans hresult)
    have hlt : row < s.outline.visible.length := (List.getElem?_eq_some_iff.mp hrow).1
    obtain ⟨houtline, hsignals⟩ | ⟨houtline, hcontains, hselected, hsignals⟩ := hr'
    · -- the row was selected before
      rw [hsignals, houtline]
      exact (Action.gives_pure _).mpr ⟨h.step.navigator,
        .inr ⟨hlt, rfl, ⟨_, h.step.walked⟩, h.moored.aligned⟩⟩
    · rw [hshown] at hcontains
      obtain ⟨q, hq⟩ := Timeline.contains_iff_exists_ordinal.mp hcontains
      have hmarked : r.outline.marked = shownRow.position := by rw [Outline.marked, hselected]; rfl
      have hstart : Walked s _ _ false (s.withOutline r.outline) :=
        h.step.walked.withOutline (by rw [houtline])
      -- at its end, the walk has marked the position
      have hcarry : Outline.CarriesAlong s.desk.journal.timeline
          (fun k o => k = q → o.marked = shownRow.position) s.document.applied.length q := by
        refine ⟨fun k _ _ o p o' hp hfollows _ hk => ?_, fun k _ _ o p o' hp hfollows _ hk => ?_⟩
        all_goals
          rw [Outline.marked_eq hfollows.selected]
          exact Timeline.eq_of_ordinal_eq (hk ▸ hp) hq
      rw [hsignals, Action.each_cons, Action.gives_bind]
      refine (gives_attend_select h hstart hq (fun _ => hmarked) hcarry).mono ?_
      rintro _ s' ⟨h', hat⟩
      refine (Action.gives_pure _).mpr ⟨h'.navigator.trans h.step.navigator,
        .inr ⟨hlt, rfl, ⟨q, h'⟩, .inl ?_⟩⟩
      rw [hat rfl, h'.cursor_eq hq]

/-- What opening a run comes to: the view shows its entries, and marks the cursor if that is in the
run. -/
structure Opens (s : Session) (group : Nat) (s' : Session) : Prop where
  journal : s'.desk.journal = s.desk.journal
  document : s'.document = s.document
  expanded : s'.outline.isExpanded group = true
  selected : s'.outline.selectedPosition? = if s.desk.journal.cursor.group? = some group
    then some s.desk.journal.cursor else s.outline.selectedPosition?

/-- **Opening a run moves nothing.** -/
theorem AtRest.gives_expand (h : s.AtRest) (row : Nat) :
    (expand row).Gives s (s.Used row fun group _ s' =>
      ((∃ n, Walked s n n false s') ∧ s'.Aligned) ∧ s.Opens group s') := by
  refine h.gives_used (Outline.expandRow_cases h.numbered_shown row)
    fun group run r hheads hopened => ?_
  have hstart : Walked s _ _ false (s.withOutline r.outline) :=
    h.step.walked.withOutline (by rw [hopened.outline])
  have hselected : r.outline.selectedPosition? = s.outline.selectedPosition? := by
    rw [hopened.outline]
    rfl
  have hexpanded : r.outline.isExpanded group = true := (hopened.expanded group).mpr (.inr rfl)
  rw [hopened.signals, Action.each_cons, Action.gives_bind]
  refine (gives_attend_expand h hstart group).mono ?_
  rintro _ s' ⟨h', hjournal, hdocument, hview⟩
  refine (Action.gives_pure _).mpr ⟨h'.navigator.trans h.step.navigator, ?_⟩
  -- the screen is told where the cursor is only if that is in the run
  by_cases hin : s.desk.journal.cursor.group? = some group
  · have hfollows : r.outline.Follows s.desk.journal.cursor s'.outline := by
      rwa [if_pos (show (s.withOutline r.outline).desk.journal.cursor.group? = some group from hin)]
        at hview
    refine ⟨⟨⟨_, h'⟩, .inl ?_⟩, hjournal, hdocument, ?_, ?_⟩
    · rw [Outline.marked_eq hfollows.selected, hjournal]
      rfl
    · exact (hfollows.expanded group hin).mpr (.inl hexpanded)
    · rw [if_pos hin, hfollows.selected]
      rcases hcursor : s.desk.journal.cursor with _ | a
      · rw [hcursor] at hin
        cases hin
      · rfl
  · have hsame : s'.outline = r.outline := by
      rwa [if_neg (show (s.withOutline r.outline).desk.journal.cursor.group? ≠ some group from hin)]
        at hview
    refine ⟨⟨⟨_, h'⟩, ?_⟩, hjournal, hdocument, by rw [hsame]; exact hexpanded, ?_⟩
    · have hmarked : s'.outline.marked = s.outline.marked := by
        rw [Outline.marked, hsame, hselected, Outline.marked]
      rw [Aligned, hmarked, hjournal]
      exact h.moored.aligned
    · rw [if_neg hin, hsame, hselected]

/-- What closing a run comes to: a cursor in the run ends on its last entry. -/
structure Closes (s : Session) (group : Nat) (run : Run) (s' : Session) : Prop where
  cursor : s'.desk.journal.cursor = if s.desk.journal.cursor.group? = some group
    then .on (run.lastAddress group) else s.desk.journal.cursor
  /-- The walk back to the head has opened the run again. -/
  expanded : s'.outline.isExpanded group = true ↔ ∃ i,
    s.desk.journal.cursor = .on (.ofChild group (i + 1)) ∧
      s.outline.selectedPosition? = some s.desk.journal.cursor

/-- A position in a run is its head or behind it. -/
private theorem cases_of_group? {p : Position} {group : Nat} (h : p.group? = some group) :
    p = .on (.ofHead group) ∨ ∃ i, p = .on (.ofChild group i) := by
  rcases p with _ | ⟨g, _ | i⟩ <;> cases h
  · exact .inl rfl
  · exact .inr ⟨i, rfl⟩

/-- A cursor that the view does not mark is on the last entry of the run whose head it marks. -/
private theorem Aligned.cases (h : s.Aligned) {group : Nat} {run : Run}
    (hrun : s.desk.journal.timeline.runs[group]? = some run)
    (hin : s.desk.journal.cursor.group? = some group) :
    s.outline.marked = s.desk.journal.cursor ∨
      s.outline.marked = .on (.ofHead group) ∧
        s.desk.journal.cursor = .on (run.lastAddress group) := by
  refine h.imp_right ?_
  rintro ⟨g, run', hrun', hmarked, hcursor⟩
  rw [hcursor] at hin
  obtain rfl : g = group := (run'.group_lastAddress g).symm.trans (Option.some.inj hin)
  obtain rfl : run = run' := Option.some.inj (hrun.symm.trans hrun')
  exact ⟨hmarked, hcursor⟩

/-- What is selected behind a head is the cursor. -/
theorem Aligned.cursor_eq_child (h : s.Aligned) {group i : Nat}
    (hinside : s.outline.selectedPosition? = some (.on (.ofChild group i))) :
    s.desk.journal.cursor = .on (.ofChild group i) := by
  have hmarked : s.outline.marked = .on (.ofChild group i) := by
    rw [Outline.marked, hinside]
    rfl
  obtain hsame | ⟨g, -, -, hmarks, -⟩ := h
  · exact hsame.symm.trans hmarked
  · cases hmarked.symm.trans hmarks

/-- A walk to the end of a run leaves the cursor on its last entry. -/
private theorem Walked.cursor_eq_last {s s₀ : Session} {n : Nat} (h : Walked s₀ n n false s)
    {group : Nat}
    {run : Run} (hrun : s₀.desk.journal.timeline.runs[group]? = some run)
    (hn : n = s₀.desk.journal.timeline.sizeBefore group + run.size) :
    s.desk.journal.cursor = .on (run.lastAddress group) := by
  rw [hn] at h
  exact h.cursor_eq (Timeline.ordinal_lastAddress hrun)

/-- A run that hides no selection is closed and stays so: a cursor on its head goes to its end, and
any other cursor stays where it is. -/
private theorem AtRest.gives_close_plainly (h : s.AtRest) {group : Nat} {run : Run} {r : Response}
    (hrun : s.desk.journal.timeline.runs[group]? = some run) (hclosed : s.outline.Closed group r)
    (hnot : ∀ i, s.outline.selectedPosition? ≠ some (.on (.ofChild group i)))
    (hselected : r.outline.selectedPosition? = s.outline.selectedPosition?) :
    (stage.attend (.full {}) (.rowCollapsed group)).Gives (s.withOutline r.outline) fun _ s' =>
      ((∃ n, Walked s n n false s') ∧ s'.Aligned) ∧ s.Closes group run s' := by
  have hstart : Walked s _ _ false (s.withOutline r.outline) :=
    h.step.walked.withOutline hclosed.shown
  have hcursor := h.step.traces.cursor
  refine (gives_attend_collapse h hstart hrun rfl).mono ?_
  rintro _ s' ⟨h', houtline⟩
  change s'.outline = r.outline at houtline
  change Walked s (if s.desk.journal.cursor = _ then _ else _) (if s.desk.journal.cursor = _ then _
    else _) false s' at h'
  have ht : s'.desk.journal.timeline = s.desk.journal.timeline := h'.holds.timeline
  have hmarked : s'.outline.marked = s.outline.marked := by
    rw [Outline.marked, houtline, hselected, Outline.marked]
  -- both sides fail: the run was closed, and no child of it was selected
  have hexpanded : s'.outline.isExpanded group = true ↔ ∃ i,
      s.desk.journal.cursor = .on (.ofChild group (i + 1)) ∧
        s.outline.selectedPosition? = some s.desk.journal.cursor := by
    rw [houtline, hclosed.expanded group]
    refine iff_of_false (fun hne => hne.2 rfl) ?_
    rintro ⟨i, hi, hsel⟩
    exact hnot (i + 1) (hi ▸ hsel)
  -- only a cursor on the head of the run is walked, to the end of it
  by_cases hhead : s.desk.journal.cursor = .on (.ofHead group)
  · rw [if_pos hhead] at h'
    have hin : s.desk.journal.cursor.group? = some group := by
      rw [hhead]
      rfl
    have hn : s.document.applied.length = s.desk.journal.timeline.sizeBefore group + 1 := by
      rw [hhead, Timeline.ordinal_ofHead hrun] at hcursor
      exact (Except.ok.inj hcursor).symm
    have hend : s'.desk.journal.cursor = .on (run.lastAddress group) :=
      h'.cursor_eq_last hrun (by rw [hn, Run.size]; omega)
    refine ⟨⟨⟨_, h'⟩, .inr ⟨group, run, ht ▸ hrun, ?_, hend⟩⟩, ?_, hexpanded⟩
    · rw [hmarked]
      obtain hsame | ⟨hmarks, -⟩ := h.moored.aligned.cases hrun hin
      · exact hsame.trans hhead
      · exact hmarks
    · rw [if_pos hin]
      exact hend
  · rw [if_neg hhead] at h'
    have hsame : s'.desk.journal.cursor = s.desk.journal.cursor := h'.cursor_eq hcursor
    refine ⟨⟨⟨_, h'⟩, ?_⟩, ?_, hexpanded⟩
    · rw [Aligned, hmarked, hsame, ht]
      exact h.moored.aligned
    · rw [hsame]
      split
      · -- behind the head and not marked, the cursor is on the last entry
        rename_i hin
        obtain ⟨i, hi⟩ := (cases_of_group? hin).resolve_left hhead
        refine ((h.moored.aligned.cases hrun hin).resolve_left fun hmarks => ?_).2
        exact hnot i (Outline.selectedPosition?_of_marked (hmarks.trans hi))
      · rfl

/-- A run that would hide the selection is closed: the cursor is selected there, walks back to the
head and goes to the end of the run. -/
private theorem AtRest.gives_close_around (h : s.AtRest) {group i : Nat} {run : Run} {r : Response}
    (hrun : s.desk.journal.timeline.runs[group]? = some run) (hclosed : s.outline.Closed group r)
    (hinside : s.outline.selectedPosition? = some (.on (.ofChild group i))) :
    (Action.each (stage.attend (.full {}))
      [.selectionChanged (some (.on (.ofHead group))), .rowCollapsed group]).Gives
        (s.withOutline r.outline) fun _ s' =>
          ((∃ n, Walked s n n false s') ∧ s'.Aligned) ∧ s.Closes group run s' := by
  have hstart : Walked s _ _ false (s.withOutline r.outline) :=
    h.step.walked.withOutline hclosed.shown
  have hcursor := h.step.traces.cursor
  have hon : s.desk.journal.cursor = .on (.ofChild group i) :=
    h.moored.aligned.cursor_eq_child hinside
  obtain ⟨hi, hn⟩ : i < run.rest.length ∧
      s.document.applied.length = s.desk.journal.timeline.sizeBefore group + i + 2 :=
    Timeline.of_ordinal_ofChild hrun (hon ▸ hcursor)
  rw [hn] at hstart
  -- no step has been made yet, so nothing has opened the run again
  have hreopens : Outline.Reopens s.desk.journal.timeline group i
      (s.desk.journal.timeline.sizeBefore group + i + 2) (s.withOutline r.outline).outline := by
    refine ⟨fun hhead => by omega, ?_⟩
    change r.outline.isExpanded group = true ↔ _
    rw [hclosed.expanded group]
    exact iff_of_false (fun hne => hne.2 rfl) fun hlt => by omega
  rw [Action.each_cons, Action.gives_bind]
  refine (gives_attend_select h hstart (Timeline.ordinal_ofHead hrun) hreopens
    (Outline.carriesAlong_reopens hrun hi)).mono ?_
  rintro _ s₁ ⟨h₁, hmarks, hopen⟩
  have hhead : s₁.desk.journal.cursor = .on (.ofHead group) :=
    h₁.cursor_eq (Timeline.ordinal_ofHead hrun)
  rw [Action.each_cons, Action.gives_bind]
  -- from the head, closing takes the cursor to the end of the run
  refine (gives_attend_collapse h h₁ hrun rfl).mono ?_
  rintro _ s' ⟨h', houtline⟩
  rw [if_pos hhead] at h'
  have hend : s'.desk.journal.cursor = .on (run.lastAddress group) :=
    h'.cursor_eq_last hrun (by rw [Run.size]; omega)
  refine (Action.gives_pure _).mpr ⟨⟨⟨_, h'⟩, .inr ⟨group, run, ?_, ?_, hend⟩⟩, ?_, ?_⟩
  · rw [h'.holds.timeline]
    exact hrun
  · rw [Outline.marked, houtline, hmarks rfl]
    rfl
  · rw [hon, hend]
    exact (if_pos rfl).symm
  · rw [houtline, hopen, hon]
    constructor
    · rintro ⟨-, hpos⟩
      obtain ⟨j, rfl⟩ := Nat.exists_eq_succ_of_ne_zero (Nat.ne_of_gt hpos)
      exact ⟨j, rfl, hinside⟩
    · rintro ⟨j, hj, -⟩
      cases hj
      exact ⟨by omega, by omega⟩

/-- **Closing a run**, wherever the cursor is. -/
theorem AtRest.gives_collapse (h : s.AtRest) (row : Nat) :
    (collapse row).Gives s (s.Used row fun group run s' =>
      ((∃ n, Walked s n n false s') ∧ s'.Aligned) ∧ s.Closes group run s') := by
  have hshown := h.moored.abreast.shown
  refine h.gives_used (Outline.collapseRow_cases h.numbered_shown row)
    fun group run r hheads hclosed => ?_
  have hrun : s.desk.journal.timeline.runs[group]? = some run := hshown ▸ hheads.listed
  have hfresh : ∀ {s'}, (∃ n, Walked s n n false s') → s'.desk.around.navigator = .fresh := by
    rintro s' ⟨n, h'⟩
    exact h'.navigator.trans h.step.navigator
  obtain ⟨i, hinside, -, hsignals⟩ | ⟨hnot, hselected, hsignals⟩ := hclosed.told
  · rw [hsignals]
    exact (h.gives_close_around hrun hclosed hinside).mono fun _ s' h' =>
      ⟨hfresh h'.1.1, h'⟩
  · rw [hsignals, Action.each_singleton]
    exact (h.gives_close_plainly hrun hclosed hnot hselected).mono fun _ s' h' =>
      ⟨hfresh h'.1.1, h'⟩

/-! ### Any deeds -/

/-- A gesture that does nothing leaves the session moored. -/
private theorem Used.moored {row : Nat} {changed : Nat → Run → Session → Prop}
    {answer : Except SessionError Bool} {s' : Session} (h : s.Used row changed answer s')
    (hs : s.Moored) (hchanged : ∀ group run, changed group run s' → s'.Moored) : s'.Moored := by
  obtain ⟨-, -, rfl⟩ | ⟨-, ⟨-, rfl⟩ | ⟨group, run, -, -, h'⟩⟩ := h
  · exact hs
  · exact hs
  · exact hchanged group run h'

/-- **Each ordinary deed comes back to rest.** -/
theorem AtRest.gives_perform (h : s.AtRest) {d : Deed} (hd : d.ordinary = true) :
    (perform d).Gives s fun _ s' => s'.AtRest := by
  -- whom the screen attends to is known after every deed, and ordinary ones change nothing about it
  have hcalm : ((perform d).run s).state.Calm (.full {}) := by
    obtain ⟨signals, k, hattentive⟩ := h.calm
    obtain ⟨new, hafter, -⟩ := attentive_make hattentive (.deed d)
    rw [Deed.after_of_ordinary hd] at hafter
    exact ⟨_, _, hafter⟩
  have hwalked : ∀ {s'}, (∃ n, Walked s n n false s') ∧ s'.Aligned → s'.Moored := by
    rintro s' ⟨⟨n, h'⟩, haligned⟩
    exact h'.moored h.moored haligned
  have hmoored : ((perform d).run s).state.Moored := by
    rcases hm : (Move.deed d).isGesture with _ | _
    · exact keeps_moored hd hm s h.moored
    · cases d with
      | click row =>
        refine leaves_plainly (Action.Gives.leaves (h.gives_click row) ?_)
        rintro answer s' (⟨-, -, rfl⟩ | ⟨-, -, h'⟩)
        · exact h.moored
        · exact hwalked h'
      | expand row =>
        exact leaves_plainly (Action.Gives.leaves (h.gives_expand row) fun _ _ h' =>
          h'.moored h.moored fun _ _ h' => hwalked h'.1)
      | collapse row =>
        exact leaves_plainly (Action.Gives.leaves (h.gives_collapse row) fun _ _ h' =>
          h'.moored h.moored fun _ _ h' => hwalked h'.1)
      | _ => cases hm
  obtain ⟨answer, hanswer, hsettled, -⟩ :=
    Session.gives_perform h.step (Deed.harmless_of_ordinary hd)
  exact ⟨answer, hanswer, hsettled.step, hcalm, hmoored⟩

/-- **Whatever is done to the document or by the user, the session comes back to rest.** -/
theorem AtRest.after (h : s.AtRest) {ds : List Deed} (hds : ∀ d ∈ ds, d.ordinary = true) :
    (s.after ds).AtRest := by
  induction ds generalizing s with
  | nil => exact h
  | cons d ds ih =>
    obtain ⟨answer, -, hrest⟩ := h.gives_perform (hds d List.mem_cons_self)
    exact ih hrest fun d' hd' => hds d' (List.mem_cons_of_mem _ hd')

end Session

end UndoJournal
