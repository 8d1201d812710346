import UndoJournal.Proofs.Journal.Leaving
import UndoJournal.Proofs.Navigator.Ways
import UndoJournal.Proofs.Screen.Tracks
import UndoJournal.Proofs.Session.Keeping

/-!
# How the navigator walks the document

While nobody goes around the document, it and the journal have the same events, and their boundaries
between what is applied and what is not move together. `Session.Walked` says where both stand after
some steps from a session; only while the journal is muted do they stand apart.

* **Every step that is asked for is made** as long as there is an event for it
  (`gives_march_undo`, `gives_march_redo`), so no walk is refused by the document.
* **A walk ends where it was to go** (`gives_select`): that it could not, a navigator only says of a
  position that the timeline does not have.
* A run is stepped through with the journal muted, and placing the cursor on its end brings the two
  together again (`gives_collapse`).

What the screen comes to on the way is up to the updates that it is told. A statement about it for
each ordinal of the cursor that these updates carry from one ordinal to the next (`Session.Carries`)
is kept by the whole walk (`Session.Guided`); while the journal is muted the screen is told nothing.
-/

namespace UndoJournal

/-- The screen after it was told of an update, if there is one. -/
def Screen.told (t : Timeline) (update : Option CursorUpdate) (s : Screen) : Screen :=
  match update with
  | none => s
  | some u => ((Stage.alone.follow t u).run s).state

/-- An update that moves the cursor behind so many entries of a timeline, and says of no run that
the cursor is in that it was left. -/
structure CursorUpdate.Reaches (u : CursorUpdate) (t : Timeline) (n : Nat) : Prop where
  current : t.ordinal u.current = .ok n
  reshaped : u.reshaped = false
  left : ∀ group, u.left = some group → u.current.group? ≠ some group

namespace Session

/-- The events of the document, applied or not, in commit order. -/
def events (s : Session) : List Event := s.document.applied ++ s.document.future

variable {s s₀ : Session}

/-! ### Notices -/

/-- **A notice meets no fault** in a session whose journal traces a stack and whose screen keeps
track of its timeline, and the same holds afterwards. -/
theorem gives_notify {screen₀ : Screen} {stack : Stack} (hl : s.Linked)
    (hs : Screen.TracksSince screen₀ s.desk.journal.timeline s.desk.around.screen)
    (htr : s.desk.journal.Traces stack) (notice : Notice) :
    (audience.notify notice).Gives s fun _ s' => ∃ r,
      s.desk.journal.hear notice = .ok r ∧
        s' = s.told r.journal (s.desk.around.screen.told r.journal.timeline r.update) ∧
        r.journal.Traces (stack.hear notice) ∧
          Screen.TracksSince screen₀ r.journal.timeline s'.desk.around.screen := by
  obtain ⟨r, hr, htr'⟩ := htr.hear notice
  have hann := Journal.announces_hear hr
  rw [Action.Gives, leaves_notify hl, Heard, hr]
  dsimp only
  rcases hu : r.update with _ | u
  · refine ⟨(), rfl, r, rfl, by rw [hu]; rfl, htr', ?_⟩
    rw [hann.silent hu]
    exact hs
  · have hcurrent := htr'.contains_cursor
    rw [← hann.current u hu] at hcurrent
    obtain ⟨answer, hanswer, hs'⟩ := hs.follow (hann.reshaped u hu) hcurrent
    refine ⟨(), ?_, r, rfl, by rw [hu]; rfl, htr', hs'⟩
    rw [hanswer]
    rfl

/-! ### Steps -/

/-- What steps of the document make of a session: events, timeline and navigator are what they were;
`applied` events are applied in the document, and the cursor of the journal stands behind `cursor`
of them. -/
structure Walked (s₀ : Session) (applied cursor : Nat) (muted : Bool) (s : Session) : Prop where
  holds : s.Holds (Screen.TracksSince s₀.desk.around.screen) s₀.desk.journal.timeline
  traces : s.desk.journal.Traces ⟨s₀.events, cursor, muted⟩
  events : s.events = s₀.events
  applied : s.document.applied.length = applied
  navigator : s.desk.around.navigator = s₀.desk.around.navigator

/-- Where the cursor moves from one ordinal to another, what is said of the screen for the one is
carried over to the other. -/
def Carries (s₀ : Session) (J : Nat → Screen → Prop) (m n : Nat) : Prop :=
  ∀ screen u,
    Screen.TracksSince s₀.desk.around.screen s₀.desk.journal.timeline screen →
    u.Reaches s₀.desk.journal.timeline n → J m screen →
      (Stage.alone.follow s₀.desk.journal.timeline u).Leaves screen fun _ screen' => J n screen'

/-- A session that was walked, with something to be said of its screen for each ordinal of the
cursor. -/
structure Guided (s₀ : Session) (J : Nat → Screen → Prop) (applied cursor : Nat) (muted : Bool)
    (s : Session) : Prop extends Walked s₀ applied cursor muted s where
  guide : J cursor s.desk.around.screen

/-- What is said is carried along all the way from one ordinal to another. -/
def CarriesAlong (s₀ : Session) (J : Nat → Screen → Prop) (m n : Nat) : Prop :=
  (∀ k, n ≤ k → k < m → Carries s₀ J (k + 1) k) ∧ ∀ k, m ≤ k → k < n → Carries s₀ J k (k + 1)

variable {applied cursor : Nat} {muted : Bool} {J : Nat → Screen → Prop}

/-- Where nothing is asked of journal and screen, a walk is guided by itself. -/
theorem Walked.guided (h : Walked s₀ applied cursor muted s) :
    Guided s₀ (fun _ _ => True) applied cursor muted s := ⟨h, trivial⟩

theorem carries_true (m n : Nat) : Carries s₀ (fun _ _ => True) m n := fun _ _ _ _ _ => trivial

theorem carriesAlong_true (m n : Nat) : CarriesAlong s₀ (fun _ _ => True) m n :=
  ⟨fun _ _ _ => carries_true _ _, fun _ _ _ => carries_true _ _⟩

/-- The cursor is where it has that ordinal. -/
theorem Walked.cursor_eq (h : Walked s₀ applied cursor muted s) {p : Position}
    (hp : s₀.desk.journal.timeline.ordinal p = .ok cursor) : s.desk.journal.cursor = p := by
  have hcursor := h.traces.cursor
  rw [h.holds.timeline] at hcursor
  exact Timeline.eq_of_ordinal_eq hcursor hp

/-- A step of the document, of which the journal hears between two changes: what the notice means to
the stack is what it means to the journal, if it only moves the cursor. -/
private theorem Guided.gives_notify (h : Guided s₀ J applied cursor muted s)
    {d : Document Watcher} (hobs : d.observers = s.document.observers) {notice : Notice}
    (hstrolls : ∀ r, s.desk.journal.hear notice = .ok r → r.Strolls s.desk.journal) {cursor' : Nat}
    (hhear : (Stack.mk s₀.events cursor muted).hear notice = ⟨s₀.events, cursor', muted⟩)
    (hcarry : muted = false → Carries s₀ J cursor cursor')
    {f : Document Watcher → Document Watcher} (hf : (f d).observers = d.observers)
    (hevents : (f d).applied ++ (f d).future = s₀.events) :
    (audience.notify notice).Gives { s with document := d } fun _ s' =>
      Guided s₀ J (f d).applied.length cursor' muted { s' with document := f s'.document } := by
  have hl : Linked { s with document := d } :=
    ⟨h.holds.linked.attached, hobs ▸ h.holds.linked.observed⟩
  have hs : Screen.TracksSince _ s.desk.journal.timeline s.desk.around.screen :=
    h.holds.timeline.symm ▸ h.holds.good
  refine (Session.gives_notify hl hs h.traces notice).mono ?_
  rintro _ _ ⟨r, hr, rfl, htr, hs'⟩
  have hr' : s.desk.journal.hear notice = .ok r := hr
  have hmoved := hstrolls r hr'
  have ht' : r.journal.timeline = s₀.desk.journal.timeline :=
    hmoved.timeline.trans h.holds.timeline
  rw [hhear] at htr
  refine ⟨⟨⟨⟨hl.attached, hf ▸ hl.observed⟩, ht', ht' ▸ hs'⟩, htr, hevents, rfl, h.navigator⟩, ?_⟩
  change J cursor' (s.desk.around.screen.told r.journal.timeline r.update)
  rcases hu : r.update with _ | u
  · -- nothing is told, so the journal is as it was, and so is its cursor
    have hsame : cursor' = cursor := by
      have hcursor := htr.cursor
      rw [hmoved.silent hu, h.traces.cursor] at hcursor
      exact (Except.ok.inj hcursor).symm
    rw [hsame]
    exact h.guide
  · -- a muted journal tells nothing
    have hunmuted : muted = false := by
      rcases hm : muted with _ | _
      · rfl
      · have hnone := hmoved.muted (h.traces.muted.trans hm)
        rw [hu] at hnone
        cases hnone
    have hreaches : u.Reaches s₀.desk.journal.timeline cursor' := by
      refine ⟨?_, hmoved.reshaped u hu, hmoved.left u hu⟩
      rw [hmoved.current u hu, ← ht']
      exact htr.cursor
    rw [ht']
    exact hcarry hunmuted _ u h.holds.good hreaches h.guide

/-- A step back: the newest applied event is undone, and the journal follows if it is not muted. -/
theorem gives_undo (h : Guided s₀ J (applied + 1) cursor muted s)
    (hc : muted = false → cursor = applied + 1)
    (hcarry : muted = false → Carries s₀ J (applied + 1) applied) :
    (controls.step .undo).Gives s fun moved s' => moved = true ∧
      Guided s₀ J applied (if muted then cursor else applied) muted s' := by
  have happ := h.applied
  rw [Document.applied, List.length_reverse] at happ
  obtain ⟨e, past, hpast⟩ := List.exists_cons_of_length_eq_add_one happ
  have hlen : past.length = applied := by simpa [hpast] using happ
  -- the events fall apart at the boundary, and the newest applied one stands right before it
  have hevents : s₀.events = past.reverse ++ e :: s.document.future := by
    rw [← h.events, Session.events, Document.applied, hpast, List.reverse_cons,
      List.append_assoc]
    rfl
  have hhear : (Stack.mk s₀.events cursor muted).hear (.undone e) =
      ⟨s₀.events, if muted then cursor else applied, muted⟩ := by
    rcases muted with _ | _
    · rw [hc rfl]
      exact Stack.hear_undone (by simp [hevents, ← hlen])
    · exact Stack.hear_undone_of_muted rfl e
  simp only [Controls.step, controls, Audience.undo, Audience.look, Audience.change,
    Action.gives_bind, Action.gives_get, Action.gives_pure]
  have hpast' : (audience.document.get s).past = e :: past := hpast
  simp only [hpast', Action.gives_bind, Action.gives_modify, Action.gives_pure, true_and]
  have hcarry' : muted = false → Carries s₀ J cursor (if muted then cursor else applied) := by
    rintro rfl
    rw [hc rfl]
    exact hcarry rfl
  have hnotify := h.gives_notify (d := { s.document with past := past }) rfl
    (fun _ => Journal.strolls_hearUndone) hhear hcarry'
    (f := fun d => { d with future := e :: d.future }) rfl hevents.symm
  rw [Document.applied, List.length_reverse, hlen] at hnotify
  exact hnotify

/-- A step forward: the next event is redone, and the journal follows if it is not muted. -/
theorem gives_redo (h : Guided s₀ J applied cursor muted s) (hlt : applied < s₀.events.length)
    (hc : muted = false → cursor = applied)
    (hcarry : muted = false → Carries s₀ J applied (applied + 1)) :
    (controls.step .redo).Gives s fun moved s' => moved = true ∧
      Guided s₀ J (applied + 1) (if muted then cursor else applied + 1) muted s' := by
  have hlen : s.document.past.length = applied := by
    rw [← h.applied, Document.applied, List.length_reverse]
  obtain ⟨e, future, hfuture⟩ : ∃ e future, s.document.future = e :: future := by
    refine List.exists_cons_of_ne_nil fun hnil => ?_
    rw [← h.events, Session.events, hnil, List.append_nil, h.applied] at hlt
    omega
  have hevents : s₀.events = s.document.past.reverse ++ e :: future := by
    rw [← h.events, Session.events, hfuture]
    rfl
  have hhear : (Stack.mk s₀.events cursor muted).hear (.redone e) =
      ⟨s₀.events, if muted then cursor else applied + 1, muted⟩ := by
    rcases muted with _ | _
    · rw [hc rfl]
      exact Stack.hear_redone (by simp [hevents, ← hlen])
    · exact Stack.hear_redone_of_muted rfl e
  simp only [Controls.step, controls, Audience.redo, Audience.look, Audience.change,
    Action.gives_bind, Action.gives_get, Action.gives_pure]
  have hfuture' : (audience.document.get s).future = e :: future := hfuture
  simp only [hfuture', Action.gives_bind, Action.gives_modify, Action.gives_pure, true_and]
  have hcarry' : muted = false → Carries s₀ J cursor (if muted then cursor else applied + 1) := by
    rintro rfl
    rw [hc rfl]
    exact hcarry rfl
  have hnotify := h.gives_notify (d := { s.document with future := future })
    (f := fun d => { d with past := e :: d.past }) rfl
    (fun _ => Journal.strolls_hearRedone) hhear hcarry' rfl (by simp [Document.applied, hevents])
  rw [Document.applied, List.length_reverse, List.length_cons, hlen] at hnotify
  exact hnotify

/-! ### Marches -/

/-- **A march back is made in full.** -/
theorem gives_march_undo {requested done steps : Nat}
    (h : Guided s₀ J (applied + steps) (applied + steps) false s)
    (hcarry : ∀ k, applied ≤ k → k < applied + steps → Carries s₀ J (k + 1) k) :
    (controls.march .undo requested done steps).Gives s fun answer s' =>
      answer = .ok () ∧ Guided s₀ J applied applied false s' := by
  induction steps generalizing done s with
  | zero => exact (Action.gives_pure _).mpr ⟨rfl, h⟩
  | succ steps ih =>
    rw [Controls.march, Action.gives_bind]
    have hfirst : Carries s₀ J (applied + steps + 1) (applied + steps) :=
      hcarry (applied + steps) (by omega) (by omega)
    refine (gives_undo h (fun _ => rfl) fun _ => hfirst).mono ?_
    rintro _ s' ⟨rfl, h'⟩
    rw [if_pos rfl, Action.gives_bind, Action.gives_note]
    exact ih h' fun k hle hlt => hcarry k hle (by omega)

/-- **A march forward is made in full**, while the journal is muted as well as while it is not. -/
theorem gives_march_redo {requested done steps : Nat} (h : Guided s₀ J applied cursor muted s)
    (hle : applied + steps ≤ s₀.events.length) (hc : muted = false → cursor = applied)
    (hcarry : muted = false → ∀ k, applied ≤ k → k < applied + steps →
      Carries s₀ J k (k + 1)) :
    (controls.march .redo requested done steps).Gives s fun answer s' => answer = .ok () ∧
      Guided s₀ J (applied + steps) (if muted then cursor else applied + steps) muted s' := by
  -- a muted cursor stays behind while the events are applied, so the two are apart here
  induction steps generalizing done s applied cursor with
  | zero =>
    refine (Action.gives_pure _).mpr ⟨rfl, ?_⟩
    rcases muted with _ | _
    · rw [hc rfl] at h
      exact h
    · exact h
  | succ steps ih =>
    rw [Controls.march, Action.gives_bind]
    refine (gives_redo h (by omega) hc fun hm => hcarry hm _ (Nat.le_refl _) (by omega)).mono ?_
    rintro _ s' ⟨rfl, h'⟩
    rw [if_pos rfl, Action.gives_bind, Action.gives_note]
    have hc' : muted = false → (if muted then cursor else applied + 1) = applied + 1 := by
      rintro rfl
      rfl
    refine (ih h' (by omega) hc' fun hm k hle' hlt => hcarry hm k (by omega) (by omega)).mono ?_
    rintro answer s'' ⟨hanswer, h''⟩
    rw [show applied + 1 + steps = applied + (steps + 1) by omega] at h''
    refine ⟨hanswer, ?_⟩
    rcases muted with _ | _ <;> exact h''

/-- **A march over the distance to an ordinal is made in full.** -/
theorem gives_march_toward {m n requested done : Nat} (h : Guided s₀ J m m false s)
    (hn : n ≤ s₀.events.length) (hcarry : CarriesAlong s₀ J m n) :
    (controls.march (.toward ((n : Int) - m)) requested done ((n : Int) - m).natAbs).Gives s
      fun answer s' => answer = .ok () ∧ Guided s₀ J n n false s' := by
  unfold Direction.toward
  split
  · obtain ⟨k, rfl⟩ : ∃ k, m = n + k := ⟨m - n, by omega⟩
    rw [show (((n : Int) - (n + k : Nat)).natAbs) = k by omega]
    exact gives_march_undo h hcarry.1
  · obtain ⟨k, rfl⟩ : ∃ k, n = m + k := ⟨n - m, by omega⟩
    rw [show ((((m + k : Nat) : Int) - m).natAbs) = k by omega]
    exact gives_march_redo h hn (fun _ => rfl) fun _ => hcarry.2

/-! ### Acts -/

variable {n : Nat}

/-- **Selecting a position walks the document there.** It fails only for a position that the
timeline does not have, and then nothing is done. -/
theorem gives_select (h : Guided s₀ J n n false s) (target : Position)
    (hcarry : ∀ q, s₀.desk.journal.timeline.ordinal target = .ok q → CarriesAlong s₀ J n q) :
    (controls.select target).Gives s fun answer s' =>
      (s₀.desk.journal.timeline.contains target = false ∧
        answer = .error (.unknownTarget target) ∧ s' = s) ∨
      ∃ q, s₀.desk.journal.timeline.ordinal target = .ok q ∧ (∃ walk, answer = .ok walk) ∧
        Guided s₀ J q q false s' := by
  have ht := h.holds.timeline
  rcases hc : s₀.desk.journal.timeline.contains target with _ | _
  · exact Controls.gives_select_of_unknown (ht ▸ hc) (.inl ⟨rfl, rfl, rfl⟩)
  obtain ⟨q, hq⟩ := Timeline.contains_iff_exists_ordinal.mp hc
  have hq' : s.desk.journal.timeline.ordinal target = .ok q := ht ▸ hq
  have hle : q ≤ s₀.events.length := by
    have hsize := Timeline.ordinal_le_size hq'
    rwa [h.traces.size_eq] at hsize
  refine Controls.gives_select h.traces.cursor hq' (Journal.stepsTo_eq h.traces.cursor hq') ?_
  refine (gives_march_toward h hle (hcarry q hq)).mono ?_
  rintro _ s' ⟨rfl, h'⟩
  -- the cursor has come to the ordinal of the target, and no other position has it
  have hcursor : (controls.journal.get s').cursor = target := h'.cursor_eq hq
  exact .inr ⟨q, hq, ⟨_, if_pos hcursor⟩, h'⟩

/-- Muting is no matter of the rest. -/
private theorem Guided.mute (h : Guided s₀ J applied cursor muted s) (b : Bool) :
    Guided s₀ J applied cursor b (controls.journal.modify (fun j => j.mute b) s) :=
  ⟨⟨h.holds.of_eq rfl rfl rfl rfl, h.traces.mute b, h.events, h.applied, h.navigator⟩, h.guide⟩

/-- The cursor can be placed where the document stands, and the screen is told nothing. -/
private theorem gives_placing (h : Walked s₀ applied cursor false s) {p : Position}
    (hp : s.desk.journal.timeline.ordinal p = .ok applied) :
    (Action.zoom controls.journal (Journal.placing p)).Gives s fun _ s' =>
      Walked s₀ applied applied false s' ∧
        s'.desk.around.screen = s.desk.around.screen := by
  obtain ⟨r, hr, htr⟩ := h.traces.place hp
  have hj := (Journal.place_eq_ok hr).1
  simp only [Action.gives_zoom, Journal.placing, Action.gives_bind, Action.gives_get,
    Action.gives_ofExcept, Action.gives_modify, Action.gives_report]
  refine ⟨r, hr, ⟨h.holds.of_eq rfl rfl ?_ rfl, htr, h.events, h.applied, h.navigator⟩, rfl⟩
  change r.journal.timeline = _
  rw [hj]

/-- **Stepping through a run** takes document and journal to its end, and the screen is told
nothing. -/
theorem gives_stepThrough {group : Nat} {run : Run} (h : Walked s₀ n n false s)
    (hrun : s.desk.journal.timeline.runs[group]? = some run) (hrest : run.rest ≠ [])
    (hn : n = s.desk.journal.timeline.sizeBefore group + 1) :
    (controls.stepThrough group run.rest.length).Gives s fun answer s' => answer = .ok true ∧
      Walked s₀ (n + run.rest.length) (n + run.rest.length) false s' ∧
        s'.desk.around.screen = s.desk.around.screen := by
  obtain ⟨k, hk⟩ : ∃ k, run.rest.length = k + 1 :=
    Nat.exists_eq_succ_of_ne_zero (Nat.ne_of_gt (List.length_pos_iff.mpr hrest))
  have hle : n + run.rest.length ≤ s₀.events.length := by
    have hsize := Timeline.sizeBefore_add_size_le hrun
    rw [h.traces.size_eq, Run.size] at hsize
    change _ ≤ s₀.events.length at hsize
    omega
  -- muted, the journal stays at the head of the run while the document walks to its end
  have hguided : Guided s₀ (fun _ screen => screen = s.desk.around.screen) n n false s := ⟨h, rfl⟩
  simp only [Controls.stepThrough, Action.gives_bind, Action.gives_bracket]
  refine (gives_march_redo (hguided.mute true) hle (fun hm => by cases hm)
    fun hm => by cases hm).mono ?_
  rintro _ s' ⟨rfl, h'⟩
  have hunmuted := (h'.mute false).toWalked
  have ht : (controls.journal.modify (fun j => j.mute false) s').desk.journal.timeline =
      s.desk.journal.timeline := h'.holds.timeline.trans h.holds.timeline.symm
  have hord : (controls.journal.modify (fun j => j.mute false) s').desk.journal.timeline.ordinal
      (.on (.ofChild group k)) = .ok (n + run.rest.length) := by
    rw [ht, Timeline.ordinal_on_eq_ok_iff]
    refine ⟨run, hrun, ?_, ?_⟩ <;> rw [Address.reach_ofChild]
    · rw [Run.size]
      omega
    · change _ = s.desk.journal.timeline.sizeBefore group + (k + 2)
      omega
  rw [hk] at hunmuted hord ⊢
  simp only [Controls.stepsMade, Action.gives_bind, Action.gives_pure]
  refine (gives_placing hunmuted hord).mono ?_
  rintro _ s'' ⟨h'', hscreen⟩
  exact ⟨trivial, h'', hscreen.trans h'.guide⟩

/-- **Collapsing a run** steps through it if the cursor is on its head, and does nothing otherwise.
The screen is told nothing. -/
theorem gives_collapse (h : Walked s₀ n n false s) (group : Nat) :
    (controls.collapse group).Gives s fun answer s' => (∃ b, answer = .ok b) ∧
      s'.desk.around.screen = s.desk.around.screen ∧ ∃ n', Walked s₀ n' n' false s' ∧
        ∀ run, s₀.desk.journal.timeline.runs[group]? = some run →
          n' = if s.desk.journal.cursor = .on (.ofHead group) then n + run.rest.length else n := by
  have ht := h.holds.timeline
  -- wherever it stops short, nothing was done and no step was due
  have hstay : ∀ b, (∀ run, s₀.desk.journal.timeline.runs[group]? = some run →
        n = if s.desk.journal.cursor = .on (.ofHead group) then n + run.rest.length else n) →
      (pure (.ok b) : Action Session (Except HistoryError Bool)).Gives s fun answer s' =>
        (∃ b, answer = .ok b) ∧ s'.desk.around.screen = s.desk.around.screen ∧
          ∃ n', Walked s₀ n' n' false s' ∧
            ∀ run, s₀.desk.journal.timeline.runs[group]? = some run →
              n' = if s.desk.journal.cursor = .on (.ofHead group) then n + run.rest.length
                else n :=
    fun b hsame => (Action.gives_pure _).mpr ⟨⟨b, rfl⟩, rfl, n, h, hsame⟩
  simp only [Controls.collapse, Controls.look, Action.gives_bind, Action.gives_get,
    Action.gives_pure]
  split
  · rename_i hcursor
    exact hstay false fun _ _ => (if_neg hcursor).symm
  · rename_i hnot
    have hcursor : s.desk.journal.cursor = .on (.ofHead group) := not_not.mp hnot
    split
    · rename_i hnone
      refine hstay false fun run hrun => ?_
      rw [← ht] at hrun
      cases hnone.symm.trans hrun
    · rename_i run hrun
      have hrun₀ : s₀.desk.journal.timeline.runs[group]? = some run := ht ▸ hrun
      by_cases hrest : run.rest = []
      · simp only [hrest, List.isEmpty_nil, if_true]
        refine hstay false fun run' hrun' => ?_
        obtain rfl : run = run' := Option.some.inj (hrun₀.symm.trans hrun')
        rw [if_pos hcursor, hrest, List.length_nil, Nat.add_zero]
      · have hord := h.traces.cursor
        rw [hcursor, Timeline.ordinal_on_eq_ok_iff] at hord
        obtain ⟨run', hrun', -, hn⟩ := hord
        simp only [List.isEmpty_iff, hrest, if_false, Action.gives_bind, Action.gives_note]
        refine (gives_stepThrough h hrun hrest hn).mono ?_
        rintro _ s' ⟨hanswer, h', hscreen⟩
        refine ⟨⟨true, hanswer⟩, hscreen, _, h', fun run' hrun' => ?_⟩
        obtain rfl : run = run' := Option.some.inj (hrun₀.symm.trans hrun')
        rw [if_pos hcursor]

/-- Expanding a run has the screen told the whole state if the cursor is in it, and that is all. -/
theorem gives_expand (h : Walked s₀ n n false s) (group : Nat) :
    (controls.expand group).Gives s fun answer s' => (∃ b, answer = .ok b) ∧
      Walked s₀ n n false s' ∧ s' = s.told s.desk.journal
        (if s.desk.journal.cursor.group? = some group then
          s.desk.around.screen.told s.desk.journal.timeline (s.desk.journal.standing .resync)
        else s.desk.around.screen) := by
  simp only [Controls.expand, Controls.look, Action.gives_bind, Action.gives_get,
    Action.gives_pure]
  change Action.Gives (if s.desk.journal.cursor.group? = some group then _ else _) s _
  split
  · simp only [Action.gives_bind, Action.gives_note, Action.gives_pure]
    rw [Action.Gives, leaves_resync h.holds.linked.attached]
    have hs : Screen.TracksSince _ s.desk.journal.timeline s.desk.around.screen :=
      h.holds.timeline.symm ▸ h.holds.good
    obtain ⟨answer, hanswer, hs'⟩ :=
      hs.follow (u := s.desk.journal.standing .resync) (fun _ => rfl) h.traces.contains_cursor
    refine ⟨(), ?_, ⟨true, rfl⟩, ⟨h.holds.told h.holds.timeline ?_, h.traces, h.events, h.applied,
      h.navigator⟩, rfl⟩
    · rw [hanswer]
      rfl
    · rw [← h.holds.timeline]
      exact hs'
  · exact (Action.gives_pure _).mpr ⟨⟨false, rfl⟩, h, rfl⟩

/-- **What the navigator makes of an act** leaves document and journal in step, and fails only where
the act names a position that the timeline does not have. -/
theorem gives_act (h : Walked s₀ n n false s) (act : UserAct) :
    (controls.act act).Gives s fun answer s' => (∃ n', Walked s₀ n' n' false s') ∧
      ∀ e, answer = .error e → ∃ p, act = .select p ∧ e = .unknownTarget p ∧
        s₀.desk.journal.timeline.contains p = false := by
  cases act with
  | select p =>
    simp only [Controls.act, Action.gives_bind, Action.gives_pure]
    refine (gives_select h.guided p fun _ _ => carriesAlong_true _ _).mono ?_
    rintro _ s' (⟨hc, rfl, rfl⟩ | ⟨q, -, ⟨walk, rfl⟩, h'⟩)
    · refine ⟨⟨n, h⟩, ?_⟩
      rintro _ ⟨⟩
      exact ⟨p, rfl, rfl, hc⟩
    · exact ⟨⟨q, h'.toWalked⟩, by simp [Except.map]⟩
  | expand group =>
    simp only [Controls.act, Action.gives_bind, Action.gives_pure]
    refine (gives_expand h group).mono ?_
    rintro _ s' ⟨⟨b, rfl⟩, h', -⟩
    exact ⟨⟨n, h'⟩, by simp [Except.map]⟩
  | collapse group =>
    simp only [Controls.act, Action.gives_bind, Action.gives_pure]
    refine (gives_collapse h group).mono ?_
    rintro _ s' ⟨⟨b, rfl⟩, -, n', h', -⟩
    exact ⟨⟨n', h'⟩, by simp [Except.map]⟩

end Session

end UndoJournal
