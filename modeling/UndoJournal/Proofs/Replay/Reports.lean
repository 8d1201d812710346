import UndoJournal.Replay
import UndoJournal.Proofs.Session.Gestures

/-!
# What a replay comes to

A session comes back to rest after each command of a script (`Replay.gives_apply`), and a gesture in
a session at rest fails for no other reason than that there is no such row. So **a replay breaks off
exactly at the first step that names a row that is not there when it is reached**
(`Replay.gives_steps`). Otherwise its report has a snapshot for each step that asks for one, which
is what a replay of the steps before it ends with (`replay_exactly`).

The session that a step finds is the one that the steps before it have reached
(`Replay.reached`).
-/

namespace UndoJournal

/-- The row that a command is about. -/
def Command.row? : Command → Option Nat
  | click row | collapse row | expand row => some row
  | _ => none

namespace Replay

open Session (wired unwired)

/-- A command names a row that is not there. -/
def Lacks (s : Session) (c : Command) (row : Nat) : Prop :=
  c.row? = some row ∧ s.outline.visible.length ≤ row

/-- The session that some steps have reached. -/
def reached (s : Session) (script : List ScriptStep) : Session := ((steps script).run s).state

/-- Some step of a script names a row that is not there when it is reached. -/
def Stumbles (s : Session) (script : List ScriptStep) : Prop :=
  ∃ before x behind row, script = before ++ x :: behind ∧ Lacks (reached s before) x.command row

/-- The first step of a script that names a row that is not there is blamed for it. -/
def Blames (s : Session) (script : List ScriptStep) (stop : ReplayStop) : Prop :=
  ∃ before x behind row, script = before ++ x :: behind ∧ ¬ Stumbles s before ∧
    Lacks (reached s before) x.command row ∧ stop = ⟨x.line, .view (.noVisibleRow row)⟩

/-- How many steps of a script ask for a snapshot. -/
def asked (script : List ScriptStep) : Nat := script.countP (·.command = .snapshot)

/-- There is one show point for each step that asks for a snapshot, in the order of the steps, each
with the line of its step and a snapshot that the steps before it account for. -/
structure Illustrates (accounts : List ScriptStep → Snapshot → Prop) (script : List ScriptStep)
    (shows : List ShowPoint) : Prop where
  length : shows.length = asked script
  each : ∀ before x behind, script = before ++ x :: behind → x.command = .snapshot →
    ∃ snapshot, shows[asked before]? = some ⟨x.line, snapshot⟩ ∧ accounts before snapshot

/-- What the session looks like that some steps have reached. -/
def Looks (s : Session) (script : List ScriptStep) (snapshot : Snapshot) : Prop :=
  (reached s script).snapshot = .ok snapshot

variable {s : Session} {script : List ScriptStep} {x : ScriptStep}

/-! ### Looking at a session -/

/-- A session in step can be looked at. -/
private theorem exists_snapshot (h : s.InStep) : ∃ snapshot, s.snapshot = .ok snapshot := by
  have hredo : ∃ verb, s.journal.redoVerb = .ok verb := by
    rw [Journal.redoVerb, Session.journal, h.traces.redoEvent?_eq]
    exact ⟨_, rfl⟩
  have hrows : ∃ rows, s.journal.rows = .ok rows := by
    rw [Journal.rows, Session.journal, h.traces.cursor]
    exact ⟨_, rfl⟩
  obtain ⟨redo, hredo⟩ := hredo
  obtain ⟨rows, hrows⟩ := hrows
  rw [Session.snapshot, hredo, hrows]
  exact ⟨_, rfl⟩

private theorem gives_look (h : s.InStep) :
    look.Gives s fun snapshot s' => s.snapshot = .ok snapshot ∧ s' = s := by
  obtain ⟨snapshot, hsnapshot⟩ := exists_snapshot h
  simp only [look, Action.gives_bind, Action.gives_get, Action.gives_ofExcept]
  exact ⟨snapshot, hsnapshot, hsnapshot, trivial⟩

/-! ### One step -/

/-- What a command answers: an error exactly if it names a row that is not there. -/
def Answers (s : Session) (c : Command) (answer : Except SessionError Unit) : Prop :=
  (∃ row, Lacks s c row ∧ answer = .error (.view (.noVisibleRow row))) ∨
    ((∀ row, ¬ Lacks s c row) ∧ answer = .ok ())

/-- What is done to the document names no row. -/
private theorem answers_of_row?_eq_none {c : Command} (hc : c.row? = none) :
    Answers s c (.ok ()) := by
  refine .inr ⟨?_, rfl⟩
  rintro row ⟨hrow, -⟩
  exact nomatch hc.symm.trans hrow

/-- A gesture fails for no other reason than that its row is not there. -/
private theorem answers_of_gesture {α : Type} {c : Command} {row : Nat} (hc : c.row? = some row)
    {answer : Except SessionError α}
    (hanswer : (s.outline.visible.length ≤ row ∧ answer = .error (.view (.noVisibleRow row))) ∨
      (row < s.outline.visible.length ∧ ∃ a, answer = .ok a)) :
    Answers s c (answer.map fun _ => ()) := by
  obtain ⟨hle, rfl⟩ | ⟨hlt, a, rfl⟩ := hanswer
  · exact .inl ⟨row, ⟨hc, hle⟩, rfl⟩
  · refine .inr ⟨?_, rfl⟩
    rintro row' ⟨hrow', hle⟩
    obtain rfl : row = row' := Option.some.inj (hc.symm.trans hrow')
    omega

/-- A gesture with an expander, whatever it changes. -/
private theorem answers_of_used {s' : Session} {c : Command} {row : Nat} (hc : c.row? = some row)
    {changed : Nat → Run → Session → Prop} {answer : Except SessionError Bool}
    (hused : s.Used row changed answer s') : Answers s c (answer.map fun _ => ()) := by
  refine answers_of_gesture hc ?_
  obtain ⟨hle, hanswer, -⟩ | ⟨hlt, ⟨hanswer, -⟩ | ⟨-, -, -, hanswer, -⟩⟩ := hused
  · exact .inl ⟨hle, hanswer⟩
  · exact .inr ⟨hlt, false, hanswer⟩
  · exact .inr ⟨hlt, true, hanswer⟩

/-- What is done to the document is done. -/
private theorem gives_quietly {α : Type} {y : Action Session α} {c : Command} (hc : c.row? = none)
    (h : (Session.quietly y).Gives s fun _ s' => s'.AtRest) :
    (Session.quietly y).Gives s fun answer s' => s'.AtRest ∧ Answers s c answer := by
  rw [Session.gives_quietly] at h ⊢
  exact h.mono fun _ _ h' => ⟨h', answers_of_row?_eq_none hc⟩

/-- To find nothing to do is only reported. -/
private theorem gives_reporting {y : Action Session Bool} {c : Command} (hc : c.row? = none)
    (h : (Session.quietly y).Gives s fun _ s' => s'.AtRest) (line : Nat) (message : String) :
    Action.Gives (do
      if ← y then pure () else idle line message
      pure (.ok ())) s fun answer s' => s'.AtRest ∧ Answers s c answer := by
  have hdone : Answers s c (.ok ()) := answers_of_row?_eq_none hc
  rw [Session.gives_quietly] at h
  rw [Action.gives_bind]
  refine h.mono fun done s' h' => ?_
  cases done with
  | true => exact (Action.gives_pure _).mpr ⟨h', hdone⟩
  | false =>
    change (idle line message >>= fun _ => pure (Except.ok ())).Gives s' _
    rw [idle, Action.gives_bind, Action.gives_note, Action.gives_pure]
    exact ⟨h', hdone⟩

/-- **Each command comes back to rest**, and fails exactly if it names a row that is not there. -/
theorem gives_apply (h : s.AtRest) (line : Nat) (c : Command) :
    (apply line c).Gives s fun answer s' => s'.AtRest ∧ Answers s c answer := by
  cases c with
  | commit kind description =>
    exact gives_quietly rfl (h.gives_perform (d := .commit kind description) rfl)
  | undo => exact gives_reporting rfl (h.gives_perform (d := .undo) rfl) line _
  | redo => exact gives_reporting rfl (h.gives_perform (d := .redo) rfl) line _
  | clearUndo => exact gives_quietly rfl (h.gives_perform (d := .clearUndo) rfl)
  | clearRedo => exact gives_quietly rfl (h.gives_perform (d := .clearRedo) rfl)
  | click row =>
    have hrest := Session.gives_plainly.mp (h.gives_perform (d := .click row) rfl)
    refine (hrest.and (h.gives_click row)).mono ?_
    rintro answer s' ⟨h', hclick⟩
    have hsame : (answer.map fun _ => ()) = answer := by cases answer <;> rfl
    rw [← hsame]
    have hanswer : (s.outline.visible.length ≤ row ∧ answer = .error (.view (.noVisibleRow row))) ∨
        (row < s.outline.visible.length ∧ ∃ a, answer = .ok a) := by
      obtain ⟨hle, hanswer, -⟩ | ⟨hlt, hanswer, -⟩ := hclick
      · exact .inl ⟨hle, hanswer⟩
      · exact .inr ⟨hlt, (), hanswer⟩
    exact ⟨h', answers_of_gesture rfl hanswer⟩
  | collapse row =>
    have hrest := Session.gives_plainly.mp (h.gives_perform (d := .collapse row) rfl)
    simp only [apply, Action.gives_bind, Action.gives_pure]
    exact (hrest.and (h.gives_collapse row)).mono fun _ _ h' => ⟨h'.1, answers_of_used rfl h'.2⟩
  | expand row =>
    have hrest := Session.gives_plainly.mp (h.gives_perform (d := .expand row) rfl)
    simp only [apply, Action.gives_bind, Action.gives_pure]
    exact (hrest.and (h.gives_expand row)).mono fun _ _ h' => ⟨h'.1, answers_of_used rfl h'.2⟩
  | snapshot => exact (Action.gives_pure _).mpr ⟨h, answers_of_row?_eq_none rfl⟩

/-- What a step shows: the session, if it asks for that. -/
def Shows (s : Session) (x : ScriptStep) (shown : List ShowPoint) : Prop :=
  if x.command = .snapshot then
    ∃ snapshot, s.snapshot = .ok snapshot ∧ shown = [⟨x.line, snapshot⟩]
  else shown = []

/-- What a step comes to: it is blamed for naming a row that is not there, or it is taken. -/
def Stepped (s : Session) (x : ScriptStep) (answer : Except ReplayStop (List ShowPoint)) : Prop :=
  (∃ row, Lacks s x.command row ∧ answer = .error ⟨x.line, .view (.noVisibleRow row)⟩) ∨
    ((∀ row, ¬ Lacks s x.command row) ∧ ∃ shown, answer = .ok shown ∧ Shows s x shown)

/-- **Each step is taken or blamed.** -/
theorem gives_step (h : s.AtRest) (x : ScriptStep) :
    (step x).Gives s fun answer s' => s'.AtRest ∧ Stepped s x answer := by
  simp only [step, Action.gives_within, Action.gives_bind, Action.gives_note]
  by_cases hx : x.command = .snapshot
  · -- to ask for a snapshot does nothing
    have hnot : ∀ row, ¬ Lacks s x.command row := by
      rintro row ⟨hrow, -⟩
      rw [hx] at hrow
      cases hrow
    have happly : apply x.line x.command = pure (.ok ()) := by rw [hx]; rfl
    rw [happly, Action.gives_pure]
    change Action.Gives (if x.command = .snapshot then _ else _) s _
    rw [if_pos hx, Action.gives_bind]
    refine (gives_look h.step).mono ?_
    rintro snapshot _ ⟨hsnapshot, rfl⟩
    refine (Action.gives_pure _).mpr ⟨h, .inr ⟨hnot, _, rfl, ?_⟩⟩
    rw [Shows, if_pos hx]
    exact ⟨snapshot, hsnapshot, rfl⟩
  · refine (gives_apply h x.line x.command).mono ?_
    rintro _ s' ⟨h', ⟨row, hlacks, rfl⟩ | ⟨hnot, rfl⟩⟩
    · exact (Action.gives_pure _).mpr ⟨h', .inl ⟨row, hlacks, rfl⟩⟩
    · change Action.Gives (if x.command = .snapshot then _ else _) s' _
      rw [if_neg hx, Action.gives_pure]
      refine ⟨h', .inr ⟨hnot, _, rfl, ?_⟩⟩
      rw [Shows, if_neg hx]

/-! ### All steps -/

/-- Steps behind one that is taken start where that one has ended. -/
private theorem reached_cons {shown : List ShowPoint}
    (hx : ((step x).run s).result = .ok (.ok shown))
    (behind : List ScriptStep) :
    reached s (x :: behind) = reached ((step x).run s).state behind := by
  have hrun : (step x).run s =
      ⟨.ok (.ok shown), ((step x).run s).state, ((step x).run s).notes⟩ := by
    rw [← hx]
  rw [reached, steps, Action.run_bind_of_ok hrun, reached]
  dsimp only
  rw [Action.run_bind]
  -- putting the show points together does nothing to the session
  rcases ((steps behind).run ((step x).run s).state).result with fault | (stop | more) <;> rfl

/-- A script stumbles at its first step or behind it. -/
private theorem stumbles_cons {shown : List ShowPoint}
    (hx : ((step x).run s).result = .ok (.ok shown))
    {behind : List ScriptStep} : Stumbles s (x :: behind) ↔
      (∃ row, Lacks s x.command row) ∨ Stumbles ((step x).run s).state behind := by
  constructor
  · rintro ⟨before, y, rest, row, hsplit, hlacks⟩
    obtain ⟨rfl, h⟩ | ⟨before, rfl, rfl⟩ := List.cons_eq_append_iff.mp hsplit
    · obtain ⟨rfl, rfl⟩ := List.cons.inj h
      exact .inl ⟨row, hlacks⟩
    · rw [reached_cons hx] at hlacks
      exact .inr ⟨before, y, rest, row, rfl, hlacks⟩
  · rintro (⟨row, hlacks⟩ | ⟨before, y, rest, row, rfl, hlacks⟩)
    · exact ⟨[], x, behind, row, rfl, hlacks⟩
    · rw [← reached_cons hx] at hlacks
      exact ⟨x :: before, y, rest, row, rfl, hlacks⟩

private theorem not_stumbles_nil (s : Session) : ¬ Stumbles s [] := by
  rintro ⟨before, x, behind, row, hsplit, -⟩
  cases before <;> cases hsplit

private theorem not_stumbles_cons {shown : List ShowPoint}
    (hx : ((step x).run s).result = .ok (.ok shown))
    (hnot : ∀ row, ¬ Lacks s x.command row) {behind : List ScriptStep}
    (h : ¬ Stumbles ((step x).run s).state behind) : ¬ Stumbles s (x :: behind) := by
  rw [stumbles_cons hx]
  rintro (⟨row, hlacks⟩ | hstumbles)
  · exact hnot row hlacks
  · exact h hstumbles

/-- What behind the first step is blamed is blamed in the whole script. -/
private theorem Blames.cons {stop : ReplayStop} {shown : List ShowPoint}
    (hx : ((step x).run s).result = .ok (.ok shown)) (hnot : ∀ row, ¬ Lacks s x.command row)
    (h : Blames ((step x).run s).state script stop) : Blames s (x :: script) stop := by
  obtain ⟨before, y, behind, row, rfl, hsound, hlacks, rfl⟩ := h
  refine ⟨x :: before, y, behind, row, rfl, not_stumbles_cons hx hnot hsound, ?_, rfl⟩
  rw [reached_cons hx]
  exact hlacks

private theorem asked_cons (x : ScriptStep) (script : List ScriptStep) :
    asked (x :: script) = (if x.command = .snapshot then 1 else 0) + asked script := by
  rw [asked, List.countP_cons, asked, Nat.add_comm]
  simp only [decide_eq_true_eq]

private theorem Shows.length_eq {shown : List ShowPoint} (h : Shows s x shown) :
    shown.length = if x.command = .snapshot then 1 else 0 := by
  by_cases hx : x.command = .snapshot
  · rw [Shows, if_pos hx] at h
    rw [if_pos hx]
    obtain ⟨snapshot, -, rfl⟩ := h
    rfl
  · rw [Shows, if_neg hx] at h
    rw [if_neg hx, h]
    rfl

/-- The first step puts its show point, if it has one, in front of the others. -/
private theorem Illustrates.cons {shows shown : List ShowPoint} {s' : Session}
    (h : Illustrates (Looks s') script shows) (hshown : Shows s x shown)
    (hreached : ∀ behind, reached s (x :: behind) = reached s' behind) :
    Illustrates (Looks s) (x :: script) (shown ++ shows) := by
  constructor
  · rw [List.length_append, hshown.length_eq, h.length, asked_cons]
  · -- the step that asks is the first one, or one of those behind it
    intro before y behind hsplit hy
    obtain ⟨rfl, hsame⟩ | ⟨before, rfl, rfl⟩ := List.cons_eq_append_iff.mp hsplit
    · obtain ⟨rfl, rfl⟩ := List.cons.inj hsame
      rw [Shows, if_pos hy] at hshown
      obtain ⟨snapshot, hsnapshot, rfl⟩ := hshown
      exact ⟨snapshot, rfl, hsnapshot⟩
    · obtain ⟨snapshot, hget, hlooks⟩ := h.each before y behind rfl hy
      refine ⟨snapshot, ?_, ?_⟩
      · rw [asked_cons, ← hshown.length_eq, List.getElem?_append_right (Nat.le_add_right _ _),
          Nat.add_sub_cancel_left]
        exact hget
      · rw [Looks, hreached]
        exact hlooks

/-- What carrying out a script comes to: its first step that names a row that is not there is
blamed, or there is none and each step that asks for a snapshot has got one. -/
def Carried (s : Session) (script : List ScriptStep)
    (answer : Except ReplayStop (List ShowPoint)) : Prop :=
  (∃ stop, answer = .error stop ∧ Blames s script stop) ∨
    (¬ Stumbles s script ∧ ∃ shows, answer = .ok shows ∧ Illustrates (Looks s) script shows)

/-- **A script is carried out to its end, or to the first step that names a row that is not
there.** -/
theorem gives_steps (h : s.AtRest) (script : List ScriptStep) :
    (steps script).Gives s fun answer s' => s'.AtRest ∧ Carried s script answer := by
  induction script generalizing s with
  | nil =>
    refine (Action.gives_pure _).mpr ⟨h, .inr ⟨not_stumbles_nil s, [], rfl, rfl, ?_⟩⟩
    intro before x behind hsplit
    cases before <;> cases hsplit
  | cons x script ih =>
    obtain ⟨answer, hanswer, hrest, hstep⟩ := gives_step h x
    rw [steps, Action.gives_bind]
    refine ⟨answer, hanswer, ?_⟩
    obtain ⟨row, hlacks, rfl⟩ | ⟨hnot, shown, rfl, hshown⟩ := hstep
    · have hblames : Blames s (x :: script) ⟨x.line, .view (.noVisibleRow row)⟩ :=
        ⟨[], x, script, row, rfl, not_stumbles_nil s, hlacks, rfl⟩
      exact (Action.gives_pure _).mpr ⟨hrest, .inl ⟨_, rfl, hblames⟩⟩
    · -- the rest of the script starts from a session at rest
      dsimp only
      rw [Action.gives_bind]
      refine (ih hrest).mono ?_
      rintro _ s' ⟨hrest', ⟨stop, rfl, hblames⟩ | ⟨hsound, shows, rfl, hillustrates⟩⟩
      · exact (Action.gives_pure _).mpr ⟨hrest', .inl ⟨stop, rfl, hblames.cons hanswer hnot⟩⟩
      · have hsound' := not_stumbles_cons hanswer hnot hsound
        have hillustrates' := hillustrates.cons hshown (reached_cons hanswer)
        exact (Action.gives_pure _).mpr ⟨hrest', .inr ⟨hsound', _, rfl, hillustrates'⟩⟩

/-! ### A whole replay -/

/-- A replay from a session is stopped by its first step that lacks its row, or reports the
snapshots of its prefixes and of the whole. -/
def Comes (s : Session) (script : List ScriptStep) (answer : Except ReplayStop ReplayReport) :
    Prop :=
  (∃ stop, answer = .error stop ∧ Blames s script stop) ∨
    (¬ Stumbles s script ∧ ∃ report, answer = .ok report ∧ Looks s script report.final ∧
      Illustrates (Looks s) script report.shows)

private theorem gives_play (h : s.AtRest) (script : List ScriptStep) :
    (play script).Gives s fun answer s' => s'.AtRest ∧ Comes s script answer := by
  obtain ⟨answer, hanswer, hrest, hcarried⟩ := gives_steps h script
  rw [play, Action.gives_bind]
  refine ⟨answer, hanswer, ?_⟩
  obtain ⟨stop, rfl, hblames⟩ | ⟨hsound, shows, rfl, hillustrates⟩ := hcarried
  · exact (Action.gives_pure _).mpr ⟨hrest, .inl ⟨stop, rfl, hblames⟩⟩
  · dsimp only
    rw [Action.gives_bind]
    refine (gives_look hrest.step).mono ?_
    rintro snapshot _ ⟨hlooks, rfl⟩
    simp only [Action.gives_bind, Action.gives_get, Action.gives_pure]
    exact ⟨hrest, .inr ⟨hsound, _, rfl, hlooks, hillustrates⟩⟩

/-- The session of a replay before its first step. -/
def opening (settings : Settings) (guides : Guides) : Session :=
  wired settings (.empty settings guides 0)

/-- **A replay meets no fault**, and this is what it comes to. -/
theorem replay_comes (script : List ScriptStep) (settings : Settings) (guides : Guides) :
    ∃ answer, (replay script settings guides).result = .ok answer ∧
      Comes (opening settings guides) script answer := by
  have hwhole : (whole script).Gives (unwired settings (.empty settings guides 0)) fun answer _ =>
      Comes (opening settings guides) script answer := by
    obtain ⟨answer, hwire, -⟩ := Session.gives_wire settings (.empty settings guides 0)
    rw [whole, Action.gives_bind]
    refine ⟨answer, hwire, ?_⟩
    have h : (opening settings guides).AtRest := Session.atRest_wired settings _
    change (play script >>= _).Gives (opening settings guides) _
    rw [Action.gives_bind]
    refine (gives_play h script).mono fun answer s' ⟨h', hcomes⟩ => ?_
    rw [Session.close, Action.gives_bind]
    exact (Session.gives_disconnect h'.step).mono fun _ _ _ => (Action.gives_pure _).mpr hcomes
  exact hwhole

/-- The replay of a script succeeds, and its final snapshot is this one. -/
def Ends (settings : Settings) (guides : Guides) (script : List ScriptStep)
    (snapshot : Snapshot) : Prop :=
  ∃ report, (replay script settings guides).result = .ok (.ok report) ∧ report.final = snapshot

private theorem Blames.stumbles {stop : ReplayStop} (h : Blames s script stop) :
    Stumbles s script := by
  obtain ⟨before, x, behind, row, hsplit, -, hlacks, -⟩ := h
  exact ⟨before, x, behind, row, hsplit, hlacks⟩

/-- A script that begins with one that stumbles does so too. -/
private theorem Stumbles.append (h : Stumbles s script) (behind : List ScriptStep) :
    Stumbles s (script ++ behind) := by
  obtain ⟨before, x, rest, row, rfl, hlacks⟩ := h
  exact ⟨before, x, rest ++ behind, row, by simp, hlacks⟩

/-- The session that a script reaches is the one that its replay ends with. -/
private theorem ends_of_looks {settings : Settings} {guides : Guides} {snapshot : Snapshot}
    (h : ¬ Stumbles (opening settings guides) script)
    (hlooks : Looks (opening settings guides) script snapshot) :
    Ends settings guides script snapshot := by
  obtain ⟨answer, hresult, hcomes⟩ := replay_comes script settings guides
  obtain ⟨stop, -, hblames⟩ | ⟨-, report, rfl, hfinal, -⟩ := hcomes
  · exact absurd hblames.stumbles h
  · exact ⟨report, hresult, Except.ok.inj (hfinal.symm.trans hlooks)⟩

end Replay

open Replay

/-- **A replay fails only on a row that is not there.** It meets no fault. It breaks off exactly if
some step names a row that is not there when it is reached, and the first such step is then blamed
for that row. Otherwise its report has one show point for each step that asks for a snapshot, in
their order, with its line, and with what a replay of the steps before it ends with. -/
theorem replay_exactly (script : List ScriptStep) (settings : Settings) (guides : Guides) :
    ∃ answer, (replay script settings guides).result = .ok answer ∧
      ((∃ stop, answer = .error stop) ↔ Stumbles (opening settings guides) script) ∧
      (∀ stop, answer = .error stop → Blames (opening settings guides) script stop) ∧
      ∀ report, answer = .ok report → Illustrates (Ends settings guides) script report.shows := by
  obtain ⟨answer, hresult, hcomes⟩ := replay_comes script settings guides
  refine ⟨answer, hresult, ?_⟩
  obtain ⟨stop, rfl, hblames⟩ | ⟨hsound, report, rfl, -, hillustrates⟩ := hcomes
  · refine ⟨⟨fun _ => hblames.stumbles, fun _ => ⟨stop, rfl⟩⟩, ?_, nofun⟩
    rintro _ ⟨⟩
    exact hblames
  · refine ⟨⟨nofun, fun h => absurd h hsound⟩, nofun, ?_⟩
    rintro _ ⟨⟩
    refine ⟨hillustrates.length, fun before x behind hsplit hx => ?_⟩
    obtain ⟨snapshot, hget, hlooks⟩ := hillustrates.each before x behind hsplit hx
    have hbefore : ¬ Stumbles (opening settings guides) before := fun h =>
      hsound (hsplit ▸ h.append (x :: behind))
    exact ⟨snapshot, hget, ends_of_looks hbefore hlooks⟩

example : (replay [⟨1, .commit "move" "Move"⟩, ⟨2, .snapshot⟩, ⟨4, .click 2⟩] {} .unicode).result =
    .ok (.error ⟨4, .view (.noVisibleRow 2)⟩) := by
  decide +kernel

end UndoJournal
