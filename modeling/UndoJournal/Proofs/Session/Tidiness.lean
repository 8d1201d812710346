import UndoJournal.Proofs.Screen.Tidiness
import UndoJournal.Proofs.Session.Watching

/-!
# Runs that were left stay closed

A session whose settings ask for it closes a run when the cursor leaves it. Runs are also left while
the link is paused, lose their heads to a clear, and grow again under a commit, and still **after
every push that is not skipped no run with entries behind its head is open but the one of the
cursor** (`Session.tidy_throughout`), as long as the user expands none and no call is made to go
wrong.

The session is watched for it (`Surroundings.tidied`): a push that leaves the screen untidy would
give reason to complain, and no push does.
-/

namespace UndoJournal

/-- A push onto the screen that was not skipped by a pause left it tidy; other plugs have nothing to
tidy. -/
def Surroundings.tidied (plug : Plug) (t : Timeline) (u : CursorUpdate)
    (before after : Surroundings) : Bool :=
  plug != .screen || before.screen.link.paused ||
    decide (after.screen.widget.outline.Tidy t u.current)

namespace Session

open UndoJournal.Action (Agree)
open Surroundings (watched tidied following Passes)

/-- The screen shows the journal and has no run open that the cursor is not in. -/
def Tidy (s : Session) : Prop :=
  s.desk.around.screen.widget.outline.Tidy s.desk.journal.timeline s.desk.journal.cursor

/-- The link of the screen has skipped no update since the last push. -/
def CaughtUp (s : Session) : Prop := s.desk.around.screen.link.stale = false

/-- A move that expands no run for the user, makes no call go wrong, and keeps the link. -/
def Move.Gentle : Move → Prop
  | .deed (.expand _) | .deed (.plant _ _) | .deed .disconnect | .toggle _ => False
  | _ => True

/-- What is true of a session between any two pushes: the screen is attached and keeps in mind what
the cursor of the journal has left. -/
structure Minding (s : Session) : Prop where
  attached : s.desk.attached = some .screen
  traces : ∃ stack, s.desk.journal.Traces stack
  numbered : s.desk.journal.timeline.Numbered
  minds : s.desk.around.screen.Minds s.desk.journal.timeline s.desk.journal.cursor

variable {s : Session}

namespace Minding

private theorem tidy (h : s.Minding) (hs : s.CaughtUp) : s.Tidy := h.minds.tidy hs

private theorem aside {s' : Session} (h : s.Minding) (haside : Aside s s') : s'.Minding := by
  obtain ⟨hattached, htraces, hnumbered, hminds⟩ := h
  constructor <;> rw [haside.desk] <;> assumption

/-- Another screen that keeps the same in mind. -/
private theorem withScreen (h : s.Minding) {screen : Screen}
    (hscreen : screen.Minds s.desk.journal.timeline s.desk.journal.cursor) :
    (screenLens.set screen s).Minding :=
  ⟨h.attached, h.traces, h.numbered, hscreen⟩

end Minding

/-! ### Pushes -/

/-- An update that accounts for all runs passes. -/
private theorem passes_tidied {w : Surroundings} {t t' : Timeline} {p : Position} {u : CursorUpdate}
    (h : w.screen.Minds t p) (hu : u.Accounts t p t') : Passes tidied t' u w := by
  obtain ⟨answer, -, hminds, hpushed⟩ := h.follow hu
  rw [Passes, Action.Leaves]
  rcases hp : w.screen.link.paused with _ | _
  · have htidy := hminds.tidy (hpushed hp).2
    simp only [tidied, Bool.or_eq_true]
    exact .inr (decide_eq_true htidy)
  · simp [tidied, hp]

/-- Following an update that accounts for all runs, after the journal has become another. -/
private theorem leaves_told (h : s.Minding) {r : Reaction} {u : CursorUpdate}
    (htraces : ∃ stack, r.journal.Traces stack) (hcurrent : u.current = r.journal.cursor)
    (hu : u.Accounts s.desk.journal.timeline s.desk.journal.cursor r.journal.timeline) :
    (Stage.alone.follow r.journal.timeline u).Leaves s.desk.around.screen
      fun _ screen => (s.told r.journal screen).Minding := by
  obtain ⟨answer, -, hminds, -⟩ := h.minds.follow hu
  exact ⟨h.attached, htraces, hu.numbered, hcurrent ▸ hminds⟩

/-- **No notice gives reason to complain**, whatever it is. -/
theorem agree_hear_tidied (notice : Notice) :
    Agree Minding (onDesk (Desk.hear (watched tidied) notice))
      (onDesk (Desk.hear following notice)) := by
  intro s h
  obtain ⟨stack, hstack⟩ := h.traces
  obtain ⟨r, hr, htraces⟩ := hstack.hear notice
  have haccounts : ∀ u, r.update = some u →
      u.Accounts s.desk.journal.timeline s.desk.journal.cursor r.journal.timeline :=
    fun u hu => Journal.accounts_hear hstack h.numbered hr hu
  have hann := Journal.announces_hear hr
  constructor
  · refine run_hear_watched h.attached fun r' u hr' hu => ?_
    obtain rfl : r = r' := Except.ok.inj (hr.symm.trans hr')
    exact passes_tidied h.minds (haccounts u hu)
  · change (onDesk (Desk.hear following notice)).Leaves s fun _ s' => s'.Minding
    refine (leaves_hear h.attached notice).mpr ?_
    rw [Heard, hr]
    rcases hu : r.update with _ | u <;> simp only [hu]
    · rw [hann.silent hu]
      exact h
    · exact leaves_told h ⟨_, htraces⟩ (hann.current u hu) (haccounts u hu)

/-- Telling the whole state gives no reason to complain. -/
private theorem agree_resync_tidied :
    Agree Minding (onDesk (Desk.resync (watched tidied))) (onDesk (Desk.resync following)) := by
  intro s h
  obtain ⟨stack, hstack⟩ := h.traces
  have haccounts := Journal.accounts_standing hstack h.numbered .resync
  refine ⟨run_resync_watched h.attached (passes_tidied h.minds haccounts), ?_⟩
  change (onDesk (Desk.resync following)).Leaves s fun _ s' => s'.Minding
  refine (leaves_resync h.attached).mpr ?_
  exact leaves_told (r := ⟨s.desk.journal, [], none⟩) h h.traces rfl haccounts

/-- **Nothing that the navigator does gives reason to complain.** -/
theorem endures_minding : Endures (watched tidied) following Minding where
  undone _ := agree_hear_tidied _
  redone _ := agree_hear_tidied _
  aside _ _ haside h := h.aside haside
  resync := agree_resync_tidied
  mute _ muted h := by
    obtain ⟨stack, hstack⟩ := h.traces
    exact ⟨h.attached, ⟨_, hstack.mute muted⟩, h.numbered, h.minds⟩
  place _ _ _ h hgroup hc := by
    obtain ⟨stack, hstack⟩ := h.traces
    obtain ⟨n, hn⟩ := Timeline.contains_iff_exists_ordinal.mp hc
    obtain ⟨r, hr, htraces⟩ := hstack.place hn
    rw [(Journal.place_eq_ok hr).1] at htraces
    refine ⟨h.attached, ⟨_, htraces⟩, h.numbered, h.minds.of_group ?_⟩
    exact hgroup.symm

/-! ### Gestures -/

/-- A change of the outline that shows no other timeline and expands nothing. -/
def Closing (o o' : Outline) : Prop := o'.shown = o.shown ∧ o'.expanded ⊆ o.expanded

private theorem agrees_tidied :
    (stageVia (watched tidied)).Agrees (stageVia following).respond Closing Minding :=
  endures_minding.agrees
    (fun _ signal h => h.withScreen (h.minds.of_expanded (h.minds.tracks.overhear signal)
      ((Screen.sameButRecord_overhear signal _).breakage.trans h.minds.unplanned) (fun _ hid => hid)
      rfl rfl rfl))
    (fun _ h => ⟨h.attached, h.traces, h.numbered, h.minds⟩)
    fun _ _ h ho => h.withScreen (h.minds.of_expanded (h.minds.tracks.outline ho.1)
      h.minds.unplanned ho.2 rfl rfl rfl)

/-- A change of the screen that is about other things than what is kept in mind. -/
private theorem keeps_change_minding {change : Screen → Screen}
    (h : ∀ t p screen, Screen.Minds t p screen → (change screen).Minds t p) :
    Action.Keeps Minding (stage.change change) :=
  Action.Keeps.modify fun _ hs => hs.withScreen (h _ _ _ hs.minds)

/-! ### Moves -/

/-- **No gentle move gives reason to complain.** -/
theorem agree_make_tidied {m : Move} (hm : m.Gentle) :
    Agree Minding (makeVia (watched tidied) m) (make m) := by
  rw [← makeVia_following]
  have haside : ∀ s s', Aside s s' → Minding s → Minding s' := fun _ _ haside h => h.aside haside
  -- what only sets flags of the link leaves alone what is kept in mind
  have hlink : ∀ {f : Link → Link}, (∀ l : Link, (f l).settings = l.settings ∧
      (f l).stale = l.stale ∧ (f l).left = l.left ∧ (f l).disconnected = l.disconnected ∧
      (f l).connections = l.connections) →
      Agree Minding (quietly (stage.change (Screen.onLink f)))
        (quietly (stage.change (Screen.onLink f))) := fun hf =>
    agree_quietly (.of_keeps (keeps_change_minding fun _ _ screen h => h.onLink (hf screen.link)))
  cases m with
  | hear notice => exact agree_quietly (agree_hear_tidied notice)
  | resync => exact agree_quietly agree_resync_tidied
  | toggle row => exact hm.elim
  | deed d =>
    cases d with
    | commit kind description =>
      exact agree_quietly (agree_commit haside agree_hear_tidied kind description)
    | undo => exact agree_quietly endures_minding.toStepsAlike.agree_undo
    | redo => exact agree_quietly endures_minding.toStepsAlike.agree_redo
    | clearUndo => exact agree_quietly (agree_clearUndo haside agree_hear_tidied)
    | clearRedo => exact agree_quietly (agree_clearRedo haside agree_hear_tidied)
    | click row =>
      refine agree_plainly (agree_attempt haside (agrees_tidied.agree_click row fun o r hr => ?_))
      exact ⟨(Outline.stays_click hr).shown, fun _ hid => Outline.expanded_click hr ▸ hid⟩
    | collapse row =>
      refine agree_plainly (agree_attempt haside (agrees_tidied.agree_use fun o b r hr => ?_))
      exact ⟨(Outline.stays_collapseRow hr).shown, Outline.expanded_collapseRow hr⟩
    | pause => exact hlink fun _ => ⟨rfl, rfl, rfl, rfl, rfl⟩
    | resume => exact hlink fun _ => ⟨rfl, rfl, rfl, rfl, rfl⟩
    | hold => exact hlink fun _ => ⟨rfl, rfl, rfl, rfl, rfl⟩
    | release => exact hlink fun l => by rw [l.release_eq]; exact ⟨rfl, rfl, rfl, rfl, rfl⟩
    | block blocked =>
      refine agree_quietly (.of_keeps (keeps_change_minding fun t p screen h => ?_))
      exact h.of_expanded (h.tracks.blockListeners blocked) h.unplanned (fun _ hid => hid) rfl rfl
        rfl
    | expand row => exact hm.elim
    | disconnect => exact hm.elim
    | plant op breakage => exact hm.elim

/-! ### Wiring -/

variable {settings : Settings}

/-- **The first push gives no reason to complain either**, whatever the outline had expanded. -/
theorem minding_wired (o : Outline) (hs : settings.view.collapseOnLeave = true) :
    (wireVia (watched tidied)).run (unwired settings o) = wire.run (unwired settings o) ∧
      (wired settings o).Minding := by
  obtain ⟨answer, -, hminds, -, hstale⟩ := Screen.minds_of_assemble settings.view {} o hs
    (t := (Journal.empty settings).timeline) (u := firstUpdate settings) rfl rfl
  constructor
  · refine run_wire_watched ?_
    rw [Passes, Action.Leaves]
    simp only [tidied, Bool.or_eq_true]
    exact .inr (decide_eq_true (hminds.tidy hstale))
  · refine leaves_wire.mpr ?_
    exact ⟨rfl, ⟨_, Journal.traces_empty settings⟩, Timeline.Numbered.empty settings.grouping,
      hminds⟩

/-- Resuming the link and telling the screen the whole state is a push that is not skipped. -/
private theorem caughtUp_resumed (h : s.Minding) :
    (s.afterMoves [.deed .resume, .resync]).CaughtUp := by
  let s₁ : Session := screenLens.modify Screen.resume s
  have h₁ : s₁.Minding := h.withScreen (h.minds.onLink ⟨rfl, rfl, rfl, rfl, rfl⟩)
  obtain ⟨stack, hstack⟩ := h₁.traces
  obtain ⟨answer, -, -, hpushed⟩ :=
    h₁.minds.follow (Journal.accounts_standing hstack h₁.numbered .resync)
  have hresync : (make .resync).Leaves s₁ fun _ s' => s'.CaughtUp :=
    leaves_quietly ((leaves_resync h₁.attached).mpr (hpushed rfl).2)
  exact hresync

/-- **After every push that is not skipped, no run with entries behind its head is open but the one
that holds the cursor.** Settings that collapse runs on leaving are given, and any moves in any
order that expand no run for the user, make no call go wrong, and keep the link. Then no push gives
reason to complain, neither the first one nor those of a further move; the session is tidy whenever
no update was skipped since the last push; and resuming the link and telling the screen the whole
state makes it so at once, whichever runs were left, cut, emptied or grown again during a pause. -/
theorem tidy_throughout (settings : Settings) (o : Outline)
    (hs : settings.view.collapseOnLeave = true) (moves : List Move) (hm : ∀ m ∈ moves, m.Gentle) :
    (wireVia (watched tidied)).run (unwired settings o) = wire.run (unwired settings o) ∧
      (∀ m : Move, m.Gentle →
        (makeVia (watched tidied) m).run ((wired settings o).afterMoves moves) =
          (make m).run ((wired settings o).afterMoves moves)) ∧
      (((wired settings o).afterMoves moves).CaughtUp →
        ((wired settings o).afterMoves moves).Tidy) ∧
      ((wired settings o).afterMoves (moves ++ [.deed .resume, .resync])).CaughtUp ∧
      ((wired settings o).afterMoves (moves ++ [.deed .resume, .resync])).Tidy := by
  obtain ⟨hwire, hwired⟩ := minding_wired o hs
  have hkeeps : ∀ {ms : List Move}, (∀ m ∈ ms, m.Gentle) → ∀ {s : Session}, s.Minding →
      (s.afterMoves ms).Minding := fun hms _ h =>
    afterMoves_induction (fun m hmem s hs => (agree_make_tidied (hms m hmem)).keeps s hs) h
  have hafter := hkeeps hm hwired
  have hcaught := caughtUp_resumed hafter
  refine ⟨hwire, fun m hgentle => (agree_make_tidied hgentle).run_eq hafter, hafter.tidy, ?_⟩
  rw [afterMoves_append]
  have hresume : ∀ m ∈ [Move.deed .resume, .resync], m.Gentle := by simp [Move.Gentle]
  exact ⟨hcaught, (hkeeps hresume hafter).tidy hcaught⟩

/-- A run is left during a pause, and another one is begun and dropped meanwhile. -/
def interrupted : List Move :=
  [.deed (.commit "Edit" "one"), .deed (.commit "Edit" "two"), .deed (.commit "Edit" "three"),
    .deed .undo, .deed .pause, .deed (.commit "Save" "four"), .deed (.commit "Save" "five"),
    .deed .undo, .deed .undo, .deed .clearRedo, .deed (.commit "Move" "six"),
    .deed (.commit "Move" "seven")]

/-- Up to the end of the pause the first run is open, although the cursor is in the second one; then
it is closed, and still has entries behind its head. -/
theorem tidy_throughout_interrupted :
    let s := (wired {} (.empty {} .unicode 0)).afterMoves interrupted
    let s' := (wired {} (.empty {} .unicode 0)).afterMoves
      (interrupted ++ [.deed .resume, .resync])
    s.desk.around.screen.widget.outline.isExpanded 0 = true ∧
      s.desk.journal.cursor.group? = some 1 ∧ s'.desk.journal.cursor.group? = some 1 ∧
      s'.desk.journal.timeline.hasChildren 0 = true ∧ s'.CaughtUp ∧ s'.Tidy := by
  have hm : ∀ m ∈ interrupted, m.Gentle := by simp [interrupted, Move.Gentle]
  exact ⟨by decide +kernel, by decide +kernel, by decide +kernel, by decide +kernel,
    (tidy_throughout {} (.empty {} .unicode 0) rfl interrupted hm).2.2.2⟩

end Session

end UndoJournal
