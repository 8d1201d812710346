import UndoJournal.Proofs.Desk.Telling
import UndoJournal.Proofs.Screen.Gestures
import UndoJournal.Session.Act

/-!
# The cascade behind an act of the user

What a user does on a screen is turned into steps of the document, each step is told to the journal,
and the journal has its follower follow the cursor. The follower is the only part of this that is
not fixed, so a session is taken here with any `Following` of its plugs (`Session.stageVia` and its
companions, which for `Surroundings.following` are the session's own).

`Session.StepsAlike` is what two followings have to agree about so that a walk of the document by
way of the one is like a walk by way of the other, and `Session.Endures` what they have to agree
about for all that the navigator does. Both speak of a property that is kept meanwhile, so with one
following on both sides they say **what an act of the user keeps**, also where a fault cuts the
cascade short.
-/

namespace UndoJournal

namespace Session

open UndoJournal.Action (Agree Confined Keeps)

/-! ### Sessions whose plugs follow in another way -/

section Via

variable (f : Following Plug Surroundings)

/-- Tell an observer of a change, with plugs that follow in the given way. -/
def deliverVia (w : Watcher) (notice : Notice) : Action Session Unit :=
  match w with
  | .journal => onDesk (Desk.hear f notice)
  | .tally name => deliver (.tally name) notice

/-- The document, with plugs that follow in the given way. -/
def audienceVia : Audience Session Watcher := { audience with deliver := deliverVia f }

/-- The reach of the navigator, with plugs that follow in the given way. -/
def controlsVia : Controls Session where
  journal := controls.journal
  resync := onDesk (Desk.resync f)
  undo := (audienceVia f).undo
  redo := (audienceVia f).redo

/-- The screen under the hands of the user, with plugs that follow in the given way. -/
def stageVia : Stage Session where
  screen := screenLens
  respond act := do
    Action.zoom aroundLens (Action.modify Surroundings.probe)
    Navigator.handle navigatorLens (controlsVia f) act

end Via

theorem audienceVia_following : audienceVia Surroundings.following = audience := by
  have h : deliverVia Surroundings.following = deliver := by
    funext w
    cases w <;> rfl
  rw [audienceVia, h]
  rfl

theorem controlsVia_following : controlsVia Surroundings.following = controls := by
  rw [controlsVia, audienceVia_following]
  rfl

theorem stageVia_following : stageVia Surroundings.following = stage := by
  rw [stageVia, controlsVia_following]
  rfl

/-! ### Steps of the document -/

/-- Neither the observers of the document nor the desk are others, but for the navigator. -/
structure Aside (s s' : Session) : Prop where
  observers : s'.document.observers = s.document.observers
  desk : s'.desk =
    { s.desk with around := { s.desk.around with navigator := s'.desk.around.navigator } }

variable {f g : Following Plug Surroundings} {p : Session → Prop}

/-- A notice is told to all observers alike if it is told to the journal alike. -/
private theorem agree_notify (haside : ∀ s s', Aside s s' → p s → p s') {notice : Notice}
    (h : Agree p (onDesk (Desk.hear f notice)) (onDesk (Desk.hear g notice))) :
    Agree p ((audienceVia f).notify notice) ((audienceVia g).notify notice) := by
  rw [Audience.notify, Audience.notify]
  refine Agree.read_bind (fun _ => rfl) fun d => ?_
  rw [Registry.notify, Registry.notify]
  refine Agree.each fun ⟨_, w⟩ => ?_
  cases w with
  | journal => exact h
  | tally name => exact Agree.modify fun s hs => haside s _ ⟨rfl, rfl⟩ hs

/-- The stacks of the document are no matter of the desk. -/
private theorem agree_change (haside : ∀ s s', Aside s s' → p s → p s')
    {change : Document Watcher → Document Watcher}
    (hobs : ∀ d, (change d).observers = d.observers) :
    Agree p ((audienceVia f).change change) ((audienceVia g).change change) :=
  Agree.modify fun s hs => haside s _ ⟨hobs _, rfl⟩ hs

/-- Where `p` holds, undo and redo notices are heard alike by way of `f` and of `g`, and `p` is a
matter of the desk without its navigator. -/
structure StepsAlike (f g : Following Plug Surroundings) (p : Session → Prop) : Prop where
  undone : ∀ e, Agree p (onDesk (Desk.hear f (.undone e))) (onDesk (Desk.hear g (.undone e)))
  redone : ∀ e, Agree p (onDesk (Desk.hear f (.redone e))) (onDesk (Desk.hear g (.redone e)))
  aside : ∀ s s', Aside s s' → p s → p s'

namespace StepsAlike

variable (h : StepsAlike f g p)

include h

theorem agree_undo : Agree p (audienceVia f).undo (audienceVia g).undo := by
  rw [Audience.undo, Audience.undo]
  refine Agree.read_bind (fun _ => rfl) fun d => ?_
  split
  · exact Agree.pure false
  · refine Agree.bind (agree_change h.aside fun _ => rfl) fun _ => ?_
    refine Agree.bind (agree_notify h.aside (h.undone _)) fun _ => ?_
    exact Agree.bind (agree_change h.aside fun _ => rfl) fun _ => Agree.pure true

theorem agree_redo : Agree p (audienceVia f).redo (audienceVia g).redo := by
  rw [Audience.redo, Audience.redo]
  refine Agree.read_bind (fun _ => rfl) fun d => ?_
  split
  · exact Agree.pure false
  · refine Agree.bind (agree_change h.aside fun _ => rfl) fun _ => ?_
    refine Agree.bind (agree_notify h.aside (h.redone _)) fun _ => ?_
    exact Agree.bind (agree_change h.aside fun _ => rfl) fun _ => Agree.pure true

private theorem agree_step (d : Direction) :
    Agree p ((controlsVia f).step d) ((controlsVia g).step d) := by
  cases d with
  | undo => exact h.agree_undo
  | redo => exact h.agree_redo

private theorem agree_march (d : Direction) (requested done remaining : Nat) :
    Agree p ((controlsVia f).march d requested done remaining)
      ((controlsVia g).march d requested done remaining) := by
  induction remaining generalizing done with
  | zero => exact Agree.pure _
  | succ remaining ih =>
    rw [Controls.march, Controls.march]
    refine Agree.bind (h.agree_step d) fun moved => ?_
    split
    · exact Agree.bind (Agree.report _) fun _ => ih (done + 1)
    · exact Agree.pure _

private theorem agree_go (walk : Walk) :
    Agree p ((controlsVia f).go walk) ((controlsVia g).go walk) := by
  cases walk with
  | stay => exact Agree.pure _
  | undo steps => exact h.agree_march .undo steps 0 steps
  | redo steps => exact h.agree_march .redo steps 0 steps

private theorem agree_select (target : Position) :
    Agree p ((controlsVia f).select target) ((controlsVia g).select target) := by
  rw [Controls.select, Controls.select]
  refine Agree.read_bind (fun _ => rfl) fun j => ?_
  split
  · exact Agree.pure _
  · refine Agree.bind (.of_keeps fun _ hs => hs) fun walk => ?_
    refine Agree.bind (Agree.report _) fun _ => ?_
    refine Agree.bind (h.agree_go walk) fun answer => ?_
    split
    · exact Agree.pure _
    · refine Agree.read_bind (fun _ => rfl) fun j => ?_
      dsimp only
      split <;> exact Agree.pure _

end StepsAlike

/-! ### Other changes of the document -/

section Changes

variable (haside : ∀ s s', Aside s s' → p s → p s')
  (hear : ∀ notice, Agree p (onDesk (Desk.hear f notice)) (onDesk (Desk.hear g notice)))

include haside hear

theorem agree_commit (kind description : String) :
    Agree p ((audienceVia f).commit kind description)
      ((audienceVia g).commit kind description) := by
  rw [Audience.commit, Audience.commit]
  refine Agree.read_bind (fun _ => rfl) fun d => ?_
  refine Agree.bind (agree_change haside fun _ => rfl) fun _ => ?_
  refine Agree.bind (Agree.report _) fun _ => ?_
  exact Agree.bind (agree_notify haside (hear _)) fun _ => Agree.pure _

theorem agree_clearUndo : Agree p (audienceVia f).clearUndo (audienceVia g).clearUndo :=
  Agree.bind (agree_change haside fun _ => rfl) fun _ => agree_notify haside (hear _)

theorem agree_clearRedo : Agree p (audienceVia f).clearRedo (audienceVia g).clearRedo :=
  Agree.bind (agree_change haside fun _ => rfl) fun _ => agree_notify haside (hear _)

end Changes

/-! ### Muted steps -/

/-- A notice that is ignored changes nothing, whoever follows. -/
private theorem run_hear_of_silent {notice : Notice} {s : Session} {notes : List Note}
    (h : s.desk.journal.hear notice = .ok ⟨s.desk.journal, notes, none⟩) :
    (onDesk (Desk.hear f notice)).run s = ⟨.ok (), s, notes⟩ := by
  have hdesk : (Desk.hear f notice).run (deskLens.get s) = ⟨.ok (), s.desk, notes⟩ := by
    rw [Desk.hear, Action.run_bind_of_ok (Action.run_get _)]
    simp only [deskLens, h, Desk.enact, Action.run_bind, Action.run_ofExcept, Action.run_modify,
      Action.run_report, Action.run_pure, List.nil_append, List.append_nil]
  rw [onDesk, Action.run_zoom, hdesk]
  rfl

/-- Muted, the journal stays where it is, and nobody is told. -/
private theorem StepsAlike.muted (h : StepsAlike f g p) (group : Nat) :
    StepsAlike f g fun s => p s ∧ s.desk.journal.muted = true ∧
      s.desk.journal.cursor.group? = some group where
  undone e s hs := by
    have hear : s.desk.journal.hear (.undone e) = .ok (s.desk.journal.ignoring .trace
        "undo ignored, notifications blocked" [("event_id", e.id.text)]) := by
      rw [Journal.hear, Journal.hearUndone, if_pos hs.2.1]
    rw [run_hear_of_silent hear, run_hear_of_silent hear]
    exact ⟨rfl, hs⟩
  redone e s hs := by
    have hear : s.desk.journal.hear (.redone e) = .ok (s.desk.journal.ignoring .trace
        "redo ignored, notifications blocked" [("event_id", e.id.text)]) := by
      rw [Journal.hear, Journal.hearRedone, if_pos hs.2.1]
    rw [run_hear_of_silent hear, run_hear_of_silent hear]
    exact ⟨rfl, hs⟩
  aside s s' haside hs := by
    obtain ⟨hp, hmuted, hgroup⟩ := hs
    refine ⟨h.aside s s' haside hp, ?_⟩
    rw [haside.desk]
    exact ⟨hmuted, hgroup⟩

/-! ### Acts of the navigator -/

/-- The session with another journal. -/
def withJournal (s : Session) (j : Journal) : Session := controls.journal.set j s

/-- Where `p` holds, all that the navigator does is done alike by way of `f` and of `g`: steps of
the document, telling the whole state, and putting the cursor elsewhere in the run that it is in. -/
structure Endures (f g : Following Plug Surroundings) (p : Session → Prop) : Prop
    extends StepsAlike f g p where
  resync : Agree p (onDesk (Desk.resync f)) (onDesk (Desk.resync g))
  mute : ∀ s muted, p s → p (s.withJournal (s.desk.journal.mute muted))
  place : ∀ s group i, p s → s.desk.journal.cursor.group? = some group →
    s.desk.journal.timeline.contains (.on (.ofChild group i)) = true →
      p (s.withJournal { s.desk.journal with cursor := .on (.ofChild group i) })

namespace Endures

variable (h : Endures f g p)

include h

private theorem leaves_placing {s : Session} (hs : p s) {group : Nat}
    (hgroup : s.desk.journal.cursor.group? = some group) (i : Nat) :
    (Action.zoom controls.journal (Journal.placing (.on (.ofChild group i)))).Leaves s
      fun _ s' => p s' := by
  simp only [Action.leaves_zoom, Journal.placing, Action.leaves_bind, Action.leaves_get,
    Action.leaves_ofExcept, Action.leaves_modify, Action.leaves_report]
  rcases hr : (controls.journal.get s).place (.on (.ofChild group i)) with fault | r
  · exact hs
  · unfold Journal.place at hr
    split at hr <;> cases hr
    exact h.place s group i hs hgroup ‹_›

/-- Stepping through a run ends in that run. -/
private theorem confined_stepThrough (group children : Nat) :
    Confined Lens.whole (fun s => p s ∧ s.desk.journal.cursor.group? = some group) p
      ((controlsVia f).stepThrough group children)
      ((controlsVia g).stepThrough group children) := by
  have hmarch := (h.toStepsAlike.muted group).agree_march .redo children 0 children
  have hmuted : Agree (fun s => p s ∧ s.desk.journal.cursor.group? = some group)
      (Action.bracket (controls.journal.modify fun j => j.mute true)
        (controls.journal.modify fun j => j.mute false)
        ((controlsVia f).march .redo children 0 children))
      (Action.bracket (controls.journal.modify fun j => j.mute true)
        (controls.journal.modify fun j => j.mute false)
        ((controlsVia g).march .redo children 0 children)) :=
    hmarch.bracket (fun s hs => ⟨h.mute s true hs.1, rfl, hs.2⟩)
      fun s hs => ⟨h.mute s false hs.1, hs.2.2⟩
  have hplacing : ∀ (done : Nat) (answer : Except HistoryError Bool),
      Confined Lens.whole (fun s => p s ∧ s.desk.journal.cursor.group? = some group) p
        (Action.zoom controls.journal (Journal.placing (.on (.ofChild group done))) >>=
          fun _ => pure answer)
        (Action.zoom controls.journal (Journal.placing (.on (.ofChild group done))) >>=
          fun _ => pure answer) := fun done answer =>
    Confined.bind Lens.lawful_whole
      (.of_leaves fun s hs => h.leaves_placing hs.1 hs.2 done) (fun _ hs => hs) fun _ =>
        Agree.pure _
  rw [Controls.stepThrough, Controls.stepThrough]
  refine Confined.bind Lens.lawful_whole (Action.agree_iff_confined.mp hmuted)
    (fun _ hs => hs.1) fun result => ?_
  rcases result with e | ⟨⟩ <;> dsimp only <;> split
  · exact .of_leaves fun _ hs => hs.1
  · exact hplacing _ _
  · exact .of_leaves fun _ hs => hs.1
  · exact hplacing _ _

private theorem agree_collapse (group : Nat) :
    Agree p ((controlsVia f).collapse group) ((controlsVia g).collapse group) := by
  rw [Action.agree_iff_confined, Controls.collapse, Controls.collapse]
  refine Confined.whole_read_bind (v := fun s : Session => s.desk.journal) (fun _ => rfl)
    fun s hs => ?_
  have hstay : ∀ answer : Except HistoryError Bool,
      Confined Lens.whole (· = s) p (pure answer) (pure answer) := fun answer =>
    .of_leaves fun _ hs' => hs' ▸ hs
  split
  · exact hstay _
  · rename_i hcursor
    split
    · exact hstay _
    · split
      · exact hstay _
      · refine Confined.mono (Confined.bind Lens.lawful_whole (Agree.report _) (fun _ h' => h'.1)
          fun _ => h.confined_stepThrough group _) ?_ fun _ h' => h'
        rintro _ rfl
        exact ⟨hs, by rw [not_not.mp hcursor]; rfl⟩

private theorem agree_expand (group : Nat) :
    Agree p ((controlsVia f).expand group) ((controlsVia g).expand group) := by
  rw [Controls.expand, Controls.expand]
  refine Agree.read_bind (fun _ => rfl) fun j => ?_
  split
  · exact Agree.bind (Agree.report _) fun _ => Agree.bind h.resync fun _ => Agree.pure _
  · exact Agree.pure _

private theorem agree_act (act : UserAct) :
    Agree p ((controlsVia f).act act) ((controlsVia g).act act) := by
  cases act with
  | select p => exact Agree.bind (h.toStepsAlike.agree_select p) fun _ => Agree.pure _
  | expand group => exact Agree.bind (h.agree_expand group) fun _ => Agree.pure _
  | collapse group => exact Agree.bind (h.agree_collapse group) fun _ => Agree.pure _

/-- A navigator that acts is busy meanwhile, which is no matter of journal and screen. -/
theorem agree_handle (act : UserAct) :
    Agree p (Navigator.handle navigatorLens (controlsVia f) act)
      (Navigator.handle navigatorLens (controlsVia g) act) := by
  have hnavigator : ∀ (change : Navigator → Navigator) (s : Session), p s →
      p (navigatorLens.modify change s) := fun change s hs => h.aside s _ ⟨rfl, rfl⟩ hs
  rw [Navigator.handle, Navigator.handle]
  refine Agree.read_bind (fun _ => rfl) fun s => ?_
  split
  · exact Agree.report _
  · exact Agree.report _
  · rw [Navigator.acting, Navigator.acting]
    refine Agree.bracket (Agree.bind (h.agree_act act) fun answer => ?_) (hnavigator _)
      (hnavigator _)
    split
    · exact Agree.pure _
    · exact Agree.bind (Agree.report _) fun _ => Agree.modify (hnavigator _)

/-- Two ways to follow that agree about all that the navigator does agree about all that the user
does, as long as that is survived. -/
theorem agrees {allowed : Outline → Outline → Prop}
    (hoverhear : ∀ s signal, p s → p (screenLens.modify (Screen.overhear signal) s))
    (hprobe : ∀ s, p s → p (aroundLens.modify Surroundings.probe s))
    (houtline : ∀ s o, p s → allowed (screenLens.get s).widget.outline o →
      p (((screenLens.comp Screen.widgetLens).comp Widget.outlineLens).set o s)) :
    (stageVia f).Agrees (stageVia g).respond allowed p where
  overhear signal := Keeps.modify fun s hs => hoverhear s signal hs
  respond act := Agree.bind (.of_keeps hprobe) fun _ => h.agree_handle act
  outline := houtline

end Endures

/-! ### Acts of the user -/

/-- Taking the error of the navigator is no matter of journal and screen. -/
theorem agree_attempt {α : Type} (haside : ∀ s s', Aside s s' → p s → p s')
    {x y : Action Session (Except ViewError α)} (h : Agree p x y) :
    Agree p (attempt x) (attempt y) := by
  rw [attempt, attempt]
  refine Agree.bind h fun answer => ?_
  split
  · exact Agree.pure _
  · refine Agree.bind ?_ fun error => ?_
    · rw [Navigator.takeError]
      refine Agree.read_bind (fun _ => rfl) fun s => ?_
      exact Agree.bind (Agree.modify fun s hs => haside s _ ⟨rfl, rfl⟩ hs) fun _ => Agree.pure _
    · split <;> exact Agree.pure _

end Session

end UndoJournal
