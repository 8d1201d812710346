import UndoJournal.Screen.Follow
import UndoJournal.Navigator
import UndoJournal.Document
import UndoJournal.Desk.Recorder
import UndoJournal.Observers.Ensemble

/-!
# Sessions

A `Session` wires everything together in a circle: the document tells the journal of its changes,
the journal tells the screen where the cursor is, the user acts on the screen, and the navigator
turns those acts into steps of the document.

The journal can be given other followers for a while: a `Plug` is the screen or a recorder, and the
plugs that were detached are kept on a shelf. A **probe** counts the acts of the user that are
handled, and apart from that those that are handled in the middle of a view call, which should be
none.
-/

namespace UndoJournal

/-- A follower of the journal of a session. -/
inductive Plug where
  /-- The screen of the session. -/
  | screen
  /-- A recorder. -/
  | recorder (r : Recorder)
deriving DecidableEq

/-- What the followers of a session's journal act on. -/
structure Surroundings where
  /-- The screen. -/
  screen : Screen
  /-- The navigator, which hears of the acts of the user. -/
  navigator : Navigator
  /-- The number of acts that were handled. -/
  handlerRuns : Nat
  /-- The number of acts that were handled in the middle of a view call. -/
  violations : Nat
  /-- What recorders wrote down, oldest first. -/
  memos : List Memo

/-- An observer of the document of a session. -/
inductive Watcher where
  /-- The journal. -/
  | journal
  /-- A tally that writes lines under a name. -/
  | tally (name : String)
deriving DecidableEq

/-- A document, its journal, a screen and a navigator, wired together. -/
structure Session where
  /-- The document. -/
  document : Document Watcher
  /-- The journal, its follower, and what followers act on. -/
  desk : Desk Plug Surroundings
  /-- The lines of the tallies, oldest first. -/
  lines : List String
  /-- The followers that were detached, newest first. -/
  shelf : List Plug
  /-- The registrations of the tallies, in order. -/
  tallies : List Nat

namespace Surroundings

/-- The screen as a part of the surroundings. -/
def screenLens : Lens Surroundings Screen := ⟨screen, fun s w => { w with screen := s }⟩

/-- The navigator as a part of the surroundings. -/
def navigatorLens : Lens Surroundings Navigator := ⟨navigator, fun n w => { w with navigator := n }⟩

/-- What recorders wrote down, as a part of the surroundings. -/
def memosLens : Lens Surroundings (List Memo) := ⟨memos, fun m w => { w with memos := m }⟩

/-- Count an act of the user. -/
def probe (w : Surroundings) : Surroundings :=
  { w with
    handlerRuns := w.handlerRuns + 1
    violations := if w.screen.inCall then w.violations + 1 else w.violations }

/-- The screen during an update, when the journal is being used. -/
def stage : Stage Surroundings where
  screen := screenLens
  respond act := do
    Action.modify probe
    Navigator.interrupt navigatorLens act

/-- How plugs follow the journal of a session. -/
def following : Following Plug Surroundings where
  follow
    | .screen, t, update => stage.follow t update
    | .recorder r, t, update => Action.zoom memosLens (r.follow t update)
  detached
    | .screen => stage.disconnect
    | .recorder r => Action.zoom memosLens (Recorder.following.detached r)
  dropped
    | .screen => stage.disconnect
    | .recorder _ => pure ()

end Surroundings

namespace Session

/-- The desk as a part of the session. -/
def deskLens : Lens Session (Desk Plug Surroundings) := ⟨desk, fun d s => { s with desk := d }⟩

/-- What followers act on, as a part of the session. -/
def aroundLens : Lens Session Surroundings := deskLens.comp Desk.aroundLens

/-- The screen as a part of the session. -/
def screenLens : Lens Session Screen := aroundLens.comp Surroundings.screenLens

/-- The navigator as a part of the session. -/
def navigatorLens : Lens Session Navigator := aroundLens.comp Surroundings.navigatorLens

/-- Do something with the journal and its follower. -/
def onDesk {α : Type} (x : Action (Desk Plug Surroundings) α) : Action Session α :=
  Action.zoom deskLens x

/-- Tell an observer of the document of a change. -/
def deliver (w : Watcher) (notice : Notice) : Action Session Unit :=
  match w with
  | .journal => onDesk (Desk.hear Surroundings.following notice)
  | .tally name => Action.modify fun s => { s with lines := s.lines ++ [notice.line name] }

/-- The document, and how its observers are told of changes. -/
def audience : Audience Session Watcher where
  document := ⟨document, fun d s => { s with document := d }⟩
  deliver := deliver

/-- How the navigator reaches the journal and the document. -/
def controls : Controls Session where
  journal := deskLens.comp Desk.journalLens
  resync := onDesk (Desk.resync Surroundings.following)
  undo := audience.undo
  redo := audience.redo

/-- The screen while the user acts on it. -/
def stage : Stage Session where
  screen := screenLens
  respond act := do
    Action.zoom aroundLens (Action.modify Surroundings.probe)
    Navigator.handle navigatorLens controls act

/-! ### Wiring -/

/-- A session before its screen is attached to the journal. -/
def unwired (settings : Settings) (o : Outline) : Session where
  document := (Document.empty.observe .journal).2
  desk := .empty settings
    { screen := .assemble settings.view {} (some .quiet) o
      navigator := .fresh
      handlerRuns := 0
      violations := 0
      memos := [] }
  lines := []
  shelf := []
  tallies := []

/-- Attach the screen of a session to its journal. -/
def wire : Action Session Unit := do
  let s ← Action.get
  Action.report [(screenLens.get s).assembledNote]
  onDesk (Desk.attach Surroundings.following .screen)
  Action.note .debug "session wired" []

/-- Let everything go, which disconnects the screen. -/
def close : Action Session Unit := stage.disconnect

/-! ### Followers and observers -/

/-- Attach a recorder in the place of the follower. -/
def attachRecorder (r : Recorder) : Action Session Unit :=
  onDesk (Desk.attach Surroundings.following (.recorder r))

/-- Detach the follower and put it on the shelf; whether there was one comes along. -/
def detach : Action Session Bool := do
  match ← onDesk Desk.detach with
  | none => pure false
  | some plug => do
    Action.modify fun s => { s with shelf := plug :: s.shelf }
    pure true

/-- Attach the newest follower on the shelf; whether there was one comes along. -/
def reattach : Action Session Bool := do
  let s ← Action.get
  match s.shelf with
  | [] => pure false
  | plug :: shelf => do
    Action.modify fun s => { s with shelf := shelf }
    onDesk (Desk.attach Surroundings.following plug)
    pure true

/-- Let the newest follower on the shelf go for good; whether there was one comes along. -/
def discard : Action Session Bool := do
  let s ← Action.get
  match s.shelf with
  | [] => pure false
  | plug :: shelf => do
    Action.modify fun s => { s with shelf := shelf }
    Action.zoom aroundLens (Surroundings.following.dropped plug)
    pure true

/-- Register a tally with the document. -/
def observe (name : String) (s : Session) : Session :=
  let (id, document) := s.document.observe (.tally name)
  { s with document := document, tallies := s.tallies ++ [id] }

/-- Remove the registration of the `k`-th tally; whether it was still there comes along. -/
def unobserve (k : Nat) (s : Session) : Bool × Session :=
  match s.tallies[k]? with
  | none => (false, s)
  | some id =>
    let (found, document) := s.document.unobserve id
    (found, { s with document := document })

end Session

end UndoJournal
