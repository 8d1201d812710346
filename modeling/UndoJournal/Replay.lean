import UndoJournal.Script.Basic
import UndoJournal.Session.Act
import UndoJournal.Session.Snapshot
import UndoJournal.Format.Json

/-!
# Replaying scripts

A replay carries out the steps of a script in a fresh session, each in a span of its own, and keeps
the snapshots that the script asks for and one of the end. **Only an act on the screen can end a
replay early**: an undo or redo that finds nothing to do is reported and the replay goes on.

A report is written for a reader as the lines on the screen under a title for each snapshot, or for
a program as JSON.
-/

namespace UndoJournal

/-- A snapshot that a script asked for. -/
structure ShowPoint where
  /-- The line of the command. -/
  line : Nat
  /-- The session at that time. -/
  snapshot : Snapshot
deriving DecidableEq

/-- The snapshots of a replay, and how many acts of the user were handled in it. -/
structure ReplayReport where
  /-- The snapshots that the script asked for, in order. -/
  shows : List ShowPoint
  /-- The session at the end. -/
  final : Snapshot
  /-- The number of acts of the user that were handled. -/
  handlerRuns : Nat
deriving DecidableEq

/-- The step that ended a replay early. -/
structure ReplayStop where
  /-- The line of the command. -/
  line : Nat
  /-- Why it failed. -/
  error : SessionError
deriving DecidableEq

namespace Replay

/-- Report that there was nothing to do on a line. -/
def idle (line : Nat) (message : String) : Action Session Unit :=
  Action.note .warn message [("line", toString line)]

/-- Carry out a command of a line. -/
def apply (line : Nat) : Command → Action Session (Except SessionError Unit)
  | .commit kind description => do
    let _ ← Session.commit kind description
    pure (.ok ())
  | .undo => do
    if ← Session.undo then pure () else idle line "nothing to undo"
    pure (.ok ())
  | .redo => do
    if ← Session.redo then pure () else idle line "nothing to redo"
    pure (.ok ())
  | .clearUndo => do
    Session.clearUndo
    pure (.ok ())
  | .clearRedo => do
    Session.clearRedo
    pure (.ok ())
  | .click row => Session.click row
  | .collapse row => do pure ((← Session.collapse row).map fun _ => ())
  | .expand row => do pure ((← Session.expand row).map fun _ => ())
  | .snapshot => pure (.ok ())

/-- The session as it looks now. -/
def look : Action Session Snapshot := do
  let s ← Action.get
  Action.ofExcept s.snapshot

/-- Carry out a step; the snapshot it asks for comes along. -/
def step (s : ScriptStep) : Action Session (Except ReplayStop (List ShowPoint)) :=
  Action.within ⟨.info, "evlog.replay_step", [("line", toString s.line)]⟩ do
    Action.note .debug "replay" [("command", s.command.text)]
    match ← apply s.line s.command with
    | .error e => pure (.error ⟨s.line, e⟩)
    | .ok () =>
      if s.command = .snapshot then do
        let snapshot ← look
        pure (.ok [⟨s.line, snapshot⟩])
      else pure (.ok [])

/-- Carry out steps up to the first that fails. -/
def steps : List ScriptStep → Action Session (Except ReplayStop (List ShowPoint))
  | [] => pure (.ok [])
  | s :: rest => do
    match ← step s with
    | .error stop => pure (.error stop)
    | .ok shown =>
      match ← steps rest with
      | .error stop => pure (.error stop)
      | .ok more => pure (.ok (shown ++ more))

/-- Carry out steps in a session that is wired, and look at the end. -/
def play (script : List ScriptStep) : Action Session (Except ReplayStop ReplayReport) := do
  match ← steps script with
  | .error stop => pure (.error stop)
  | .ok shows => do
    let final ← look
    let s ← Action.get
    pure (.ok ⟨shows, final, s.desk.around.handlerRuns⟩)

/-- Wire a session, carry out steps in it, and let it go. -/
def whole (script : List ScriptStep) : Action Session (Except ReplayStop ReplayReport) := do
  Session.wire
  let result ← play script
  Session.close
  pure result

end Replay

/-- Replay a script in a fresh session. -/
def replay (script : List ScriptStep) (settings : Settings) (guides : Guides) :
    Outcome Session (Except ReplayStop ReplayReport) :=
  (Replay.whole script).run (.unwired settings (.empty settings guides 0))

/-! ### Writing reports -/

open Format (Json)

/-- A snapshot under a title. -/
def Snapshot.text (title : String) (s : Snapshot) : String :=
  let lines := ("== " ++ title) :: s.view ++
    ["undo: " ++ s.undo.label, "redo: " ++ s.redo.label]
  String.join (lines.map (· ++ "\n"))

/-- A report for a reader. -/
def ReplayReport.text (r : ReplayReport) : String :=
  String.join (r.shows.map fun p => p.snapshot.text ("line " ++ toString p.line)) ++
    r.final.text "final"

/-- An address as JSON. -/
def Address.json (a : Address) : Json :=
  .record [("group", .natural a.group),
    ("child", match a.child with
      | none => .null
      | some i => .natural i)]

/-- The state of a verb as JSON. -/
def Verb.json (v : Verb) : Json := .record [("enabled", .bool v.enabled), ("label", .text v.label)]

/-- A line of the journal as JSON. -/
def JournalRow.json (r : JournalRow) : Json :=
  .record
    [("node", r.node.json), ("id", .natural r.id.raw), ("depth", .natural r.depth),
      ("kind", .text r.kind), ("description", .text r.description),
      ("child_count", .natural r.childCount), ("is_current", .bool r.isCurrent),
      ("is_redo", .bool r.isRedo)]

/-- A snapshot as JSON. -/
def Snapshot.json (s : Snapshot) : Json :=
  .record
    [("current", .text s.current.text), ("undo", s.undo.json), ("redo", s.redo.json),
      ("rows", .array (s.rows.map JournalRow.json)), ("view", .array (s.view.map Json.text)),
      ("applied", .array (s.applied.map Json.text))]

/-- A report as JSON. -/
def ReplayReport.json (r : ReplayReport) : Json :=
  .record
    [("shows", .array (r.shows.map fun p =>
        .record [("line", .natural p.line), ("snapshot", p.snapshot.json)])),
      ("final", r.final.json), ("handler_runs", .natural r.handlerRuns)]

end UndoJournal
