import UndoJournal.Timeline.Lemmas
import UndoJournal.Action.Lemmas
import UndoJournal.Desk.Recorder
import UndoJournal.Observers.Ensemble
import UndoJournal.Engine.Scripted
import UndoJournal.Bench.Hub
import UndoJournal.Bench.Widget
import UndoJournal.Bench.Screen
import UndoJournal.Bindings
import UndoJournal.Transcript
import UndoJournal.CommandLine.Run
import UndoJournal.Main
import UndoJournal.Proofs.Timeline.Grouping
import UndoJournal.Proofs.Desk.Stream
import UndoJournal.Proofs.Screen.Fidelity
import UndoJournal.Proofs.Session.Recovery
import UndoJournal.Proofs.Session.Suppression
import UndoJournal.Proofs.Session.Tidiness
import UndoJournal.Proofs.Text.Blank
import UndoJournal.Proofs.Text.Lines
import UndoJournal.Proofs.Text.Natural
import UndoJournal.Proofs.Script.Grammar
import UndoJournal.Proofs.Script.Reading
import UndoJournal.Proofs.Outline.Gestures
import UndoJournal.Proofs.Replay.Reports
import UndoJournal.Proofs.Session.Folding
import UndoJournal.Proofs.Timeline.Sequence
import UndoJournal.Proofs.Engine.Selecting
import UndoJournal.Proofs.Engine.Collapsing
import UndoJournal.Proofs.Session.Stepping
import UndoJournal.Proofs.Screen.Resyncing
import UndoJournal.Proofs.Screen.Forgetting
import UndoJournal.Proofs.Bench.Gestures
import UndoJournal.Proofs.Timeline.Succession
import UndoJournal.Proofs.Outline.Reached
import UndoJournal.Proofs.Bench.Reshowing
import UndoJournal.Proofs.Outline.Pictured
import UndoJournal.Proofs.Hub.Emissions
import UndoJournal.Proofs.Screen.Ending
import UndoJournal.Proofs.Engine.Muting
import UndoJournal.Proofs.Engine.Errors
import UndoJournal.Proofs.Observers.Standalone
import UndoJournal.Proofs.Session.Scrolling
import UndoJournal.Proofs.Files.Persistence
import UndoJournal.Proofs.Transcript.Blessing
