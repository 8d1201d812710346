import UndoJournal.Screen.Follow
import UndoJournal.Navigator
import UndoJournal.Document

/-!
# Bindings

`Bindings` are one document, its journal, and any number of screens that were **bound** to the two,
one after the other. A binding connects a screen with a navigator of its own; the journal follows
only one screen at a time, so binding another disconnects the one before. Letting a binding go
takes its navigator away and leaves the screen as it is. The guards that are held from outside form
one stack for all bindings.
-/

namespace UndoJournal

/-- A screen and its navigator. -/
structure Binding where
  /-- The screen. -/
  screen : Screen
  /-- The navigator. -/
  navigator : Navigator

/-- A document, its journal, and the screens bound to them. -/
structure Bindings where
  /-- The document; its only observer is the journal. -/
  document : Document Unit
  /-- The journal, followed by the screen of the binding at an index. -/
  desk : Desk Nat (List Binding)
  /-- The bindings whose guards are held from outside, by index, the newest guard first. -/
  held : List Nat

namespace Binding

/-- The screen as a part of a binding. -/
def screenLens : Lens Binding Screen := ⟨screen, fun s b => { b with screen := s }⟩

/-- The navigator as a part of a binding. -/
def navigatorLens : Lens Binding Navigator := ⟨navigator, fun n b => { b with navigator := n }⟩

/-- A fresh binding of an outline. -/
def fresh (settings : ViewSettings) (o : Outline) : Binding :=
  ⟨.assemble settings {} none o, .fresh⟩

/-- What stands for a binding that was never made: an empty screen and nobody who acts. -/
def missing : Binding :=
  ⟨.assemble {} ⟨false, false, false⟩ none (.empty {} .unicode 0), ⟨.gone, none⟩⟩

/-- The binding at an index as a part of a list. -/
def lensAt (index : Nat) : Lens (List Binding) Binding :=
  ⟨fun bs => bs.getD index missing, fun b bs => bs.set index b⟩

/-- The screen of the binding at an index during an update, when the journal is being used. -/
def stage (index : Nat) : Stage (List Binding) where
  screen := (Binding.lensAt index).comp screenLens
  respond act := Navigator.interrupt ((Binding.lensAt index).comp navigatorLens) act

/-- How the screens of bindings follow the journal. -/
def following : Following Nat (List Binding) where
  follow index t update := (stage index).follow t update
  detached index := (stage index).disconnect
  dropped index := (stage index).disconnect

/-- The picture of a binding in reports, with that of the journal. -/
def inspect (b : Binding) (journal : String) : String :=
  Inspect.record "HistoryBinding"
    [("controller", Inspect.shared (b.navigator.inspect journal)),
      ("sync", b.screen.link.inspectHandle)]

end Binding

namespace Bindings

/-- A document and its journal without screens. -/
def empty (settings : Settings) : Bindings :=
  ⟨(Document.empty.observe ()).2, .empty settings [], []⟩

/-- The desk as a part of the bindings. -/
def deskLens : Lens Bindings (Desk Nat (List Binding)) := ⟨desk, fun d b => { b with desk := d }⟩

/-- The binding at an index as a part. -/
def bindingLens (index : Nat) : Lens Bindings Binding :=
  (deskLens.comp Desk.aroundLens).comp (Binding.lensAt index)

/-- The document, and how the journal is told of its changes. -/
def audience : Audience Bindings Unit where
  document := ⟨document, fun d b => { b with document := d }⟩
  deliver _ notice := Action.zoom deskLens (Desk.hear Binding.following notice)

/-- How the navigators reach the journal and the document. -/
def controls : Controls Bindings where
  journal := deskLens.comp Desk.journalLens
  resync := Action.zoom deskLens (Desk.resync Binding.following)
  undo := audience.undo
  redo := audience.redo

/-- The screen of the binding at an index while the user acts on it. -/
def stage (index : Nat) : Stage Bindings where
  screen := (bindingLens index).comp Binding.screenLens
  respond act := Navigator.handle ((bindingLens index).comp Binding.navigatorLens) controls act

/-- Bind a new screen; its index comes along. -/
def bind (o : Outline) : Action Bindings Nat := do
  let b ← Action.get
  let fresh := Binding.fresh b.desk.journal.settings.view o
  let index := b.desk.around.length
  Action.modify ((deskLens.comp Desk.aroundLens).modify fun bs => bs ++ [fresh])
  Action.report [fresh.screen.assembledNote]
  Action.zoom deskLens (Desk.attach Binding.following index)
  Action.note .debug "history view bound" []
  pure index

/-- The binding at an index, as long as it was not let go. -/
def binding? (index : Nat) (b : Bindings) : Option Binding :=
  (b.desk.around[index]?).filter fun b => b.navigator.presence != .gone

/-- Skip updates of the binding at an index from now on. -/
def pause (index : Nat) : Action Bindings Unit := (stage index).change Screen.pause

/-- Follow updates again, beginning with the whole state. -/
def resume (index : Nat) : Action Bindings Unit := do
  (stage index).change Screen.resume
  Action.zoom deskLens (Desk.resync Binding.following)
  Action.note .debug "history view resumed" []

/-- Take a guard of the binding at an index from outside. -/
def hold (index : Nat) : Action Bindings Unit := do
  (stage index).change (Screen.onLink Link.raise)
  Action.modify fun b => { b with held := index :: b.held }

/-- Let go of the newest guard that is held from outside, of whichever binding; whether there was
one comes along. -/
def release : Action Bindings Bool := do
  let b ← Action.get
  match b.held with
  | [] => pure false
  | index :: older => do
    (stage index).change (Screen.onLink Link.lower)
    Action.modify fun b => { b with held := older }
    pure true

/-- Let the binding at an index go. The guards of it that are held from outside stay. -/
def letGo (index : Nat) (b : Bindings) : Bindings :=
  (bindingLens index).modify
    (fun b => { b with navigator := { b.navigator with presence := .gone } }) b

/-- Take the last error of the binding at an index. -/
def takeError (index : Nat) : Action Bindings (Option HistoryError) :=
  Navigator.takeError ((bindingLens index).comp Binding.navigatorLens)

/-- The picture of the newest guard held from outside, of whichever binding. -/
def newestGuard? (b : Bindings) : Option String :=
  b.held.head?.map fun index => ((bindingLens index).get b).screen.link.inspectGuard

/-- The picture of the binding at an index in reports. -/
def inspect (index : Nat) (b : Bindings) : String :=
  ((bindingLens index).get b).inspect (b.desk.journal.inspect b.desk.attached.isSome)

end Bindings

end UndoJournal
