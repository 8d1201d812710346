import UndoJournal.Screen.Follow

/-!
# A bench for the screen

A `ScreenBench` has a timeline and a screen that is told of whatever updates one likes, whether or
not they are true of the timeline. The acts of the user that reach the handlers are written down.
-/

namespace UndoJournal

/-- A screen with everything that is needed to drive it. -/
structure ScreenBench where
  /-- The timeline. -/
  timeline : Timeline
  /-- The screen. -/
  screen : Screen
  /-- Whether the follower that updates the screen is still there. -/
  present : Bool
  /-- The acts of the user that were handled, oldest first. -/
  handled : List UserAct

namespace ScreenBench

/-- A screen that shows nothing yet, beside an empty timeline. -/
def empty (settings : Settings) (handlers : Handlers) (o : Outline) : ScreenBench where
  timeline := .empty settings.grouping
  screen := .assemble settings.view handlers (some .quiet) o
  present := true
  handled := []

/-- The timeline as a part of the bench. -/
def timelineLens : Lens ScreenBench Timeline := ⟨timeline, fun t b => { b with timeline := t }⟩

/-- The screen, and that acts of the user are written down. -/
def stage : Stage ScreenBench where
  screen := ⟨screen, fun s b => { b with screen := s }⟩
  respond act := Action.modify fun b => { b with handled := b.handled ++ [act] }

/-- Tell the screen of an update, while its follower is there. -/
def push (update : CursorUpdate) : Action ScreenBench (Option (Except ViewError Unit)) := do
  let b ← Action.get
  if b.present then do
    let answer ← stage.follow b.timeline update
    pure (some answer)
  else pure none

/-- Let the follower go away. -/
def drop : Action ScreenBench Unit := do
  stage.disconnect
  Action.modify fun b => { b with present := false }

/-- The recorded calls and handled acts, and the bench without them. -/
def drain (b : ScreenBench) : (List ViewCall × List UserAct) × ScreenBench :=
  let (calls, screen) := b.screen.drain
  ((calls, b.handled), { b with screen := screen, handled := [] })

end ScreenBench

end UndoJournal
