import UndoJournal.Desk

/-!
# Recorders

A `Recorder` is a follower that writes down what it is told and then answers as it was set up to
answer. The surroundings it acts on are the list of what was written down, oldest first.
-/

namespace UndoJournal

/-- Whether a recorder answers an update well, or with which error. -/
inductive Answer where
  /-- All went well. -/
  | well
  /-- Something behind the view failed. -/
  | failing
  /-- The view is gone. -/
  | gone
deriving DecidableEq

/-- A follower that writes down what it is told. -/
structure Recorder where
  /-- The name it signs with. -/
  name : String
  /-- What it answers. -/
  answer : Answer
deriving DecidableEq

/-- A line in the notebook of a recorder. -/
inductive Memo where
  /-- It was told of an update, with the timeline at that size. -/
  | told (name : String) (size : Nat) (update : CursorUpdate)
  /-- It was let go of. -/
  | detached (name : String)
deriving DecidableEq

namespace Recorder

/-- The answer as the outcome of following an update. -/
def reply (r : Recorder) : Except ViewError Unit :=
  match r.answer with
  | .well => .ok ()
  | .failing => .error (.backend "boom")
  | .gone => .error .disconnected

/-- Write one thing down. -/
def write (memo : Memo) : Action (List Memo) Unit := Action.modify fun memos => memos ++ [memo]

/-- Write an update down and answer. -/
def follow (r : Recorder) (t : Timeline) (update : CursorUpdate) :
    Action (List Memo) (Except ViewError Unit) := do
  write (.told r.name t.size update)
  pure r.reply

/-- How recorders follow a journal. -/
def following : Following Recorder (List Memo) where
  follow := follow
  detached r := write (.detached r.name)
  dropped _ := pure ()

end Recorder

end UndoJournal
