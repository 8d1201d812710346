/-!
# Notes

What a computation reports while it runs: single **events** with a message and named fields, and
**spans** that enclose the notes of a part of it. A reader sees a flat list of `Record`s at or above
a chosen level; each event names the innermost span around it, whether or not that span's own level
is high enough to be listed.
-/

namespace UndoJournal

/-- How much a note matters. -/
inductive Level where
  | trace
  | debug
  | info
  | warn
deriving DecidableEq

/-- The rank of a level; a threshold lets through its own rank and above. -/
def Level.rank : Level → Nat
  | trace => 0
  | debug => 1
  | info => 2
  | warn => 3

/-- The name of a level in a record. -/
def Level.word : Level → String
  | trace => "TRACE"
  | debug => "DEBUG"
  | info => "INFO"
  | warn => "WARN"

/-- A named value of a note, as text. -/
abbrev Field := String × String

/-- One report: an event, or a span with everything reported inside it. -/
inductive Note where
  /-- A single report. -/
  | event (level : Level) (message : String) (fields : List Field)
  /-- A part of the computation, with what was reported inside. -/
  | span (level : Level) (name : String) (fields : List Field) (inside : List Note)

/-- A span before anything is reported inside it. -/
structure Span where
  /-- How much the span matters. -/
  level : Level
  /-- Its name, which the events inside refer to. -/
  name : String
  /-- Its fields. -/
  fields : List Field

/-- One line of what a reader sees. -/
inductive Record where
  /-- An event, with the name of the innermost span around it. -/
  | event (level : Level) (message : String) (fields : List Field) (around : Option String)
  /-- The opening of a span. -/
  | span (level : Level) (name : String) (fields : List Field)

namespace Note

/-- The opening of a span, for a reader with that threshold. -/
private def opening (threshold level : Level) (name : String) (fields : List Field) :
    List Record :=
  if threshold.rank ≤ level.rank then [.span level name fields] else []

mutual

/-- The records of one note inside the span `around`. -/
def records (threshold : Level) (around : Option String) : Note → List Record
  | event level message fields =>
    if threshold.rank ≤ level.rank then [.event level message fields around] else []
  | span level name fields inside =>
    opening threshold level name fields ++ recordsOf threshold (some name) inside

/-- The records of some notes inside the span `around`, in order. -/
def recordsOf (threshold : Level) (around : Option String) : List Note → List Record
  | [] => []
  | note :: notes => records threshold around note ++ recordsOf threshold around notes

end

end Note

end UndoJournal
