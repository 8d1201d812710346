import UndoJournal.Hub

/-!
# One-line pictures of values

Reports show values as text: a name, and in braces the fields with their values. `record` and
`openRecord` write that form, the second for a value whose further fields are left out.
-/

namespace UndoJournal.Inspect

/-- The fields of a record, with commas between them. -/
def fieldList (fields : List Field) : String :=
  String.intercalate ", " (fields.map fun (name, value) => name ++ ": " ++ value)

/-- A value with all its fields. -/
def record (name : String) (fields : List Field) : String :=
  name ++ " \x7b " ++ fieldList fields ++ " \x7d"

/-- A value of which some fields are left out. -/
def openRecord (name : String) (fields : List Field) : String :=
  name ++ " \x7b " ++ fieldList fields ++ ", .. \x7d"

/-- A value with a name around it. -/
def wrapped (name value : String) : String := name ++ "(" ++ value ++ ")"

/-- A value that may be missing. -/
def optional : Option String → String
  | none => "None"
  | some value => wrapped "Some" value

/-- A value that others share. -/
def shared (value : String) : String := record "RefCell" [("value", value)]

/-- A truth value. -/
def bool (b : Bool) : String := if b then "true" else "false"

/-- An address. -/
def address (a : Address) : String :=
  record "NodeRef" [("group", toString a.group), ("child", optional (a.child.map toString))]

/-- A position. -/
def position : Position → String
  | .start => "Start"
  | .on a => wrapped "At" (address a)

/-- A signal. -/
def signal (s : Signal) : String :=
  wrapped s.kind.word
    (match s with
      | .selectionChanged p => optional (p.map position)
      | .rowExpanded group => toString group
      | .rowCollapsed group => toString group)

end UndoJournal.Inspect
