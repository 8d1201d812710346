import UndoJournal.Format.Json
import UndoJournal.Format.Toml.Reader
import UndoJournal.Format.Toml.Printer
import UndoJournal.Files
import UndoJournal.Settings

/-!
# Loading settings

A format that settings can be read from has to say when one of its values is a truth value, when it
is a text, and when it is a **part** with given names; a part gives for each name a value or
nothing. Whatever is not given keeps its default, and any value of the wrong kind spoils the whole.

* In **JSON** a part is an object, or an array that gives the values in the order of the names. An
  object may have members of other names, but none of the names may come twice; an array may be too
  short, but not too long.
* In **TOML** a part is a table, or an array that gives the values in the order of the names; what
  else the table or the array has is ignored. A date-time, which some readers see as a table of one
  odd key, is a part that gives nothing.

The name of a file decides its format: a name that ends in a dot and `json` is JSON, and every other
is TOML. Settings that were read are then checked for problems.
-/

namespace UndoJournal

open Format

/-! ### Any format -/

/-- A data format: which of its values are truth values, texts and parts. -/
structure Source (α : Type) where
  /-- The truth value that a value is. -/
  bool? : α → Option Bool
  /-- The text that a value is. -/
  text? : α → Option String
  /-- The values that a value gives for some names. -/
  part? : List String → α → Option (List (Option α))

namespace Source

variable {α β : Type}

/-- The reading of a value that is given, or a default for one that is not. -/
def orDefault (read : α → Option β) (default : β) : Option α → Option β
  | none => some default
  | some a => read a

/-- Whether consecutive events of one kind are grouped. -/
def grouping? (s : Source α) (a : α) : Option Bool := do
  match ← s.part? ["enabled"] a with
  | [enabled] => orDefault s.bool? true enabled
  | _ => none

/-- The texts a user sees. -/
def labels? (s : Source α) (a : α) : Option Labels := do
  let d : Labels := {}
  match ← s.part? ["unchanged", "undo", "redo", "separator"] a with
  | [unchanged, undo, redo, separator] => do
    let unchanged ← orDefault s.text? d.unchanged unchanged
    let undo ← orDefault s.text? d.undo undo
    let redo ← orDefault s.text? d.redo redo
    let separator ← orDefault s.text? d.separator separator
    some ⟨unchanged, undo, redo, separator⟩
  | _ => none

/-- How a view follows the cursor. -/
def view? (s : Source α) (a : α) : Option ViewSettings := do
  let d : ViewSettings := {}
  match ← s.part? ["collapse_on_leave", "scroll_to_current", "show_sentinel"] a with
  | [collapse, scroll, sentinel] => do
    let collapse ← orDefault s.bool? d.collapseOnLeave collapse
    let scroll ← orDefault s.bool? d.scrollToCurrent scroll
    let sentinel ← orDefault s.bool? d.showSentinel sentinel
    some ⟨collapse, scroll, sentinel⟩
  | _ => none

/-- All settings, of which every part may be missing. -/
def settings? (s : Source α) (a : α) : Option Settings := do
  match ← s.part? ["grouping", "labels", "view"] a with
  | [grouping, labels, view] => do
    let grouping ← orDefault s.grouping? true grouping
    let labels ← orDefault s.labels? {} labels
    let view ← orDefault s.view? {} view
    some ⟨grouping, labels, view⟩
  | _ => none

end Source

namespace Settings

/-! ### JSON -/

/-- The members of an object with their keys as texts; a key that is no text spoils all. -/
def membersOf? : List (List Nat × Json) → Option (List (String × Json))
  | [] => some []
  | (key, value) :: members => do
    let key ← Json.text? key
    let members ← membersOf? members
    some ((key, value) :: members)

/-- The value that members give for a name, if none gives another. -/
def memberOf? (members : List (String × Json)) (name : String) : Option (Option Json) :=
  match members.filter fun m => m.1 == name with
  | [] => some none
  | [(_, value)] => some (some value)
  | _ => none

/-- The values for names in the order in which they are given. -/
def inOrder {α : Type} (names : List String) (values : List α) : List (Option α) :=
  names.zipIdx.map fun (_, index) => values[index]?

/-- JSON as a format for settings. -/
def jsonSource : Source Json where
  bool?
    | .bool b => some b
    | _ => none
  text?
    | .string points => Json.text? points
    | _ => none
  part? names
    | .object members => do
      let members ← membersOf? members
      names.mapM (memberOf? members)
    | .array items => if items.length ≤ names.length then some (inOrder names items) else none
    | _ => none

/-- The settings that a JSON text gives. -/
def ofJson? (text : String) : Option Settings := (Json.read? text).bind jsonSource.settings?

/-! ### TOML -/

/-- TOML as a format for settings. -/
def tomlSource : Source Toml where
  bool?
    | .bool b => some b
    | _ => none
  text?
    | .string s => some s
    | _ => none
  part? names
    | .table entries => some (names.map fun name => List.lookup name entries)
    | .array items => some (inOrder names items)
    | .dateTime _ => some (names.map fun _ => none)
    | _ => none

/-- The settings that a TOML text gives. -/
def ofToml? (text : String) : Option Settings :=
  (Toml.read? text).bind fun entries => tomlSource.settings? (.table entries)

/-- The settings as a document of three tables. -/
def toToml (s : Settings) : String :=
  Toml.document
    [("grouping", [("enabled", .bool s.grouping)]),
      ("labels",
        [("unchanged", .string s.labels.unchanged), ("undo", .string s.labels.undo),
          ("redo", .string s.labels.redo), ("separator", .string s.labels.separator)]),
      ("view",
        [("collapse_on_leave", .bool s.view.collapseOnLeave),
          ("scroll_to_current", .bool s.view.scrollToCurrent),
          ("show_sentinel", .bool s.view.showSentinel)])]

end Settings

/-! ### Files -/

/-- Why settings could not be loaded. -/
inductive SettingsError where
  /-- Their file could not be read. -/
  | unreadable (path : String) (reason : FileError)
  /-- Their text is no TOML, or not of the right shape. -/
  | toml
  /-- Their text is no JSON, or not of the right shape. -/
  | json
  /-- Something is wrong with them. -/
  | invalid (problems : List String)
deriving DecidableEq

/-- The text of the error. -/
def SettingsError.message : SettingsError → String
  | unreadable path reason => "cannot read config " ++ path ++ ": " ++ reason.message
  | toml => "TOML parse error"
  | json => "JSON parse error"
  | invalid problems => "invalid config: " ++ String.intercalate "; " problems

namespace Settings

/-- The settings that a TOML text gives, or the error that it gives none. -/
def ofToml (text : String) : Except SettingsError Settings :=
  match ofToml? text with
  | some s => .ok s
  | none => .error .toml

/-- The settings that a JSON text gives, or the error that it gives none. -/
def ofJson (text : String) : Except SettingsError Settings :=
  match ofJson? text with
  | some s => .ok s
  | none => .error .json

/-- Settings without problems. -/
def validated (s : Settings) : Except SettingsError Settings :=
  if s.problems.isEmpty then .ok s else .error (.invalid s.problems)

/-- Whether the file at a path holds JSON. -/
def isJsonPath (path : String) : Bool := (Path.name? path).bind Path.extension? == some "json"

/-- The settings in the file at a path, where `read` reads files. -/
def load (read : String → Except FileError String) (path : String) :
    Except SettingsError Settings :=
  match read path with
  | .error reason => .error (.unreadable path reason)
  | .ok text => do
    let s ← if isJsonPath path then ofJson text else ofToml text
    s.validated

end Settings

end UndoJournal
