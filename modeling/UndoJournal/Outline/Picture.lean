import UndoJournal.Outline.Basic
import UndoJournal.Text

/-!
# The text of an outline

`Outline.picture` lists what is drawn: the rows that can be seen, and **one marker** behind the
current row. The current row is the selected one, or else the sentinel; if that is the sentinel and
it cannot be seen, the marker comes first. `Outline.renderLines` writes the picture as text.
-/

namespace UndoJournal

namespace Guides

/-- In front of an entry with others of its run below. -/
def branch : Guides → String
  | ascii => "+-- "
  | unicode | rounded => "├── "

/-- In front of the last entry of its run. -/
def last : Guides → String
  | ascii => "`-- "
  | unicode => "└── "
  | rounded => "╰── "

/-- In front of the head of a collapsed run. -/
def collapsed : Guides → String
  | ascii => "[+] "
  | unicode | rounded => "▸ "

/-- In front of the head of an expanded run. -/
def expanded : Guides → String
  | ascii => "[-] "
  | unicode | rounded => "▾ "

end Guides

/-- What stands between the icon and the label of an entry's row. -/
inductive Lead where
  /-- Nothing, for a run of one entry. -/
  | bare
  /-- The expander of a run. -/
  | expander (expanded : Bool)
  /-- The line that connects an entry with the head of its run. -/
  | guide (last : Bool)
deriving DecidableEq

/-- One line of a picture. -/
inductive PictureLine where
  /-- The mark behind the current row. -/
  | marker
  /-- The sentinel. -/
  | sentinel (index : Nat) (label : String)
  /-- An entry, applied or not. -/
  | entry (index : Nat) (applied : Bool) (lead : Lead) (label : String)
deriving DecidableEq

/-- The text in front of a label. -/
def Lead.text (guides : Guides) : Lead → String
  | bare => ""
  | expander true => guides.expanded
  | expander false => guides.collapsed
  | guide true => "  " ++ guides.last
  | guide false => "  " ++ guides.branch

/-- The text of a line. -/
def PictureLine.text (guides : Guides) : PictureLine → String
  | marker => "    ─── current ───"
  | sentinel index label => Text.padded 3 index ++ "   " ++ label
  | entry index applied lead label =>
    Text.padded 3 index ++ " " ++ (if applied then "↶" else "↷") ++ " " ++ lead.text guides ++ label

namespace Outline

/-- What stands in front of the label of an entry's row. -/
def leadOf (o : Outline) (r : Row) : Lead :=
  match r.position with
  | .start => .bare
  | .on a =>
    if a.isChild then .guide r.endsRun
    else if r.childCount = 0 then .bare
    else .expander (o.isExpanded a.group)

/-- The line of a row that can be seen. -/
def lineOf (o : Outline) (r : Row) (index : Nat) : PictureLine :=
  match r.key with
  | .sentinel => .sentinel index r.label
  | .entry _ => .entry index (r.ordinal ≤ o.currentOrdinal) (o.leadOf r) r.label

/-- What is drawn, line by line. -/
def picture (o : Outline) : List PictureLine :=
  (if o.currentOrdinal = 0 ∧ !o.showSentinel then [.marker] else []) ++
    o.visible.zipIdx.flatMap fun (r, index) =>
      o.lineOf r index :: if r.ordinal = o.currentOrdinal then [.marker] else []

/-- The text of an outline. -/
def renderLines (o : Outline) : List String := o.picture.map (PictureLine.text o.guides)

end Outline

end UndoJournal
