import UndoJournal.Event
import UndoJournal.Position

/-!
# Timelines

A `Timeline` keeps committed events in commit order. With grouping on, an event of the same kind
as the last run joins that run; otherwise it starts a new one. So a timeline is a list of `Run`s,
and `Timeline.toList` is the flat list it stands for. This module has the types and the queries that
never fail; sequence order and the operations that change a timeline have modules of their own.
-/

namespace UndoJournal

/-- The lasting identity of an entry: it is never given to two entries of one timeline. -/
structure EntryId where
  /-- The number itself. -/
  raw : Nat
deriving DecidableEq

/-- An event with the identity it has in the timeline. -/
structure Entry where
  /-- The lasting identity. -/
  id : EntryId
  /-- The event that was committed. -/
  event : Event
deriving DecidableEq

/-- Entries that are shown under one head. -/
structure Run where
  /-- The first entry. -/
  head : Entry
  /-- The entries behind it, in commit order. -/
  rest : List Entry
deriving DecidableEq

/-! ### Runs -/

namespace Run

/-- A run of one entry. -/
def single (e : Entry) : Run := ⟨e, []⟩

/-- All entries of the run, in commit order. -/
def entries (r : Run) : List Entry := r.head :: r.rest

/-- The number of entries. -/
def size (r : Run) : Nat := r.rest.length + 1

/-- The run that a list of entries makes: the first entry heads the others. -/
def ofEntries? : List Entry → Option Run
  | [] => none
  | e :: es => some ⟨e, es⟩

/-- The run with one more entry behind it. -/
def push (r : Run) (e : Entry) : Run := { r with rest := r.rest ++ [e] }

/-- The address of the last entry, for a run at index `group`. -/
def lastAddress (r : Run) (group : Nat) : Address :=
  match r.rest.length with
  | 0 => .ofHead group
  | n + 1 => .ofChild group n

end Run

/-- An entry together with where it sits and how it is shown. -/
structure Placed where
  /-- Where the entry sits. -/
  address : Address
  /-- The entry. -/
  entry : Entry
  /-- The number of entries behind it in its run, `0` unless it is a head. -/
  childCount : Nat
  /-- Whether it is the last of the entries behind a head. -/
  endsRun : Bool
deriving DecidableEq

/-- `0` for heads and `1` for the entries behind them. -/
def Placed.depth (p : Placed) : Nat := if p.address.isChild then 1 else 0

/-- The number of entries of some runs. -/
def Run.total : List Run → Nat
  | [] => 0
  | r :: rs => r.size + Run.total rs

@[simp] theorem Run.total_nil : total [] = 0 := rfl

theorem Run.zero_eq_total_nil : 0 = total [] := rfl

@[simp] theorem Run.total_cons (r : Run) (rs : List Run) : total (r :: rs) = r.size + total rs :=
  rfl

@[simp] theorem Run.total_append (rs rs' : List Run) :
    total (rs ++ rs') = total rs + total rs' := by
  induction rs with
  | nil => simp
  | cons r rs ih => simp [ih, Nat.add_assoc]

/-- The entries of a run at index `group`, each with its place. -/
def Run.placed (r : Run) (group : Nat) : List Placed :=
  ⟨.ofHead group, r.head, r.rest.length, false⟩ ::
    r.rest.zipIdx.map fun (e, i) => ⟨.ofChild group i, e, 0, i + 1 == r.rest.length⟩

/-- Grouped history, in commit order. The entries are counted as they come and go, and a timeline
whose counter is wrong cannot be made. -/
structure Timeline where
  /-- The runs, in commit order. -/
  runs : List Run
  /-- Whether consecutive events of one kind are grouped. -/
  grouping : Bool
  /-- The identity that the next entry gets. -/
  nextId : Nat
  /-- The number of entries. -/
  size : Nat
  /-- The counter is right. -/
  size_eq_total : size = Run.total runs
deriving DecidableEq

/-- How an event was filed. -/
inductive Placement where
  /-- It started a run of its own. -/
  | newRun
  /-- It joined the run with that head. -/
  | joined (head : Address)
deriving DecidableEq

/-- What filing an event gave: where it sits, which identity it got, and how it was filed. -/
structure Filed where
  /-- Where the new entry sits. -/
  address : Address
  /-- The identity of the new entry. -/
  id : EntryId
  /-- Whether it started a run or joined one. -/
  placement : Placement
deriving DecidableEq

namespace Timeline

/-- A timeline without entries. -/
def empty (grouping : Bool) : Timeline := ⟨[], grouping, 0, 0, Run.zero_eq_total_nil⟩

/-! ### Views -/

/-- The flat list of entries, in commit order. -/
def toList (t : Timeline) : List Entry := t.runs.flatMap Run.entries

/-- Every entry with its place, in commit order. -/
def placed (t : Timeline) : List Placed :=
  t.runs.zipIdx.flatMap fun (r, group) => r.placed group

/-- The run, or the part of one, that an address names: a head names its whole run, and another
entry names itself alone. -/
def get? (t : Timeline) (a : Address) : Option Run := do
  let run ← t.runs[a.group]?
  match a.child with
  | none => some run
  | some i => run.rest[i]?.map Run.single

/-- The head of the run at an index. -/
def head? (t : Timeline) (group : Nat) : Option Entry := t.runs[group]?.map Run.head

/-- Whether the run at an index has entries behind its head. -/
def hasChildren (t : Timeline) (group : Nat) : Bool :=
  match t.runs[group]? with
  | some run => !run.rest.isEmpty
  | none => false

/-- Whether a position is the start or names a node. -/
def contains (t : Timeline) : Position → Bool
  | .start => true
  | .on a => (t.get? a).isSome

/-- Where the entry of that identity sits now. -/
def find? (t : Timeline) (id : EntryId) : Option Address :=
  (t.placed.find? fun p => p.entry.id == id).map Placed.address

/-- The first node. -/
def first? (t : Timeline) : Option Address :=
  if t.runs.isEmpty then none else some (.ofHead 0)

/-- The last node. -/
def last? (t : Timeline) : Option Address :=
  t.runs.getLast?.map fun run => run.lastAddress (t.runs.length - 1)

/-- The position on the last node, or the start of an empty timeline. -/
def lastPosition (t : Timeline) : Position :=
  match t.last? with
  | none => .start
  | some a => .on a

end Timeline

end UndoJournal
