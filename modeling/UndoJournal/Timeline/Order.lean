import UndoJournal.Timeline.Basic
import UndoJournal.Fault

/-!
# Sequence order of a timeline

Undo and redo walk a timeline in **sequence order**: a head, then the entries behind it, then the
next head, with `Position.start` in front of everything. `Timeline.ordinal` counts the entries at
or before a position and `Timeline.positionAt?` is its inverse.

An address that names no node is a `Fault`, with one exception: `Timeline.next` counts on from an
index before it looks the address up, and behind the largest index comes `0` (`Run.wraps`).
-/

namespace UndoJournal

/-- The largest index there is: indices are words of 64 bits. -/
def Address.largestIndex : Nat := Nat.pow 2 64 - 1

/-- Whether counting on from an index behind the head comes round to the first entry there. The
largest index names no entry, since no run has as many; behind it comes `0`, which names the first
entry of every run that is more than its head. -/
def Run.wraps (r : Run) (index : Nat) : Bool :=
  index == Address.largestIndex && !r.rest.isEmpty && decide (r.rest.length ≤ index)

namespace Timeline

/-- The run at a head or the single entry behind one, or the fault of looking up an address that
names neither. -/
def expect (t : Timeline) (lookup : Lookup) (a : Address) : Except Fault Run :=
  match t.get? a with
  | some run => .ok run
  | none => .error (.unknownAddress lookup a t.runs.length t.size)

/-- The head behind the run at an index. -/
def headAfter? (t : Timeline) (group : Nat) : Option Position :=
  if group + 1 < t.runs.length then some (.on (.ofHead (group + 1))) else none

/-- The position behind `p`; there is none behind the last node. The head of the run is looked up
first, so that is the address a fault names when the whole run is missing; another address is looked
up only where no index follows its own in the run. -/
def next (t : Timeline) (p : Position) : Except Fault (Option Position) :=
  match p with
  | .start => .ok (t.first?.map .on)
  | .on a => do
    let run ← t.expect .next a.head
    match a.child with
    | none =>
      .ok (if run.rest.isEmpty then t.headAfter? a.group else some (.on (.ofChild a.group 0)))
    | some i =>
      if i + 1 < run.rest.length then
        .ok (some (.on (.ofChild a.group (i + 1))))
      else if run.wraps i then
        .ok (some (.on (.ofChild a.group 0)))
      else do
        let _ ← t.expect .next a
        .ok (t.headAfter? a.group)

/-- The position in front of a node: in its run, at the end of the run before, or the start. -/
def before (t : Timeline) (a : Address) : Position :=
  match a.child with
  | some 0 => .on a.head
  | some (i + 1) => .on (.ofChild a.group i)
  | none =>
    match a.group with
    | 0 => .start
    | g + 1 =>
      match t.runs[g]? with
      | some run => .on (run.lastAddress g)
      | none => .on (.ofHead g)

/-- The position in front of `p`; there is none in front of the start. -/
def prev (t : Timeline) (p : Position) : Except Fault (Option Position) :=
  match p with
  | .start => .ok none
  | .on a => do
    let _ ← t.expect .prev a
    .ok (some (t.before a))

/-- The number of entries in the runs in front of an index. -/
def sizeBefore (t : Timeline) (group : Nat) : Nat := Run.total (t.runs.take group)

/-- The number of entries at or before a position, `0` at the start. -/
def ordinal (t : Timeline) (p : Position) : Except Fault Nat :=
  match p with
  | .start => .ok 0
  | .on a => do
    let _ ← t.expect .ordinal a
    .ok (t.sizeBefore a.group + a.reach)

/-- The address of the entry at index `k` of runs that begin at index `group`. -/
def addressFrom? (group : Nat) : List Run → Nat → Option Address
  | [], _ => none
  | run :: runs, k =>
    if k < run.size then
      some (match k with
        | 0 => .ofHead group
        | i + 1 => .ofChild group i)
    else
      addressFrom? (group + 1) runs (k - run.size)

/-- The position with that ordinal. -/
def positionAt? (t : Timeline) (ordinal : Nat) : Option Position :=
  match ordinal with
  | 0 => some .start
  | k + 1 => (addressFrom? 0 t.runs k).map .on

/-- The signed number of steps from `p` to `q`; `p` is looked up first. -/
def distance (t : Timeline) (p q : Position) : Except Fault Int := do
  let m ← t.ordinal p
  let n ← t.ordinal q
  .ok ((n : Int) - (m : Int))

/-- What a walk along `step` from `p` meets, at most `fuel` positions of it. -/
def walkFrom (step : Position → Except Fault (Option Position)) :
    Nat → Position → Except Fault (List Position)
  | 0, _ => .ok []
  | fuel + 1, p => do
    match ← step p with
    | none => .ok []
    | some q => do
      let qs ← walkFrom step fuel q
      .ok (q :: qs)

/-- Every position met on the way forward from the start. -/
def forward (t : Timeline) : Except Fault (List Position) :=
  walkFrom t.next (t.size + 1) .start

/-- Every position met on the way back from the last node. -/
def backward (t : Timeline) : Except Fault (List Position) :=
  walkFrom t.prev (t.size + 1) t.lastPosition

end Timeline

end UndoJournal
