import UndoJournal.Observers.Registry

/-!
# An ensemble of observers

Three kinds of observers share one registry: **tallies** that write every notice down as a line of
text, **journals**, and **tracers** that report every notice. The same observer can be registered
again, and then hears every notice once per registration.
-/

namespace UndoJournal

/-- The line a tally writes about a notice. -/
def Notice.line (name : String) (notice : Notice) : String :=
  let about (verb : String) (e : Event) : String :=
    name ++ " " ++ verb ++ " " ++ e.id.text ++ " " ++ e.kind ++ " " ++ e.description
  match notice with
  | .committed e => about "commit" e
  | .undone e => about "undo" e
  | .redone e => about "redo" e
  | .undoCleared => name ++ " clear_undo"
  | .redoCleared => name ++ " clear_redo"

/-- What a tracer reports about a notice. -/
def Notice.trace : Notice → Note
  | .committed e => .event .debug "commit"
      [("event_id", e.id.text), ("kind", e.kind), ("description", e.description)]
  | .undone e => .event .debug "undo" [("event_id", e.id.text), ("kind", e.kind)]
  | .redone e => .event .debug "redo" [("event_id", e.id.text), ("kind", e.kind)]
  | .undoCleared => .event .debug "clear undo history" []
  | .redoCleared => .event .debug "clear redo history" []

/-- An observer of an ensemble. -/
inductive Member where
  /-- Writes lines under a name. -/
  | tally (name : String)
  /-- The journal at an index. -/
  | journal (index : Nat)
  /-- Reports every notice. -/
  | tracer
deriving DecidableEq

/-- Observers of one document, with what they keep. -/
structure Ensemble where
  /-- Who hears notices. -/
  registry : Registry Member
  /-- Every registration ever made, with its number. -/
  made : List (Nat × Member)
  /-- The journals among the observers. -/
  journals : List Journal
  /-- The lines of the tallies. -/
  lines : List String
  /-- The settings of new journals. -/
  settings : Settings

namespace Ensemble

/-- An ensemble without observers. -/
def empty (settings : Settings) : Ensemble := ⟨.empty, [], [], [], settings⟩

/-- Register an observer; the index among all registrations comes along. -/
def enroll (m : Member) (e : Ensemble) : Nat × Ensemble :=
  let (id, registry) := e.registry.add m
  (e.made.length, { e with registry := registry, made := e.made ++ [(id, m)] })

/-- Register a new journal. -/
def enrollJournal (e : Ensemble) : Nat × Ensemble :=
  enroll (.journal e.journals.length) { e with journals := e.journals ++ [.empty e.settings] }

/-- Register the observer of the `k`-th registration once more. -/
def enrollAgain (k : Nat) (e : Ensemble) : Option (Nat × Ensemble) :=
  e.made[k]?.map fun (_, m) => enroll m e

/-- Remove the `k`-th registration; whether it was still there comes along. -/
def dismiss (k : Nat) (e : Ensemble) : Bool × Ensemble :=
  match e.made[k]? with
  | none => (false, e)
  | some (id, _) =>
    let (found, registry) := e.registry.remove id
    (found, { e with registry := registry })

/-- Whether two registrations have the same number. -/
def sameId (e : Ensemble) (j k : Nat) : Bool :=
  (e.made[j]?.map Prod.fst) == (e.made[k]?.map Prod.fst)

/-- Pass a notice to one observer. -/
def deliver (m : Member) (notice : Notice) : Action Ensemble Unit :=
  match m with
  | .tally name => Action.modify fun e => { e with lines := e.lines ++ [notice.line name] }
  | .tracer => Action.report [notice.trace]
  | .journal index => do
    let e ← Action.get
    match e.journals[index]? with
    | none => pure ()
    | some j => do
      let r ← Action.ofExcept (j.hear notice)
      Action.modify fun e => { e with journals := e.journals.set index r.journal }
      Action.report r.notes

/-- Pass a notice to every observer. -/
def notify (notice : Notice) : Action Ensemble Unit := do
  let e ← Action.get
  e.registry.notify deliver notice

end Ensemble

end UndoJournal
