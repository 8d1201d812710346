import UndoJournal.Format.Basic

/-!
# Tables of a TOML document

While a document is read, each of its tables remembers how it came to be, since that decides what
may still be added to it.

* A **defined** table has a header of its own, or is the document. No other header may define it
  again, and no dotted key may reach into it.
* An **implied** table only stands in the path of a header. One header may still define it.
* A **dotted** table only stands in the path of a dotted key. Dotted keys may add to it, and headers
  may lead through it, but none may define it.

A path leads through the last element of an array of tables.
-/

namespace UndoJournal.Format.Toml

/-- How a table came to be. -/
inductive Origin where
  | defined
  | implied
  | dotted
deriving DecidableEq

/-- What a key of an unfinished document stands for. -/
inductive Item where
  /-- A value, which nothing can be added to. -/
  | value (v : Toml)
  /-- A table and how it came to be. -/
  | table (origin : Origin) (entries : List (String × Item))
  /-- The elements of an array of tables. -/
  | tables (elements : List (List (String × Item)))

/-- The entries of an unfinished table. -/
abbrev Entries := List (String × Item)

namespace Entries

/-- What a key stands for. -/
def get? (es : Entries) (key : String) : Option Item := List.lookup key es

/-- Let a key stand for something else, or for something at last. -/
def put (key : String) (item : Item) : Entries → Entries
  | [] => [(key, item)]
  | (k, old) :: es => if k = key then (k, item) :: es else (k, old) :: put key item es

/-- Add an entry whose key is not there yet. -/
def add? (es : Entries) (key : String) (item : Item) : Option Entries :=
  if (es.get? key).isSome then none else some (es ++ [(key, item)])

/-- Change the entries at the end of a path, where `change` sees how the table came to be. Tables
that are missing on the way come to be as the path says, and a dotted path enters no defined
table. -/
def descend? (dotted : Bool) (change : Origin → Entries → Option Entries) :
    Origin → Entries → List String → Option Entries
  | origin, es, [] => change origin es
  | _, es, key :: path =>
    match es.get? key with
    | none =>
      let origin := if dotted then .dotted else .implied
      (descend? dotted change origin [] path).map fun sub => es ++ [(key, .table origin sub)]
    | some (.value _) => none
    | some (.tables elements) =>
      match elements.getLast? with
      | none => none
      | some element =>
        (descend? dotted change .defined element path).map fun sub =>
          es.put key (.tables (elements.dropLast ++ [sub]))
    | some (.table origin sub) =>
      if dotted && origin == .defined then none
      else
        (descend? dotted change origin sub path).map fun sub => es.put key (.table origin sub)

/-- Add a value under a dotted key. -/
def assign? (key : List String) (v : Toml) (origin : Origin) (es : Entries) : Option Entries :=
  match key.getLast? with
  | none => none
  | some last =>
    let path := key.dropLast
    descend? true
      (fun origin es =>
        if (origin == .dotted) == path.isEmpty then none else es.add? last (.value v))
      origin es path

/-- Define the table at a path. -/
def define? (key : List String) (es : Entries) : Option Entries :=
  match key.getLast? with
  | none => none
  | some last =>
    descend? false
      (fun _ es =>
        match es.get? last with
        | none => some (es ++ [(last, .table .defined [])])
        | some (.table .implied sub) => some (es.put last (.table .defined sub))
        | some _ => none)
      .defined es key.dropLast

/-- Add an element to the array of tables at a path. -/
def extend? (key : List String) (es : Entries) : Option Entries :=
  match key.getLast? with
  | none => none
  | some last =>
    descend? false
      (fun _ es =>
        match es.get? last with
        | none => some (es ++ [(last, .tables [[]])])
        | some (.tables elements) => some (es.put last (.tables (elements ++ [[]])))
        | some _ => none)
      .defined es key.dropLast

/-- Add a value under a dotted key to the table at a path. -/
def assignAt? (path key : List String) (v : Toml) (es : Entries) : Option Entries :=
  descend? false (assign? key v) .defined es path

end Entries

mutual

/-- What an item is in the finished document. -/
def Item.finish : Item → Toml
  | .value v => v
  | .table _ entries => .table (finishEntries entries)
  | .tables elements => .array (finishElements elements)

/-- The entries of a finished table. -/
def finishEntries : List (String × Item) → List (String × Toml)
  | [] => []
  | (key, item) :: entries => (key, item.finish) :: finishEntries entries

/-- The elements of a finished array of tables. -/
def finishElements : List (List (String × Item)) → List Toml
  | [] => []
  | entries :: elements => .table (finishEntries entries) :: finishElements elements

end

end UndoJournal.Format.Toml
