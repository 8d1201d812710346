import UndoJournal.Format.Toml.Scalar
import UndoJournal.Format.Toml.Tree

/-!
# Reading TOML

`Toml.read?` reads a whole document, line by line: a line is empty, a header that says which table
the lines below belong to, or a key with its value. Nesting is bounded by the length of the
document, which is the fuel of the readers that call each other, and by `nestingLimit`.
-/

namespace UndoJournal.Format.Toml

mutual

/-- A value inside so many brackets. -/
def readValue? (fuel depth : Nat) (cs : List Char) : Option (Toml × List Char) :=
  match fuel with
  | 0 => none
  | fuel + 1 =>
    match cs with
    | '"' :: _ | '\'' :: _ => (readString? cs).map fun (s, rest) => (.string s, rest)
    | '[' :: rest =>
      if nestingLimit ≤ depth + 1 then none
      else (readItems? fuel (depth + 1) rest).map fun (items, rest) => (.array items, rest)
    | '\x7b' :: rest =>
      if nestingLimit ≤ depth + 1 then none
      else do
        let (es, rest) ← match skipSpace rest with
          | '\x7d' :: rest => some ([], rest)
          | _ => readMembers? fuel (depth + 1) [] rest
        some (.table (finishEntries es), rest)
    | 't' :: rest => (expect? "rue".toList rest).map fun rest => (.bool true, rest)
    | 'f' :: rest => (expect? "alse".toList rest).map fun rest => (.bool false, rest)
    | 'i' :: _ | 'n' :: _ => readSpecial? cs
    | _ => readNumeric? cs

/-- The items of an array, up to its closing bracket; a comma may stand behind the last. -/
def readItems? (fuel depth : Nat) (cs : List Char) : Option (List Toml × List Char) :=
  match fuel with
  | 0 => none
  | fuel + 1 =>
    match skipLines false cs with
    | ']' :: rest => some ([], rest)
    | start => do
      let (item, rest) ← readValue? fuel depth start
      match skipLines false rest with
      | ']' :: rest => some ([item], rest)
      | ',' :: rest => do
        let (items, rest) ← readItems? fuel depth rest
        some (item :: items, rest)
      | _ => none

/-- The members of an inline table that is not empty, added to those it has, up to its closing
brace. -/
def readMembers? (fuel depth : Nat) (es : Entries) (cs : List Char) :
    Option (Entries × List Char) :=
  match fuel with
  | 0 => none
  | fuel + 1 => do
    let (key, rest) ← readKey? cs
    let rest ← expect? ['='] rest
    let (value, rest) ← readValue? fuel depth (skipSpace rest)
    let es ← es.assign? key value .defined
    match skipSpace rest with
    | '\x7d' :: rest => some (es, rest)
    | ',' :: rest => readMembers? fuel depth es rest
    | _ => none

end

/-- A document of which some lines have been read: what it holds, and the table that is being
filled. -/
structure Draft where
  /-- The entries of the document. -/
  entries : Entries
  /-- The path of the table that the next key goes to. -/
  here : List String

/-- The document after a header, behind its opening brackets. -/
def Draft.header? (d : Draft) (closing : List Char)
    (change : List String → Entries → Option Entries) (cs : List Char) :
    Option (Draft × List Char) := do
  let (key, rest) ← readKey? cs
  let rest ← expect? closing rest
  let entries ← change key d.entries
  some (⟨entries, key⟩, rest)

/-- The document after a key with its value. -/
def Draft.pair? (d : Draft) (cs : List Char) : Option (Draft × List Char) := do
  let (key, rest) ← readKey? cs
  let rest ← expect? ['='] rest
  let (value, rest) ← readValue? (2 * rest.length + 2) 0 (skipSpace rest)
  let entries ← d.entries.assignAt? d.here key value
  some (⟨entries, d.here⟩, rest)

/-- The document after the line that begins here, except for the end of that line. -/
def Draft.line? (d : Draft) (cs : List Char) : Option (Draft × List Char) :=
  match skipSpace cs with
  | [] | '#' :: _ | '\n' :: _ | '\r' :: _ => some (d, skipSpace cs)
  | '[' :: '[' :: rest => d.header? [']', ']'] Entries.extend? rest
  | '[' :: rest => d.header? [']'] Entries.define? rest
  | start => d.pair? start

/-- The document after all lines, at most `fuel`. -/
def Draft.lines? : Nat → Draft → List Char → Option Draft
  | 0, _, _ => none
  | _ + 1, d, [] => some d
  | fuel + 1, d, cs => do
    let (d, rest) ← d.line? cs
    let rest ← lineEnd? rest
    lines? fuel d rest

/-- A document without the mark of byte order that it may begin with. -/
def withoutMark : List Char → List Char
  | '\ufeff' :: cs => cs
  | cs => cs

/-- The document that a text is. -/
def read? (text : String) : Option (List (String × Toml)) := do
  let cs := withoutMark text.toList
  let d ← Draft.lines? (cs.length + 1) ⟨[], []⟩ cs
  some (finishEntries d.entries)

end UndoJournal.Format.Toml
