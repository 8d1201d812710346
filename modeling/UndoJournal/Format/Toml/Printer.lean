import UndoJournal.Format.Basic

/-!
# Printing TOML

A string is written in the plainest of five forms that can hold it: basic, literal, basic over
several lines, literal over several lines, and basic with escapes. `Traits` say what about a string
decides; the forms over several lines begin with a line end if the string has one, so that none of
its own is dropped.
-/

namespace UndoJournal.Format.Toml

/-- What about a string decides in which form it is written. -/
structure Traits where
  /-- Whether it has a control character that only an escape can stand for. -/
  control : Bool
  /-- Whether it has a backslash. -/
  backslash : Bool
  /-- Whether it has a line feed. -/
  newline : Bool
  /-- The length of the longest run of double quotes. -/
  doubleQuotes : Nat
  /-- The length of the longest run of single quotes. -/
  singleQuotes : Nat

/-- The length of the longest run of a character, behind a run of that length. -/
def longestRun (c : Char) (current : Nat) : List Char → Nat
  | [] => current
  | d :: cs => if d = c then longestRun c (current + 1) cs else max current (longestRun c 0 cs)

/-- Whether only an escape can stand for a character: it is a control character other than a tab and
a line feed. -/
def needsEscape (c : Char) : Bool :=
  (c.toNat ≤ 0x1F && c != '\t' && c != '\n') || c.toNat == 0x7F

/-- What about a string decides in which form it is written. -/
def traitsOf (cs : List Char) : Traits where
  control := cs.any needsEscape
  backslash := cs.contains '\\'
  newline := cs.contains '\n'
  doubleQuotes := longestRun '"' 0 cs
  singleQuotes := longestRun '\'' 0 cs

/-- The forms in which a string can be written. -/
inductive StringForm where
  | basic
  | literal
  | longBasic
  | longLiteral
deriving DecidableEq

/-- The form of a string with those traits. -/
def Traits.form (t : Traits) : StringForm :=
  if !t.control && !t.backslash && t.doubleQuotes = 0 && !t.newline then .basic
  else if !t.control && t.singleQuotes = 0 && !t.newline then .literal
  else if !t.control && !t.backslash && t.doubleQuotes ≤ 2 then .longBasic
  else if !t.control && t.singleQuotes ≤ 2 then .longLiteral
  else if t.newline then .longBasic
  else .basic

/-- A character other than a quote as it is written between double quotes; in a string over several
lines a line feed stands for itself. -/
def writeChar (long : Bool) (c : Char) : List Char :=
  if c = '\x08' then ['\\', 'b']
  else if c = '\t' then ['\\', 't']
  else if c = '\n' then (if long then ['\n'] else ['\\', 'n'])
  else if c = '\x0c' then ['\\', 'f']
  else if c = '\r' then ['\\', 'r']
  else if c = '\\' then ['\\', '\\']
  else if needsEscape c then hexEscape capitalDigits c.toNat
  else [c]

/-- A string as it is written between double quotes. A quote is escaped, but over several lines only
each third of a run, where `run` counts those in front. -/
def writeBasic (long : Bool) (run : Nat) : List Char → List Char
  | [] => []
  | '"' :: cs =>
    if long && run < 2 then '"' :: writeBasic long (run + 1) cs
    else '\\' :: '"' :: writeBasic long 0 cs
  | c :: cs => writeChar long c ++ writeBasic long 0 cs

/-- A string between quotes, behind a line end if it has one. -/
def enclose (quotes : String) (newline : Bool) (body : List Char) : String :=
  quotes ++ (if newline then "\n" else "") ++ String.ofList body ++ quotes

/-- A string with its quotes. -/
def quoted (s : String) : String :=
  let cs := s.toList
  let t := traitsOf cs
  match t.form with
  | .basic => enclose "\"" false (writeBasic false 0 cs)
  | .literal => enclose "'" false cs
  | .longBasic => enclose "\"\"\"" t.newline (writeBasic true 0 cs)
  | .longLiteral => enclose "'''" t.newline cs

/-- A value that has a line of its own. -/
inductive Scalar where
  | bool (b : Bool)
  | string (s : String)

/-- A value as it is written. -/
def Scalar.text : Scalar → String
  | bool b => if b then "true" else "false"
  | string s => quoted s

/-- A table under its header. -/
def tableText (name : String) (entries : List (String × Scalar)) : String :=
  "[" ++ name ++ "]\n" ++
    String.join (entries.map fun (key, value) => key ++ " = " ++ value.text ++ "\n")

/-- A document of tables, with an empty line between any two. -/
def document (tables : List (String × List (String × Scalar))) : String :=
  String.intercalate "\n" (tables.map fun (name, entries) => tableText name entries)

end UndoJournal.Format.Toml
