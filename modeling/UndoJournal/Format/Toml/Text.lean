import UndoJournal.Format.Basic

/-!
# Characters, keys and strings of TOML

Every reader takes the characters that are left and gives what it read together with the rest.

A string is **basic** (double quotes, with escapes) or **literal** (single quotes, without), and
either kind can go over several lines between three quotes. One or two quotes inside such a string
are part of it, also right in front of the three that close it.
-/

namespace UndoJournal.Format.Toml

/-! ### Characters -/

/-- Whether a character is white space inside a line. -/
def isSpace (c : Char) : Bool := c == ' ' || c == '\t'

/-- The characters behind white space. -/
def skipSpace (cs : List Char) : List Char := cs.dropWhile isSpace

/-- Whether a character can stand in comments and strings: a tab, or no control character. -/
def isPlain (c : Char) : Bool := c == '\t' || (0x20 ≤ c.toNat && c.toNat != 0x7F)

/-- The characters behind the end of a line. -/
def newline? : List Char → Option (List Char)
  | '\n' :: cs => some cs
  | '\r' :: '\n' :: cs => some cs
  | _ => none

/-- The characters behind a comment, if there is one; the end of the line is left. -/
def skipComment (cs : List Char) : List Char :=
  match cs with
  | '#' :: rest => rest.dropWhile isPlain
  | _ => cs

/-- The characters behind the rest of a line that holds nothing more. -/
def lineEnd? (cs : List Char) : Option (List Char) :=
  match skipComment (skipSpace cs) with
  | [] => some []
  | rest => newline? rest

/-- The characters behind white space, ends of lines and comments, when one is inside a comment or
not. -/
def skipLines : Bool → List Char → List Char
  | _, [] => []
  | _, '\n' :: cs => skipLines false cs
  | _, '\r' :: '\n' :: cs => skipLines false cs
  | true, c :: cs => if isPlain c then skipLines true cs else c :: cs
  | false, c :: cs =>
    if isSpace c then skipLines false cs
    else if c = '#' then skipLines true cs
    else c :: cs

/-- The characters behind white space and ends of lines. -/
def skipBlank : List Char → List Char
  | [] => []
  | '\n' :: cs => skipBlank cs
  | '\r' :: '\n' :: cs => skipBlank cs
  | c :: cs => if isSpace c then skipBlank cs else c :: cs

/-! ### Escapes -/

/-- The character of a code point of so many hexadecimal digits. -/
def readCodePoint? (digits : Nat) (cs : List Char) : Option (Char × List Char) := do
  let (n, rest) ← readHex? 0 digits cs
  if n < 0xD800 ∨ (0xDFFF < n ∧ n < 0x110000) then some (Char.ofNat n, rest) else none

/-- The character of an escape, behind its backslash. -/
def readEscape? : List Char → Option (Char × List Char)
  | 'b' :: cs => some ('\x08', cs)
  | 't' :: cs => some ('\t', cs)
  | 'n' :: cs => some ('\n', cs)
  | 'f' :: cs => some ('\x0c', cs)
  | 'r' :: cs => some ('\r', cs)
  | '"' :: cs => some ('"', cs)
  | '\\' :: cs => some ('\\', cs)
  | 'u' :: cs => readCodePoint? 4 cs
  | 'U' :: cs => readCodePoint? 8 cs
  | _ => none

/-! ### Strings -/

/-- The rest of a basic string, up to its closing quote. -/
def readBasic? : Nat → List Char → Option (List Char × List Char)
  | 0, _ => none
  | _ + 1, [] => none
  | _ + 1, '"' :: cs => some ([], cs)
  | fuel + 1, '\\' :: cs => do
    let (c, rest) ← readEscape? cs
    let (s, rest) ← readBasic? fuel rest
    some (c :: s, rest)
  | fuel + 1, c :: cs =>
    if isPlain c then (readBasic? fuel cs).map fun (s, rest) => (c :: s, rest) else none

/-- The rest of a literal string, up to its closing quote. -/
def readLiteral? : List Char → Option (List Char × List Char)
  | [] => none
  | '\'' :: cs => some ([], cs)
  | c :: cs => if isPlain c then (readLiteral? cs).map fun (s, rest) => (c :: s, rest) else none

/-- The characters behind an end of line and all that is blank behind it, where only white space
stands in front of that end of line. -/
def skipLineEnding? (cs : List Char) : Option (List Char) :=
  (newline? (skipSpace cs)).map skipBlank

/-- The end of a string of several lines at a run of quotes: three close it, and up to two in front
of them belong to it. A shorter run belongs to the string, which goes on behind it. -/
def closing? (quote : Char) (cs : List Char) : Option (List Char × List Char) :=
  let quotes := cs.takeWhile (· == quote)
  if quotes.length < 3 then none
  else
    let inside := min (quotes.length - 3) 2
    some (List.replicate inside quote, cs.drop (inside + 3))

/-- The rest of a basic string of several lines. -/
def readLongBasic? : Nat → List Char → Option (List Char × List Char)
  | 0, _ => none
  | _ + 1, [] => none
  | fuel + 1, '"' :: cs =>
    match closing? '"' ('"' :: cs) with
    | some ending => some ending
    | none => (readLongBasic? fuel cs).map fun (s, rest) => ('"' :: s, rest)
  | fuel + 1, '\\' :: cs =>
    match skipLineEnding? cs with
    | some rest => readLongBasic? fuel rest
    | none => do
      let (c, rest) ← readEscape? cs
      let (s, rest) ← readLongBasic? fuel rest
      some (c :: s, rest)
  | fuel + 1, c :: cs =>
    match newline? (c :: cs) with
    | some rest => (readLongBasic? fuel rest).map fun (s, rest) => ('\n' :: s, rest)
    | none =>
      if isPlain c then (readLongBasic? fuel cs).map fun (s, rest) => (c :: s, rest) else none

/-- The rest of a literal string of several lines. -/
def readLongLiteral? : Nat → List Char → Option (List Char × List Char)
  | 0, _ => none
  | _ + 1, [] => none
  | fuel + 1, '\'' :: cs =>
    match closing? '\'' ('\'' :: cs) with
    | some ending => some ending
    | none => (readLongLiteral? fuel cs).map fun (s, rest) => ('\'' :: s, rest)
  | fuel + 1, c :: cs =>
    match newline? (c :: cs) with
    | some rest => (readLongLiteral? fuel rest).map fun (s, rest) => ('\n' :: s, rest)
    | none =>
      if isPlain c then (readLongLiteral? fuel cs).map fun (s, rest) => (c :: s, rest) else none

/-- A string of several lines, behind its opening quotes: a line end right there is dropped. -/
def afterOpening (cs : List Char) : List Char := (newline? cs).getD cs

/-- A string of any kind, from its opening quote. -/
def readString? (cs : List Char) : Option (String × List Char) :=
  let found : Option (List Char × List Char) :=
    match cs with
    | '"' :: '"' :: '"' :: rest => readLongBasic? (rest.length + 1) (afterOpening rest)
    | '\'' :: '\'' :: '\'' :: rest => readLongLiteral? (rest.length + 1) (afterOpening rest)
    | '"' :: rest => readBasic? (rest.length + 1) rest
    | '\'' :: rest => readLiteral? rest
    | _ => none
  found.map fun (s, rest) => (String.ofList s, rest)

/-! ### Keys -/

/-- Whether a character can stand in a key without quotes. -/
def isBare (c : Char) : Bool := c.isAlphanum || c == '_' || c == '-'

/-- One part of a key. -/
def readKeyPart? (cs : List Char) : Option (String × List Char) :=
  match cs with
  | '"' :: rest =>
    (readBasic? (rest.length + 1) rest).map fun (s, rest) => (String.ofList s, rest)
  | '\'' :: rest => (readLiteral? rest).map fun (s, rest) => (String.ofList s, rest)
  | _ =>
    let part := cs.takeWhile isBare
    if part.isEmpty then none else some (String.ofList part, cs.dropWhile isBare)

/-- The number of nested brackets, and of parts of a key, from which on they are refused. -/
def nestingLimit : Nat := 80

/-- The parts of a key with dots between them; more than `fuel` are refused. -/
def readParts? : Nat → List Char → Option (List String × List Char)
  | 0, _ => none
  | fuel + 1, cs => do
    let (part, rest) ← readKeyPart? (skipSpace cs)
    match skipSpace rest with
    | '.' :: rest => (readParts? fuel rest).map fun (parts, rest) => (part :: parts, rest)
    | rest => some ([part], rest)

/-- A key with the white space around it. -/
def readKey? (cs : List Char) : Option (List String × List Char) := readParts? (nestingLimit - 1) cs

end UndoJournal.Format.Toml
