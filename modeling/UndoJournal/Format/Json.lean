import UndoJournal.Format.Basic

/-!
# Reading and printing JSON

`Json.read?` reads a text that is one JSON value with white space around it, which is blanks, tabs,
line feeds and carriage returns. Nesting is bounded by the length of the text, which is the fuel of
the readers that call each other.

`Json.pretty` writes a value over several lines: every item and every member has a line of its own,
two blanks deeper than the bracket around it, and nothing stands between the brackets of an empty
array or object.
-/

namespace UndoJournal.Format.Json

/-! ### Reading -/

/-- Whether a character is white space between tokens. -/
def isSpace (c : Char) : Bool := c == ' ' || c == '\t' || c == '\n' || c == '\r'

/-- The characters behind white space. -/
def skipSpace (cs : List Char) : List Char := cs.dropWhile isSpace

/-! #### Strings -/

/-- The point that an escape of one letter stands for. -/
def shortEscape? : Char → Option Nat
  | '"' => some 0x22
  | '\\' => some 0x5C
  | '/' => some 0x2F
  | 'b' => some 0x08
  | 'f' => some 0x0C
  | 'n' => some 0x0A
  | 'r' => some 0x0D
  | 't' => some 0x09
  | _ => none

/-- The point of an escape, behind its backslash. -/
def readEscape? : List Char → Option (Nat × List Char)
  | [] => none
  | 'u' :: cs => readHex? 0 4 cs
  | c :: cs => (shortEscape? c).map fun n => (n, cs)

/-- The points of a string, behind its opening quote and up to its closing one. -/
def readPoints? : Nat → List Char → Option (List Nat × List Char)
  | 0, _ => none
  | _ + 1, [] => none
  | _ + 1, '"' :: cs => some ([], cs)
  | fuel + 1, '\\' :: cs => do
    let (n, rest) ← readEscape? cs
    let (points, rest) ← readPoints? fuel rest
    some (n :: points, rest)
  | fuel + 1, c :: cs =>
    if c.toNat < 0x20 then none
    else (readPoints? fuel cs).map fun (points, rest) => (c.toNat :: points, rest)

/-- A string, from its opening quote. -/
def readString? (cs : List Char) : Option (List Nat × List Char) := do
  let rest ← expect? ['"'] cs
  readPoints? (rest.length + 1) rest

/-! #### Numbers -/

/-- Digits, of which there has to be one. -/
def readDigits? (cs : List Char) : Option (List Char × List Char) :=
  let digits := cs.takeWhile Char.isDigit
  if digits.isEmpty then none else some (digits, cs.dropWhile Char.isDigit)

/-- The digits in front of the point: more than one only if the first is not a zero. -/
def readWhole? : List Char → Option (List Char × List Char)
  | '0' :: cs => if (cs.head?.map Char.isDigit).getD false then none else some (['0'], cs)
  | cs => readDigits? cs

/-- The point and the digits behind it, if there is a point. -/
def readFraction? : List Char → Option (List Char × List Char)
  | '.' :: cs => (readDigits? cs).map fun (digits, rest) => ('.' :: digits, rest)
  | cs => some ([], cs)

/-- The exponent, if there is one. -/
def readExponent? : List Char → Option (List Char × List Char)
  | c :: cs =>
    if c = 'e' ∨ c = 'E' then
      let (sign, rest) := match cs with
        | '+' :: rest => (['+'], rest)
        | '-' :: rest => (['-'], rest)
        | _ => ([], cs)
      (readDigits? rest).map fun (digits, rest) => (c :: sign ++ digits, rest)
    else some ([], c :: cs)
  | [] => some ([], [])

/-- A number. -/
def readNumber? (cs : List Char) : Option (Json × List Char) := do
  let (sign, rest) := match cs with
    | '-' :: rest => (['-'], rest)
    | _ => ([], cs)
  let (whole, rest) ← readWhole? rest
  let (fraction, rest) ← readFraction? rest
  let (exponent, rest) ← readExponent? rest
  some (.number (String.ofList (sign ++ whole ++ fraction ++ exponent)), rest)

/-! #### Values -/

mutual

/-- A value, from its first character. -/
def readValue? : Nat → List Char → Option (Json × List Char)
  | 0, _ => none
  | fuel + 1, cs =>
    match cs with
    | 'n' :: rest => (expect? "ull".toList rest).map fun rest => (.null, rest)
    | 't' :: rest => (expect? "rue".toList rest).map fun rest => (.bool true, rest)
    | 'f' :: rest => (expect? "alse".toList rest).map fun rest => (.bool false, rest)
    | '"' :: _ => (readString? cs).map fun (points, rest) => (.string points, rest)
    | '[' :: rest =>
      match skipSpace rest with
      | ']' :: rest => some (.array [], rest)
      | rest => (readItems? fuel rest).map fun (items, rest) => (.array items, rest)
    | '\x7b' :: rest =>
      match skipSpace rest with
      | '\x7d' :: rest => some (.object [], rest)
      | rest => (readMembers? fuel rest).map fun (members, rest) => (.object members, rest)
    | _ => readNumber? cs

/-- The items of an array that is not empty, up to its closing bracket. -/
def readItems? : Nat → List Char → Option (List Json × List Char)
  | 0, _ => none
  | fuel + 1, cs => do
    let (item, rest) ← readValue? fuel cs
    match skipSpace rest with
    | ']' :: rest => some ([item], rest)
    | ',' :: rest => do
      let (items, rest) ← readItems? fuel (skipSpace rest)
      some (item :: items, rest)
    | _ => none

/-- The members of an object that is not empty, up to its closing brace. -/
def readMembers? : Nat → List Char → Option ((List (List Nat × Json)) × List Char)
  | 0, _ => none
  | fuel + 1, cs => do
    let (key, rest) ← readString? cs
    let rest ← expect? [':'] (skipSpace rest)
    let (value, rest) ← readValue? fuel (skipSpace rest)
    match skipSpace rest with
    | '\x7d' :: rest => some ([(key, value)], rest)
    | ',' :: rest => do
      let (members, rest) ← readMembers? fuel (skipSpace rest)
      some ((key, value) :: members, rest)
    | _ => none

end

/-- The value that a text is. -/
def read? (text : String) : Option Json := do
  let cs := text.toList
  let (value, rest) ← readValue? (2 * cs.length + 2) (skipSpace cs)
  if (skipSpace rest).isEmpty then some value else none

/-! ### Printing -/

/-- A point as it is written inside a string. -/
def writePoint (n : Nat) : List Char :=
  if n = 0x22 then ['\\', '"']
  else if n = 0x5C then ['\\', '\\']
  else if n = 0x08 then ['\\', 'b']
  else if n = 0x09 then ['\\', 't']
  else if n = 0x0A then ['\\', 'n']
  else if n = 0x0C then ['\\', 'f']
  else if n = 0x0D then ['\\', 'r']
  else if n < 0x20 || isFirstHalf n || isSecondHalf n then hexEscape smallDigits n
  else [Char.ofNat n]

/-- A string with its quotes. -/
def quoted (points : List Nat) : String :=
  String.ofList ('"' :: points.flatMap writePoint ++ ['"'])

/-- A line feed and the blanks at the beginning of a line. -/
def lineBreak (depth : Nat) : String := "\n" ++ String.ofList (List.replicate (2 * depth) ' ')

/-- Written items between brackets, each on a line of its own. -/
def block (opening closing : String) (depth : Nat) (items : List String) : String :=
  if items.isEmpty then opening ++ closing
  else opening ++ lineBreak (depth + 1) ++
    String.intercalate ("," ++ lineBreak (depth + 1)) items ++ lineBreak depth ++ closing

mutual

/-- A value whose brackets stand at some depth. -/
def write (depth : Nat) : Json → String
  | null => "null"
  | bool true => "true"
  | bool false => "false"
  | number spelling => spelling
  | string points => quoted points
  | array items => block "[" "]" depth (writeItems (depth + 1) items)
  | object members => block "\x7b" "\x7d" depth (writeMembers (depth + 1) members)

/-- The items of an array. -/
def writeItems (depth : Nat) : List Json → List String
  | [] => []
  | item :: items => write depth item :: writeItems depth items

/-- The members of an object. -/
def writeMembers (depth : Nat) : List (List Nat × Json) → List String
  | [] => []
  | (key, value) :: members =>
    (quoted key ++ ": " ++ write depth value) :: writeMembers depth members

end

/-- A value over several lines. -/
def pretty (value : Json) : String := write 0 value

end UndoJournal.Format.Json
