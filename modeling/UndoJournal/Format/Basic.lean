/-!
# Values of two data formats

Settings come in JSON or in TOML, and reports are printed in JSON.

A JSON string is a list of **points**: code points, and halves of surrogate pairs, which only
escapes can spell. Two halves that belong together are one character; a half by itself makes a
string that is no text, which `Json.text?` refuses. Numbers of JSON, and floats and date-times of
TOML, are kept as they are spelt, since nothing here computes with them.

A reader of either format takes the characters that are left, and gives what it read together with
the characters behind it.
-/

namespace UndoJournal.Format

/-! ### Words and hexadecimal digits -/

/-- The characters behind a word that has to come next. -/
def expect? : List Char → List Char → Option (List Char)
  | [], cs => some cs
  | w :: ws, c :: cs => if w = c then expect? ws cs else none
  | _ :: _, [] => none

/-- The value of a hexadecimal digit. -/
def hexDigit? (c : Char) : Option Nat :=
  if '0' ≤ c ∧ c ≤ '9' then some (c.toNat - '0'.toNat)
  else if 'a' ≤ c ∧ c ≤ 'f' then some (c.toNat - 'a'.toNat + 10)
  else if 'A' ≤ c ∧ c ≤ 'F' then some (c.toNat - 'A'.toNat + 10)
  else none

/-- So many hexadecimal digits, behind those that make `value`. -/
def readHex? : Nat → Nat → List Char → Option (Nat × List Char)
  | value, 0, cs => some (value, cs)
  | _, _ + 1, [] => none
  | value, k + 1, c :: cs => (hexDigit? c).bind fun d => readHex? (16 * value + d) k cs

/-- The sixteen digits with small letters. -/
def smallDigits : List Char := "0123456789abcdef".toList

/-- The sixteen digits with capital letters. -/
def capitalDigits : List Char := "0123456789ABCDEF".toList

/-- A number below 65536 as an escape of four of the given digits. -/
def hexEscape (digits : List Char) (n : Nat) : List Char :=
  '\\' :: 'u' ::
    [n / 4096 % 16, n / 256 % 16, n / 16 % 16, n % 16].map fun d => digits.getD d '0'

/-! ### Values -/

/-- A TOML value. -/
inductive Toml where
  | string (s : String)
  | integer (n : Int)
  | float (spelling : String)
  | bool (b : Bool)
  | dateTime (spelling : String)
  | array (items : List Toml)
  | table (entries : List (String × Toml))

/-- A JSON value. -/
inductive Json where
  | null
  | bool (b : Bool)
  | number (spelling : String)
  | string (points : List Nat)
  | array (items : List Json)
  | object (members : List (List Nat × Json))

namespace Json

/-- Whether a point is the first half of a surrogate pair. -/
def isFirstHalf (n : Nat) : Bool := 0xD800 ≤ n && n ≤ 0xDBFF

/-- Whether a point is the second half of a surrogate pair. -/
def isSecondHalf (n : Nat) : Bool := 0xDC00 ≤ n && n ≤ 0xDFFF

/-- The code point of a surrogate pair. -/
def joinHalves (m n : Nat) : Nat := 0x10000 + (m - 0xD800) * 0x400 + (n - 0xDC00)

/-- The characters that points spell, unless a half stands by itself. -/
def characters? : List Nat → Option (List Char)
  | [] => some []
  | [n] => if isFirstHalf n || isSecondHalf n then none else some [Char.ofNat n]
  | m :: n :: points =>
    if isSecondHalf m then none
    else if !isFirstHalf m then (characters? (n :: points)).map (Char.ofNat m :: ·)
    else if isSecondHalf n then (characters? points).map (Char.ofNat (joinHalves m n) :: ·)
    else none

/-- The text that points spell. -/
def text? (points : List Nat) : Option String := (characters? points).map String.ofList

/-- The points of a text. -/
def pointsOf (s : String) : List Nat := s.toList.map Char.toNat

/-- A text as a value. -/
def text (s : String) : Json := .string (pointsOf s)

/-- A natural number as a value. -/
def natural (n : Nat) : Json := .number (toString n)

/-- An object with texts as keys. -/
def record (members : List (String × Json)) : Json :=
  .object (members.map fun (key, value) => (pointsOf key, value))

end Json

end UndoJournal.Format
