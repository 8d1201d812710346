import UndoJournal.Format.Basic
import UndoJournal.Format.Toml.Text

/-!
# Numbers and date-times of TOML

`Toml.readNumeric?` reads what begins with a sign or a digit: a date-time if it looks like one, then
a float, then an integer. Digits may be separated by single underscores. An integer has to fit into
64 bits with a sign, and a float must not be so large that it rounds to infinity.
-/

namespace UndoJournal.Format.Toml

/-! ### Digits -/

/-- More digits behind a digit, with single underscores between them. -/
def readMoreDigits (isDigit : Char → Bool) : List Char → List Char × List Char
  | '_' :: c :: cs =>
    if isDigit c then
      let (digits, rest) := readMoreDigits isDigit cs
      (c :: digits, rest)
    else ([], '_' :: c :: cs)
  | c :: cs =>
    if isDigit c then
      let (digits, rest) := readMoreDigits isDigit cs
      (c :: digits, rest)
    else ([], c :: cs)
  | [] => ([], [])

/-- Digits, of which there has to be one, without the underscores between them. -/
def readDigits? (isDigit : Char → Bool) : List Char → Option (List Char × List Char)
  | c :: cs =>
    if isDigit c then
      let (digits, rest) := readMoreDigits isDigit cs
      some (c :: digits, rest)
    else none
  | [] => none

/-- Exactly so many decimal digits, as a number. -/
def readFixed? (count : Nat) (cs : List Char) : Option (Nat × List Char) :=
  let digits := cs.take count
  if digits.length = count && digits.all Char.isDigit then
    some (digits.foldl (fun n c => 10 * n + (c.toNat - '0'.toNat)) 0, cs.drop count)
  else none

/-- A sign, if there is one. -/
def readSign : List Char → List Char × List Char
  | '+' :: cs => (['+'], cs)
  | '-' :: cs => (['-'], cs)
  | cs => ([], cs)

/-- The digits of a decimal integer: more than one only if the first is not a zero. -/
def readWhole? : List Char → Option (List Char × List Char)
  | '0' :: cs => some (['0'], cs)
  | cs => readDigits? Char.isDigit cs

/-! ### Integers -/

/-- The number that digits make to a base. -/
def valueOf (base : Nat) (digits : List Char) : Nat :=
  digits.foldl (fun n c => base * n + (hexDigit? c).getD 0) 0

/-- Whether a character is a digit to a base of at most sixteen. -/
def isDigitTo (base : Nat) (c : Char) : Bool :=
  match hexDigit? c with
  | some d => d < base
  | none => false

/-- An integer of 64 bits with a sign. -/
def fitting? (n : Int) : Option Toml :=
  if -(Nat.pow 2 63 : Int) ≤ n ∧ n < (Nat.pow 2 63 : Int) then some (.integer n) else none

/-- An integer to a base, behind its two leading characters. -/
def readBased? (base : Nat) (cs : List Char) : Option (Toml × List Char) := do
  let (digits, rest) ← readDigits? (isDigitTo base) cs
  let value ← fitting? (valueOf base digits)
  some (value, rest)

/-- An integer. -/
def readInteger? (cs : List Char) : Option (Toml × List Char) :=
  match cs with
  | '0' :: 'x' :: rest => readBased? 16 rest
  | '0' :: 'o' :: rest => readBased? 8 rest
  | '0' :: 'b' :: rest => readBased? 2 rest
  | _ => do
    let (sign, rest) := readSign cs
    let (digits, rest) ← readWhole? rest
    let n : Int := valueOf 10 digits
    let value ← fitting? (if sign = ['-'] then -n else n)
    some (value, rest)

/-! ### Floats -/

/-- The exponent of a float, with its sign, if there is one. -/
def readExponent? : List Char → Option (Option Int × List Char)
  | c :: cs =>
    if c = 'e' ∨ c = 'E' then do
      let (sign, rest) := readSign cs
      let (digits, rest) ← readDigits? Char.isDigit rest
      let n : Int := valueOf 10 digits
      some (some (if sign = ['-'] then -n else n), rest)
    else some (none, c :: cs)
  | [] => some (none, [])

/-- The digits behind the point, if there is a point. -/
def readFraction? : List Char → Option (Option (List Char) × List Char)
  | '.' :: cs => (readDigits? Char.isDigit cs).map fun (digits, rest) => (some digits, rest)
  | cs => some (none, cs)

/-- Whether `digits` times ten to the `exponent` rounds to a finite double: it lies below the middle
between the largest double and the next power of two. Exponents far beyond any double are settled
by the number of digits alone. -/
def isFinite (digits : List Char) (exponent : Int) : Bool :=
  let n := valueOf 10 digits
  let size : Int := (toString n).length + exponent
  if n = 0 || size < 300 then true
  else if 320 < size then false
  else
    let limit := Nat.pow 2 1024 - Nat.pow 2 970
    if 0 ≤ exponent then n * Nat.pow 10 exponent.toNat < limit
    else n < limit * Nat.pow 10 (-exponent).toNat

/-- An infinity or the number that is none, with or without a sign. -/
def readSpecial? (cs : List Char) : Option (Toml × List Char) :=
  let (sign, rest) := readSign cs
  match expect? "inf".toList rest, expect? "nan".toList rest with
  | some rest, _ => some (.float (String.ofList (sign ++ "inf".toList)), rest)
  | none, some rest => some (.float (String.ofList (sign ++ "nan".toList)), rest)
  | none, none => none

/-- A float with digits: it has a point, an exponent, or both. -/
def readDecimal? (cs : List Char) : Option (Toml × List Char) := do
  let (sign, rest) := readSign cs
  let (whole, rest) ← readWhole? rest
  let (fraction, rest) ← readFraction? rest
  let (exponent, rest) ← readExponent? rest
  if fraction.isNone ∧ exponent.isNone then none
  else
    let digits := fraction.getD []
    let scale := exponent.getD 0 - digits.length
    if sign = ['-'] || isFinite (whole ++ digits) scale then
      some (.float (String.ofList (sign ++ whole ++ '.' :: digits ++ 'e' ::
        (toString (exponent.getD 0)).toList)), rest)
    else none

/-! ### Date-times -/

/-- Whether a year has a leap day. -/
def isLeap (year : Nat) : Bool := year % 4 = 0 && (year % 100 != 0 || year % 400 = 0)

/-- The number of days of a month. -/
def daysOf (year month : Nat) : Nat :=
  if month = 2 then (if isLeap year then 29 else 28)
  else if month = 4 || month = 6 || month = 9 || month = 11 then 30
  else 31

/-- The characters behind a date. -/
def skipDate? (cs : List Char) : Option (List Char) := do
  let (year, rest) ← readFixed? 4 cs
  let rest ← expect? ['-'] rest
  let (month, rest) ← readFixed? 2 rest
  let rest ← expect? ['-'] rest
  let (day, rest) ← readFixed? 2 rest
  if 1 ≤ month && month ≤ 12 && 1 ≤ day && day ≤ daysOf year month then some rest else none

/-- The characters behind fractions of a second, if there are any. -/
def skipSecondFraction (cs : List Char) : List Char :=
  match cs with
  | '.' :: c :: rest => if c.isDigit then rest.dropWhile Char.isDigit else cs
  | _ => cs

/-- The characters behind hours and minutes. -/
def skipMinutes? (cs : List Char) : Option (List Char) := do
  let (hour, rest) ← readFixed? 2 cs
  let rest ← expect? [':'] rest
  let (minute, rest) ← readFixed? 2 rest
  if hour ≤ 23 && minute ≤ 59 then some rest else none

/-- The characters behind a time of day; a minute may have a leap second. -/
def skipTime? (cs : List Char) : Option (List Char) := do
  let rest ← skipMinutes? cs
  let rest ← expect? [':'] rest
  let (second, rest) ← readFixed? 2 rest
  if second ≤ 60 then some (skipSecondFraction rest) else none

/-- The characters behind a distance from universal time, if there is one. -/
def skipOffset (cs : List Char) : List Char :=
  match cs with
  | 'Z' :: rest | 'z' :: rest => rest
  | '+' :: rest | '-' :: rest => (skipMinutes? rest).getD cs
  | _ => cs

/-- The characters behind a time of day that follows a date, if there is one. -/
def skipTimeOfDay (cs : List Char) : List Char :=
  match cs with
  | 'T' :: rest | 't' :: rest | ' ' :: rest =>
    match skipTime? rest with
    | some rest => skipOffset rest
    | none => cs
  | _ => cs

/-- A date, a time of day, or both. -/
def readDateTime? (cs : List Char) : Option (Toml × List Char) :=
  let behind := match skipDate? cs with
    | some rest => some (skipTimeOfDay rest)
    | none => skipTime? cs
  behind.map fun rest => (.dateTime (String.ofList (cs.take (cs.length - rest.length))), rest)

/-- What begins with a sign or a digit. -/
def readNumeric? (cs : List Char) : Option (Toml × List Char) :=
  match readDateTime? cs with
  | some found => some found
  | none =>
    match readSpecial? cs with
    | some found => some found
    | none =>
      match readDecimal? cs with
      | some found => some found
      | none => readInteger? cs

end UndoJournal.Format.Toml
