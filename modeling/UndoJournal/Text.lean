/-!
# Blanks, lines and natural numbers of a text

What readers do with a text they do with its list of characters, so that what they keep and drop can
be read off.

* A character is **blank** if it has the Unicode property `White_Space`.
* A **line** ends at a line feed, and a carriage return right in front of that line feed belongs to
  the line end and not to the line. A text that ends with a line feed has no empty line behind it.
* A **natural number** may have one plus sign in front and any number of leading zeros; what does
  not fit into 64 bits is refused.
-/

namespace UndoJournal.Text

/-! ### Blanks -/

/-- The ranges of code points with the property `White_Space`, ends included. -/
def blankRanges : List (Nat × Nat) :=
  [(0x0009, 0x000D), (0x0020, 0x0020), (0x0085, 0x0085), (0x00A0, 0x00A0), (0x1680, 0x1680),
    (0x2000, 0x200A), (0x2028, 0x2029), (0x202F, 0x202F), (0x205F, 0x205F), (0x3000, 0x3000)]

/-- Whether a character is blank. -/
def isBlank (c : Char) : Bool :=
  blankRanges.any fun (first, last) => first ≤ c.toNat && c.toNat ≤ last

/-- A text without the blanks at its beginning. -/
def trimStart (cs : List Char) : List Char := cs.dropWhile isBlank

/-- A text without the blanks at its end. -/
def trimEnd (cs : List Char) : List Char := (trimStart cs.reverse).reverse

/-- A text without the blanks at its two ends. -/
def trim (cs : List Char) : List Char := trimEnd (trimStart cs)

/-- What stands before and behind the first blank of a text; the blank itself is dropped. -/
def splitAtBlank? : List Char → Option (List Char × List Char)
  | [] => none
  | c :: cs => if isBlank c then some ([], cs) else (splitAtBlank? cs).map fun (a, b) => (c :: a, b)

/-! ### Lines -/

/-- Drop one carriage return at the end. -/
def dropReturn (cs : List Char) : List Char :=
  if cs.getLast? = some '\r' then cs.dropLast else cs

/-- The lines of a text, where `held` is what the current line has so far, last character first. -/
def linesFrom (held : List Char) : List Char → List (List Char)
  | [] => if held.isEmpty then [] else [held.reverse]
  | c :: cs =>
    if c = '\n' then
      dropReturn held.reverse :: linesFrom [] cs
    else
      linesFrom (c :: held) cs

/-- The lines of a text. -/
def lines (cs : List Char) : List (List Char) := linesFrom [] cs

/-- Text put together from lines, with a line feed between any two. -/
def joinLines (ls : List String) : String := String.intercalate "\n" ls

/-! ### Natural numbers -/

/-- The largest number that reading accepts. -/
def largestNatural : Nat := Nat.pow 2 64 - 1

/-- The value of a decimal digit. -/
def digit? (c : Char) : Option Nat :=
  if '0' ≤ c ∧ c ≤ '9' then some (c.toNat - '0'.toNat) else none

/-- The number that digits make when they stand behind the number `n`. -/
def digitsFrom? (n : Nat) : List Char → Option Nat
  | [] => some n
  | c :: cs => (digit? c).bind fun d => digitsFrom? (10 * n + d) cs

/-- The number that a non-empty list of digits makes. -/
def digits? (cs : List Char) : Option Nat :=
  if cs.isEmpty then none else digitsFrom? 0 cs

/-- The number a text stands for. -/
def natural? (cs : List Char) : Option Nat :=
  let body := match cs with
    | '+' :: rest => rest
    | _ => cs
  (digits? body).filter (· ≤ largestNatural)

/-- The text of a number, with blanks in front up to a width. -/
def padded (width n : Nat) : String :=
  let digits := toString n
  String.ofList (List.replicate (width - digits.length) ' ') ++ digits

end UndoJournal.Text
