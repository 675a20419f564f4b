/-
# TOML texts, numbers and dates

Each reader takes what it reads off the front of the characters and leaves the
rest. A number or a date is a run of letters, digits and signs of the right
form; a date may be followed by one blank and a time.

Key definitions: `Toml.readText`, `Toml.isNumber`, `Toml.isMoment`,
`Toml.readScalar`.
-/
import DeadBranch.Number.Text
import DeadBranch.Toml.Basic

namespace DeadBranch
namespace Toml

/-- A blank within a line. -/
def isGap (c : Char) : Bool := c == ' ' || c == '\t'

/-- A character that may stand in a text or a comment. -/
def isPlain (c : Char) : Bool := c == '\t' || (' ' ≤ c && c != '\x7f')

/-! ### Texts -/

/-- The character that a backslash and a letter stand for. -/
def shortEscape? : Char → Option Char
  | 'b' => some '\x08'
  | 't' => some '\t'
  | 'n' => some '\n'
  | 'f' => some '\x0c'
  | 'r' => some '\r'
  | '"' => some '"'
  | '\\' => some '\\'
  | _ => none

/-- The character with a number in hexadecimal. -/
def charOfHex? (digits : List Char) : Option Char := do
  let n ← digits.foldlM (fun n c => (digitValue? 16 c).map (n * 16 + ·)) 0
  if n.isValidChar then some (.ofNat n) else none

/-- A character in front of a text that was read, if it is one. -/
def consTo (c : Option Char) (text : Option (List Char × List Char)) :
    Option (List Char × List Char) := do
  let c ← c
  let (s, rest) ← text
  return (c :: s, rest)

/-- A text in double quotes, from behind the first one. -/
def doubleQuoted : List Char → Option (List Char × List Char)
  | [] => none
  | '"' :: rest => some ([], rest)
  | '\\' :: 'u' :: a :: b :: c :: d :: rest => consTo (charOfHex? [a, b, c, d]) (doubleQuoted rest)
  | '\\' :: 'U' :: a :: b :: c :: d :: e :: f :: g :: h :: rest =>
    consTo (charOfHex? [a, b, c, d, e, f, g, h]) (doubleQuoted rest)
  | '\\' :: c :: rest => consTo (shortEscape? c) (doubleQuoted rest)
  | c :: rest => if isPlain c then consTo (some c) (doubleQuoted rest) else none

/-- A text in single quotes, from behind the first one. -/
def singleQuoted : List Char → Option (List Char × List Char)
  | [] => none
  | '\'' :: rest => some ([], rest)
  | c :: rest => if isPlain c then consTo (some c) (singleQuoted rest) else none

/-- Is the rest of the line blank? -/
def endsLine : List Char → Bool
  | '\n' :: _ => true
  | '\r' :: '\n' :: _ => true
  | c :: rest => isGap c && endsLine rest
  | [] => false

/-- A text in three double quotes, from behind them. A backslash at the end of
a line takes away all blanks and line ends that follow, which is what
`skipping` says. -/
def longDoubleQuoted (skipping : Bool) : List Char → Option (List Char × List Char)
  | '"' :: '"' :: '"' :: '"' :: '"' :: rest => some (['"', '"'], rest)
  | '"' :: '"' :: '"' :: '"' :: rest => some (['"'], rest)
  | '"' :: '"' :: '"' :: rest => some ([], rest)
  | '\r' :: '\n' :: rest =>
    if skipping then longDoubleQuoted true rest
    else consTo (some '\n') (longDoubleQuoted false rest)
  | '\n' :: rest =>
    if skipping then longDoubleQuoted true rest
    else consTo (some '\n') (longDoubleQuoted false rest)
  | '\\' :: 'u' :: a :: b :: c :: d :: rest =>
    consTo (charOfHex? [a, b, c, d]) (longDoubleQuoted false rest)
  | '\\' :: 'U' :: a :: b :: c :: d :: e :: f :: g :: h :: rest =>
    consTo (charOfHex? [a, b, c, d, e, f, g, h]) (longDoubleQuoted false rest)
  | '\\' :: c :: rest =>
    if endsLine (c :: rest) then longDoubleQuoted true (c :: rest)
    else consTo (shortEscape? c) (longDoubleQuoted false rest)
  | c :: rest =>
    if skipping && isGap c then longDoubleQuoted true rest
    else if isPlain c then consTo (some c) (longDoubleQuoted false rest)
    else none
  | [] => none

/-- A text in three single quotes, from behind them. -/
def longSingleQuoted : List Char → Option (List Char × List Char)
  | '\'' :: '\'' :: '\'' :: '\'' :: '\'' :: rest => some (['\'', '\''], rest)
  | '\'' :: '\'' :: '\'' :: '\'' :: rest => some (['\''], rest)
  | '\'' :: '\'' :: '\'' :: rest => some ([], rest)
  | '\r' :: '\n' :: rest => consTo (some '\n') (longSingleQuoted rest)
  | '\n' :: rest => consTo (some '\n') (longSingleQuoted rest)
  | c :: rest => if isPlain c then consTo (some c) (longSingleQuoted rest) else none
  | [] => none

/-- The characters without a line end in front. -/
def dropLineEnd : List Char → List Char
  | '\n' :: rest => rest
  | '\r' :: '\n' :: rest => rest
  | cs => cs

/-- A text in quotes on one line. -/
def readQuoted : List Char → Option (List Char × List Char)
  | '"' :: rest => doubleQuoted rest
  | '\'' :: rest => singleQuoted rest
  | _ => none

/-- A text in quotes of any kind. -/
def readText : List Char → Option (List Char × List Char)
  | '"' :: '"' :: '"' :: rest => longDoubleQuoted false (dropLineEnd rest)
  | '\'' :: '\'' :: '\'' :: rest => longSingleQuoted (dropLineEnd rest)
  | cs => readQuoted cs

/-! ### Numbers -/

/-- Digits of a radix, single underscores between them. -/
def isDigitRow (radix : Nat) : List Char → Bool
  | [] => false
  | [c] => (digitValue? radix c).isSome
  | c :: '_' :: rest => (digitValue? radix c).isSome && isDigitRow radix rest
  | c :: rest => (digitValue? radix c).isSome && isDigitRow radix rest

/-- The digits of a row. -/
def digitsOf (cs : List Char) : List Char := cs.filter (· != '_')

/-- A row of decimal digits without a zero in front of others. -/
def isWhole (cs : List Char) : Bool := isDigitRow 10 cs && (cs.head? != some '0' || cs.length == 1)

/-- The value of a row of digits. -/
def rowValue (radix : Nat) (cs : List Char) : Nat :=
  (digitsOf cs).foldl (fun n c => n * radix + (digitValue? radix c).getD 0) 0

/-- A whole number that fits in 64 bits with a sign. -/
def isInteger (cs : List Char) : Bool :=
  let isRow (radix : Nat) (row : List Char) := isDigitRow radix row && rowValue radix row < twoTo 63
  match cs with
  | '0' :: 'x' :: row => isRow 16 row
  | '0' :: 'o' :: row => isRow 8 row
  | '0' :: 'b' :: row => isRow 2 row
  | cs =>
    let (negative, row) := Number.splitSign cs
    isWhole row && rowValue 10 row < twoTo 63 + (if negative then 1 else 0)

/-- An exponent, from behind its `e`. -/
def isExponent (cs : List Char) : Bool := isDigitRow 10 (Number.splitSign cs).2

/-- The parts of a text before and behind the first character of a kind. -/
def splitAtFirst (p : Char → Bool) (cs : List Char) : List Char × Option (List Char) :=
  (cs.takeWhile (!p ·), (cs.dropWhile (!p ·)).tail?)

/-- A number with a fraction or an exponent that is no larger than the largest
there is; one below the smallest is let through. -/
def isFloat (cs : List Char) : Bool :=
  let (_, body) := Number.splitSign cs
  let (mantissa, exponent) := splitAtFirst (fun c => c == 'e' || c == 'E') body
  let (whole, fraction) := splitAtFirst (· == '.') mantissa
  body = "inf".toList || body = "nan".toList ||
    (isWhole whole && fraction.all (isDigitRow 10) && exponent.all isExponent &&
      (fraction.isSome || exponent.isSome) &&
      Number.ofDecimalText? (digitsOf cs) != some (.infinity false))

/-- A number of any form. -/
def isNumber (cs : List Char) : Bool := isInteger cs || isFloat cs

/-! ### Dates and times -/

/-- The value of two digits, if it lies in a range. -/
def twoDigits? (low high : Nat) : List Char → Option Nat
  | [a, b] =>
    if isDigit a && isDigit b && low ≤ decimalValue [a, b] && decimalValue [a, b] ≤ high then
      some (decimalValue [a, b])
    else none
  | _ => none

/-- The number of days in a month. -/
def daysIn (year month : Nat) : Nat :=
  if month = 2 then if year % 4 = 0 ∧ (year % 100 ≠ 0 ∨ year % 400 = 0) then 29 else 28
  else if month = 4 ∨ month = 6 ∨ month = 9 ∨ month = 11 then 30
  else 31

/-- A day of the calendar. -/
def isDay : List Char → Bool
  | [a, b, c, d, '-', e, f, '-', g, h] =>
    let year := decimalValue [a, b, c, d]
    [a, b, c, d].all isDigit && (twoDigits? 1 12 [e, f]).any fun month =>
      (twoDigits? 1 (daysIn year month) [g, h]).isSome
  | _ => false

/-- A time of day, to the second or finer. -/
def isTime : List Char → Bool
  | a :: b :: ':' :: c :: d :: ':' :: e :: f :: fraction =>
    (twoDigits? 0 23 [a, b]).isSome && (twoDigits? 0 59 [c, d]).isSome &&
      (twoDigits? 0 60 [e, f]).isSome &&
      match fraction with
      | [] => true
      | '.' :: digits => !digits.isEmpty && digits.all isDigit
      | _ => false
  | _ => false

/-- An offset from universal time. -/
def isOffset : List Char → Bool
  | [c] => c == 'Z' || c == 'z'
  | [sign, a, b, ':', c, d] =>
    (sign == '+' || sign == '-') && (twoDigits? 0 23 [a, b]).isSome &&
      (twoDigits? 0 59 [c, d]).isSome
  | _ => false

/-- A time of day with or without an offset. -/
def isZonedTime (cs : List Char) : Bool :=
  let (time, offset) := cs.span fun c => isDigit c || c == ':' || c == '.'
  isTime time && (offset.isEmpty || isOffset offset)

/-- A day, a time, or both with a `T` between them. -/
def isMoment (cs : List Char) : Bool :=
  let (day, time) := splitAtFirst (fun c => c == 'T' || c == 't') cs
  isTime cs || (isDay day && time.all isZonedTime)

/-! ### All of them -/

/-- A character of a number, a date or a bare word. -/
def isWordChar (c : Char) : Bool :=
  c.isAlphanum || c == '+' || c == '-' || c == '_' || c == '.' || c == ':'

/-- The time behind a day and a blank, taken off. -/
def dropTime : List Char → List Char
  | ' ' :: rest =>
    if isZonedTime (rest.takeWhile isWordChar) then rest.dropWhile isWordChar else ' ' :: rest
  | cs => cs

/-- A value that holds no others. -/
def readScalar (cs : List Char) : Option (Toml × List Char) :=
  let word := cs.takeWhile isWordChar
  let rest := cs.dropWhile isWordChar
  if word.isEmpty then (readText cs).map fun (s, rest) => (.text (String.ofList s), rest)
  else if word = "true".toList then some (.bool true, rest)
  else if word = "false".toList then some (.bool false, rest)
  else if isNumber word then some (.number, rest)
  else if isDay word then some (.date, dropTime rest)
  else if isMoment word then some (.date, rest)
  else none

end Toml
end DeadBranch
