/-
# Numbers as JavaScript writes and reads them

Writing takes the shortest digits and lays them out: without an exponent while
the point is at most 21 digits to the right of the first digit or fewer than
six zeros to its left, otherwise with one digit before the point and a signed
exponent. Reading is what `Number` does to a text: blanks at the ends do not
count, the empty text is zero, `0x`, `0o` and `0b` open digits of another
radix, and a text of any other form is a NaN.

Key definitions: `Decimal.layout`, `Number.toText`, `Number.ofText`.
-/
import DeadBranch.Number.Decimal
import DeadBranch.Text.Blank

namespace DeadBranch

/-- The digits of a decimal, laid out with zeros at their end, a point among them, zeros in
front or an exponent. -/
def Decimal.layout (d : Decimal) : List Char :=
  let digits := Nat.toDigits 10 d.digits
  let count := digits.length
  let point := d.exponent + count
  let zeros (n : Int) := List.replicate n.toNat '0'
  if count ≤ point ∧ point ≤ 21 then digits ++ zeros (point - count)
  else if 0 < point ∧ point ≤ 21 then digits.take point.toNat ++ '.' :: digits.drop point.toNat
  else if -6 < point ∧ point ≤ 0 then '0' :: '.' :: zeros (-point) ++ digits
  else
    let exponent := point - 1
    let sign := if exponent < 0 then '-' else '+'
    let tail := 'e' :: sign :: Nat.toDigits 10 exponent.natAbs
    if count = 1 then digits ++ tail else digits.take 1 ++ '.' :: digits.drop 1 ++ tail

/-- The text of a positive size: its shortest digits, laid out. -/
def Magnitude.toText (size : Magnitude) : String := String.ofList size.shortest.layout

/-- A decimal digit. -/
def isDigit (c : Char) : Bool := '0' ≤ c && c ≤ '9'

/-- The value of a digit in a radix up to sixteen, in either case. -/
def digitValue? (radix : Nat) (c : Char) : Option Nat :=
  let value :=
    if isDigit c then some (c.toNat - '0'.toNat)
    else if 'a' ≤ c && c ≤ 'f' then some (c.toNat - 'a'.toNat + 10)
    else if 'A' ≤ c && c ≤ 'F' then some (c.toNat - 'A'.toNat + 10)
    else none
  value.filter (· < radix)

/-- Is it a hexadecimal digit? -/
def isHexDigit (c : Char) : Bool := (digitValue? 16 c).isSome

/-- The number that a row of decimal digits stands for; zero for none. -/
def decimalValue (digits : List Char) : Nat :=
  digits.foldl (fun n c => n * 10 + (c.toNat - '0'.toNat)) 0

namespace Number

/-- A number as a text. Both zeros are `0`. -/
def toText : Number → String
  | nan => "NaN"
  | infinity negative => if negative then "-Infinity" else "Infinity"
  | finite negative size =>
    if size.units = 0 then "0"
    else if negative then "-" ++ size.toText
    else size.toText

/-- Digits of a radix, read from the left and rounded after each one; a NaN if
there is none or one is no digit. -/
def ofRadixDigits (radix : Nat) (digits : List Char) : Number :=
  if digits.isEmpty then nan
  else
    (digits.foldlM (fun (n : Number) c =>
      (digitValue? radix c).map fun d => (n.mul (ofNat radix)).add (ofNat d)) zero).getD nan

/-- A sign in front, if there is one. -/
def splitSign : List Char → Bool × List Char
  | '-' :: cs => (true, cs)
  | '+' :: cs => (false, cs)
  | cs => (false, cs)

/-- The exponent part of a decimal: nothing, or `e` and a signed row of
digits. -/
def exponentPart? : List Char → Option Int
  | [] => some 0
  | c :: cs =>
    let (negative, digits) := splitSign cs
    if (c = 'e' ∨ c = 'E') ∧ digits ≠ [] ∧ digits.all isDigit then
      some (if negative then -decimalValue digits else decimalValue digits)
    else none

/-- A signed decimal with an optional fraction and exponent, and a digit on at
least one side of the point. -/
def ofDecimalText? (cs : List Char) : Option Number :=
  let (negative, cs) := splitSign cs
  let whole := cs.takeWhile isDigit
  let (fraction, rest) :=
    match cs.dropWhile isDigit with
    | '.' :: cs => (cs.takeWhile isDigit, cs.dropWhile isDigit)
    | cs => ([], cs)
  if whole.isEmpty && fraction.isEmpty then none
  else (exponentPart? rest).map fun exponent =>
    Decimal.toNumber negative ⟨decimalValue (whole ++ fraction), exponent - fraction.length⟩

/-- The number that a text stands for. -/
def ofText (s : String) : Number :=
  match Text.trim s.toList with
  | [] => zero
  | '0' :: 'x' :: digits => ofRadixDigits 16 digits
  | '0' :: 'X' :: digits => ofRadixDigits 16 digits
  | '0' :: 'o' :: digits => ofRadixDigits 8 digits
  | '0' :: 'O' :: digits => ofRadixDigits 8 digits
  | '0' :: 'b' :: digits => ofRadixDigits 2 digits
  | '0' :: 'B' :: digits => ofRadixDigits 2 digits
  | cs =>
    let (negative, bare) := splitSign cs
    if bare = "Infinity".toList then infinity negative else (ofDecimalText? cs).getD nan

end Number
end DeadBranch
