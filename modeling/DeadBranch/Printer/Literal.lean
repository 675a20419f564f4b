/-
# Printing literals and names

Literals are printed as they were written, unless the print is minified or
restricted to ASCII and they hold other characters. Then a text is quoted anew:
in double quotes, or in single ones if it holds more double than single quotes,
with escapes for control characters and what could be taken for a line end. A
number takes its shortest form.

Key definitions: `quoteText`, `shortNumber`, `shortTemplate`, `printName`,
`printLiteral`.
-/
import DeadBranch.Printer.Layout
import DeadBranch.Token.Basic
import DeadBranch.Tree.Basic
import DeadBranch.Text.Quoted

namespace DeadBranch

/-- Are all characters ASCII? -/
def isAscii (s : String) : Bool := s.toList.all fun c => c.toNat < 128

/-- A character's number in upper-case hexadecimal, at least four digits. -/
def hexUpper (n : Nat) : String :=
  let digits := (Nat.toDigits 16 n).map Char.toUpper
  String.ofList (List.replicate (4 - digits.length) '0' ++ digits)

/-- A character's number in braces, as an escape. -/
def codePointEscape (c : Char) : String :=
  "\\u\x7b" ++ String.ofList ((Nat.toDigits 16 c.toNat).map Char.toUpper) ++ "\x7d"

/-- A character's number as an escape. -/
def numberEscape (c : Char) : String :=
  let n := c.toNat
  if n < 0x10 then "\\x0" ++ Text.hex n
  else if n < 0x100 then "\\x" ++ Text.hex n
  else if n < 0x10000 then "\\u" ++ hexUpper n
  else codePointEscape c

/-- Does a half of a surrogate pair, given by its number, follow a backslash
here? Such a half has no character and stands in a text as its escape. -/
def surrogateFollows (cs : List Char) : Bool :=
  let digits : List Char := match cs with
    | 'u' :: '\x7b' :: rest => rest.take 4
    | 'u' :: rest => rest.take 4
    | _ => []
  match digits with
  | [a, b, c, d] =>
    (a == 'd' || a == 'D') && isHexDigit b && isHexDigit c && isHexDigit d &&
      8 ≤ (digitValue? 16 b).getD 0
  | _ => false

/-- A character outside ASCII, or one that has no form of its own. -/
def wideChar (asciiOnly : Bool) (c : Char) : String :=
  if c = '\u2028' ∨ c = '\u2029' ∨ c = '\ufeff' then numberEscape c
  else if asciiOnly ∧ 0x7f ≤ c.toNat then numberEscape c
  else c.toString

/-- One character of a quoted text, before the given ones. -/
def quotedChar (asciiOnly : Bool) (quote c : Char) (rest : List Char) : String :=
  if c = '\x00' then "\\0"
  else if c = '\x08' then "\\b"
  else if c = '\x0c' then "\\f"
  else if c = '\n' then "\\n"
  else if c = '\r' then "\\r"
  else if c = '\x0b' then "\\v"
  else if c = '\t' then "\t"
  else if c = '\\' then (if surrogateFollows rest then "\\" else "\\\\")
  else if c = quote then "\\" ++ c.toString
  else if c.toNat < 0x20 then numberEscape c
  else wideChar asciiOnly c

/-- The characters of a quoted text. -/
def quotedChars (asciiOnly : Bool) (quote : Char) : List Char → String
  | [] => ""
  | c :: rest => quotedChar asciiOnly quote c rest ++ quotedChars asciiOnly quote rest

/-- A text in the quotes that need fewer escapes. -/
def quoteText (asciiOnly : Bool) (s : String) : String :=
  let cs := s.toList
  let quote := if cs.count '\'' < cs.count '"' then '\'' else '"'
  quote.toString ++ quotedChars asciiOnly quote cs ++ quote.toString

/-- Would the text be taken for the one that turns on strict code if it were
quoted anew? Written with escapes it is not. -/
def isEscapedUseStrict (value raw : String) : Bool :=
  value == "use strict" && raw.toList.contains '\\'

/-- A text as it was written, or quoted anew. -/
def printString (st : Style) (value raw : String) : String :=
  if isEscapedUseStrict value raw then raw
  else if st.minify || (st.asciiOnly && !isAscii raw) then quoteText st.asciiOnly value
  else raw

/-! ### Numbers -/

/-- Digits without the zeros in front. -/
def dropZeros (cs : List Char) : List Char := cs.dropWhile (· == '0')

/-- A number in digits alone with an exponent in place of many zeros. -/
def exponentForm (plain : List Char) : List Char :=
  match plain with
  | '0' :: '.' :: fraction =>
    let significant := dropZeros fraction
    if 3 ≤ fraction.length - significant.length then
      significant ++ "e-".toList ++ Nat.toDigits 10 fraction.length
    else '.' :: fraction
  | plain =>
    let front := (dropZeros plain.reverse).reverse
    let zeros := plain.length - front.length
    if 3 ≤ zeros && !plain.contains '.' then front ++ 'e' :: Nat.toDigits 10 zeros else plain

/-- The hexadecimal form of a whole number up to the 63rd power of two, which
itself is shown as the number below it. -/
def hexForm? (n : Number) : Option (List Char) :=
  match n with
  | .finite false size =>
    if size.units % Number.one = 0 ∧ size.units / Number.one ≤ twoTo 63 then
      some ('0' :: 'x' :: Nat.toDigits 16 (Nat.min (size.units / Number.one) (twoTo 63 - 1)))
    else none
  | _ => none

/-- The shorter of two texts; the first if they are as long. -/
def shorter (a b : List Char) : List Char := if b.length < a.length then b else a

/-- The shortest form of a number: in digits, in hexadecimal, or with an
exponent. -/
def shortNumber (n : Number) : String :=
  let plain := n.plainText.toList
  let hex := ((hexForm? n).map (shorter plain)).getD plain
  String.ofList (shorter hex (exponentForm plain))

/-- A number as it is printed. One that is too large is named. -/
def printNumber (st : Style) (value : Number) (raw : String) : String :=
  if value.isInfinite then "Infinity" else if st.minify then shortNumber value else raw

/-- Would a point after the printed number be taken for a part of it? -/
def endsInWhole (st : Style) (value : Number) (raw : String) : Bool :=
  let text := (printNumber st value raw).toList
  if value.isInfinite then false
  else if st.minify then !text.any fun c => c == '.' || c == 'e'
  else
    let digits := text.filter (· != '_')
    digits.all isDigit && !(digits.head? == some '0' && 1 < digits.length)

/-- A whole number with the suffix `n`. -/
def printBigint (st : Style) (value : Nat) (raw : String) : String :=
  if st.minify then
    if value < tenTo 16 then String.ofList (Nat.toDigits 10 value) ++ "n"
    else "0x" ++ Text.hex value ++ "n"
  else raw

/-! ### Templates and names -/

/-- The character with the number zero, before the given ones. -/
def templateNul (rest : List Char) : String :=
  if rest.head?.any (fun c => '1' ≤ c && c ≤ '9') then "\\x00" else "\\0"

/-- A character that was given by number in a template, before the given
ones. -/
def templateNumber (n : Nat) (rest : List Char) : String :=
  if n = 0 then templateNul rest
  else if 0x20 ≤ n ∧ n < 0x7f then (Char.ofNat n).toString
  else numberEscape (Char.ofNat n)

/-- A character of a template, before the given ones. -/
def templateChar (asciiOnly : Bool) (c : Char) (rest : List Char) : String :=
  if c = '\x00' then templateNul rest
  else if c = '\x08' then "\\b"
  else if c = '\x0c' then "\\f"
  else if c = '\x0b' then "\\v"
  else if 0x7f ≤ c.toNat ∧ c.toNat ≤ 0xff then "\\x" ++ Text.hex c.toNat
  else if c = '\u2028' ∨ c = '\u2029' ∨ c = '\ufeff' then numberEscape c
  else if asciiOnly ∧ 0x7f < c.toNat then codePointEscape c
  else c.toString

/-- The characters whose escapes in a template stay as they are. -/
def keptEscapes : List Char :=
  ['\\', 'r', 'v', 'b', 'f', 'u', '\r', '\n', '\x60', '0', '1', '2', '3', '4', '5', '6', '7']

/-- A part of a template with fewer escapes: line feeds, tabs and characters of
two digits stand for themselves, and a backslash that changes nothing is left
out. The one of an opening brace is kept if a dollar sign, no matter how far in
front, has not kept another; `afterDollar` says so. -/
def shortTemplate (asciiOnly : Bool) (afterDollar : Bool) : Nat → List Char → String
  | 0, _ => ""
  | _, [] => ""
  | fuel + 1, '\\' :: 'n' :: rest => "\n" ++ shortTemplate asciiOnly afterDollar fuel rest
  | fuel + 1, '\\' :: 't' :: rest => "\t" ++ shortTemplate asciiOnly afterDollar fuel rest
  | fuel + 1, '\\' :: 'x' :: rest =>
    let digits := (rest.take 2).takeWhile isHexDigit
    let n := digits.foldl (fun n c => n * 16 + (digitValue? 16 c).getD 0) 0
    let rest := rest.drop digits.length
    templateNumber n rest ++ (String.ofList (rest.take 1)) ++
      shortTemplate asciiOnly afterDollar fuel (rest.drop 1)
  | fuel + 1, '\\' :: c :: rest =>
    if c = '\u2028' ∨ c = '\u2029' then shortTemplate asciiOnly afterDollar fuel rest
    else if c = '\x7b' ∧ afterDollar then "\\\x7b" ++ shortTemplate asciiOnly false fuel rest
    else if keptEscapes.contains c || (c == '$' && rest.head? == some '\x7b') then
      "\\" ++ c.toString ++ shortTemplate asciiOnly afterDollar fuel rest
    else
      templateChar asciiOnly c rest ++ shortTemplate asciiOnly (afterDollar || c == '$') fuel rest
  | fuel + 1, c :: rest =>
    templateChar asciiOnly c rest ++ shortTemplate asciiOnly (afterDollar || c == '$') fuel rest

/-- A part of a template without a tag. -/
def printTemplatePart (st : Style) (raw : String) : String :=
  if st.minify || (st.asciiOnly && !isAscii raw) then
    shortTemplate st.asciiOnly false raw.length raw.toList
  else raw

/-- The printed parts of a template, and between them the given pieces in
braces. -/
def printTemplate : List String → List Pieces → Pieces
  | [], _ => []
  | text :: texts, inserted =>
    say text ++
      match inserted with
      | [] => []
      | first :: rest => say "$\x7b" ++ first ++ say "\x7d" ++ printTemplate texts rest

/-- A name. Outside ASCII its characters are escaped as those of a text are. -/
def printName (st : Style) (name : String) : String :=
  if st.asciiOnly then String.join (name.toList.map (wideChar true)) else name

/-- A name as the key of a property. One with an escape that names cannot hold
stands in quotes. -/
def printKeyName (st : Style) (name : String) : String :=
  let needsQuotes := name.toList.any fun c => 0x7f ≤ c.toNat && c.toNat ≤ 0xff
  if st.asciiOnly && needsQuotes then "\"" ++ printName st name ++ "\"" else printName st name

/-- A literal. -/
def printLiteral (st : Style) : Literal → String
  | .number value raw => printNumber st value raw
  | .string value raw => printString st value raw
  | .bool value => if value then "true" else "false"
  | .null => "null"
  | .bigint value raw => printBigint st value raw
  | .regex pattern flags => "/" ++ pattern ++ "/" ++ flags

end DeadBranch
