/-
# String literals, words and escapes

A string literal is read up to its closing quote, and its escapes are resolved
on the way. A line that ends first is a fault, but what was read counts. Half a
surrogate pair has no character: it stays in the text as the escape it was
written as. A name may hold escapes too; a reserved word may not, but one that
begins with an escape is not taken for a reserved word.

Key definitions: `Escape`, `unicodeEscape`, `readEscape`, `scanString`,
`scanWord`.
-/
import DeadBranch.Token.Number
import DeadBranch.Source.Location

namespace DeadBranch

/-- The characters at which a source line ends. -/
def isLineEnd (c : Char) : Bool := c == '\n' || c == '\r' || c == '\u2028' || c == '\u2029'

/-! ### Escapes -/

/-- What an escape stands for. -/
structure Escape where
  chars : List Char
  /-- What was read of it after the backslash. -/
  taken : List Char
  /-- Is it an octal one? -/
  isOctal : Bool := false

/-- An escape that is none, with what was read of it after the backslash. -/
structure EscapeFault where
  cause : Cause
  taken : List Char

/-- The text of a character number; `written` is the escape that gives it. -/
def escapedChar (n : Nat) (written : List Char) : List Char :=
  if n.isValidChar then [Char.ofNat n] else '\\' :: written

/-- The escape after a backslash and a `u`: four digits, or any number of them
in braces. -/
def unicodeEscape (cs : List Char) : Except EscapeFault Escape :=
  match cs with
  | '\x7b' :: cs =>
    let digits := cs.takeWhile isHexDigit
    let taken := 'u' :: '\x7b' :: digits
    let n := radixValue 16 digits
    if digits.isEmpty || twoTo 32 ≤ n then .error ⟨.escapeInvalid "1-6 hex characters", taken⟩
    else if 0x10ffff < n then
      .error ⟨.escapeInvalid "1-6 hex characters in the range 0 to 10FFFF.", taken⟩
    else if (cs.dropWhile isHexDigit).head? == some '\x7d' then
      let taken := taken ++ ['\x7d']
      .ok { chars := escapedChar n taken, taken }
    else .error ⟨.escapeUnclosed, taken⟩
  | cs =>
    let digits := (cs.take 4).takeWhile isHexDigit
    let taken := 'u' :: digits
    if digits.length < 4 then .error ⟨.escapeInvalid "4 hex characters", taken⟩
    else .ok { chars := escapedChar (radixValue 16 digits) taken, taken }

/-- The escapes of one letter. -/
def letterEscape? : Char → Option Char
  | 'n' => some '\n'
  | 'r' => some '\r'
  | 't' => some '\t'
  | 'b' => some '\x08'
  | 'v' => some '\x0b'
  | 'f' => some '\x0c'
  | _ => none

/-- The octal digits of an escape: up to three, below 256. -/
def octalDigits (cs : List Char) : List Char :=
  let digits := (cs.take 3).takeWhile fun c => (digitValue? 8 c).isSome
  if radixValue 8 digits < 256 then digits else digits.take 2

/-- The escape after a backslash. In a template an octal one is a fault. -/
def readEscape (inTemplate : Bool) : List Char → Except EscapeFault Escape
  | [] => .error ⟨.escapeAtEnd, []⟩
  | '\r' :: '\n' :: _ => .ok { chars := [], taken := ['\r', '\n'] }
  | 'x' :: cs =>
    let digits := (cs.take 2).takeWhile isHexDigit
    let taken := 'x' :: digits
    if digits.length < 2 then .error ⟨.escapeInvalid "2 hex characters", taken⟩
    else .ok { chars := [Char.ofNat (radixValue 16 digits)], taken }
  | 'u' :: cs => unicodeEscape cs
  | c :: cs =>
    match letterEscape? c with
    | some d => .ok { chars := [d], taken := [c] }
    | none =>
      if isLineEnd c then .ok { chars := [], taken := [c] }
      else if (digitValue? 8 c).isSome then
        if c == '0' && !(cs.head?.any fun d => (digitValue? 8 d).isSome) then
          .ok { chars := ['\x00'], taken := ['0'] }
        else if inTemplate then .error ⟨.legacyOctal, [c]⟩
        else
          let digits := octalDigits (c :: cs)
          .ok { chars := [Char.ofNat (radixValue 8 digits)], taken := digits, isOctal := true }
      else .ok { chars := [c], taken := [c] }

/-! ### String literals -/

/-- How a string literal ends. -/
inductive StringEnd where
  | closed
  | unterminated
  | bad (fault : Fault)

/-- A string literal from some place on. -/
structure StringTail where
  value : List Char := []
  raw : List Char := []
  rest : List Char
  complaints : List Complaint := []
  ending : StringEnd

/-- One more character as it is written, and what it adds to the text. -/
def StringTail.push (c : Char) (chars : List Char) (t : StringTail) : StringTail :=
  { t with value := chars ++ t.value, raw := c :: t.raw }

/-- Reads a string literal from a byte position on. The first `skip` characters
belong to an escape that is resolved. -/
def stringTail (quote : Char) (position skip : Nat) : List Char → StringTail
  | [] => { rest := [], ending := .unterminated }
  | c :: cs =>
    if 0 < skip then (stringTail quote (position + c.utf8Size) (skip - 1) cs).push c []
    else if c == quote then { raw := [c], rest := cs, ending := .closed }
    else if c == '\\' then
      match readEscape false cs with
      | .error e =>
        { raw := c :: e.taken, rest := cs.drop e.taken.length, ending := .bad ⟨position, e.cause⟩ }
      | .ok e =>
        let tail := (stringTail quote (position + 1) e.taken.length cs).push c e.chars
        if e.isOctal then
          { tail with complaints := ⟨.strictCode, position, .legacyOctal⟩ :: tail.complaints }
        else tail
    else if c == '\n' || c == '\r' then { rest := c :: cs, ending := .unterminated }
    else (stringTail quote (position + c.utf8Size) 0 cs).push c [c]

/-- A string literal, after its opening quote. -/
def scanString (start : Nat) (quote : Char) (cs : List Char) : Scanned :=
  let tail := stringTail quote (start + 1) 0 cs
  let raw := quote :: tail.raw
  let token := Token.string (String.ofList tail.value) (String.ofList raw)
  match tail.ending with
  | .closed => ⟨token, raw, tail.rest, tail.complaints⟩
  | .unterminated =>
    ⟨token, raw, tail.rest, tail.complaints ++ [⟨.everywhere, start, .stringUnterminated⟩]⟩
  | .bad fault => ⟨.bad fault, raw, tail.rest, tail.complaints⟩

/-! ### Words -/

/-- A name with escapes from some place on. -/
structure NameTail where
  name : List Char := []
  raw : List Char := []
  rest : List Char
  complaints : List Complaint := []
  fault : Option Fault := none

/-- One more character as it is written, and what it adds to the name. -/
def NameTail.push (c : Char) (chars : List Char) (t : NameTail) : NameTail :=
  { t with name := chars ++ t.name, raw := c :: t.raw }

/-- Reads a name, or what is left of it, from a byte position on. The first
`skip` characters belong to an escape that is resolved. -/
def nameTail (isFirst : Bool) (position skip : Nat) : List Char → NameTail
  | [] => { rest := [] }
  | c :: cs =>
    if 0 < skip then (nameTail false (position + c.utf8Size) (skip - 1) cs).push c []
    else if c == '\\' then
      if cs.head? != some 'u' then
        { raw := [c], rest := cs, fault := some ⟨position, .escapeExpected⟩ }
      else
        match unicodeEscape (cs.drop 1) with
        | .error e =>
          { raw := c :: e.taken, rest := cs.drop e.taken.length
            fault := some ⟨position + 1 + byteLength e.taken, e.cause⟩ }
        | .ok e =>
          let tail := (nameTail false (position + 1) e.taken.length cs).push c e.chars
          let isValid := if isFirst then Text.isNameStart else Text.isNamePart
          if e.chars.head?.any isValid then tail
          else
            { tail with complaints := ⟨.everywhere, position, .nameCharInvalid⟩ :: tail.complaints }
    else if Text.isNamePart c then (nameTail false (position + c.utf8Size) 0 cs).push c [c]
    else { rest := c :: cs }

/-- A word. A reserved one must not have escapes in it, but a word that begins
with one is a mere name. -/
def scanWord (isReserved : String → Bool) (start : Nat) (cs : List Char) : Scanned :=
  let (name, rest) := cs.span Text.isNamePart
  if rest.head? == some '\\' then
    let tail := nameTail true start 0 cs
    let name := String.ofList tail.name
    let token := match tail.fault with
      | some fault => Token.bad fault
      | none =>
        if cs.head? == some '\\' then .name name
        else if isReserved name then .bad ⟨start, .reservedWordEscaped name⟩
        else .word name
    ⟨token, tail.raw, tail.rest, tail.complaints⟩
  else ⟨.word (String.ofList name), name, rest, []⟩

end DeadBranch
