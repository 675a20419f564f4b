/-
# Numeric literals

Decimal numbers with an optional fraction and exponent, `0x`, `0o` and `0b`
numbers, legacy octals, and whole numbers with the suffix `n`. Digits may be
set apart by `_`; one that does not stand between two digits is complained
about, at the start of its row of digits, and otherwise does not count.

Key definitions: `Scanned`, `digitRun`, `misplacedSeparators`, `scanNumber`.
-/
import DeadBranch.Token.Basic
import DeadBranch.Text.Name

namespace DeadBranch

/-- A token with the text it was read from and the text after it. -/
structure Scanned where
  token : Token
  raw : List Char
  rest : List Char
  complaints : List Complaint := []

/-- The digits of a radix at the front, with separators among them. -/
def digitRun (radix : Nat) (cs : List Char) : List Char × List Char :=
  cs.span fun c => c == '_' || (digitValue? radix c).isSome

/-- The characters that must not be next to a separator. -/
def separatorNeighbours (radix : Nat) : List Char :=
  if radix = 16 then ['.', 'X', '_', 'x'] else ['.', 'B', 'E', 'O', '_', 'b', 'e', 'o']

/-- How many separators of a run of digits are out of place: those that no digit
follows, and those next to a character that must not be there. The run comes
right after `before`. -/
def misplacedSeparators (radix : Nat) (before : Char) : List Char → Nat
  | [] => 0
  | c :: cs =>
    let isFollowed := cs.head?.any fun next => (digitValue? radix next).isSome
    let isMisplaced := c == '_' && (!isFollowed || (separatorNeighbours radix).contains before)
    (if isMisplaced then 1 else 0) + misplacedSeparators radix c cs

/-- The number that digits of a radix stand for; separators do not count. -/
def radixValue (radix : Nat) (digits : List Char) : Nat :=
  digits.foldl (fun n c => match digitValue? radix c with
    | some d => n * radix + d
    | none => n) 0

/-- What is to be said about the separators of a run of digits at `start`, right
after `before`. -/
def separatorComplaints (radix start : Nat) (before : Char) (run : List Char) : List Complaint :=
  List.replicate (misplacedSeparators radix before run) ⟨.everywhere, start, .separatorMisplaced⟩

/-- A name must not follow a number directly. -/
def Scanned.checkEnd (start : Nat) (s : Scanned) : Scanned :=
  match s.rest with
  | c :: _ =>
    if Text.isNameStart c then
      { s with token := .bad ⟨start + s.raw.length, .nameAfterNumber⟩ }
    else s
  | [] => s

/-- A number in another radix, after its two-character opening. -/
def scanRadixNumber (start radix : Nat) (opening : List Char) (missing : Cause) (cs : List Char) :
    Scanned :=
  let (run, rest) := digitRun radix cs
  let complaints := separatorComplaints radix (start + 2) (opening.getLastD ' ') run
  let value := radixValue radix run
  if run.all (· == '_') then ⟨.bad ⟨start + 2, missing⟩, opening ++ run, rest, complaints⟩
  else
    match rest with
    | 'n' :: rest =>
      let raw := opening ++ run ++ ['n']
      ⟨.bigint value (String.ofList raw), raw, rest, complaints⟩
    | rest =>
      let raw := opening ++ run
      Scanned.checkEnd start ⟨.number (.ofNat value) (String.ofList raw), raw, rest, complaints⟩

/-- The sign at the front of an exponent, and the rest. -/
def exponentSign : List Char → List Char × List Char
  | '+' :: cs => (['+'], cs)
  | '-' :: cs => (['-'], cs)
  | cs => ([], cs)

/-- The end of a decimal number, from its exponent on. Its text so far is
`front`, which stands for `value`. -/
def scanExponent (start : Nat) (front : List Char) (value : Decimal)
    (complaints : List Complaint) (cs : List Char) : Scanned :=
  let finish (raw : List Char) (value : Decimal) (complaints : List Complaint) (rest : List Char) :=
    Scanned.checkEnd start
      ⟨.number (value.toNumber false) (String.ofList raw), raw, rest, complaints⟩
  match cs with
  | [] => finish front value complaints []
  | e :: tail =>
    if e = 'e' ∨ e = 'E' then
      let position := start + front.length + 1
      if tail.isEmpty then ⟨.bad ⟨position, .exponentExpected⟩, front ++ [e], [], complaints⟩
      else
        let (sign, tail) := exponentSign tail
        let (run, rest) := digitRun 10 tail
        let complaints := complaints ++
          separatorComplaints 10 (position + sign.length) (sign.headD e) run
        let raw := front ++ e :: sign ++ run
        if run.all (· == '_') then
          ⟨.bad ⟨position + sign.length, .decimalDigitExpected⟩, raw, rest, complaints⟩
        else
          let size : Int := radixValue 10 run
          let exponent := value.exponent + if sign = ['-'] then -size else size
          finish raw ⟨value.digits, exponent⟩ complaints rest
    else finish front value complaints (e :: tail)

/-- The part of a decimal number after its whole part. -/
def scanFraction (start : Nat) (whole : List Char) (complaints : List Complaint) (cs : List Char) :
    Scanned :=
  match cs with
  | '.' :: cs =>
    let (run, rest) := digitRun 10 cs
    let complaints := complaints ++ separatorComplaints 10 (start + whole.length + 1) '.' run
    let places := (run.filter (· != '_')).length
    scanExponent start (whole ++ '.' :: run) ⟨radixValue 10 (whole ++ run), -places⟩ complaints rest
  | cs => scanExponent start whole ⟨radixValue 10 whole, 0⟩ complaints cs

/-- A number. A zero in front of further digits makes them octal, or decimal if
one of them is no octal digit; a suffix `n` makes any whole number decimal. -/
def scanNumber (start : Nat) (cs : List Char) : Scanned :=
  match cs with
  | '0' :: 'x' :: cs => scanRadixNumber start 16 ['0', 'x'] .hexDigitExpected cs
  | '0' :: 'X' :: cs => scanRadixNumber start 16 ['0', 'X'] .hexDigitExpected cs
  | '0' :: 'o' :: cs => scanRadixNumber start 8 ['0', 'o'] .octalDigitExpected cs
  | '0' :: 'O' :: cs => scanRadixNumber start 8 ['0', 'O'] .octalDigitExpected cs
  | '0' :: 'b' :: cs => scanRadixNumber start 2 ['0', 'b'] .binaryDigitExpected cs
  | '0' :: 'B' :: cs => scanRadixNumber start 2 ['0', 'B'] .binaryDigitExpected cs
  | cs =>
    let (whole, rest) := digitRun 10 cs
    let complaints := separatorComplaints 10 start ' ' whole
    let legacy := whole.head? == some '0' && 1 < whole.length
    match rest with
    | 'n' :: rest =>
      let raw := whole ++ ['n']
      ⟨.bigint (radixValue 10 whole) (String.ofList raw), raw, rest, complaints⟩
    | rest =>
      if legacy && whole.all (fun c => c == '_' || (digitValue? 8 c).isSome) then
        Scanned.checkEnd start ⟨.number (.ofNat (radixValue 8 whole)) (String.ofList whole), whole,
          rest, complaints ++ [⟨.strictCode, start, .legacyOctal⟩]⟩
      else if legacy then
        scanFraction start whole (complaints ++ [⟨.strictCode, start, .legacyDecimal⟩]) rest
      else scanFraction start whole complaints rest

end DeadBranch
