/-
# Tokens

A token is what the grammar sees of the source: a word, a mark, a literal, a
piece of a template, or the end. A piece of text that is no token is one too,
with the fault it is reported by if the grammar comes to it. Some tokens are
read without trouble and still not allowed everywhere; what is to be said about
them then is kept as complaints.

Key definitions: `Token`, `keywords`, `Complaint`, `Reading`.
-/
import DeadBranch.Source.Fault
import DeadBranch.Number.Text

namespace DeadBranch

/-- A token. Keywords are words. -/
inductive Token where
  | eof
  | word (text : String)
  /-- A name that begins with an escape. It has no meaning of its own, whatever it
  spells. -/
  | name (text : String)
  | mark (text : String)
  | number (value : Number) (raw : String)
  | bigint (value : Nat) (raw : String)
  | string (value raw : String)
  | regex (pattern flags : String)
  /-- What is written in a template up to the next mark of it, and what is wrong
  with its escapes. -/
  | template (raw : String) (fault : Option Fault)
  | bad (fault : Fault)
deriving DecidableEq

/-- The words with a meaning of their own, apart from the three that are
values. -/
def keywords : List String := [
  "await", "break", "case", "catch", "class", "const", "continue", "debugger", "default", "delete",
  "do", "else", "export", "extends", "finally", "for", "function", "if", "import", "in",
  "instanceof", "let", "new", "return", "super", "switch", "this", "throw", "try", "typeof", "var",
  "void", "while", "with", "yield"]

/-- The words that are values. -/
def valueWords : List String := ["null", "true", "false"]

/-- The code in which a complaint counts. -/
inductive Concern where
  | everywhere | strictCode | moduleCode
deriving DecidableEq, Repr

/-- Something to be said about a token that was read all the same. -/
structure Complaint where
  concern : Concern
  fault : Fault
deriving DecidableEq, Repr

/-- A token in its place. -/
structure Reading where
  token : Token
  /-- The bytes it takes. -/
  start : Nat
  stop : Nat
  /-- Is there a line break before it? The first token counts as after one. -/
  afterBreak : Bool

/-- A size in digits alone, without an exponent. -/
def Magnitude.plainText (size : Magnitude) : String :=
  let shortest := size.shortest
  let digits := Nat.toDigits 10 shortest.digits
  let point := shortest.exponent + digits.length
  String.ofList <|
    if 0 ≤ shortest.exponent then digits ++ List.replicate shortest.exponent.toNat '0'
    else if 0 < point then digits.take point.toNat ++ '.' :: digits.drop point.toNat
    else '0' :: '.' :: List.replicate point.natAbs '0' ++ digits

/-- A number in digits alone, as messages show it. -/
def Number.plainText : Number → String
  | finite negative size =>
    (if negative then "-" else "") ++ (if size.units = 0 then "0" else size.plainText)
  | infinity negative => if negative then "-inf" else "inf"
  | n => n.toText

namespace Token

/-- The token as messages show it. -/
def describe : Token → String
  | eof => "<eof>"
  | word text => text
  | name text => text
  | mark text => text
  | number value raw => "numeric literal (" ++ value.plainText ++ ", " ++ raw ++ ")"
  | bigint value raw => s!"bigint literal ({value}, {raw})"
  | string value raw => "string literal (" ++ value ++ ", " ++ raw ++ ")"
  | regex pattern flags => "regexp literal (" ++ pattern ++ ", " ++ flags ++ ")"
  | template raw _ => "template token (" ++ raw ++ ")"
  | bad fault => "<lexing error: " ++ fault.cause.message ++ ">"

/-- Is it a word without a meaning of its own? -/
def isPlainWord : Token → Bool
  | word text => !keywords.contains text && !valueWords.contains text
  | name _ => true
  | _ => false

/-- Is it a word? -/
def isWord : Token → Bool
  | word _ => true
  | _ => false

end Token
end DeadBranch
