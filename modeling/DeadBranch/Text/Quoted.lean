/-
# Quoted texts

A text in a message stands between double quotes. Tab, line feed, carriage
return, NUL, the quote and the backslash have short escapes; every other
character without a visible form of its own is written by its number in
braces. A single quote stands for itself.

Key definitions: `Text.quoteChar`, `Text.quote`, `Text.quoteLoneChar`.
-/
import DeadBranch.Text.Unseen

namespace DeadBranch
namespace Text

/-- A character's number in lower-case hexadecimal, without padding. -/
def hex (n : Nat) : String := String.ofList (Nat.toDigits 16 n)

/-- One character as it stands in a quoted text. -/
def quoteChar (c : Char) : String :=
  if c = '\t' then "\\t"
  else if c = '\n' then "\\n"
  else if c = '\r' then "\\r"
  else if c = '\x00' then "\\0"
  else if c = '"' then "\\\""
  else if c = '\\' then "\\\\"
  else if c.toNat < 0x20 || c.toNat = 0x7f || isUnseen c then
    "\\u\x7b" ++ hex c.toNat ++ "\x7d"
  else c.toString

/-- A character as it stands between single quotes. -/
def quoteLoneChar (c : Char) : String :=
  if c = '"' then "\"" else if c = '\'' then "\\'" else quoteChar c

/-- A text between double quotes. -/
def quote (s : String) : String := "\"" ++ String.join (s.toList.map quoteChar) ++ "\""

end Text
end DeadBranch
