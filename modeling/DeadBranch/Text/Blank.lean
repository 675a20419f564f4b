/-
# Blank characters

What is trimmed from a text before it is read as a number: the characters with
the Unicode property `White_Space`, and the byte-order mark.

Key definitions: `Text.isBlank`, `Text.trim`.
-/
import DeadBranch.Text.Ranges

namespace DeadBranch
namespace Text

/-- The blank characters. -/
def blanks : Ranges := [
  (0x9, 0xd), (0x20, 0x20), (0x85, 0x85), (0xa0, 0xa0), (0x1680, 0x1680), (0x2000, 0x200a),
  (0x2028, 0x2029), (0x202f, 0x202f), (0x205f, 0x205f), (0x3000, 0x3000), (0xfeff, 0xfeff)]

/-- Is it a blank character? -/
def isBlank (c : Char) : Bool := blanks.contains c

/-- A text without the blanks at its two ends. -/
def trim (cs : List Char) : List Char :=
  ((cs.dropWhile isBlank).reverse.dropWhile isBlank).reverse

end Text
end DeadBranch
