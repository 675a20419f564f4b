/-
# Characters of names

Names begin with a letter, `$` or `_` and go on with these, digits and marks.
Outside ASCII the Unicode properties decide.

Key definitions: `Text.isNameStart`, `Text.isNamePart`.
-/
import DeadBranch.Text.NameStart
import DeadBranch.Text.NamePart

namespace DeadBranch
namespace Text

/-- May a name begin with it? -/
def isNameStart (c : Char) : Bool :=
  if c.toNat < 128 then c.isAlpha || c == '$' || c == '_' else beginsName c

/-- May it stand in a name after the first character? -/
def isNamePart (c : Char) : Bool :=
  if c.toNat < 128 then c.isAlphanum || c == '$' || c == '_'
  else beginsName c || continuesName c || c == '\u200c' || c == '\u200d'

end Text
end DeadBranch
