/-
# Texts as 16-bit units

JavaScript compares texts by the 16-bit units of their UTF-16 form. That order
differs from the order by code points: a character outside the basic plane
begins with a unit of the surrogate range, which is below U+E000 to U+FFFF.

Key definitions: `Text.units`, `Text.compareUnits`.
-/

namespace DeadBranch
namespace Text

/-- The units of one character: itself, or a high and a low surrogate. -/
def unitsOf (c : Char) : List Nat :=
  if c.toNat < 0x10000 then [c.toNat]
  else [0xd800 + (c.toNat - 0x10000) / 0x400, 0xdc00 + (c.toNat - 0x10000) % 0x400]

/-- The units of a text. -/
def units (s : String) : List Nat := s.toList.flatMap unitsOf

/-- The dictionary order of two texts by their units. -/
def compareUnits (s t : String) : Ordering := List.compareLex compare (units s) (units t)

end Text
end DeadBranch
