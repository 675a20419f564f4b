/-
# Paths to parts of a constant

A path is the name of a binding followed by the keys that lead from its value
to a part of it. A key that is an array index in its usual spelling is kept as
the index, so that `a[0]`, `a["0"]` and a property `0` name the same part. An array
index fits in 32 bits; here it is a number without a bound, and a key is an index
only below `Segment.indexLimit`.

Key definitions: `Segment`, `Segment.ofKey`, `Path`, `Path.suffix?`.
-/
import DeadBranch.Value.Basic

namespace DeadBranch

/-- One key of a path. -/
inductive Segment where
  | name (key : String)
  /-- An array index; nothing cuts it to 32 bits. -/
  | index (i : Nat)
deriving DecidableEq, Repr

namespace Segment

/-- The first number that is no array index. -/
def indexLimit : Nat := twoTo 32 - 1

/-- The segment for a key: an index if the key is the usual decimal spelling
of one. -/
def ofKey (key : String) : Segment :=
  let n := decimalValue key.toList
  if key = String.ofList (Nat.toDigits 10 n) ∧ n < indexLimit then index n else name key

/-- The segment that an access with a computed value uses. -/
def ofValue (v : Value) : Segment := ofKey v.toText

/-- How a segment is shown after what it is a part of. -/
def display : Segment → String
  | name key => "." ++ key
  | index i => s!"[{i}]"

end Segment

/-- A binding and the keys below it. -/
structure Path where
  binding : String
  segments : List Segment
deriving DecidableEq, Repr

namespace Path

/-- The path to the whole value of a binding. -/
def root (binding : String) : Path := ⟨binding, []⟩

/-- The path one key further. -/
def child (p : Path) (segment : Segment) : Path := ⟨p.binding, p.segments ++ [segment]⟩

/-- The path several keys further. -/
def join (p : Path) (suffix : List Segment) : Path := ⟨p.binding, p.segments ++ suffix⟩

/-- The keys by which `p` goes on from `base`, if it starts with `base`. -/
def suffix? (p base : Path) : Option (List Segment) :=
  if p.binding = base.binding ∧ base.segments <+: p.segments then
    some (p.segments.drop base.segments.length)
  else none

/-- How a path is shown. -/
def display (p : Path) : String := p.binding ++ String.join (p.segments.map Segment.display)

end Path
end DeadBranch
