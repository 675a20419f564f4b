/-
# Paths on a disk

A path is a text; slashes cut it into pieces. Its components are what is left
of the pieces when those that change nothing are dropped: empty ones, and `.`
anywhere but in front. Paths are ordered by their components.

Key definitions: `DiskPath.pieces`, `DiskPath.components`, `DiskPath.join`,
`DiskPath.fileName?`, `DiskPath.extension?`, `DiskPath.compare`.
-/

namespace DeadBranch

/-- A part of a path with a meaning of its own. -/
inductive Component where
  /-- The slash in front. -/
  | root
  /-- A `.` in front. -/
  | current
  /-- A `..` anywhere. -/
  | parent
  | name (text : String)
deriving DecidableEq, Repr

namespace Component

/-- The place of a kind of component in the order of paths. -/
def rank : Component → Nat
  | root => 0
  | current => 1
  | parent => 2
  | name _ => 3

/-- The order of components: by kind, names by their characters. -/
def compare : Component → Component → Ordering
  | name s, name t => Ord.compare s t
  | a, b => Ord.compare a.rank b.rank

end Component

namespace DiskPath

/-- The texts between the slashes of a text. -/
def piecesOf : List Char → List (List Char)
  | [] => [[]]
  | '/' :: cs => [] :: piecesOf cs
  | c :: cs =>
    match piecesOf cs with
    | [] => [[c]]
    | p :: ps => (c :: p) :: ps

/-- The texts between the slashes of a path. -/
def pieces (path : String) : List String := (piecesOf path.toList).map String.ofList

/-- Does a path start at the root? -/
def isAbsolute (path : String) : Bool := path.toList.head? == some '/'

/-- What a piece means behind the first place. -/
def componentOf (piece : String) : Option Component :=
  if piece = "" ∨ piece = "." then none
  else if piece = ".." then some .parent
  else some (.name piece)

/-- The components of a path. -/
def components (path : String) : List Component :=
  let rest := (pieces path).filterMap componentOf
  if isAbsolute path then .root :: rest
  else if (pieces path).head? = some "." then .current :: rest
  else rest

/-- The order of lists by their first difference. -/
def compareLists {α : Type} (compare : α → α → Ordering) : List α → List α → Ordering
  | [], [] => .eq
  | [], _ :: _ => .lt
  | _ :: _, [] => .gt
  | a :: as, b :: bs => (compare a b).then (compareLists compare as bs)

/-- The order of paths. -/
def compare (p q : String) : Ordering :=
  compareLists Component.compare (components p) (components q)

/-- The last component, if it is a name. -/
def fileName? (path : String) : Option String :=
  match (components path).getLast? with
  | some (.name text) => some text
  | _ => none

/-- What follows the last dot of a name, if something stands before that
dot. -/
def extensionOf (name : String) : Option String :=
  let reversed := name.toList.reverse
  match reversed.dropWhile (· != '.') with
  | _ :: _ :: _ => some (String.ofList (reversed.takeWhile (· != '.')).reverse)
  | _ => none

/-- The extension of the file that a path names. -/
def extension? (path : String) : Option String := (fileName? path).bind extensionOf

/-- A path continued by another one; a path from the root stands alone. -/
def join (path tail : String) : String :=
  if isAbsolute tail ∨ path = "" then tail
  else if path.toList.getLast? = some '/' then path ++ tail
  else path ++ "/" ++ tail

/-- A path continued by names. -/
def joinAll (path : String) (names : List String) : String := names.foldl join path

/-- Names as a path of their own. -/
def ofNames (names : List String) : String := "/".intercalate names

end DiskPath
end DeadBranch
