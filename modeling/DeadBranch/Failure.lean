/-
# Failures

Why a text could not be handled. Its place is known if the text was at least
characters.

Key definitions: `Failure`, `Failure.message`, `Failure.location?`.
-/
import DeadBranch.Source.Location
import DeadBranch.Text.Utf8

namespace DeadBranch

/-- A reason for giving up on a text. -/
inductive Failure where
  | parse (location : Location) (detail : String)
  | unexpectedNode (location : Location) (detail : String)
  | utf8 (fault : Utf8.Fault)
  | io (detail : String)
  | generic (detail : String)
deriving DecidableEq, Repr

namespace Failure

/-- The failure in words. -/
def message : Failure → String
  | parse location detail => "Parse error at " ++ location.display ++ ": " ++ detail
  | unexpectedNode location detail => "Unexpected node at " ++ location.display ++ ": " ++ detail
  | utf8 fault => "Input is not valid UTF-8: " ++ fault.message
  | io detail => "IO error: " ++ detail
  | generic detail => detail

/-- Where it happened, if that is known. -/
def location? : Failure → Option Location
  | parse location _ => some location
  | unexpectedNode location _ => some location
  | _ => none

end Failure
end DeadBranch
