/-
# Partial evaluation

`evaluate` gives the value of an expression as far as it can be told from what
is known, and `none` if it cannot. An operand that is unknown makes an operation
unknown, even where the other operand would decide; only the branch that a
choice takes has to be known. An array counts as true and its elements are
never looked at.

`staticPath` tells which part of which binding an expression reads.

Key definitions: `Literal.value?`, `evaluate`, `staticPath`.
-/
import DeadBranch.Associations
import DeadBranch.Tree.Basic

namespace DeadBranch

/-- The value of a literal that is a primitive. -/
def Literal.value? : Literal → Option Value
  | number value _ => some (.number value)
  | string value _ => some (.string value)
  | bool value => some (.bool value)
  | null => some .null
  | bigint _ _ | regex _ _ => none

/-- The names with a fixed value, unless a binding takes them. -/
def globalValue? (name : String) : Option Value :=
  if name = "undefined" then some .undefined
  else if name = "NaN" then some (.number .nan)
  else if name = "Infinity" then some (.number (.infinity false))
  else none

mutual

/-- The value of an expression, as far as it is known. -/
def evaluate (known : Associations) : Expr → Option Value
  | .literal value => value.value?
  | .ident name =>
    if known.isShadowed name then none
    else (known.lookup? (.root name)).or (globalValue? name)
  | .member object name => do
    known.lookup? ((← staticPath known object).child (.name name))
  | .index object key => do
    let path ← staticPath known object
    known.lookup? (path.child (.ofValue (← evaluate known key)))
  | .paren inner => evaluate known inner
  | .unary op operand => do op.apply (← evaluate known operand)
  | .binary op left right => do op.apply (← evaluate known left) (← evaluate known right)
  | .cond test consequent alternate => do
    if (← evaluate known test).truthy then evaluate known consequent else evaluate known alternate
  | .assign none _ value => evaluate known value
  | .array _ => some (.bool true)
  | _ => none

/-- The path that an expression reads, if it is a name or a member of one. -/
def staticPath (known : Associations) : Expr → Option Path
  | .ident name => if known.isShadowed name then none else some (.root name)
  | .member object name => do return (← staticPath known object).child (.name name)
  | .index object key => do
    let path ← staticPath known object
    return path.child (.ofValue (← evaluate known key))
  | .paren inner => staticPath known inner
  | _ => none

end

end DeadBranch
