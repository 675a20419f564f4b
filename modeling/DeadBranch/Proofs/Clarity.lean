/-
# Programs that convert no misread text

A few texts are read as another number than they convert to (`Value.isMisread`). What is known
at an `if` statement and the value of its test may be wrong if an operator converts one of them,
so programs are singled out where that does not happen: at each `if` statement, neither in the
initial values of the constants that are looked at, each with what the ones before it say, nor in
the test.

Key definitions: `Declarator.isClear`, `clearAmong`, `Viewpoint.isClear`, `Program.isClear`.
-/
import DeadBranch.Bind
import DeadBranch.Proofs.Lexical
import DeadBranch.Proofs.SideEffects

namespace DeadBranch

/-- Is no misread text converted to find the segment for a key? -/
def Key.isClear (known : Associations) : Key → Bool
  | .computed key => key.isClear known
  | _ => true

mutual

/-- Is no misread text converted to find what an initial value says about the parts of `path`? -/
def Expr.isClearInit (known : Associations) (path : Path) : Expr → Bool
  | .object properties => propertiesClear known path properties
  | .array elements => elementsClear known path 0 elements
  | .paren inner => inner.isClearInit known path
  | .assign none _ value => value.isClearInit known path
  | e => e.isClear known

/-- The same of the properties of an object, one after the other. -/
def propertiesClear (known : Associations) (path : Path) : List Property → Bool
  | [] => true
  | .pair key value :: rest =>
    key.isClear known &&
      match key.segment? known with
      | some segment => value.isClearInit known (path.child segment) &&
          propertiesClear (known.learn (factsOf known (path.child segment) value)) path rest
      | none => propertiesClear known path rest
  | .shorthand name .absent :: rest =>
    propertiesClear (known.learn (known.takeOver (.root name) (path.child (.name name)))) path rest
  | _ :: rest => propertiesClear known path rest

/-- The same of the elements of an array from an index on, up to the first spread. -/
def elementsClear (known : Associations) (path : Path) (i : Nat) : List Expr → Bool
  | [] => true
  | element :: rest =>
    element.isSpread || element.isClearInit known (path.child (.index i)) &&
      elementsClear (known.learn (factsOf known (path.child (.index i)) element)) path (i + 1) rest

end

/-- Is no misread text converted to find what the declaration of a constant says? -/
def Declarator.isClear (known : Associations) : Declarator → Bool
  | .mk (.ident name) init => init.isClearInit known (.root name)
  | _ => true

/-- The same of several declarations, each with the earlier ones known. -/
def declaratorsClear (known : Associations) : List Declarator → Bool
  | [] => true
  | d :: rest => d.isClear known && declaratorsClear (bind known d) rest

theorem declaratorsClear_append (more : List Declarator) : ∀ (ds : List Declarator)
    (known : Associations), declaratorsClear known (ds ++ more) =
      (declaratorsClear known ds && declaratorsClear (bindAll known ds) more)
  | [], _ => rfl
  | d :: ds, known => by
    rw [List.cons_append, declaratorsClear, declaratorsClear, declaratorsClear_append more ds,
      Bool.and_assoc]
    rfl

/-- Is no misread text converted to find what is known at a place where the given bindings are
visible, scope by scope from the innermost outwards? -/
def clearAmong (wholeChain : Bool) (visible : List (List Binding)) : Bool :=
  declaratorsClear (.ofShadowed (chainHidden wholeChain true [] visible))
    (chainConstants wholeChain true [] visible)

/-- Is no misread text converted to find what is known at an `if` statement, nor in its test? -/
def Viewpoint.isClear (wholeChain : Bool) (place : Viewpoint) : Bool :=
  clearAmong wholeChain (visibleAmong place.span.start place.scopes) &&
    place.test.isClear (place.known wholeChain)

/-- Are all the `if` statements of a program clear? -/
def Program.isClear (wholeChain : Bool) (p : Program) : Bool :=
  p.places.all (·.isClear wholeChain)

end DeadBranch
