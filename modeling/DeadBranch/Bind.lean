/-
# What a constant is known to hold

From the value that initialises a constant, `factsOf` derives what is known
about the parts of the constant: literals and operations on known values are
stated, and what refers to something known takes over all that is known about
that. Facts that were just found count for the rest of the same value.

Key definitions: `Fact`, `factsOf`, `Declarator.facts`, `bind`.
-/
import DeadBranch.Evaluate

namespace DeadBranch

/-- Something found out about a part of a constant. -/
structure Fact where
  path : Path
  value : Value
  /-- Was it taken over from another part? -/
  copied : Bool

/-- Records facts, in order. -/
def Associations.learn (known : Associations) (facts : List Fact) : Associations :=
  known.recordAll (facts.map fun f => (f.path, f.value))

@[simp] theorem Associations.entries_learn (known : Associations) (facts : List Fact) :
    (known.learn facts).entries = known.entries ++ facts.map fun f => (f.path, f.value) := by
  simp [learn]

@[simp] theorem Associations.shadowed_learn (known : Associations) (facts : List Fact) :
    (known.learn facts).shadowed = known.shadowed := by simp [learn]

theorem Associations.learn_append (known : Associations) (facts more : List Fact) :
    known.learn (facts ++ more) = (known.learn facts).learn more := by
  simp [learn, recordAll_append]

/-- All that is known below `source`, taken over for `target`. -/
def Associations.takeOver (known : Associations) (source target : Path) : List Fact :=
  (known.copies source target).map fun (path, value) => ⟨path, value, true⟩

/-- The segment for the key of a property, if it is known. -/
def Key.segment? (known : Associations) : Key → Option Segment
  | .ident name => some (.name name)
  | .string value _ => some (.ofKey value)
  | .number value _ => some (.ofValue (.number value))
  | .bigint value _ => some (.ofKey (String.ofList (Nat.toDigits 10 value)))
  | .computed key => (evaluate known key).map .ofValue
  | .privateName _ => none

/-- Is it `...` with an operand? -/
def Expr.isSpread : Expr → Bool
  | .spread _ => true
  | _ => false

/-- A known value as a fact. -/
def stated (path : Path) (value : Option Value) : List Fact :=
  (value.map fun v => Fact.mk path v false).toList

mutual

/-- What an initial value says about the parts of `path`. -/
def factsOf (known : Associations) (path : Path) : Expr → List Fact
  | .literal value => stated path value.value?
  | .object properties => factsOfProperties known path properties
  | .array elements => factsOfElements known path 0 elements
  | .member object name =>
    match staticPath known (.member object name) with
    | some source => known.takeOver source path
    | none => []
  | .index object key =>
    match staticPath known (.index object key) with
    | some source => known.takeOver source path
    | none => []
  | .ident name => known.takeOver (.root name) path
  | .paren inner => factsOf known path inner
  | .assign none _ value => factsOf known path value
  | .unary op operand => stated path (evaluate known (.unary op operand))
  | .binary op left right => stated path (evaluate known (.binary op left right))
  | .cond test consequent alternate =>
    stated path (evaluate known (.cond test consequent alternate))
  | _ => []

/-- What the properties of an object say, one after the other. -/
def factsOfProperties (known : Associations) (path : Path) : List Property → List Fact
  | [] => []
  | .pair key value :: rest =>
    let facts := match key.segment? known with
      | some segment => factsOf known (path.child segment) value
      | none => []
    facts ++ factsOfProperties (known.learn facts) path rest
  | .shorthand name .absent :: rest =>
    let facts := known.takeOver (.root name) (path.child (.name name))
    facts ++ factsOfProperties (known.learn facts) path rest
  | _ :: rest => factsOfProperties known path rest

/-- What the elements of an array say from an index on, up to the first
spread. The index counts on without a bound; cut to 32 bits it would be the same
below `2 ^ 32`, far beyond what a text holds. -/
def factsOfElements (known : Associations) (path : Path) (i : Nat) : List Expr → List Fact
  | [] => []
  | element :: rest =>
    if element.isSpread then []
    else
      let facts := factsOf known (path.child (.index i)) element
      facts ++ factsOfElements (known.learn facts) path (i + 1) rest

end

/-- A shorthand with a fallback says nothing. -/
theorem factsOfProperties_fallback (known : Associations) (path : Path) (name : String) {e : Expr}
    (h : e ≠ .absent) (rest : List Property) :
    factsOfProperties known path (.shorthand name e :: rest) =
      factsOfProperties known path rest := by
  cases e <;> simp_all [factsOfProperties]

/-- What the declaration of a constant says. -/
def Declarator.facts (known : Associations) : Declarator → List Fact
  | .mk (.ident name) init => factsOf known (.root name) init
  | _ => []

/-- What is known after the declaration of a constant. -/
def bind (known : Associations) (d : Declarator) : Associations := known.learn (d.facts known)

/-- The facts of several declarations, each with the earlier ones known. -/
def bindAllFacts (known : Associations) : List Declarator → List Fact
  | [] => []
  | d :: rest => d.facts known ++ bindAllFacts (bind known d) rest

/-- What is known after several declarations. -/
def bindAll (known : Associations) (declarators : List Declarator) : Associations :=
  declarators.foldl bind known

end DeadBranch
