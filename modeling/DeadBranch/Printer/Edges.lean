/-
# Where words meet

Two words next to each other need a blank between them, and so do some marks
that would join to another one. These predicates look at the first and at the
last character that an expression or statement is printed with.

Key definitions: `Expr.startsWithWord`, `Expr.endsWithWord`,
`Stmt.startsWithWord`, `joinsOperator`.
-/
import DeadBranch.Tree.Basic

namespace DeadBranch

/-- Does a literal begin and end with a letter or digit? -/
def Literal.isWordLike : Literal → Bool
  | .string _ _ | .regex _ _ => false
  | _ => true

/-- Is the operator a word? -/
def UnaryOp.isWord : UnaryOp → Bool
  | .void | .typeof | .delete => true
  | _ => false

/-- Is the operator a word? -/
def BinaryOp.isWord : BinaryOp → Bool
  | .hasKey | .instanceof => true
  | _ => false

/-- Does a function begin with a word, whatever its parameters are? -/
def ClosureHead.startsWithWord (head : ClosureHead) : Bool :=
  head.boundary != .arrow || head.isAsync

mutual

/-- Is the first character of the printed expression a letter or digit? -/
def Expr.startsWithWord : Expr → Bool
  | .absent => false
  | .literal value => value.isWordLike
  | .ident _ => true
  | .paren _ => false
  | .unary op _ => op.isWord
  | .binary _ left _ => left.startsWithWord
  | .cond test _ _ => test.startsWithWord
  | .assign _ target _ => target.startsWithWord
  | .member object _ => object.startsWithWord
  | .index object _ => object.startsWithWord
  | .array _ | .object _ | .spread _ | .arrayPattern _ | .objectPattern _ => false
  | .withDefault target _ => target.startsWithWord
  | .closure body => body.startsWithWord
  | .classExpr _ _ _ => true
  | .other form parts =>
    match form with
    | .word _ | .new _ | .await | .yield _ => true
    | .privateName _ | .template _ => false
    | .update _ before => !before && firstStartsWithWord parts
    | _ => firstStartsWithWord parts

/-- The same for the first of several. -/
def firstStartsWithWord : List Expr → Bool
  | [] => false
  | e :: _ => e.startsWithWord

/-- The same for the only one. -/
def onlyStartsWithWord : List Expr → Bool
  | [e] => e.startsWithWord
  | _ => false

/-- Is the first character of the printed function taken for a letter? In an arrow
function with one parameter that of the parameter counts, also if it is in
parentheses. -/
def Closure.startsWithWord : Closure → Bool
  | .block head _ params _ => head.startsWithWord || onlyStartsWithWord params
  | .concise head _ params _ => head.startsWithWord || onlyStartsWithWord params

end

/-- Is the last character of the printed expression taken for a letter or digit?
Only closing brackets of a few forms and closing quotes are not. -/
def Expr.endsWithWord : Expr → Bool
  | .literal (.string _ _) => false
  | .paren _ => false
  | .array _ | .object _ | .arrayPattern _ | .objectPattern _ => false
  | .index (.other (.word "super") _) _ => true
  | .index _ _ => false
  | .spread operand => operand.endsWithWord
  | .withDefault _ fallback => fallback.endsWithWord
  | _ => true

/-- Is the first character of the printed statement a letter? -/
def Stmt.startsWithWord : Stmt → Bool
  | .empty | .removed | .block _ => false
  | .expr e => e.startsWithWord
  | _ => true

/-- Does the last variable of a declaration end with a letter or digit? -/
def Declarator.endsWithWord : Declarator → Bool
  | .mk target .absent => target.endsWithWord
  | .mk _ init => init.endsWithWord

/-- Does what a loop starts with end with a letter or digit? -/
def LoopHead.endsWithWord : LoopHead → Bool
  | .decl _ declarators => declarators.getLast?.all Declarator.endsWithWord
  | .expr e => e.endsWithWord

/-- Would an operand join to the sign in front of it? -/
def joinsSign (op : UnaryOp) : Expr → Bool
  | .unary inner _ => inner == op && (op == .plus || op == .minus)
  | .other (.update "++" true) _ => op == .plus
  | .other (.update "--" true) _ => op == .minus
  | _ => false

/-- Would a right operand join to the operator in front of it? That is so for
equal signs, and for what would begin a comment. -/
def joinsOperator (op : BinaryOp) : Expr → Bool
  | .unary .minus _ => op == .sub
  | .unary .plus _ => op == .add
  | .unary .not (.other (.update "--" _) _) => op == .lt || op == .shiftLeft
  | .other (.update "++" true) _ => op == .add
  | .other (.update "--" true) _ => op == .sub
  | .binary _ left _ => joinsOperator op left
  | _ => false

/-- Is the left operand a decrement, and would it make a comment with the
operator after it? -/
def joinsArrow (op : BinaryOp) : Expr → Bool
  | .other (.update "--" false) _ =>
    op == .gt || op == .ge || op == .shiftRight || op == .shiftRightUnsigned
  | _ => false

end DeadBranch
