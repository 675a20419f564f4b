/-
# What can be wrong with a source text

Every way in which a text fails to be a program is a `Cause`; its wording is in
one function, `Cause.message`. A `Fault` is a cause with the byte at which it
shows.

Key definitions: `Cause`, `Cause.message`, `Fault`.
-/
import DeadBranch.Text.Quoted

namespace DeadBranch

/-- A reason why a text is not a program. -/
inductive Cause where
  -- characters and tokens
  | characterUnexpected (c : Char)
  | binaryDigitExpected
  | octalDigitExpected
  | decimalDigitExpected
  | hexDigitExpected
  | exponentExpected
  | separatorMisplaced
  | nameAfterNumber
  | legacyOctal
  | legacyDecimal
  | stringUnterminated
  | templateUnterminated
  | regexUnterminated
  | regexFlagsUnknown
  | regexFlagRepeated (flag : Char)
  | commentUnterminated
  | escapeExpected
  | escapeInvalid (wanted : String)
  | escapeUnclosed
  | escapeAtEnd
  | nameCharInvalid
  | reservedWordEscaped (word : String)
  | legacyComment
  -- what is next
  | expressionExpected
  | unexpectedEnd
  | unexpectedToken (found wanted : String)
  | expected (wanted found : String)
  /-- An expression statement that goes on after its end. -/
  | statementEndExpected
  | semicolonExpected
  | nameExpected
  -- names
  | nameReserved (name : String)
  | awaitAsName
  | evalBound
  | argumentsInField
  | shorthandReserved
  | spaceInPrivateName
  -- operators and assignments
  | targetInvalid
  | targetNotSimple
  | patternInvalid
  | coalescingMixed
  | powerOverUnary
  | deleteName
  | shorthandDefault
  | optionalProperty
  -- parentheses, lists and parameters
  | parensEmpty
  | spreadInParens
  | arrowLineBreak
  | arrowNotAllowed
  | restNotLast
  | restParamNotLast
  | restWithDefault
  | commaAfterRest
  | restNotName
  | trailingComma
  | trailingCommaInImport
  | strictWithPatterns
  -- words of functions
  | newTargetNotAllowed
  | newOverChain
  | superNotAllowed
  | superOptional
  | importNotAllowed
  | templateInChain
  | awaitNotAllowed
  | awaitInParams
  | awaitStar
  | yieldInParams
  -- statements
  | declarationNotAllowed
  | returnNotAllowed
  | breakNotAllowed
  | continueNotAllowed
  | breakLabelUnknown
  | continueLabelUnknown
  | labelRepeated (label : String)
  | labeledFunction
  | labeledGenerator
  | defaultRepeated
  | throwLineBreak
  | patternWithoutValue
  | constWithoutValue
  | loopInitializer
  | loopVariables
  | loopAwait
  | loopOverAsync
  | withNotAllowed
  -- classes and accessors
  | getterParameters
  | setterParameters
  | setterRest
  | constructorRepeated
  | constructorGenerator
  | constructorAsync
  | constructorAccessor
  | constructorField
  | constructorPrivate
  | extendsRepeated
  -- imports and exports
  | importInScript
  | importReserved
  | importText (text : String)
  | exportText
  | exportWithoutSource (name : String)
  | nestedTooDeeply
deriving DecidableEq, Repr

/-- The cause in words. -/
def Cause.message : Cause → String
  | characterUnexpected c => "Unexpected character '" ++ Text.quoteLoneChar c ++ "'"
  | binaryDigitExpected => "Expected a binary digit"
  | octalDigitExpected => "Expected an octal digit"
  | decimalDigitExpected => "Expected a decimal digit"
  | hexDigitExpected => "Expected a hexadecimal digit"
  | exponentExpected => "Expected +, - or number after e"
  | separatorMisplaced => "A numeric separator is only allowed between two digits"
  | nameAfterNumber => "Identifier cannot follow number"
  | legacyOctal => "Legacy octal escape is not permitted in strict mode"
  | legacyDecimal => "Legacy decimal escape is not permitted in strict mode"
  | stringUnterminated => "Unterminated string constant"
  | templateUnterminated => "Unterminated template"
  | regexUnterminated => "Unterminated regexp literal"
  | regexFlagsUnknown => "Unknown regular expression flags."
  | regexFlagRepeated flag => "Duplicated regular expression flag '" ++ flag.toString ++ "'."
  | commentUnterminated => "Unterminated block comment"
  | escapeExpected => "Expected unicode escape"
  | escapeInvalid wanted => "Bad character escape sequence, expected " ++ wanted
  | escapeUnclosed => "Invalid unicode escape"
  | escapeAtEnd => "Invalid string escape"
  | nameCharInvalid => "Invalid character in identifier"
  | reservedWordEscaped word => "Unexpected escape sequence in reserved word: " ++ word
  | legacyComment => "Legacy comments cannot be used in module code"
  | expressionExpected => "Expression expected"
  | unexpectedEnd => "Unexpected eof"
  | unexpectedToken found wanted => "Unexpected token `" ++ found ++ "`. Expected " ++ wanted
  | expected wanted found => "Expected '" ++ wanted ++ "', got '" ++ found ++ "'"
  | statementEndExpected => "Expected ';', '\x7d' or <eof>"
  | semicolonExpected => "Expected a semicolon"
  | nameExpected => "Expected ident"
  | nameReserved name => "`" ++ name ++ "` cannot be used as an identifier in strict mode"
  | awaitAsName => "`await` cannot be used as an identifier in an async context"
  | evalBound =>
    "'eval' and 'arguments' cannot be used as a binding identifier in strict mode"
  | argumentsInField => "'arguments' is only allowed in functions and class methods"
  | shorthandReserved => "Cannot use a reserved word as a shorthand property"
  | spaceInPrivateName => "Unexpected space between # and identifier"
  | targetInvalid =>
    "The left-hand side of an assignment expression must be a variable or a property access."
  | targetNotSimple => "Cannot assign to this"
  | patternInvalid => "Not a pattern"
  | coalescingMixed =>
    "Nullish coalescing operator(??) requires parens when mixing with logical operators"
  | powerOverUnary => "'**' cannot be applied to unary/await expression."
  | deleteName => "`delete` cannot be called on an identifier in strict mode"
  | shorthandDefault => "assignment property is invalid syntax"
  | optionalProperty => "An object member cannot be declared optional"
  | parensEmpty => "Parenthesized expression cannot be empty"
  | spreadInParens => "Parenthesized expression cannot contain spread operator"
  | arrowLineBreak => "Unexpected line break between arrow head and arrow"
  | arrowNotAllowed => "An arrow function is not allowed here"
  | restNotLast => "Rest element must be final element"
  | restParamNotLast => "A rest parameter must be last in a parameter list"
  | restWithDefault => "A rest parameter cannot have an initializer"
  | commaAfterRest => "Trailing comma isn't permitted after a rest element"
  | restNotName => "`...` must be followed by an identifier in declaration contexts"
  | trailingComma => "Trailing comma is not allowed"
  | trailingCommaInImport => "Trailing comma is disallowed inside import(...) arguments"
  | strictWithPatterns =>
    "Illegal 'use strict' directive in function with non-simple parameter list."
  | newTargetNotAllowed =>
    "'new.target' is only allowed in the body of a function declaration, " ++
      "function expression, or class."
  | newOverChain => "Constructor in/after an optional chaining is not allowed."
  | superNotAllowed => "Invalid access to super"
  | superOptional => "Super call cannot be optional"
  | importNotAllowed => "Import is not allowed here"
  | templateInChain => "Tagged template expression is not allowed in an optional chain"
  | awaitNotAllowed => "await isn't allowed in non-async function"
  | awaitInParams => "`await` expressions cannot be used in a parameter initializer"
  | awaitStar =>
    "await* has been removed from the async functions proposal. Use Promise.all() instead."
  | yieldInParams => "'yield' cannot be used as a parameter within generator"
  | declarationNotAllowed => "Declaration is not allowed"
  | returnNotAllowed => "Return statement is not allowed here"
  | breakNotAllowed =>
    "A 'break' statement can only be used within an enclosing iteration or switch statement"
  | continueNotAllowed =>
    "A 'continue' statement can only jump to a label of an enclosing iteration statement"
  | breakLabelUnknown => "A 'break' statement can only jump to a label of an enclosing statement"
  | continueLabelUnknown => "Jump target cannot cross function boundary"
  | labelRepeated label => "Label " ++ label ++ " is already declared"
  | labeledFunction => "Function cannot be labelled in strict mode"
  | labeledGenerator => "Generator or async function cannot be labelled"
  | defaultRepeated => "A switch block cannot have multiple defaults"
  | throwLineBreak => "LineBreak cannot follow 'throw'"
  | patternWithoutValue => "Destructuring bindings require initializers"
  | constWithoutValue => "'const' declarations must be initialized"
  | loopInitializer => "Unexpected initializer in for in/of loop"
  | loopVariables => "Expected one variable binding"
  | loopAwait => "for await syntax is valid only for for-of statement"
  | loopOverAsync => "The left-hand side of a `for...of` statement may not be `async`."
  | withNotAllowed => "With statement are not allowed in strict mode"
  | getterParameters => "A `get` accessor cannot have parameters"
  | setterParameters => "A `set` accessor must have exactly one parameter"
  | setterRest => "Rest pattern is not allowed in setter"
  | constructorRepeated => "A class can only have one constructor"
  | constructorGenerator => "Constructor can't be a generator"
  | constructorAsync => "Constructor can't be an async function"
  | constructorAccessor => "Class constructor can't be an accessor"
  | constructorField => "Classes may not have a non-static field named 'constructor'"
  | constructorPrivate => "Classes can't have a private field named '#constructor'"
  | extendsRepeated => "'extends' clause already seen."
  | importInScript => "'import', and 'export' cannot be used outside of module code"
  | importReserved => "cannot import as reserved word"
  | importText text =>
    "A string literal cannot be used as an imported binding.\n- Did you mean `import \x7b \"" ++
      text ++ "\" as foo \x7d`?"
  | exportText => "A string literal cannot be used as an exported binding without `from`."
  | exportWithoutSource name => "'" ++ name ++ "' cannot be used without 'from' clause"
  | nestedTooDeeply => "Too deeply nested"

/-- A cause, and the byte of the source at which it shows. -/
structure Fault where
  position : Nat
  cause : Cause
deriving DecidableEq, Repr

end DeadBranch
