/-
# Tokens of the module grammar

The lexical grammar of ECMAScript modules.  A slash is always read as the
division operator and a backquote as a punctuator: whether a regular expression
or the text of a template starts there depends on the grammar, so the reader asks
for those by themselves (`Script.Lexer`).

Words are kept as texts.  Reserved words are words too; which of them may stand
as an identifier depends on the context (`Script.Reader`).
-/

namespace ElementBuild
namespace Script

/-- Binary operators, in the order of their texts' appearance in the grammar. -/
inductive BinaryOp where
  | eq | ne | strictEq | strictNe | lt | le | gt | ge
  | shiftLeft | shiftRight | shiftRightZero
  | add | sub | mul | div | mod | exp
  | bitOr | bitXor | bitAnd | or | and | coalesce
  deriving DecidableEq, Repr

namespace BinaryOp

/-- How an operator is written. -/
def text : BinaryOp → String
  | eq => "==" | ne => "!=" | strictEq => "===" | strictNe => "!=="
  | lt => "<" | le => "<=" | gt => ">" | ge => ">="
  | shiftLeft => "<<" | shiftRight => ">>" | shiftRightZero => ">>>"
  | add => "+" | sub => "-" | mul => "*" | div => "/" | mod => "%" | exp => "**"
  | bitOr => "|" | bitXor => "^" | bitAnd => "&" | or => "||" | and => "&&" | coalesce => "??"

/-- How tightly an operator binds. -/
def precedence : BinaryOp → Nat
  | coalesce => 1
  | or => 1
  | and => 2
  | bitOr => 3
  | bitXor => 4
  | bitAnd => 5
  | eq | ne | strictEq | strictNe => 6
  | lt | le | gt | ge => 7
  | shiftLeft | shiftRight | shiftRightZero => 8
  | add | sub => 9
  | mul | div | mod => 10
  | exp => 11

end BinaryOp

/-- Punctuators. -/
inductive Punctuator where
  | braceOpen | braceClose | parenOpen | parenClose | bracketOpen | bracketClose
  | semicolon | comma | dot | ellipsis | colon | question | questionDot | arrow
  | atSign | hash | backquote | increment | decrement | bang | tilde
  | binary (op : BinaryOp)
  /-- An assignment, plain or through an operator. -/
  | assign (op : Option BinaryOp)
  deriving DecidableEq, Repr

/-- How a punctuator is written. -/
def Punctuator.text : Punctuator → String
  | braceOpen => "\x7b" | braceClose => "\x7d"
  | parenOpen => "(" | parenClose => ")"
  | bracketOpen => "[" | bracketClose => "]"
  | semicolon => ";" | comma => "," | dot => "." | ellipsis => "..."
  | colon => ":" | question => "?" | questionDot => "?." | arrow => "=>"
  | atSign => "@" | hash => "#" | backquote => "`"
  | increment => "++" | decrement => "--" | bang => "!" | tilde => "~"
  | binary op => op.text
  | assign none => "="
  | assign (some op) => op.text ++ "="

/-- What can be wrong with a module's text. -/
inductive Fault where
  | unexpectedEnd
  | unterminatedComment
  | unterminatedString
  | unterminatedTemplate
  | unterminatedRegex
  | unexpectedCharacter (c : Char)
  | invalidStringEscape
  | invalidUnicodeEscape
  | badEscape (expected : String)
  | legacyOctalEscape
  | legacyDecimal
  | identifierAfterNumber
  | misplacedSeparator
  | expectedDigit (radix : Nat)
  | legacyComment
  | unknownRegexFlags
  | duplicatedRegexFlag (flag : Char)
  /-- A token that the grammar does not allow here, and what it would allow. -/
  | unexpected (got expected : String)
  /-- The one token that would be allowed, and the one that was found. -/
  | expected (wanted got : String)
  | expectedStatementEnd
  | expectedSemicolon
  | expectedExpression
  | expectedIdentifier
  | trailingComma
  | trailingCommaInImport
  | commaAfterRest
  | restNotLast
  | restInitializer
  | spreadInParentheses
  | emptyParentheses
  | notPattern
  | invalidAssignmentTarget
  | assignmentProperty
  | reservedShorthand
  | reservedInStrict (word : String)
  | reservedAwait
  | reservedBinding
  | reservedInImport
  | importBindingIsString (value : String)
  | exportBindingIsString
  | nestedModuleItem
  | importNotAllowed
  | superNotAllowed
  | superCallNotAllowed
  | superOptionalCall
  | superPrivateName
  | spaceAfterHash
  | newTargetNotAllowed
  | awaitInFunction
  | awaitInParameter
  | awaitStar
  | yieldInParameter
  | returnNotAllowed
  | constWithoutInitializer
  | patternWithoutInitializer
  | declarationNotAllowed
  | lineBreakBeforeArrow
  | arrowNotAllowed
  | lineBreakAfterThrow
  | unaryBeforePower
  | mixedCoalescing
  | templateInChain
  | chainAfterNew
  | withInStrict
  | deleteName
  | breakOutside
  | breakLabel
  | continueOutside
  | continueLabel
  | duplicateLabel
  | labelledFunction
  | severalDefaults
  | severalVariablesInHead
  | initializerInHead
  | awaitWithoutOf
  | asyncBeforeOf
  | secondExtends
  | secondConstructor
  | accessorConstructor
  | generatorConstructor
  | asyncConstructor
  | fieldNamedConstructor
  | getterParameter
  | setterParameter
  | argumentsInField
  | usingDisabled
  deriving DecidableEq, Repr

namespace Fault

/-- The wording of a fault. -/
def message : Fault → String
  | unexpectedEnd => "Unexpected eof"
  | unterminatedComment => "Unterminated block comment"
  | unterminatedString => "Unterminated string constant"
  | unterminatedTemplate => "Unterminated template"
  | unterminatedRegex => "Unterminated regexp literal"
  | unexpectedCharacter c => "Unexpected character '" ++ String.singleton c ++ "'"
  | invalidStringEscape => "Invalid string escape"
  | invalidUnicodeEscape => "Invalid unicode escape"
  | badEscape wanted => "Bad character escape sequence, expected " ++ wanted
  | legacyOctalEscape => "Legacy octal escape is not permitted in strict mode"
  | legacyDecimal => "Legacy decimal escape is not permitted in strict mode"
  | identifierAfterNumber => "Identifier cannot follow number"
  | misplacedSeparator => "A numeric separator is only allowed between two digits"
  | expectedDigit radix => "A digit of radix " ++ toString radix ++ " is expected"
  | legacyComment => "Legacy comments cannot be used in module code"
  | unknownRegexFlags => "Unknown regular expression flags."
  | duplicatedRegexFlag flag => "Duplicated regular expression flag '" ++ String.singleton flag ++ "'."
  | unexpected got wanted => "Unexpected token `" ++ got ++ "`. Expected " ++ wanted
  | expected wanted got => "Expected '" ++ wanted ++ "', got '" ++ got ++ "'"
  | expectedStatementEnd => "Expected ';', '\x7d' or <eof>"
  | expectedSemicolon => "Expected a semicolon"
  | expectedExpression => "Expression expected"
  | expectedIdentifier => "Expected ident"
  | trailingComma => "Trailing comma is not allowed"
  | trailingCommaInImport => "Trailing comma is disallowed inside import(...) arguments"
  | commaAfterRest => "Trailing comma isn't permitted after a rest element"
  | restNotLast => "Rest element must be final element"
  | restInitializer => "A rest parameter cannot have an initializer"
  | spreadInParentheses => "Parenthesized expression cannot contain spread operator"
  | emptyParentheses => "Parenthesized expression cannot be empty"
  | notPattern => "Not a pattern"
  | invalidAssignmentTarget => "Cannot assign to this"
  | assignmentProperty => "assignment property is invalid syntax"
  | reservedShorthand => "Cannot use a reserved word as a shorthand property"
  | reservedInStrict word => "`" ++ word ++ "` cannot be used as an identifier in strict mode"
  | reservedAwait => "`await` cannot be used as an identifier in an async context"
  | reservedBinding =>
    "'eval' and 'arguments' cannot be used as a binding identifier in strict mode"
  | reservedInImport => "cannot import as reserved word"
  | importBindingIsString value =>
    "A string literal cannot be used as an imported binding.\n- Did you mean `import \x7b \"" ++
      value ++ "\" as foo \x7d`?"
  | exportBindingIsString =>
    "A string literal cannot be used as an exported binding without `from`."
  | nestedModuleItem => "'import', and 'export' cannot be used outside of module code"
  | importNotAllowed => "Import is not allowed here"
  | superNotAllowed => "Invalid access to super"
  | superCallNotAllowed => "Invalid `super()`"
  | superOptionalCall => "Super call cannot be optional"
  | superPrivateName => "Index super with private name is not allowed"
  | spaceAfterHash => "Unexpected space between # and identifier"
  | newTargetNotAllowed => "'new.target' is only allowed in the body of a function declaration, " ++
      "function expression, or class."
  | awaitInFunction => "await isn't allowed in non-async function"
  | awaitInParameter => "`await` expressions cannot be used in a parameter initializer"
  | awaitStar => "await* has been removed from the async functions proposal. " ++
      "Use Promise.all() instead."
  | yieldInParameter => "'yield' cannot be used as a parameter within generator"
  | returnNotAllowed => "Return statement is not allowed here"
  | constWithoutInitializer => "'const' declarations must be initialized"
  | patternWithoutInitializer => "Destructuring bindings require initializers"
  | declarationNotAllowed => "Declaration is not allowed"
  | lineBreakBeforeArrow => "Unexpected line break between arrow head and arrow"
  | arrowNotAllowed => "An arrow function is not allowed here"
  | lineBreakAfterThrow => "LineBreak cannot follow 'throw'"
  | unaryBeforePower => "** cannot be applied to unary expression"
  | mixedCoalescing => "Nullish coalescing operator(??) requires parens when mixing with logical " ++
      "operators"
  | templateInChain => "Tagged template literals may not be used in optional chain"
  | chainAfterNew => "Constructor in/after an optional chaining is not allowed."
  | withInStrict => "With statement are not allowed in strict mode"
  | deleteName => "The 'delete' operator cannot be applied to an identifier in strict mode"
  | breakOutside => "A 'break' statement can only be used within an enclosing iteration or switch " ++
      "statement"
  | breakLabel => "A 'break' statement can only jump to a label of an enclosing statement"
  | continueOutside => "A 'continue' statement can only be used within an enclosing iteration " ++
      "statement"
  | continueLabel => "Jump target cannot cross function boundary"
  | duplicateLabel => "Duplicate label"
  | labelledFunction => "Function cannot be labelled in strict mode"
  | severalDefaults => "A switch block cannot have multiple defaults"
  | severalVariablesInHead => "Expected one variable binding"
  | initializerInHead => "Unexpected initializer in for in/of loop"
  | awaitWithoutOf => "for await syntax is valid only for for-of statement"
  | asyncBeforeOf => "The left-hand side of a for...of statement may not be 'async'"
  | secondExtends => "'extends' clause already seen"
  | secondConstructor => "A class may only have one constructor"
  | accessorConstructor => "Class constructor can't be an accessor"
  | generatorConstructor => "Class constructor can't be a generator"
  | asyncConstructor => "Class constructor can't be an async function"
  | fieldNamedConstructor => "Classes may not have a non-static field named 'constructor'"
  | getterParameter => "A `get` accessor cannot have parameters"
  | setterParameter => "A `set` accessor must have exactly one parameter"
  | argumentsInField => "'arguments' is only allowed in functions and class methods"
  | usingDisabled => "Using declaration is not enabled. Set jsc.parser." ++
      "explicitResourceManagement to true"

end Fault

/-- A fault and the byte offset where it shows. -/
structure Located where
  fault : Fault
  offset : Nat
  deriving DecidableEq, Repr

/-- Tokens.  A broken token is a text that is none. -/
inductive Token where
  | word (text : String)
  | punctuator (p : Punctuator)
  | number (raw : String)
  | bigInteger (raw : String)
  /-- A string literal: its value and its text with the quotes. -/
  | string (value raw : String)
  | template (raw : String)
  | regex (pattern flags : String)
  | endOfText
  | broken (fault : Located)
  deriving DecidableEq, Repr

/-- The words that are reserved everywhere in a module. -/
def reservedWords : List String :=
  ["break", "case", "catch", "class", "const", "continue", "debugger", "default", "delete", "do",
   "else", "export", "extends", "false", "finally", "for", "function", "if", "import", "in",
   "instanceof", "new", "null", "return", "super", "switch", "this", "throw", "true", "try",
   "typeof", "var", "void", "while", "with"]

/-- Words that the strict mode of modules takes away as identifiers, with a
message of their own. -/
def strictWords : List String :=
  ["enum", "implements", "interface", "let", "package", "private", "protected", "public", "static",
   "yield"]

end Script
end ElementBuild
