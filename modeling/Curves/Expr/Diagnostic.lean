import Curves.Event

/-!
# Diagnostics

Nothing that is wrong with a source stops it from being read. Each anomaly is recorded with its
kind and its place, counted in characters of the normalized source. Anomalies of two kinds are
errors and make the whole expression count as zero; all others are warnings.
-/

namespace Curves

/-- Whether an anomaly leaves a usable expression behind. -/
inductive Severity where
  | warning
  | error
  deriving DecidableEq, Repr

def Severity.name : Severity → String
  | .warning => "warning"
  | .error => "error"

namespace Diagnostic

inductive Kind where
  /-- A factor was expected, but something else was found. -/
  | unexpectedCharacter
  /-- A name before `(` that is no function. -/
  | unknownFunction
  /-- A name that is not followed by `(`. -/
  | missingFunctionArgument
  /-- A `(` without its `)`. -/
  | unclosedParenthesis
  /-- Text left over after the expression. -/
  | trailingInput
  /-- A literal that denotes no number. -/
  | invalidNumber
  /-- Nothing to read. -/
  | emptyExpression
  /-- A source that is too long or nested too deeply. -/
  | limitExceeded
  deriving DecidableEq, Repr

namespace Kind

def all : List Kind :=
  [.unexpectedCharacter, .unknownFunction, .missingFunctionArgument, .unclosedParenthesis,
    .trailingInput, .invalidNumber, .emptyExpression, .limitExceeded]

def name : Kind → String
  | .unexpectedCharacter => "unexpected_character"
  | .unknownFunction => "unknown_function"
  | .missingFunctionArgument => "missing_function_argument"
  | .unclosedParenthesis => "unclosed_parenthesis"
  | .trailingInput => "trailing_input"
  | .invalidNumber => "invalid_number"
  | .emptyExpression => "empty_expression"
  | .limitExceeded => "limit_exceeded"

def ofName? (name : String) : Option Kind := all.find? fun kind => kind.name == name

/-- Literals without a value and exceeded limits are errors. -/
def severity : Kind → Severity
  | .invalidNumber | .limitExceeded => .error
  | _ => .warning

end Kind

end Diagnostic

/-- An anomaly in a source. -/
structure Diagnostic where
  kind : Diagnostic.Kind
  /-- Its place, in characters of the normalized source. -/
  position : Nat
  message : String
  deriving DecidableEq, Repr

namespace Diagnostic

/-- Whether the anomaly makes the expression degenerate. -/
def isError (d : Diagnostic) : Bool := d.kind.severity == .error

def display (d : Diagnostic) : String :=
  d.kind.severity.name ++ " [" ++ d.kind.name ++ "] at " ++ toString d.position ++ ": " ++ d.message

/-- The diagnostic as the reason why a source is refused. -/
def refusal (d : Diagnostic) : String :=
  "Syntax error at " ++ toString d.position ++ ": " ++ d.message

def event (source : String) (d : Diagnostic) : Event where
  level := match d.kind.severity with
    | .warning => .warn
    | .error => .error
  message := d.message
  fields := [("kind", .quoted d.kind.name), ("position", .count d.position),
    ("source", .quoted source)]

end Diagnostic

/-- The longest normalized source that is read, in characters. -/
def maxLength : Nat := 4096

/-- The deepest nesting of factors that is read. -/
def maxDepth : Nat := 128

/-- What was found where a source goes wrong. -/
inductive Anomaly where
  | unexpectedCharacter (found : Char)
  | unexpectedEnd
  | unknownFunction (name : List Char)
  | missingFunctionArgument (name : List Char)
  | unclosedParenthesis
  | trailingInput (rest : List Char)
  | invalidNumber (literal : List Char)
  | emptyExpression
  | tooLong (length : Nat)
  | tooDeep

namespace Anomaly

def kind : Anomaly → Diagnostic.Kind
  | .unexpectedCharacter _ | .unexpectedEnd => .unexpectedCharacter
  | .unknownFunction _ => .unknownFunction
  | .missingFunctionArgument _ => .missingFunctionArgument
  | .unclosedParenthesis => .unclosedParenthesis
  | .trailingInput _ => .trailingInput
  | .invalidNumber _ => .invalidNumber
  | .emptyExpression => .emptyExpression
  | .tooLong _ | .tooDeep => .limitExceeded

def message : Anomaly → String
  | .unexpectedCharacter found => "Unexpected character: '" ++ found.toString ++ "'"
  | .unexpectedEnd => "Unexpected end of expression"
  | .unknownFunction name => "Unknown function: " ++ String.ofList name
  | .missingFunctionArgument name => "Expected '(' after '" ++ String.ofList name ++ "'"
  | .unclosedParenthesis => "Missing ')' for '(' opened here"
  | .trailingInput rest => "Unexpected characters after expression: '" ++ String.ofList rest ++ "'"
  | .invalidNumber literal => "Invalid number: '" ++ String.ofList literal ++ "'"
  | .emptyExpression => "Empty expression"
  | .tooLong length =>
    "Expression is " ++ toString length ++ " characters long (max: " ++ toString maxLength ++
      ")"
  | .tooDeep => "Expression nested deeper than " ++ toString maxDepth ++ " levels"

def diagnostic (anomaly : Anomaly) (position : Nat) : Diagnostic where
  kind := anomaly.kind
  position := position
  message := anomaly.message

end Anomaly

end Curves
