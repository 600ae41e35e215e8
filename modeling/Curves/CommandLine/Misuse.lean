import Curves.Number.Text

/-!
# Misuse of the command line

Why a list of words is no invocation. Only the words themselves are at fault here; what goes wrong
later is a failure of the command.
-/

namespace Curves.CommandLine

/-- Why a text is no clamp range. -/
inductive ClampProblem where
  /-- There is no comma between two ends. -/
  | noComma (text : String)
  | badLow (text : String)
  | badHigh (text : String)
  | reversed (low high : Float)
  deriving DecidableEq

def ClampProblem.message : ClampProblem → String
  | .noComma text => "expected MIN,MAX, got '" ++ text ++ "'"
  | .badLow text => "invalid minimum '" ++ text ++ "'"
  | .badHigh text => "invalid maximum '" ++ text ++ "'"
  | .reversed low high =>
    "minimum " ++ Number.text low ++ " is greater than maximum " ++ Number.text high

/-- Why words are no invocation. -/
inductive Misuse where
  | noCommand
  | unknownOption (word : String)
  /-- An argument too many, or no command of that name. -/
  | unexpected (word : String)
  | missingValue (option : String)
  /-- A value for an option that takes none. -/
  | needlessValue (option : String)
  | repeated (option : String)
  | badValue (name value : String)
  | badClamp (problem : ClampProblem)
  | noExpression
  /-- Two options that exclude each other. -/
  | conflict (first second : String)
  /-- A request for help, which is answered like misuse. -/
  | help
  deriving DecidableEq

namespace Misuse

/-- What is wrong with a value, if there is more to say than that it is wrong. -/
def reason? : Misuse → Option String
  | .badClamp problem => some problem.message
  | _ => none

def message : Misuse → String
  | .noCommand => "no command given"
  | .unknownOption word => "unknown option '" ++ word ++ "'"
  | .unexpected word => "unexpected argument '" ++ word ++ "'"
  | .missingValue option => "no value given for '--" ++ option ++ "'"
  | .needlessValue option => "'--" ++ option ++ "' takes no value"
  | .repeated option => "'--" ++ option ++ "' is given twice"
  | .badValue name value => "invalid value '" ++ value ++ "' for '" ++ name ++ "'"
  | .badClamp problem => "invalid value for 'clamp': " ++ problem.message
  | .noExpression => "no expression given"
  | .conflict first second => "'--" ++ first ++ "' cannot be used with '--" ++ second ++ "'"
  | .help =>
    "usage: [--log-level LEVEL] [--sqrt-abs] [--common-log] (eval|sample|lut|check) " ++
      "[OPTIONS] EXPRESSION [VALUES]"

end Misuse

end Curves.CommandLine
