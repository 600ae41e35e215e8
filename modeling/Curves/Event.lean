import Curves.Number.Text
import Curves.Text.Quoted

/-!
# Events

What the library has to report about its work: a level, a message and named fields in a fixed
order. Results determine their events, so events are computed from results.
-/

namespace Curves

/-- How urgent an event is, least urgent first. -/
inductive Level where
  | trace
  | debug
  | info
  | warn
  | error
  deriving DecidableEq, Repr

namespace Level

/-- The position of a level among all levels. -/
def rank : Level → Nat
  | .trace => 0
  | .debug => 1
  | .info => 2
  | .warn => 3
  | .error => 4

def name : Level → String
  | .trace => "TRACE"
  | .debug => "DEBUG"
  | .info => "INFO"
  | .warn => "WARN"
  | .error => "ERROR"

end Level

inductive Field where
  /-- A text that log lines show in quotes. -/
  | quoted (value : String)
  /-- A text that log lines show as it is. -/
  | plain (value : String)
  | count (value : Nat)
  | number (value : Float)

namespace Field

def text : Field → String
  | .quoted value => value
  | .plain value => value
  | .count value => toString value
  | .number value => Number.tagged value

/-- The value in a log line. -/
def shown : Field → String
  | .quoted value => Text.quoted value
  | field => field.text

end Field

structure Event where
  level : Level
  message : String
  fields : List (String × Field)

namespace Event

/-- Writes a control character that could steer a terminal by its code. -/
def escapeControl (c : Char) : List Char :=
  if c = '\x07' then ['\\', 'x', '0', '7']
  else if c = '\x08' then ['\\', 'x', '0', '8']
  else if c = '\x0c' then ['\\', 'x', '0', 'c']
  else if c = '\x1b' then ['\\', 'x', '1', 'b']
  else if c = '\x7f' then ['\\', 'x', '7', 'f']
  else if 0x80 ≤ c.toNat ∧ c.toNat ≤ 0x9F then Text.codePointEscape c
  else [c]

/-- The event as a log line: level, message and `name=value` fields. -/
def line (event : Event) : String :=
  let message := String.ofList (event.message.toList.flatMap escapeControl)
  event.fields.foldl (fun shown (name, field) => shown ++ " " ++ name ++ "=" ++ field.shown)
    (event.level.name ++ " " ++ message)

end Event

end Curves
