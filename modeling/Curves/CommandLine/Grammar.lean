import Curves.CommandLine.Misuse

/-!
# Command-line grammars

A grammar says which options and arguments a list of words may hold, and how each of them changes
the settings that are read. An option has a long name, as in `--name value` or `--name=value`, and
perhaps a letter, as in `-n value`, `-nvalue` or `-n=value`. The word `--` makes arguments of all
words behind it.

The value of an option is checked when the next option or argument of another kind begins, so of
two faults it is not always the first one that is reported: a word that fits nowhere is reported
before a bad value in front of it.
-/

namespace Curves.CommandLine

/-- What an option does to settings of type `σ`. -/
inductive Effect (σ : Type) where
  /-- The option takes no value. -/
  | mark (set : σ → Except Misuse σ)
  /-- The option takes a value. -/
  | store (set : String → σ → Except Misuse σ)

/-- An option. -/
structure Parameter (σ : Type) where
  long : String
  letter : Option Char := none
  /-- Whether any word can be the value, even one that looks like an option. -/
  anyValue : Bool := false
  effect : Effect σ

/-- An argument, which is known by its place. -/
structure Argument (σ : Type) where
  /-- Whether the argument can be given any number of times; it is then the last one. -/
  many : Bool := false
  /-- Whether a word that looks like an option, but is none, can be the argument. -/
  anyValue : Bool := false
  set : String → σ → Except Misuse σ

/-- The options and arguments of a command. -/
structure Grammar (σ : Type) where
  parameters : List (Parameter σ)
  arguments : List (Argument σ) := []
  /-- Whether negative numbers are values rather than letters. -/
  negativeNumbers : Bool := false

namespace Effect

variable {σ τ : Type}

/-- The same effect on settings that are part of others. -/
def within (get : τ → σ) (set : σ → τ → τ) : Effect σ → Effect τ
  | .mark f => .mark fun t => (f (get t)).map fun s => set s t
  | .store f => .store fun value t => (f value (get t)).map fun s => set s t

end Effect

/-- The same option in settings of which its own are a part. -/
def Parameter.within {σ τ : Type} (get : τ → σ) (set : σ → τ → τ) (p : Parameter σ) :
    Parameter τ where
  long := p.long
  letter := p.letter
  anyValue := p.anyValue
  effect := p.effect.within get set

/-- How a word looks. -/
inductive Word where
  /-- The word `--`. -/
  | separator
  | long (name : String) (value : Option String)
  | letters (letters : List Char)
  | plain
  deriving DecidableEq

def Word.ofChars : List Char → Word
  | ['-', '-'] => .separator
  | '-' :: '-' :: rest =>
    let name := rest.takeWhile (· ≠ '=')
    let value? := match rest.dropWhile (· ≠ '=') with
      | [] => none
      | _ :: value => some (String.ofList value)
    .long (String.ofList name) value?
  | ['-'] => .plain
  | '-' :: rest => .letters rest
  | _ => .plain

/-- Whether letters are a number: digits, with a point that is not in front and an exponent
without a sign. -/
def isNumber (letters : List Char) : Bool :=
  let whole := letters.takeWhile Char.isDigit
  let afterWhole := letters.dropWhile Char.isDigit
  let rest := match afterWhole with
    | '.' :: rest => if whole.isEmpty then afterWhole else rest.dropWhile Char.isDigit
    | rest => rest
  match rest with
  | [] => true
  | e :: exponent =>
    !whole.isEmpty && (e == 'e' || e == 'E') && !exponent.isEmpty && exponent.all Char.isDigit

/-- An option that waits for its value to be read or checked. -/
structure Pending (σ : Type) where
  parameter : String
  anyValue : Bool
  set : String → σ → Except Misuse σ
  value : Option String := none

/-- What has been read of some words. -/
structure Reading (σ : Type) where
  settings : σ
  /-- The options that have been given. -/
  used : List String := []
  pending : Option (Pending σ) := none
  /-- The arguments that can still be given. -/
  remaining : List (Argument σ)
  /-- Whether all further words are arguments. -/
  literal : Bool := false

namespace Reading

variable {σ : Type}

def waiting? (r : Reading σ) : Option (Pending σ) := r.pending.filter (·.value.isNone)

def takesAnyValue (r : Reading σ) : Bool := r.waiting?.any (·.anyValue)

/-- Whether the next argument can be a word that looks like an option. -/
def takesAnyArgument (r : Reading σ) : Bool := r.remaining.head?.any (·.anyValue)

/-- Lets an option change the settings, once only. -/
def apply (r : Reading σ) (option : String) (change : σ → Except Misuse σ) :
    Except Misuse (Reading σ) :=
  if option ∈ r.used then .error (.repeated option)
  else (change r.settings).map fun settings => { r with settings, used := option :: r.used }

/-- Checks the value of the pending option. -/
def settle (r : Reading σ) : Except Misuse (Reading σ) :=
  match r.pending with
  | none => .ok r
  | some p =>
    match p.value with
    | none => .error (.missingValue p.parameter)
    | some value => { r with pending := none }.apply p.parameter (p.set value)

def argue (r : Reading σ) (word : String) : Except Misuse (Reading σ) :=
  match r.remaining with
  | [] => .error (.unexpected word)
  | argument :: rest => do
    let r ← r.settle
    let settings ← argument.set word r.settings
    return { r with settings, remaining := if argument.many then r.remaining else rest }

/-- Reads a word as the value of the waiting option or as an argument. -/
def take (r : Reading σ) (word : String) : Except Misuse (Reading σ) :=
  match r.waiting? with
  | some p => .ok { r with pending := some { p with value := some word } }
  | none => r.argue word

/-- Reads an option with the value that is attached to it. -/
def give (r : Reading σ) (p : Parameter σ) (value? : Option String) :
    Except Misuse (Reading σ) :=
  match p.effect, value? with
  | .mark _, some _ => .error (.needlessValue p.long)
  | .mark set, none => do (← r.settle).apply p.long set
  | .store set, some value => do (← r.settle).apply p.long (set value)
  | .store set, none => do
    let r ← r.settle
    return { r with pending := some { parameter := p.long, anyValue := p.anyValue, set } }

end Reading

namespace Grammar

variable {σ : Type}

def letter? (g : Grammar σ) (c : Char) : Option (Parameter σ) :=
  g.parameters.find? fun p => p.letter == some c

/-- Reads letters: options without a value, and perhaps one with the rest as its value. -/
def giveLetters (g : Grammar σ) (r : Reading σ) : List Char → Except Misuse (Reading σ)
  | [] => .ok r
  | c :: rest =>
    match g.letter? c with
    | none => .error (.unknownOption (String.ofList ['-', c]))
    | some p =>
      match p.effect, rest with
      | .mark _, _ => do g.giveLetters (← r.give p none) rest
      | .store _, [] => r.give p none
      | .store _, '=' :: value => r.give p (some (String.ofList value))
      | .store _, value => r.give p (some (String.ofList value))

/-- Whether letters are a value rather than options. -/
def isValue (g : Grammar σ) (r : Reading σ) (letters : List Char) : Bool :=
  let negative := g.negativeNumbers && isNumber letters
  r.takesAnyValue || negative && (r.waiting?.isSome || !r.remaining.isEmpty) ||
    r.takesAnyArgument && letters.any fun c => (g.letter? c).isNone

def step (g : Grammar σ) (r : Reading σ) (word : String) : Except Misuse (Reading σ) :=
  if r.literal then r.argue word
  else
    match Word.ofChars word.toList with
    | .separator => if r.takesAnyValue then r.take word else .ok { r with literal := true }
    | .long name value? =>
      if r.takesAnyValue then r.take word
      else
        match g.parameters.find? fun p => p.long == name with
        | some p => r.give p value?
        | none => if r.takesAnyArgument then r.take word else .error (.unknownOption word)
    | .letters letters => if g.isValue r letters then r.take word else g.giveLetters r letters
    | .plain => r.take word

def start (g : Grammar σ) (settings : σ) : Reading σ := { settings, remaining := g.arguments }

/-- Reads words up to the first one at which `stop` answers, unless the word is the value of an
option or follows a `--`; the result holds the answer and the words behind. -/
def readTo {κ : Type} (g : Grammar σ) (stop : String → Option κ) (r : Reading σ) :
    List String → Except Misuse (Reading σ × Option (κ × List String))
  | [] => .ok (r, none)
  | word :: rest =>
    match if r.literal || r.waiting?.isSome then none else stop word with
    | some answer => .ok (r, some (answer, rest))
    | none => do g.readTo stop (← g.step r word) rest

def read (g : Grammar σ) (settings : σ) (words : List String) : Except Misuse σ := do
  let r ← words.foldlM g.step (g.start settings)
  return (← r.settle).settings

end Grammar

end Curves.CommandLine
