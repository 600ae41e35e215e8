import Curves.Expr.Diagnostic
import Curves.Expr.Function
import Curves.Number.Constant
import Curves.Number.Read
import Curves.Text.Letter

/-!
# Parsing expressions

From the loosest to the tightest:

* an expression is a chain of terms with `+` and `-` between them;
* a term is a chain of powers with `*`, `/` or nothing between them, where nothing stands for a
  product and the next power has to begin with a digit, a letter or `(`;
* a power is a factor followed by any number of `²`, `³` and `^` with a factor;
* a factor is a signed factor, a number, `x`, `e`, `pi`, a function with its argument in
  parentheses, or an expression in parentheses.

All chains associate to the left. Parsing never fails: every construct yields a tree, the
anomalies found in it and the place it ended at. A factor that nests deeper than `maxDepth`
halts the parse, and from then on nothing more is read or reported.

Factors recurse on the nesting that is left, chains on the text that is left.
-/

namespace Curves

/-- A place in a source. -/
structure Cursor where
  /-- The number of characters before the place. -/
  position : Nat
  /-- The characters from the place on. -/
  rest : List Char
  /-- Set when a limit was hit; nothing is read any more. -/
  halted : Bool := false
  deriving DecidableEq

namespace Cursor

def start (source : List Char) : Cursor := { position := 0, rest := source }

def peek (c : Cursor) : Option Char := if c.halted then none else c.rest.head?

def advance (n : Nat) (c : Cursor) : Cursor :=
  { c with position := c.position + n, rest := c.rest.drop n }

@[simp] theorem halted_advance (n : Nat) (c : Cursor) : (c.advance n).halted = c.halted := rfl

@[simp] theorem position_advance (n : Nat) (c : Cursor) :
    (c.advance n).position = c.position + n := rfl

@[simp] theorem rest_advance (n : Nat) (c : Cursor) : (c.advance n).rest = c.rest.drop n := rfl

end Cursor

/-- A construct that has been read. -/
structure Parsed (α : Type) where
  value : α
  /-- The anomalies in the order in which they were found. -/
  issues : List Diagnostic := []
  /-- The places of understood product signs. -/
  seams : List Nat := []
  /-- The place behind the construct. -/
  after : Cursor

namespace Parsed

def map {α β : Type} (f : α → β) (p : Parsed α) : Parsed β := { p with value := f p.value }

/-- A factor of which nothing was read because of an anomaly. -/
def absent (anomaly : Anomaly) (c : Cursor) : Parsed Expr where
  value := .missing
  issues := [anomaly.diagnostic c.position]
  after := c

end Parsed

namespace Parser

/-- What a chain hangs behind its first operand. -/
inductive Link where
  | operation (op : Operator) (right : Expr)
  | square
  | cube

/-- The tree that a link makes of the operand before it. -/
def Link.attach (left : Expr) : Link → Expr
  | .operation op right => .binary op left right
  | .square => .square left
  | .cube => .cube left

/-- Reads links as long as `next?` finds one. -/
def links (next? : Cursor → Option (Parsed Link)) (c : Cursor) : Parsed (List Link) :=
  match next? c with
  | none => { value := [], after := c }
  | some link =>
    if link.after.rest.length < c.rest.length then
      let more := links next? link.after
      { value := link.value :: more.value
        issues := link.issues ++ more.issues
        seams := link.seams ++ more.seams
        after := more.after }
    else link.map ([·])
termination_by c.rest.length

/-- Reads the links behind a first operand and attaches them from left to right. -/
def chain (next? : Cursor → Option (Parsed Link)) (first : Parsed Expr) : Parsed Expr :=
  let more := links next? first.after
  { value := more.value.foldl Link.attach first.value
    issues := first.issues ++ more.issues
    seams := first.seams ++ more.seams
    after := more.after }

/-- Whether an operand may begin with `c` without a product sign before it. -/
def startsOperand (c : Char) : Bool :=
  c.isDigit || c == 'x' || Text.isLetter c || c == '('

def powerLink? (factor : Cursor → Parsed Expr) (c : Cursor) : Option (Parsed Link) :=
  match c.peek with
  | some '²' => some { value := .square, after := c.advance 1 }
  | some '³' => some { value := .cube, after := c.advance 1 }
  | some '^' => some ((factor (c.advance 1)).map (.operation .power))
  | _ => none

/-- Reads a factor and the exponents behind it. -/
def power (factor : Cursor → Parsed Expr) (c : Cursor) : Parsed Expr :=
  chain (powerLink? factor) (factor c)

def termLink? (power : Cursor → Parsed Expr) (c : Cursor) : Option (Parsed Link) :=
  match c.peek with
  | some '*' => some ((power (c.advance 1)).map (.operation .multiply))
  | some '/' => some ((power (c.advance 1)).map (.operation .divide))
  | some next =>
    if startsOperand next then
      let right := (power c).map (Link.operation .multiply)
      some { right with seams := c.position :: right.seams }
    else none
  | none => none

/-- Reads a power and the operands that it is multiplied with or divided by. -/
def term (factor : Cursor → Parsed Expr) (c : Cursor) : Parsed Expr :=
  chain (termLink? (power factor)) (power factor c)

def sumLink? (term : Cursor → Parsed Expr) (c : Cursor) : Option (Parsed Link) :=
  match c.peek with
  | some '+' => some ((term (c.advance 1)).map (.operation .add))
  | some '-' => some ((term (c.advance 1)).map (.operation .subtract))
  | _ => none

/-- Reads a term and the terms added to and subtracted from it. -/
def expression (factor : Cursor → Parsed Expr) (c : Cursor) : Parsed Expr :=
  chain (sumLink? (term factor)) (term factor c)

/-- The characters of a number: digits, and point or comma before its decimals. -/
def isLiteralChar (c : Char) : Bool := c.isDigit || c == '.' || c == ','

def literalValue? (literal : List Char) : Option Float :=
  Number.read? (literal.map fun c => if c = ',' then '.' else c)

def number (c : Cursor) : Parsed Expr :=
  let literal := c.rest.takeWhile isLiteralChar
  let after := c.advance literal.length
  match literalValue? literal with
  | some value => { value := .number value, after }
  | none =>
    { value := .number 0.0
      issues := [(Anomaly.invalidNumber literal).diagnostic c.position]
      after }

/-- Reads an expression in parentheses, the first of which is at the cursor. -/
def group (expression : Cursor → Parsed Expr) (c : Cursor) : Parsed Expr :=
  let inner := expression (c.advance 1)
  if inner.after.peek = some ')' then { inner with after := inner.after.advance 1 }
  else if inner.after.halted then inner
  else { inner with issues := inner.issues ++ [Anomaly.unclosedParenthesis.diagnostic c.position] }

/-- Reads a name and the argument in parentheses behind it. -/
def named (expression : Cursor → Parsed Expr) (c : Cursor) : Parsed Expr :=
  let name := c.rest.takeWhile Text.isLetter
  let opening := c.advance name.length
  if opening.peek = some '(' then
    let argument := group expression opening
    match NamedFunction.ofName? (String.ofList name) with
    | some function => argument.map (.call function)
    | none =>
      { argument.map (.unknownCall (String.ofList name)) with
        issues := (Anomaly.unknownFunction name).diagnostic c.position :: argument.issues }
  else
    { value := .unknownName (String.ofList name)
      issues := [(Anomaly.missingFunctionArgument name).diagnostic c.position]
      after := opening }

/-- Reads a factor that may hold factors nested `room - 1` deep. -/
def factor : (room : Nat) → Cursor → Parsed Expr
  | 0, c =>
    if c.halted then { value := .missing, after := c }
    else { Parsed.absent .tooDeep c with after := { c with halted := true } }
  | room + 1, c =>
    if c.halted then { value := .missing, after := c }
    else
      match c.rest with
      | [] => .absent .unexpectedEnd c
      | first :: others =>
        if first = '-' then (factor room (c.advance 1)).map .negate
        else if first = '+' then factor room (c.advance 1)
        else if first.isDigit then number c
        else if first = 'x' then { value := .var, after := c.advance 1 }
        else if first = 'e' ∧ !others.head?.any Text.isLetter then
          { value := .number Number.e, after := c.advance 1 }
        else if first = 'p' ∧ others.head? = some 'i' then
          { value := .number Number.pi, after := c.advance 2 }
        else if Text.isLetter first then named (expression (factor room)) c
        else if first = '(' then group (expression (factor room)) c
        else .absent (.unexpectedCharacter first) c

end Parser

/-- What parsing makes of a normalized source. -/
structure Analysis where
  tree : Expr
  diagnostics : List Diagnostic
  /-- The places of understood product signs. -/
  seams : List Nat := []
  /-- The number of characters that the tree accounts for. -/
  consumed : Nat := 0

def parse (source : List Char) : Analysis :=
  if source.isEmpty then
    { tree := .missing, diagnostics := [Anomaly.emptyExpression.diagnostic 0] }
  else if maxLength < source.length then
    { tree := .missing
      diagnostics := [(Anomaly.tooLong source.length).diagnostic maxLength] }
  else
    let parsed := Parser.expression (Parser.factor maxDepth) (.start source)
    let left := parsed.after
    let trailing :=
      if left.halted || left.rest.isEmpty then []
      else [(Anomaly.trailingInput left.rest).diagnostic left.position]
    { tree := parsed.value
      diagnostics := parsed.issues ++ trailing
      seams := parsed.seams
      consumed := left.position }

end Curves
