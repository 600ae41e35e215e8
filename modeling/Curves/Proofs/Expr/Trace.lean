import Curves.Proofs.Expr.Completeness
import Curves.Proofs.Expr.Leftover

/-!
# Traces of the parser

A run says what a reading can be. A trace says what it is and lists the steps that were taken: which
text was passed, which groups were opened and closed, and where no factor was found. Every reading
has a trace, and what has a trace is the reading, so two texts are read alike as soon as a trace on
one of them is turned into a trace on the other.

What a factor is shows from the text before it, to the end of its first word and one character
further.

Main statements:

* `Begins.factor_eq`, `exists_begins`: a factor is told from what it begins with;
* `Begins.word`, `Begins.opening`: the rest of the text has no influence on it;
* `Trace.sound`, `Chain.exists_trace`: traces and readings;
* `exists_trace`, `parse_of_trace`: sources.
-/

namespace Curves

/-- A factor that is a single word. -/
def Parsed.ofWord (word : List Char) (value : Expr) (anomaly : Option Anomaly) (c : Cursor) :
    Parsed Expr where
  value
  issues := (anomaly.map (·.diagnostic c.position)).toList
  after := c.advance word.length

/-- A group as the argument of the name before it, if there is one. -/
def Parsed.argumentOf (name : List Char) (place : Nat) (p : Parsed Expr) : Parsed Expr :=
  if name = [] then p
  else
    match NamedFunction.ofName? (String.ofList name) with
    | some function => p.map (.call function)
    | none =>
      { p.map (.unknownCall (String.ofList name)) with
        issues := (Anomaly.unknownFunction name).diagnostic place :: p.issues }

section ArgumentOf
variable (name : List Char) (place : Nat) (p : Parsed Expr)

@[simp] theorem Parsed.after_argumentOf : (p.argumentOf name place).after = p.after := by
  unfold argumentOf
  split
  · rfl
  split <;> rfl

@[simp] theorem Parsed.seams_argumentOf : (p.argumentOf name place).seams = p.seams := by
  unfold argumentOf
  split
  · rfl
  split <;> rfl

end ArgumentOf

namespace Parser
open Cursor

/-! ## Groups -/

section Closed
variable {p : Parsed Expr}

@[simp] theorem halted_closed (opening : Nat) (p : Parsed Expr) :
    (p.closed opening).after.halted = p.after.halted := by
  rcases closed_cases opening p with ⟨s, found, eq⟩ | ⟨-, eq⟩ | ⟨-, eq⟩ <;> rw [eq] <;> rfl

@[simp] theorem seams_closed (opening : Nat) (p : Parsed Expr) :
    (p.closed opening).seams = p.seams := by
  rcases closed_cases opening p with ⟨s, found, eq⟩ | ⟨-, eq⟩ | ⟨-, eq⟩ <;> rw [eq]

/-- A group that is not closed is reported if the parser goes on. -/
theorem closed_of_open (opening : Nat) (closing : p.after.peek ≠ some ')')
    (going : p.after.halted = false) : p.closed opening =
      { p with issues := p.issues ++ [Anomaly.unclosedParenthesis.diagnostic opening] } := by
  rw [Parsed.closed, if_neg closing, if_neg (by simp [going])]

end Closed

/-! ## Beginnings -/

/-- What a factor begins with. -/
inductive Front where
  /-- Nothing that a factor can begin with. -/
  | missing (anomaly : Anomaly)
  /-- A word that is all of the factor. -/
  | word (text : List Char) (value : Expr) (anomaly : Option Anomaly)
  | plus
  | minus
  /-- A name, which may be empty, and the `(` behind it. -/
  | opening (name : List Char)

def Front.read (room : Nat) (c : Cursor) : Front → Parsed Expr
  | .missing anomaly => .absent anomaly c
  | .word text value anomaly => .ofWord text value anomaly c
  | .plus => factor room (c.advance 1)
  | .minus => (factor room (c.advance 1)).map .negate
  | .opening name =>
    ((expression (factor room) (c.advance (name.length + 1))).closed
      (c.position + name.length)).argumentOf name c.position

/-- A name begins with `x` before `s`, and neither a number nor a constant nor the variable. -/
structure StartsName (x : Char) (s : List Char) : Prop where
  letter : Text.isLetter x
  digit : x.isDigit = false
  var : x ≠ 'x'
  euler : x = 'e' → s.head?.any Text.isLetter
  circle : x = 'p' → s.head? ≠ some 'i'

/-- `Begins s f` says that a factor before the text `s` begins with `f`. -/
inductive Begins : List Char → Front → Prop
  | end : Begins [] (.missing .unexpectedEnd)
  | minus {s} : Begins ('-' :: s) .minus
  | plus {s} : Begins ('+' :: s) .plus
  | number {w r value} : (∃ d ∈ w.head?, d.isDigit) → (∀ d ∈ w, isLiteralChar d) →
      (∀ d ∈ r.head?, ¬ isLiteralChar d) → literalValue? w = some value →
      Begins (w ++ r) (.word w (.number value) none)
  | invalidNumber {w r} : (∃ d ∈ w.head?, d.isDigit) → (∀ d ∈ w, isLiteralChar d) →
      (∀ d ∈ r.head?, ¬ isLiteralChar d) → literalValue? w = none →
      Begins (w ++ r) (.word w (.number 0.0) (some (.invalidNumber w)))
  | var {s} : Begins ('x' :: s) (.word ['x'] .var none)
  | euler {s} : (∀ d ∈ s.head?, ¬ Text.isLetter d) →
      Begins ('e' :: s) (.word ['e'] (.number Number.e) none)
  | circle {s} : Begins ('p' :: 'i' :: s) (.word ['p', 'i'] (.number Number.pi) none)
  | name {x w r} : StartsName x (w ++ r) → (∀ d ∈ w, Text.isLetter d) →
      (∀ d ∈ r.head?, ¬ Text.isLetter d) → r.head? ≠ some '(' →
      Begins (x :: (w ++ r)) (.word (x :: w) (.unknownName (String.ofList (x :: w)))
        (some (.missingFunctionArgument (x :: w))))
  | call {x w r} : StartsName x (w ++ '(' :: r) → (∀ d ∈ w, Text.isLetter d) →
      Begins (x :: (w ++ '(' :: r)) (.opening (x :: w))
  | group {s} : Begins ('(' :: s) (.opening [])
  | stranger {x s} : startsOperand x = false → x ≠ '+' → x ≠ '-' →
      Begins (x :: s) (.missing (.unexpectedCharacter x))

section Begins
variable {room : Nat} {c : Cursor} {x : Char} {s r : List Char} {f : Front}

/-- A name is the letters up to the next other character. -/
theorem named_of_letters {w : List Char} (h : c.At (x :: (w ++ r))) (letter : Text.isLetter x)
    (letters : ∀ d ∈ w, Text.isLetter d) (stop : ∀ d ∈ r.head?, ¬ Text.isLetter d) :
    named (expression (factor room)) c =
      if r.head? = some '(' then (Front.opening (x :: w)).read room c
      else (Front.word (x :: w) (.unknownName (String.ofList (x :: w)))
        (some (.missingFunctionArgument (x :: w)))).read room c := by
  have name : c.rest.takeWhile Text.isLetter = x :: w := by
    rw [h.1, List.takeWhile_cons, if_pos letter,
      (Grammar.takeWhile_dropWhile_append letters stop).1]
  have behind : (c.advance (x :: w).length).At r := h.advance (w := x :: w)
  unfold named
  rw [name]
  dsimp only
  rw [behind.peek]
  split
  · have place : (c.advance (x :: w).length).advance 1 = c.advance ((x :: w).length + 1) := by
      simp [Cursor.advance, Nat.add_assoc]
    simp only [Front.read, Parsed.argumentOf, List.cons_ne_nil, if_false, group, place]
    rfl
  · rfl

/-- A factor that begins with no number, constant or variable is a name. -/
theorem factor_of_startsName (h : c.At (x :: s)) (name : StartsName x s) :
    factor (room + 1) c = named (expression (factor room)) c := by
  have unsigned : x ≠ '-' ∧ x ≠ '+' := by
    constructor <;> rintro rfl <;> exact absurd name.letter (by decide)
  have euler : ¬ (x = 'e' ∧ !s.head?.any Text.isLetter) := fun ⟨e, alone⟩ => by
    simp [name.euler e] at alone
  have circle : ¬ (x = 'p' ∧ s.head? = some 'i') := fun ⟨p, i⟩ => name.circle p i
  rw [factor_cons room h, if_neg unsigned.1, if_neg unsigned.2, if_neg (by simp [name.digit]),
    if_neg name.var, if_neg euler, if_neg circle, if_pos name.letter]

theorem literal_eq {w : List Char} (h : c.At (w ++ r)) (word : ∀ d ∈ w, isLiteralChar d)
    (stop : ∀ d ∈ r.head?, ¬ isLiteralChar d) : c.rest.takeWhile isLiteralChar = w := by
  rw [h.1, (Grammar.takeWhile_dropWhile_append word stop).1]

/-- A factor is told from what it begins with. -/
theorem Begins.factor_eq (begins : Begins s f) (h : c.At s) :
    factor (room + 1) c = f.read room c := by
  cases begins with
  | «end» => exact factor_end room h
  | minus | plus | var => rw [factor_cons room h]; rfl
  | number first word stop value =>
    obtain ⟨x, hx, digit⟩ := first
    obtain ⟨w, rfl⟩ := List.head?_eq_some_iff.1 hx
    rw [factor_of_isDigit h digit, Parser.number, literal_eq h word stop, value]
    rfl
  | invalidNumber first word stop value =>
    obtain ⟨x, hx, digit⟩ := first
    obtain ⟨w, rfl⟩ := List.head?_eq_some_iff.1 hx
    rw [factor_of_isDigit h digit, Parser.number, literal_eq h word stop, value]
    rfl
  | euler alone =>
    rw [factor_cons room h, if_neg (by decide), if_neg (by decide), if_neg (by decide),
      if_neg (by decide), if_pos ⟨rfl, no_letter_iff.2 alone⟩]
    rfl
  | circle =>
    rw [factor_cons room h]
    rfl
  | name first letters stop closed =>
    rw [factor_of_startsName h first, named_of_letters h first.letter letters stop, if_neg closed]
  | @call _ _ r first letters =>
    have stop : ∀ d ∈ ('(' :: r).head?, ¬ Text.isLetter d := by
      rintro d ⟨⟩
      decide
    rw [factor_of_startsName h first, named_of_letters h first.letter letters stop]
    exact if_pos rfl
  | group =>
    rw [factor_cons room h]
    rfl
  | @stranger x _ other plus minus =>
    simp only [startsOperand, Bool.or_eq_false_iff, beq_eq_false_iff_ne, ne_eq] at other
    obtain ⟨⟨⟨digit, var⟩, letter⟩, opening⟩ := other
    have letter_e : Text.isLetter 'e' := by decide
    have letter_p : Text.isLetter 'p' := by decide
    have euler : x ≠ 'e' := by
      rintro rfl
      simp [letter_e] at letter
    have circle : x ≠ 'p' := by
      rintro rfl
      simp [letter_p] at letter
    simp [factor_cons room h, plus, minus, digit, var, euler, circle, letter, opening, Front.read]

theorem Begins.sign_plus (begins : Begins s .plus) : ∃ r, s = '+' :: r := by
  cases begins
  exact ⟨_, rfl⟩

theorem Begins.sign_minus (begins : Begins s .minus) : ∃ r, s = '-' :: r := by
  cases begins
  exact ⟨_, rfl⟩

/-- Each text begins with something. -/
theorem exists_begins (s : List Char) : ∃ f, Begins s f := by
  cases s with
  | nil => exact ⟨_, .end⟩
  | cons x s =>
    by_cases minus : x = '-'
    · subst x
      exact ⟨_, .minus⟩
    by_cases plus : x = '+'
    · subst x
      exact ⟨_, .plus⟩
    by_cases digit : x.isDigit
    · obtain ⟨w, r, cut, word, stop⟩ := exists_word (p := isLiteralChar) (x :: s)
      have first : ∃ d ∈ w.head?, d.isDigit := by
        cases w with
        | nil =>
          rw [List.nil_append] at cut
          exact absurd (by simp [isLiteralChar, digit]) (stop x (by rw [← cut]; rfl))
        | cons d w =>
          cases cut
          exact ⟨x, rfl, digit⟩
      rw [cut]
      cases value : literalValue? w with
      | some v => exact ⟨_, .number first word stop value⟩
      | none => exact ⟨_, .invalidNumber first word stop value⟩
    by_cases var : x = 'x'
    · subst x
      exact ⟨_, .var⟩
    by_cases euler : x = 'e' ∧ !s.head?.any Text.isLetter
    · obtain ⟨rfl, alone⟩ := euler
      exact ⟨_, .euler (no_letter_iff.1 alone)⟩
    by_cases circle : x = 'p' ∧ s.head? = some 'i'
    · obtain ⟨rfl, second⟩ := circle
      obtain ⟨s, rfl⟩ := List.head?_eq_some_iff.1 second
      exact ⟨_, .circle⟩
    by_cases letter : Text.isLetter x
    · obtain ⟨w, r, rfl, letters, stop⟩ := exists_word (p := Text.isLetter) s
      have name : StartsName x (w ++ r) :=
        { letter, digit := by simpa using digit, var
          euler := fun e => by simpa [e] using euler
          circle := fun p i => circle ⟨p, i⟩ }
      by_cases opened : r.head? = some '('
      · obtain ⟨r, rfl⟩ := List.head?_eq_some_iff.1 opened
        exact ⟨_, .call name letters⟩
      · exact ⟨_, .name name letters stop opened⟩
    by_cases opening : x = '('
    · subst x
      exact ⟨_, .group⟩
    · refine ⟨_, .stranger ?_ plus minus⟩
      simp [startsOperand, digit, var, letter, opening]

/-! ### Other ends -/

/-- Behind the same word `r'` has the same effect as `r`: it begins with the same character, or with
one that goes on with no number and with no name. -/
def SameEnd (r r' : List Char) : Prop :=
  r'.head? = r.head? ∨ ∀ x ∈ r'.head?, ¬ isLiteralChar x ∧ ¬ Text.isLetter x ∧ x ≠ '('

section SameEnd
variable {r' : List Char}

theorem SameEnd.no_literal (h : SameEnd r r') (stop : ∀ d ∈ r.head?, ¬ isLiteralChar d) :
    ∀ d ∈ r'.head?, ¬ isLiteralChar d := by
  rcases h with same | ends
  · rwa [same]
  · exact fun d hd => (ends d hd).1

theorem SameEnd.no_letter (h : SameEnd r r') (stop : ∀ d ∈ r.head?, ¬ Text.isLetter d) :
    ∀ d ∈ r'.head?, ¬ Text.isLetter d := by
  rcases h with same | ends
  · rwa [same]
  · exact fun d hd => (ends d hd).2.1

theorem SameEnd.no_opening (h : SameEnd r r') (stop : r.head? ≠ some '(') :
    r'.head? ≠ some '(' := by
  rcases h with same | ends
  · rwa [same]
  · exact fun opening => (ends _ opening).2.2 rfl

/-- A name is one before another end, too. -/
theorem StartsName.sameEnd {w : List Char} (name : StartsName x (w ++ r))
    (stop : ∀ d ∈ r.head?, ¬ Text.isLetter d) (stop' : ∀ d ∈ r'.head?, ¬ Text.isLetter d) :
    StartsName x (w ++ r') := by
  cases w with
  | cons y w => exact { name with euler := name.euler, circle := name.circle }
  | nil =>
    refine { name with euler := fun e => ?_, circle := fun _ i => ?_ }
    · obtain ⟨d, next, letter⟩ := (Option.any_eq_true _ _).1 (name.euler e)
      exact absurd letter (stop d next)
    · have no_letter := stop' 'i' i
      exact absurd (by decide) no_letter

/-- A word is told from the same word before another end. -/
theorem Begins.word {w : List Char} {e : Expr} {a : Option Anomaly}
    (begins : Begins s (.word w e a)) :
    ∃ r, s = w ++ r ∧ w ≠ [] ∧ ∀ r', SameEnd r r' → Begins (w ++ r') (.word w e a) := by
  cases begins with
  | number first word stop value =>
    exact ⟨_, rfl, by rintro rfl; simp at first,
      fun r' same => .number first word (same.no_literal stop) value⟩
  | invalidNumber first word stop value =>
    exact ⟨_, rfl, by rintro rfl; simp at first,
      fun r' same => .invalidNumber first word (same.no_literal stop) value⟩
  | var => exact ⟨_, rfl, List.cons_ne_nil _ _, fun _ _ => .var⟩
  | euler alone => exact ⟨_, rfl, List.cons_ne_nil _ _, fun _ same => .euler (same.no_letter alone)⟩
  | circle => exact ⟨_, rfl, List.cons_ne_nil _ _, fun _ _ => .circle⟩
  | name first letters stop closed =>
    exact ⟨_, rfl, List.cons_ne_nil _ _, fun r' same =>
      .name (first.sameEnd stop (same.no_letter stop)) letters (same.no_letter stop)
        (same.no_opening closed)⟩

/-- Whatever stands in a group, it is told from what stands before it. -/
theorem Begins.opening {name : List Char} (begins : Begins s (.opening name)) :
    ∃ r, s = name ++ '(' :: r ∧ ∀ r', Begins (name ++ '(' :: r') (.opening name) := by
  cases begins with
  | @call x w r first letters =>
    refine ⟨r, rfl, fun r' =>
      .call { first with euler := fun e => ?_, circle := fun p => ?_ } letters⟩
    · cases w <;> exact first.euler e
    · cases w <;> exact first.circle p
  | group => exact ⟨_, rfl, fun _ => .group⟩

theorem Begins.missing {anomaly : Anomaly} (begins : Begins s (.missing anomaly)) :
    (s = [] ∧ anomaly = .unexpectedEnd) ∨ ∃ x r, s = x :: r ∧ anomaly = .unexpectedCharacter x ∧
      startsOperand x = false ∧ x ≠ '+' ∧ x ≠ '-' := by
  cases begins with
  | «end» => exact .inl ⟨rfl, rfl⟩
  | stranger other plus minus => exact .inr ⟨_, _, rfl, rfl, other, plus, minus⟩

end SameEnd

end Begins

/-! ## Steps and traces -/

/-- What the parser does with a text. -/
inductive Step where
  /-- A word, a sign or an operator is passed. A product sign that is not written is empty. -/
  | passes (place : Nat) (text : List Char)
  /-- A group is opened by the `(` at a place. -/
  | opens (place : Nat)
  /-- The group that was opened at a place is closed by the `)` at another one. -/
  | closes (opening place : Nat)
  /-- The group that was opened at a place ends without a `)`. -/
  | abandons (opening : Nat)
  /-- No factor is found at a place. -/
  | misses (place : Nat)
  deriving DecidableEq

def Step.ending (opening : Nat) (c : Cursor) : List Step :=
  if c.peek = some ')' then [.closes opening c.position]
  else if c.halted then []
  else [.abandons opening]

/-- The operator from `c` to `d` is passed. -/
def Step.operator (c d : Cursor) : Step :=
  .passes c.position (c.rest.take (d.position - c.position))

/-- `Trace room k c p t` says that reading `k` at `c` gives `p` in the steps `t` if factors may nest
`room` deep. -/
inductive Trace : (room : Nat) → Stage → Cursor → Parsed Expr → List Step → Prop
  | tooDeep {c} : c.halted = false →
      Trace 0 .factor c { Parsed.absent .tooDeep c with after := { c with halted := true } } []
  | missing {room c s anomaly} : c.At s → Begins s (.missing anomaly) →
      Trace (room + 1) .factor c (.absent anomaly c) [.misses c.position]
  | word {room c s text value anomaly} : c.At s → Begins s (.word text value anomaly) →
      Trace (room + 1) .factor c (.ofWord text value anomaly c) [.passes c.position text]
  | plus {room c s p t} : c.At ('+' :: s) → Trace room .factor (c.advance 1) p t →
      Trace (room + 1) .factor c p (.passes c.position ['+'] :: t)
  | negate {room c s p t} : c.At ('-' :: s) → Trace room .factor (c.advance 1) p t →
      Trace (room + 1) .factor c (p.map .negate) (.passes c.position ['-'] :: t)
  | group {room c s name p t} : c.At s → Begins s (.opening name) →
      Trace room (.whole .sum) (c.advance (name.length + 1)) p t →
      Trace (room + 1) .factor c ((p.closed (c.position + name.length)).argumentOf name c.position)
        (.passes c.position name :: .opens (c.position + name.length) ::
          (t ++ Step.ending (c.position + name.length) p.after))
  | first {room k c p t} : Trace room (Chain.operand k) c p t → Trace room (.links k) c p t
  | square {room c s p t} : Trace room (.links .power) c p t → p.after.At ('²' :: s) →
      Trace room (.links .power) c (p.join { value := .square, after := p.after.advance 1 })
        (t ++ [.passes p.after.position ['²']])
  | cube {room c s p t} : Trace room (.links .power) c p t → p.after.At ('³' :: s) →
      Trace room (.links .power) c (p.join { value := .cube, after := p.after.advance 1 })
        (t ++ [.passes p.after.position ['³']])
  | operation {room k c p t op d seams q u} : Trace room (.links k) c p t →
      OperatorAt k p.after op d seams → Trace room k.operand d q u →
      Trace room (.links k) c
        (p.join { q.map (Link.operation op) with seams := seams ++ q.seams })
        (t ++ Step.operator p.after d :: u)
  | complete {room k c p t} : Trace room (.links k) c p t →
      (∀ x ∈ p.after.peek, ¬ k.goesOn x) → Trace room (.whole k) c p t

/-! ### Traces are readings -/

/-- What a stage reads: for the links of a chain, the chain goes on with the links behind them. -/
def Stage.Reads (room : Nat) : Stage → Cursor → Parsed Expr → Prop
  | .factor, c, p => Parser.factor room c = p
  | .links k, c, p => k.read room c = chain (k.next? room) p
  | .whole k, c, p => k.read room c = p

section Trace
variable {room : Nat} {k : Chain} {stage : Stage} {c d : Cursor} {p : Parsed Expr} {t : List Step}

/-- An operator is one character, which has the same effect before any text, or it is understood
before an operand. -/
theorem OperatorAt.cases {op : Operator} {seams : List Nat} (h : OperatorAt k c op d seams) :
    (∃ x s, c.At (x :: s) ∧ d = c.advance 1 ∧ seams = [] ∧
      ∀ (c' : Cursor) (s' : List Char), c'.At (x :: s') →
        OperatorAt k c' op (c'.advance 1) []) ∨
      (∃ x s, c.At (x :: s) ∧ startsOperand x ∧ d = c ∧ seams = [c.position] ∧ k = .term ∧
        op = .multiply) := by
  cases h with
  | raise h => exact .inl ⟨_, _, h, rfl, rfl, fun _ _ => .raise⟩
  | multiply h => exact .inl ⟨_, _, h, rfl, rfl, fun _ _ => .multiply⟩
  | divide h => exact .inl ⟨_, _, h, rfl, rfl, fun _ _ => .divide⟩
  | adjacent h starts => exact .inr ⟨_, _, h, starts, rfl, rfl, rfl, rfl⟩
  | add h => exact .inl ⟨_, _, h, rfl, rfl, fun _ _ => .add⟩
  | subtract h => exact .inl ⟨_, _, h, rfl, rfl, fun _ _ => .subtract⟩

/-- The operator of a relation is the one that the chain finds. -/
theorem OperatorAt.next?_eq {op : Operator} {seams : List Nat} (h : OperatorAt k c op d seams) :
    k.next? room c = some { (k.readOperand room d).map (Link.operation op) with
      seams := seams ++ (k.readOperand room d).seams } := by
  cases h with
  | adjacent h starts =>
    simp only [Chain.next?, termLink?, h.peek, List.head?_cons]
    split
    · cases ‹some _ = some '*'›
      exact absurd starts (by decide)
    · cases ‹some _ = some '/'›
      exact absurd starts (by decide)
    · cases ‹some _ = some _›
      rw [if_pos starts]
      rfl
    · cases ‹some _ = none›
  | raise h | multiply h | divide h | add h | subtract h =>
    simp only [Chain.next?, powerLink?, termLink?, sumLink?, h.peek, List.head?_cons]
    rfl

theorem Stage.Reads.operand (h : k.operand.Reads room c p) : k.readOperand room c = p := by
  cases k <;> exact h

/-- A link that is found makes the chain longer. -/
theorem reads_link {n : Nat} {link : Parsed Link} (run : Run room (.links k) n c p)
    (reads : Stage.Reads room (.links k) c p) (found : k.next? room p.after = some link) :
    (∃ n, Run room (.links k) n c (p.join link)) ∧ Stage.Reads room (.links k) c (p.join link) := by
  obtain ⟨longer, progress⟩ := Chain.run_link (Chain.operand_run room k) run found
  exact ⟨longer, reads.trans (chain_of_some found progress)⟩

/-- What has a trace is the reading, and a run. -/
theorem Trace.sound (trace : Trace room stage c p t) :
    (∃ n, Run room stage n c p) ∧ stage.Reads room c p := by
  -- Factors are runs because they are the readings.
  have factor_sound {room : Nat} {c : Cursor} {p : Parsed Expr} (going : c.halted = false)
      (reads : factor room c = p) :
      (∃ n, Run room .factor n c p) ∧ Stage.factor.Reads room c p :=
    ⟨reads ▸ factor_run room c going, reads⟩
  induction trace with
  | tooDeep going => exact factor_sound going (by simp [factor, going])
  | missing h begins => exact factor_sound h.2 (begins.factor_eq h)
  | word h begins => exact factor_sound h.2 (begins.factor_eq h)
  | plus h _ ih =>
    obtain ⟨-, reads⟩ := ih
    exact factor_sound h.2 ((Begins.plus.factor_eq h).trans reads)
  | negate h _ ih =>
    obtain ⟨-, reads⟩ := ih
    exact factor_sound h.2 ((Begins.minus.factor_eq h).trans (congrArg (Parsed.map _) reads))
  | @group _ c _ name _ _ h begins _ ih =>
    obtain ⟨-, reads⟩ := ih
    refine factor_sound h.2 ((begins.factor_eq h).trans ?_)
    exact congrArg (fun p => (p.closed (c.position + name.length)).argumentOf name c.position) reads
  | @first _ k _ _ _ _ ih =>
    obtain ⟨⟨n, run⟩, reads⟩ := ih
    exact ⟨⟨n, run.first⟩, by rw [Stage.Reads, Chain.read_eq, reads.operand]⟩
  | square _ h ih =>
    obtain ⟨⟨n, run⟩, reads⟩ := ih
    exact reads_link run reads (by simp only [Chain.next?, powerLink?, h.peek]; rfl)
  | cube _ h ih =>
    obtain ⟨⟨n, run⟩, reads⟩ := ih
    exact reads_link run reads (by simp only [Chain.next?, powerLink?, h.peek]; rfl)
  | operation _ h _ left right =>
    obtain ⟨⟨n, run⟩, reads⟩ := left
    obtain ⟨-, operand⟩ := right
    exact reads_link run reads (by rw [h.next?_eq, operand.operand])
  | complete _ stops ih =>
    obtain ⟨⟨n, run⟩, reads⟩ := ih
    exact ⟨⟨n, run.complete stops⟩, reads.trans (chain_of_none (Chain.next?_eq_none_iff.2 stops))⟩

/-- The reading of a chain is the only one that has a trace. -/
theorem Trace.read_eq (trace : Trace room (.whole k) c p t) : k.read room c = p := trace.sound.2

/-- Every trace is that of a run. -/
theorem Trace.exists_run (trace : Trace room stage c p t) : ∃ n, Run room stage n c p :=
  trace.sound.1

/-- A trace passes a stretch of the source, and not an empty one where an operand starts. -/
theorem Trace.passes (trace : Trace room stage c p t) :
    ∃ w, c.Passes w p.after ∧ (0 < room → c.peek.any startsOperand → w ≠ []) := by
  obtain ⟨n, run⟩ := trace.exists_run
  exact run.passes

theorem Trace.room_pos (trace : Trace room stage c p t) (going : p.after.halted = false) :
    0 < room := by
  obtain ⟨n, run⟩ := trace.exists_run
  exact run.room_pos going

/-! ### Readings have traces -/

/-- What is left of a chain has a trace. -/
theorem Chain.exists_trace_rest
    (operand : ∀ d : Cursor, d.halted = false →
      ∃ t, Trace room k.operand d (k.readOperand room d) t)
    (trace : Trace room (.links k) c p t) :
    ∃ t, Trace room (.whole k) c (chain (k.next? room) p) t := by
  -- On the length of the rest: with one more link the trace may still be extended.
  induction hl : p.after.rest.length using Nat.strongRecOn generalizing p t with
  | ind l ih =>
    subst hl
    cases found : k.next? room p.after with
    | none =>
      rw [chain_of_none found]
      exact ⟨t, trace.complete (not_goesOn found)⟩
    | some link =>
      obtain ⟨n, run⟩ := trace.exists_run
      obtain ⟨-, progress⟩ := run_link (operand_run room k) run found
      rw [chain_of_some found progress]
      rcases next?_cases found with ⟨s, rfl, h, rfl⟩ | ⟨s, rfl, h, rfl⟩ |
        ⟨op, d, seams, h, going, rfl⟩
      · exact ih _ progress (trace.square h) rfl
      · exact ih _ progress (trace.cube h) rfl
      · obtain ⟨u, right⟩ := operand d going
        exact ih _ progress (trace.operation h right) rfl

/-- A chain has a trace if its operands have. -/
theorem Chain.exists_trace_whole
    (operand : ∀ d : Cursor, d.halted = false →
      ∃ t, Trace room k.operand d (k.readOperand room d) t)
    (c : Cursor) (going : c.halted = false) : ∃ t, Trace room (.whole k) c (k.read room c) t := by
  obtain ⟨t, first⟩ := operand c going
  rw [Chain.read_eq]
  exact exists_trace_rest operand (.first first)

/-- Chains have traces if factors do. -/
theorem Chain.exists_trace
    (factors : ∀ d : Cursor, d.halted = false → ∃ t, Trace room .factor d (factor room d) t)
    (k : Chain) : ∀ c : Cursor, c.halted = false →
      ∃ t, Trace room (.whole k) c (k.read room c) t := by
  have powers := exists_trace_whole (k := .power) factors
  have terms := exists_trace_whole (k := .term) powers
  cases k with
  | power => exact powers
  | term => exact terms
  | sum => exact exists_trace_whole (k := .sum) terms

/-- Every factor has a trace. -/
theorem factor_exists_trace (room : Nat) (c : Cursor) (going : c.halted = false) :
    ∃ t, Trace room .factor c (factor room c) t := by
  induction room generalizing c with
  | zero =>
    simp only [factor, going]
    exact ⟨_, .tooDeep going⟩
  | succ room ih =>
    have h : c.At c.rest := ⟨rfl, going⟩
    obtain ⟨f, begins⟩ := exists_begins c.rest
    rw [begins.factor_eq h]
    cases f with
    | missing => exact ⟨_, .missing h begins⟩
    | word => exact ⟨_, .word h begins⟩
    | plus =>
      obtain ⟨s, rest⟩ := begins.sign_plus
      obtain ⟨t, trace⟩ := ih (c.advance 1) going
      exact ⟨_, .plus ⟨rest, going⟩ trace⟩
    | minus =>
      obtain ⟨s, rest⟩ := begins.sign_minus
      obtain ⟨t, trace⟩ := ih (c.advance 1) going
      exact ⟨_, .negate ⟨rest, going⟩ trace⟩
    | opening name =>
      obtain ⟨t, trace⟩ := Chain.exists_trace ih .sum (c.advance (name.length + 1)) going
      exact ⟨_, .group h begins trace⟩

end Trace

/-! ### Sources -/

/-- What is parsed has a trace that starts at the beginning of the source. -/
theorem exists_trace (s : List Char) : ∃ t, Trace maxDepth (.whole .sum) (.start s)
    (expression (factor maxDepth) (.start s)) t :=
  Chain.exists_trace (factor_exists_trace maxDepth) .sum (.start s) rfl

/-- What is said about the text behind a reading. -/
def trailing (p : Parsed Expr) : List Diagnostic :=
  if p.after.halted || p.after.rest.isEmpty then []
  else [(Anomaly.trailingInput p.after.rest).diagnostic p.after.position]

theorem kind_of_mem_trailing {p : Parsed Expr} {d : Diagnostic} (h : d ∈ trailing p) :
    d.kind = .trailingInput := by
  unfold trailing at h
  split at h
  · cases h
  · rw [List.mem_singleton.1 h]
    rfl

/-- What parsing makes of a source that is neither empty nor too long. -/
theorem parse_of_trace {s : List Char} {p : Parsed Expr} {t : List Step}
    (trace : Trace maxDepth (.whole .sum) (.start s) p t) (nonempty : s ≠ [])
    (short : s.length ≤ maxLength) : parse s =
      { tree := p.value
        diagnostics := p.issues ++ trailing p
        seams := p.seams
        consumed := p.after.position } := by
  have reading : expression (factor maxDepth) (.start s) = p := trace.read_eq
  rw [parse, if_neg (by simpa using nonempty), if_neg (Nat.not_lt.2 short)]
  rw [← reading]
  rfl

/-- A source that is too long is not read. -/
theorem parse_of_long {s : List Char} (long : maxLength < s.length) : parse s =
    { tree := .missing, diagnostics := [(Anomaly.tooLong s.length).diagnostic maxLength] } := by
  have nonempty : s ≠ [] := List.length_pos_iff.1 (Nat.zero_lt_of_lt long)
  rw [parse, if_neg (by simpa using nonempty), if_pos long]

end Parser

end Curves
