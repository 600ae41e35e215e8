import Curves.Proofs.Expr.Reading

/-!
# Runs of the parser

What the parser does on any text, said as one relation. A run reads a construct at a cursor where
nothing has been halted, with factors nested to a known depth. A chain is extended link by link and
is complete when no link follows. What holds of every reading is proved by induction on its run.

Main statements:

* `Run.passed`: a run passes over a part of the text;
* `Chain.run`: every complete chain is read by a run, and each link of it passes over some text.
-/

namespace Curves

/-- A reading whose operand is extended by a link. -/
def Parsed.join (p : Parsed Expr) (link : Parsed Parser.Link) : Parsed Expr where
  value := link.value.attach p.value
  issues := p.issues ++ link.issues
  seams := p.seams ++ link.seams
  after := link.after

/-- The content of a group that was opened at a place, read up to its `)`. -/
def Parsed.closed (opening : Nat) (p : Parsed Expr) : Parsed Expr :=
  if p.after.peek = some ')' then { p with after := p.after.advance 1 }
  else if p.after.halted then p
  else { p with issues := p.issues ++ [Anomaly.unclosedParenthesis.diagnostic opening] }

namespace Parser

/-- The constructs that hang links on a first operand. -/
inductive Chain where
  | power
  | term
  | sum

/-- What is being read: a factor, a chain to which links may be added, or a complete chain. -/
inductive Stage where
  | factor
  | links (chain : Chain)
  | whole (chain : Chain)

namespace Chain

def operand : Chain → Stage
  | .power => .factor
  | .term => .whole .power
  | .sum => .whole .term

def goesOn : Chain → Char → Bool
  | .power, x => x == '²' || x == '³' || x == '^'
  | .term, x => x == '*' || x == '/' || startsOperand x
  | .sum, x => x == '+' || x == '-'

def read (room : Nat) : Chain → Cursor → Parsed Expr
  | .power => Parser.power (factor room)
  | .term => Parser.term (factor room)
  | .sum => Parser.expression (factor room)

def readOperand (room : Nat) : Chain → Cursor → Parsed Expr
  | .power => factor room
  | .term => read room .power
  | .sum => read room .term

def next? (room : Nat) : Chain → Cursor → Option (Parsed Link)
  | .power => powerLink? (factor room)
  | .term => termLink? (read room .power)
  | .sum => sumLink? (read room .term)

/-- A chain is its first operand with all links that are found behind it. -/
theorem read_eq (room : Nat) (k : Chain) (c : Cursor) :
    k.read room c = chain (k.next? room) (k.readOperand room c) := by
  cases k <;> rfl

end Chain

/-- `OperatorAt k c op d seams` says that a chain of kind `k` goes on at `c` with `op`, and that the
right operand begins at `d`. Only a product has an operator that is not written. -/
inductive OperatorAt : Chain → Cursor → Operator → Cursor → List Nat → Prop
  | raise {c s} : c.At ('^' :: s) → OperatorAt .power c .power (c.advance 1) []
  | multiply {c s} : c.At ('*' :: s) → OperatorAt .term c .multiply (c.advance 1) []
  | divide {c s} : c.At ('/' :: s) → OperatorAt .term c .divide (c.advance 1) []
  | adjacent {c x s} : c.At (x :: s) → startsOperand x →
      OperatorAt .term c .multiply c [c.position]
  | add {c s} : c.At ('+' :: s) → OperatorAt .sum c .add (c.advance 1) []
  | subtract {c s} : c.At ('-' :: s) → OperatorAt .sum c .subtract (c.advance 1) []

theorem OperatorAt.going {k : Chain} {c d : Cursor} {op : Operator} {seams : List Nat}
    (h : OperatorAt k c op d seams) : c.halted = false := by
  cases h with
  | raise h | multiply h | divide h | adjacent h | add h | subtract h => exact h.2

/-- Factors that are read without reading others. -/
inductive Leaf : Cursor → Parsed Expr → Prop
  | number {c x s} : c.At (x :: s) → x.isDigit → Leaf c (number c)
  | var {c s} : c.At ('x' :: s) → Leaf c { value := .var, after := c.advance 1 }
  | euler {c s} : c.At ('e' :: s) → Leaf c { value := .number Number.e, after := c.advance 1 }
  | circle {c s} : c.At ('p' :: 'i' :: s) →
      Leaf c { value := .number Number.pi, after := c.advance 2 }
  | name {c w s} : c.At (w ++ s) → w ≠ [] → (∀ d ∈ w, Text.isLetter d) →
      Leaf c
        { value := .unknownName (String.ofList w)
          issues := [(Anomaly.missingFunctionArgument w).diagnostic c.position]
          after := c.advance w.length }
  | unexpected {c x s} : c.At (x :: s) → startsOperand x = false →
      Leaf c (.absent (.unexpectedCharacter x) c)
  | end {c} : c.At [] → Leaf c (.absent .unexpectedEnd c)

/-- `Run room k n c p` says that reading `k` at `c` gives `p` if factors may nest `room` deep, and
that they nest `n` deep. -/
inductive Run : (room : Nat) → Stage → (nested : Nat) → Cursor → Parsed Expr → Prop
  | tooDeep {c} : c.halted = false →
      Run 0 .factor 0 c { Parsed.absent .tooDeep c with after := { c with halted := true } }
  | leaf {room c p} : Leaf c p → Run (room + 1) .factor 1 c p
  | plus {room n c s p} : c.At ('+' :: s) → Run room .factor n (c.advance 1) p →
      Run (room + 1) .factor (n + 1) c p
  | negate {room n c s p} : c.At ('-' :: s) → Run room .factor n (c.advance 1) p →
      Run (room + 1) .factor (n + 1) c (p.map .negate)
  | group {room n c s p} : c.At ('(' :: s) → Run room (.whole .sum) n (c.advance 1) p →
      Run (room + 1) .factor (n + 1) c (p.closed c.position)
  | call {room n c w s p} (f : NamedFunction) : c.At (w ++ '(' :: s) → w ≠ [] →
      (∀ d ∈ w, Text.isLetter d) → Run room (.whole .sum) n (c.advance (w.length + 1)) p →
      Run (room + 1) .factor (n + 1) c ((p.closed (c.position + w.length)).map (.call f))
  | unknownCall {room n c w s p} : c.At (w ++ '(' :: s) → w ≠ [] →
      (∀ d ∈ w, Text.isLetter d) → Run room (.whole .sum) n (c.advance (w.length + 1)) p →
      Run (room + 1) .factor (n + 1) c
        { (p.closed (c.position + w.length)).map (.unknownCall (String.ofList w)) with
          issues := (Anomaly.unknownFunction w).diagnostic c.position ::
            (p.closed (c.position + w.length)).issues }
  | first {room k n c p} : Run room (Chain.operand k) n c p → Run room (.links k) n c p
  | square {room n c s p} : Run room (.links .power) n c p → p.after.At ('²' :: s) →
      Run room (.links .power) n c (p.join { value := .square, after := p.after.advance 1 })
  | cube {room n c s p} : Run room (.links .power) n c p → p.after.At ('³' :: s) →
      Run room (.links .power) n c (p.join { value := .cube, after := p.after.advance 1 })
  | operation {room k m n c p op d seams q} : Run room (.links k) m c p →
      OperatorAt k p.after op d seams → Run room k.operand n d q →
      Run room (.links k) (max m n) c
        (p.join { q.map (Link.operation op) with seams := seams ++ q.seams })
  | complete {room k n c p} : Run room (.links k) n c p → (∀ x ∈ p.after.peek, ¬ k.goesOn x) →
      Run room (.whole k) n c p

/-- A group is closed by its `)`; or the parser is halted; or its parenthesis is reported. -/
theorem closed_cases (opening : Nat) (p : Parsed Expr) :
    (∃ s, p.after.At (')' :: s) ∧ p.closed opening = { p with after := p.after.advance 1 }) ∨
      (p.after.halted ∧ p.closed opening = p) ∨
      (p.after.halted = false ∧ p.closed opening =
        { p with issues := p.issues ++ [Anomaly.unclosedParenthesis.diagnostic opening] }) := by
  unfold Parsed.closed
  split
  · rename_i found
    obtain ⟨s, h⟩ := Cursor.At.of_peek found
    exact .inl ⟨s, h, rfl⟩
  · split
    · exact .inr (.inl ⟨‹_›, rfl⟩)
    · exact .inr (.inr ⟨by simpa using ‹¬ p.after.halted = true›, rfl⟩)

section Run
variable {room n : Nat} {k : Stage} {c : Cursor} {p : Parsed Expr}

/-- Nothing is read where reading was halted. -/
theorem Run.going (run : Run room k n c p) : c.halted = false := by
  induction run with
  | tooDeep going => exact going
  | leaf leaf =>
    cases leaf with
    | number h | var h | euler h | circle h | name h | unexpected h | «end» h => exact h.2
  | plus h | negate h | group h | call _ h | unknownCall h => exact h.2
  | first _ ih | square _ _ ih | cube _ _ ih | operation _ _ _ ih | complete _ _ ih => exact ih

/-- Factors nest as deep as they may at most. -/
theorem Run.nested_le (run : Run room k n c p) : n ≤ room := by
  induction run <;> omega

/-- Where there is no room for a factor, reading halts. -/
theorem Run.room_pos (run : Run room k n c p) (going : p.after.halted = false) : 0 < room := by
  induction run with
  | tooDeep => cases going
  | first _ ih => exact ih going
  | square _ _ ih => exact ih going
  | cube _ _ ih => exact ih going
  | operation _ _ _ _ ih => exact ih going
  | complete _ _ ih => exact ih going
  | _ => exact Nat.succ_pos _

end Run

end Parser

/-! ## The text that is passed -/

namespace Cursor

/-- `w` is the text from `c` to `d`. -/
structure Passes (c : Cursor) (w : List Char) (d : Cursor) : Prop where
  rest : c.rest = w ++ d.rest
  position : d.position = c.position + w.length

namespace Passes
variable {c d e : Cursor} {v w s : List Char} {x : Char}

theorem refl (c : Cursor) : c.Passes [] c := ⟨rfl, rfl⟩

theorem trans (h : c.Passes v d) (h' : d.Passes w e) : c.Passes (v ++ w) e := by
  constructor
  · rw [h.rest, h'.rest, List.append_assoc]
  · rw [h'.position, h.position, List.length_append, Nat.add_assoc]

theorem word (h : c.At (w ++ s)) : c.Passes w (c.advance w.length) :=
  ⟨by rw [h.1, h.advance.1], rfl⟩

theorem next (h : c.At (x :: s)) : c.Passes [x] (c.advance 1) := word (w := [x]) h

/-- A name and the parenthesis behind it. -/
theorem opened (h : c.At (w ++ '(' :: s)) : c.Passes (w ++ ['(']) (c.advance (w.length + 1)) := by
  have passes : c.Passes (w ++ ['(']) (c.advance (w ++ ['(']).length) := word (by simpa using h)
  rwa [List.length_append] at passes

theorem length_lt (h : c.Passes w d) (nonempty : w ≠ []) : d.rest.length < c.rest.length := by
  rw [h.rest, List.length_append]
  have := List.length_pos_iff.2 nonempty
  omega

/-- Two places have one text between them. -/
theorem unique (h : c.Passes v d) (h' : c.Passes w d) : v = w :=
  List.append_cancel_right (h.rest.symm.trans h'.rest)

/-- A reading does not go back. -/
theorem position_le (h : c.Passes w d) : c.position ≤ d.position :=
  h.position ▸ Nat.le_add_right ..

theorem position_lt (h : c.Passes w d) (nonempty : w ≠ []) : c.position < d.position :=
  h.position ▸ Nat.lt_add_of_pos_right (List.length_pos_iff.2 nonempty)

end Passes

end Cursor

namespace Parser
open Cursor

theorem closed_passes (opening : Nat) (p : Parsed Expr) :
    ∃ v, p.after.Passes v (p.closed opening).after := by
  rcases closed_cases opening p with ⟨s, found, eq⟩ | ⟨-, eq⟩ | ⟨-, eq⟩ <;> rw [eq]
  · exact ⟨_, .next found⟩
  · exact ⟨_, .refl _⟩
  · exact ⟨_, .refl _⟩

theorem after_number (c : Cursor) :
    (number c).after = c.advance (c.rest.takeWhile isLiteralChar).length := by
  unfold number
  dsimp only
  split <;> rfl

theorem number_passes {c : Cursor} {x : Char} {s : List Char} (h : c.At (x :: s))
    (digit : x.isDigit) : ∃ w, c.Passes w (number c).after ∧ w ≠ [] ∧
      ∀ d ∈ w, isLiteralChar d := by
  obtain ⟨w, r, cut, word, stop⟩ := exists_word (p := isLiteralChar) (x :: s)
  have literal : c.rest.takeWhile isLiteralChar = w := by
    rw [h.1, cut, List.takeWhile_append_of_pos word]
    cases r with
    | nil => simp
    | cons d r => simp [stop d rfl]
  rw [after_number, literal]
  refine ⟨w, .word (cut ▸ h), ?_, word⟩
  rintro rfl
  subst cut
  exact stop x rfl (by simp [isLiteralChar, digit])

/-- A leaf is a stretch of the source, and not an empty one where an operand starts. -/
theorem Leaf.passes {c : Cursor} {p : Parsed Expr} (leaf : Leaf c p) :
    ∃ w, c.Passes w p.after ∧ (c.peek.any startsOperand → w ≠ []) := by
  cases leaf with
  | number h digit =>
    obtain ⟨w, passes, nonempty, -⟩ := number_passes h digit
    exact ⟨w, passes, fun _ => nonempty⟩
  | var h => exact ⟨_, .next h, fun _ => List.cons_ne_nil _ _⟩
  | euler h => exact ⟨_, .next h, fun _ => List.cons_ne_nil _ _⟩
  | circle h => exact ⟨_, .word (w := ['p', 'i']) h, fun _ => List.cons_ne_nil _ _⟩
  | name h nonempty => exact ⟨_, .word h, fun _ => nonempty⟩
  | unexpected h other => exact ⟨[], .refl _, fun starts => by simp [h.peek, other] at starts⟩
  | «end» h => exact ⟨[], .refl _, fun starts => by simp [h.peek] at starts⟩

theorem OperatorAt.passes {k : Chain} {c d : Cursor} {op : Operator} {seams : List Nat}
    (h : OperatorAt k c op d seams) :
    ∃ v, c.Passes v d ∧ (v = [] → d.peek.any startsOperand) := by
  cases h with
  | adjacent h starts => exact ⟨[], .refl _, fun _ => by simpa [h.peek] using starts⟩
  | raise h | multiply h | divide h | add h | subtract h =>
    exact ⟨_, .next h, nofun⟩

section Run
variable {room n : Nat} {k : Stage} {c : Cursor} {p : Parsed Expr}

/-- A run passes over a part of the text, which is not empty if an operand begins there. -/
theorem Run.passes (run : Run room k n c p) :
    ∃ w, c.Passes w p.after ∧ (0 < room → c.peek.any startsOperand → w ≠ []) := by
  induction run with
  | tooDeep => exact ⟨[], ⟨rfl, rfl⟩, fun none => absurd none (Nat.lt_irrefl 0)⟩
  | leaf leaf =>
    obtain ⟨w, passes, nonempty⟩ := leaf.passes
    exact ⟨w, passes, fun _ => nonempty⟩
  | plus h _ ih | negate h _ ih =>
    obtain ⟨w, passes, -⟩ := ih
    exact ⟨_, (Passes.next h).trans passes, fun _ _ => List.cons_ne_nil _ _⟩
  | @group _ _ c _ p h _ ih =>
    obtain ⟨w, passes, -⟩ := ih
    obtain ⟨v, closing⟩ := closed_passes c.position p
    exact ⟨_, ((Passes.next h).trans passes).trans closing, fun _ _ => List.cons_ne_nil _ _⟩
  | @call _ _ c name _ p _ h nonempty _ _ ih | @unknownCall _ _ c name _ p h nonempty _ _ ih =>
    obtain ⟨w, passes, -⟩ := ih
    obtain ⟨v, closing⟩ := closed_passes (c.position + name.length) p
    exact ⟨_, ((Passes.opened h).trans passes).trans closing, fun _ _ => by simp [nonempty]⟩
  | first _ ih => exact ih
  | square _ h ih | cube _ h ih =>
    obtain ⟨w, passes, -⟩ := ih
    exact ⟨_, passes.trans (.next h), fun _ _ => by simp⟩
  | operation _ h _ left right =>
    obtain ⟨w, passes, nonempty⟩ := left
    obtain ⟨v, sign, -⟩ := h.passes
    obtain ⟨u, operand, -⟩ := right
    exact ⟨_, (passes.trans sign).trans operand, fun pos starts => by simp [nonempty pos starts]⟩
  | complete _ _ ih => exact ih

end Run

/-! ## Every reading is a run -/

section Chain
variable {room : Nat} {k : Chain} {c : Cursor}

theorem Chain.next?_of_halted (halted : c.halted) : k.next? room c = none := by
  cases k <;> simp [next?, powerLink?, termLink?, sumLink?, Cursor.peek, halted]

/-- A chain goes on with an exponent that is one character, or with an operator and an operand. -/
theorem Chain.next?_cases {link : Parsed Link} (h : k.next? room c = some link) :
    (∃ s, k = .power ∧ c.At ('²' :: s) ∧ link = { value := .square, after := c.advance 1 }) ∨
      (∃ s, k = .power ∧ c.At ('³' :: s) ∧ link = { value := .cube, after := c.advance 1 }) ∨
      ∃ op d seams, OperatorAt k c op d seams ∧ d.halted = false ∧
        link = { (k.readOperand room d).map (Link.operation op) with
          seams := seams ++ (k.readOperand room d).seams } := by
  have going : c.halted = false := by
    cases halted : c.halted with
    | false => rfl
    | true => simp [next?_of_halted halted] at h
  have hc : c.At c.rest := ⟨rfl, going⟩
  cases k with
  | power =>
    obtain ⟨s, ⟨hs, rfl⟩ | ⟨hs, rfl⟩ | ⟨hs, rfl⟩⟩ := powerLink?_cases hc h <;> rw [hs] at hc
    · exact .inl ⟨s, rfl, hc, rfl⟩
    · exact .inr (.inl ⟨s, rfl, hc, rfl⟩)
    · exact .inr (.inr ⟨_, _, _, .raise hc, going, rfl⟩)
  | term =>
    obtain ⟨s, ⟨hs, rfl⟩ | ⟨hs, rfl⟩ | ⟨x, hs, starts, rfl⟩⟩ := termLink?_cases hc h <;>
      rw [hs] at hc
    · exact .inr (.inr ⟨_, _, _, .multiply hc, going, rfl⟩)
    · exact .inr (.inr ⟨_, _, _, .divide hc, going, rfl⟩)
    · exact .inr (.inr ⟨_, _, _, .adjacent hc starts, going, rfl⟩)
  | sum =>
    obtain ⟨s, ⟨hs, rfl⟩ | ⟨hs, rfl⟩⟩ := sumLink?_cases hc h <;> rw [hs] at hc
    · exact .inr (.inr ⟨_, _, _, .add hc, going, rfl⟩)
    · exact .inr (.inr ⟨_, _, _, .subtract hc, going, rfl⟩)

theorem Chain.not_goesOn (h : k.next? room c = none) : ∀ x ∈ c.peek, ¬ k.goesOn x := by
  intro x hx goesOn
  rw [Option.mem_def] at hx
  cases k with
  | power =>
    simp only [Chain.goesOn, Bool.or_eq_true, beq_iff_eq] at goesOn
    rcases goesOn with (rfl | rfl) | rfl <;> simp [next?, powerLink?, hx] at h
  | term =>
    simp only [next?, termLink?, hx] at h
    simp only [Chain.goesOn, Bool.or_eq_true, beq_iff_eq] at goesOn
    split at h
    · cases h
    · cases h
    · rename_i multiplied divided same
      cases same
      split at h
      · cases h
      · rcases goesOn with (rfl | rfl) | starts
        · exact multiplied rfl
        · exact divided rfl
        · contradiction
    · cases ‹some x = none›
  | sum =>
    simp only [Chain.goesOn, Bool.or_eq_true, beq_iff_eq] at goesOn
    rcases goesOn with rfl | rfl <;> simp [next?, sumLink?, hx] at h

theorem chain_of_none {next? : Cursor → Option (Parsed Link)} {p : Parsed Expr}
    (h : next? p.after = none) : chain next? p = p := by
  simp [chain, links, h]

theorem chain_of_some {next? : Cursor → Option (Parsed Link)} {p : Parsed Expr}
    {link : Parsed Link} (h : next? p.after = some link)
    (progress : link.after.rest.length < p.after.rest.length) :
    chain next? p = chain next? (p.join link) := by
  have unfolded : links next? p.after =
      { value := link.value :: (links next? link.after).value
        issues := link.issues ++ (links next? link.after).issues
        seams := link.seams ++ (links next? link.after).seams
        after := (links next? link.after).after } := by
    rw [links, h]
    simp only [progress, if_true]
  simp [chain, unfolded, Parsed.join]

/-- A link passes over some text, unless there is no room for its operand. -/
theorem Chain.next?_passes {link : Parsed Link}
    (operand : ∀ d : Cursor, d.halted = false →
      ∃ n, Run room k.operand n d (k.readOperand room d))
    (h : k.next? room c = some link) :
    c.halted = false ∧ ∃ v, c.Passes v link.after ∧ (0 < room → v ≠ []) := by
  rcases next?_cases h with ⟨s, rfl, found, rfl⟩ | ⟨s, rfl, found, rfl⟩ |
    ⟨op, d, seams, found, going, rfl⟩
  · exact ⟨found.2, _, .next found, fun _ => List.cons_ne_nil _ _⟩
  · exact ⟨found.2, _, .next found, fun _ => List.cons_ne_nil _ _⟩
  · obtain ⟨m, right⟩ := operand d going
    obtain ⟨v, sign, starts⟩ := found.passes
    obtain ⟨w, passes, nonempty⟩ := right.passes
    refine ⟨found.going, _, sign.trans passes, fun pos nothing => ?_⟩
    obtain ⟨rfl, rfl⟩ := List.append_eq_nil_iff.1 nothing
    exact nonempty pos (starts rfl) rfl

/-- A link hangs on the reading before it and passes over some text, so a chain comes to an end. -/
theorem Chain.run_link {n : Nat} {p : Parsed Expr} {link : Parsed Link}
    (operand : ∀ d : Cursor, d.halted = false →
      ∃ n, Run room k.operand n d (k.readOperand room d))
    (run : Run room (.links k) n c p) (h : k.next? room p.after = some link) :
    (∃ n, Run room (.links k) n c (p.join link)) ∧
      link.after.rest.length < p.after.rest.length := by
  obtain ⟨going, v, passes, nonempty⟩ := next?_passes operand h
  refine ⟨?_, passes.length_lt (nonempty (run.room_pos going))⟩
  rcases next?_cases h with ⟨s, rfl, found, rfl⟩ | ⟨s, rfl, found, rfl⟩ |
    ⟨op, d, seams, found, going, rfl⟩
  · exact ⟨n, run.square found⟩
  · exact ⟨n, run.cube found⟩
  · obtain ⟨m, right⟩ := operand d going
    exact ⟨_, run.operation found right⟩

/-- What is left of a chain is read by a run. -/
theorem Chain.run_rest
    (operand : ∀ d : Cursor, d.halted = false →
      ∃ n, Run room k.operand n d (k.readOperand room d))
    {n : Nat} {p : Parsed Expr} (run : Run room (.links k) n c p) :
    ∃ n, Run room (.whole k) n c (chain (k.next? room) p) := by
  -- On the length of the rest: with one more link the reading may still be extended.
  induction hl : p.after.rest.length using Nat.strongRecOn generalizing n p with
  | ind l ih =>
    subst hl
    cases h : k.next? room p.after with
    | none =>
      rw [chain_of_none h]
      exact ⟨n, run.complete (not_goesOn h)⟩
    | some link =>
      obtain ⟨⟨m, longer⟩, progress⟩ := run_link operand run h
      rw [chain_of_some h progress]
      exact ih _ progress longer rfl

/-- A chain is read by a run if its operands are. -/
theorem Chain.run_whole
    (operand : ∀ d : Cursor, d.halted = false →
      ∃ n, Run room k.operand n d (k.readOperand room d))
    (c : Cursor) (going : c.halted = false) : ∃ n, Run room (.whole k) n c (k.read room c) := by
  obtain ⟨n, first⟩ := operand c going
  rw [read_eq]
  exact run_rest operand (.first first)

/-- Chains have runs if factors do. -/
theorem Chain.run
    (factors : ∀ d : Cursor, d.halted = false → ∃ n, Run room .factor n d (factor room d))
    (k : Chain) : ∀ c : Cursor, c.halted = false →
      ∃ n, Run room (.whole k) n c (k.read room c) := by
  have powers := run_whole (k := .power) factors
  have terms := run_whole (k := .term) powers
  have sums := run_whole (k := .sum) terms
  cases k with
  | power => exact powers
  | term => exact terms
  | sum => exact sums

end Chain

/-! ### Factors -/

theorem named_run {room : Nat} {c : Cursor} {x : Char} {s : List Char} (h : c.At (x :: s))
    (letter : Text.isLetter x)
    (sums : ∀ d : Cursor, d.halted = false →
      ∃ n, Run room (.whole .sum) n d (expression (factor room) d)) :
    ∃ n, Run (room + 1) .factor n c (named (expression (factor room)) c) := by
  obtain ⟨w, r, cut, word, stop⟩ := exists_word (p := Text.isLetter) (x :: s)
  have name : c.rest.takeWhile Text.isLetter = w := by
    rw [h.1, cut, List.takeWhile_append_of_pos word]
    cases r with
    | nil => simp
    | cons d r => simp [stop d rfl]
  have nonempty : w ≠ [] := by
    rintro rfl
    subst cut
    exact stop x rfl letter
  rw [cut] at h
  unfold named
  rw [name]
  dsimp only
  split
  · rename_i opened
    obtain ⟨r, rfl⟩ := (At.peek_eq_some_iff h.advance).1 opened
    obtain ⟨n, inner⟩ := sums (c.advance (w.length + 1)) h.2
    have group_eq : group (expression (factor room)) (c.advance w.length) =
        (expression (factor room) (c.advance (w.length + 1))).closed (c.position + w.length) := by
      have : (c.advance w.length).advance 1 = c.advance (w.length + 1) := by
        simp [Cursor.advance, Nat.add_assoc]
      unfold group
      rw [this]
      rfl
    rw [group_eq]
    split
    · exact ⟨_, .call _ h nonempty word inner⟩
    · exact ⟨_, .unknownCall h nonempty word inner⟩
  · exact ⟨_, .leaf (.name h nonempty word)⟩

/-- Every factor is read by a run. -/
theorem factor_run (room : Nat) (c : Cursor) (going : c.halted = false) :
    ∃ n, Run room .factor n c (factor room c) := by
  induction room generalizing c with
  | zero =>
    refine ⟨0, ?_⟩
    simp only [factor, going]
    exact .tooDeep going
  | succ room ih =>
    have sums := Chain.run ih .sum
    unfold factor
    rw [if_neg (by simp [going])]
    -- The cases come in the order of the tests on the next character.
    split
    · rename_i rest
      exact ⟨_, .leaf (.end ⟨rest, going⟩)⟩
    · rename_i x s rest
      have h : c.At (x :: s) := ⟨rest, going⟩
      split
      · subst x
        obtain ⟨n, run⟩ := ih (c.advance 1) going
        exact ⟨_, run.negate h⟩
      split
      · subst x
        obtain ⟨n, run⟩ := ih (c.advance 1) going
        exact ⟨_, run.plus h⟩
      split
      · exact ⟨_, .leaf (.number h ‹_›)⟩
      split
      · subst x
        exact ⟨_, .leaf (.var h)⟩
      split
      · obtain ⟨rfl, -⟩ := ‹x = 'e' ∧ _›
        exact ⟨_, .leaf (.euler h)⟩
      split
      · obtain ⟨rfl, second⟩ := ‹x = 'p' ∧ _›
        obtain ⟨s, rfl⟩ := List.head?_eq_some_iff.1 second
        exact ⟨_, .leaf (.circle h)⟩
      split
      · exact named_run h ‹_› sums
      split
      · subst x
        obtain ⟨n, run⟩ := sums (c.advance 1) going
        exact ⟨_, .group h run⟩
      · refine ⟨_, .leaf (.unexpected h ?_)⟩
        simp [startsOperand, *]

end Parser

/-! ## Sources -/

section Sources
open Curves.Parser

/-- What is parsed is read by a run that starts at the beginning of the source. -/
theorem exists_run (s : List Char) : ∃ n, Run maxDepth (.whole .sum) n (.start s)
    (expression (factor maxDepth) (.start s)) :=
  Chain.run (factor_run maxDepth) .sum (.start s) rfl

/-- A run from the beginning of a source does not pass its end. -/
theorem Parser.Run.position_le {room n : Nat} {k : Stage} {s : List Char} {p : Parsed Expr}
    (run : Run room k n (.start s) p) : p.after.position ≤ s.length := by
  obtain ⟨w, passes, -⟩ := run.passes
  have whole : s = w ++ p.after.rest := passes.rest
  have position : p.after.position = 0 + w.length := passes.position
  rw [position, whole, List.length_append]
  omega

/-- A source is empty, too long, or read by a run behind which text may be left over. -/
theorem parse_cases (s : List Char) :
    (s = [] ∧ parse s =
      { tree := .missing, diagnostics := [Anomaly.emptyExpression.diagnostic 0] }) ∨
    (maxLength < s.length ∧ parse s =
      { tree := .missing, diagnostics := [(Anomaly.tooLong s.length).diagnostic maxLength] }) ∨
    (s.length ≤ maxLength ∧ ∃ n p trailing, Run maxDepth (.whole .sum) n (.start s) p ∧
      (∀ d ∈ trailing, d.kind = .trailingInput) ∧ parse s =
        { tree := p.value
          diagnostics := p.issues ++ trailing
          seams := p.seams
          consumed := p.after.position }) := by
  unfold parse
  split
  · exact .inl ⟨List.isEmpty_iff.1 ‹_›, rfl⟩
  split
  · exact .inr (.inl ⟨‹_›, rfl⟩)
  · obtain ⟨n, run⟩ := exists_run s
    refine .inr (.inr ⟨Nat.not_lt.1 ‹_›, n, _, _, run, ?_, rfl⟩)
    intro d hd
    split at hd
    · cases hd
    · rw [List.mem_singleton.1 hd]
      rfl

end Sources

end Curves
