import Curves.Expr.Parser

/-!
# What the parser can do

A reading in which nothing was wrong, one lemma for each chain that says which links it can find,
and the tests by which a factor is told from the next character. Facts about all readings are proved
from these.
-/

namespace Curves

namespace Cursor

/-- A cursor before the text `s` that has not been halted. -/
def At (c : Cursor) (s : List Char) : Prop := c.rest = s ∧ c.halted = false

section At
variable {c : Cursor} {x : Char} {w s : List Char}

/-- The place behind a word. -/
theorem At.advance (h : c.At (w ++ s)) : (c.advance w.length).At s := by
  simp [At, h.1, h.2]

theorem At.next (h : c.At (x :: s)) : (c.advance 1).At s := advance (w := [x]) h

theorem At.peek (h : c.At s) : c.peek = s.head? := by
  simp [Cursor.peek, h.1, h.2]

theorem At.peek_eq_some_iff (h : c.At s) : c.peek = some x ↔ ∃ s', s = x :: s' := by
  rw [h.peek, List.head?_eq_some_iff]

theorem At.of_peek (h : c.peek = some x) : ∃ s, c.At (x :: s) := by
  cases halted : c.halted with
  | true => simp [Cursor.peek, halted] at h
  | false =>
    have here : c.At c.rest := ⟨rfl, halted⟩
    obtain ⟨s, rest⟩ := here.peek_eq_some_iff.1 h
    exact ⟨s, rest, halted⟩

end At

end Cursor

/-- A reading of `a` in which nothing was wrong and behind which `r` is left. -/
structure Parsed.Reads {α : Type} (p : Parsed α) (a : α) (r : List Char) : Prop where
  value : p.value = a
  no_issues : p.issues = []
  after : p.after.At r

theorem Parsed.Reads.map {α β : Type} {p : Parsed α} {a : α} {r : List Char} (h : p.Reads a r)
    (f : α → β) : (p.map f).Reads (f a) r :=
  ⟨congrArg f h.value, h.no_issues, h.after⟩

namespace Parser

/-! ## Links -/

section Links
variable {c : Cursor} {s : List Char} {link : Parsed Link}

/-- A power goes on with a square, a cube or an exponent. -/
theorem powerLink?_cases {factor : Cursor → Parsed Expr} (hc : c.At s)
    (h : powerLink? factor c = some link) : ∃ s',
      (s = '²' :: s' ∧ link = { value := .square, after := c.advance 1 }) ∨
      (s = '³' :: s' ∧ link = { value := .cube, after := c.advance 1 }) ∨
      (s = '^' :: s' ∧ link = (factor (c.advance 1)).map (.operation .power)) := by
  unfold powerLink? at h
  split at h
  any_goals
    obtain ⟨s', hs⟩ := hc.peek_eq_some_iff.1 ‹_›
    cases h
    exact ⟨s', by simp [hs]⟩
  cases h

/-- A term goes on with a sign of its own or with an operand. -/
theorem termLink?_cases {power : Cursor → Parsed Expr} (hc : c.At s)
    (h : termLink? power c = some link) : ∃ s',
      (s = '*' :: s' ∧ link = (power (c.advance 1)).map (.operation .multiply)) ∨
      (s = '/' :: s' ∧ link = (power (c.advance 1)).map (.operation .divide)) ∨
      (∃ x, s = x :: s' ∧ startsOperand x ∧
        link = { (power c).map (Link.operation .multiply) with
          seams := c.position :: (power c).seams }) := by
  unfold termLink? at h
  split at h
  · obtain ⟨s', hs⟩ := hc.peek_eq_some_iff.1 ‹_›
    cases h
    exact ⟨s', .inl ⟨hs, rfl⟩⟩
  · obtain ⟨s', hs⟩ := hc.peek_eq_some_iff.1 ‹_›
    cases h
    exact ⟨s', .inr (.inl ⟨hs, rfl⟩)⟩
  · obtain ⟨s', hs⟩ := hc.peek_eq_some_iff.1 ‹_›
    split at h
    · cases h
      exact ⟨s', .inr (.inr ⟨_, hs, ‹_›, rfl⟩)⟩
    · cases h
  · cases h

/-- An expression goes on with a plus or a minus. -/
theorem sumLink?_cases {term : Cursor → Parsed Expr} (hc : c.At s)
    (h : sumLink? term c = some link) : ∃ s',
      (s = '+' :: s' ∧ link = (term (c.advance 1)).map (.operation .add)) ∨
      (s = '-' :: s' ∧ link = (term (c.advance 1)).map (.operation .subtract)) := by
  unfold sumLink? at h
  split at h
  any_goals
    obtain ⟨s', hs⟩ := hc.peek_eq_some_iff.1 ‹_›
    cases h
    exact ⟨s', by simp [hs]⟩
  cases h

end Links

/-! ## Factors -/

section Factors
variable {c : Cursor} {x : Char} {s : List Char}

theorem factor_end (room : Nat) (hc : c.At []) :
    factor (room + 1) c = .absent .unexpectedEnd c := by
  simp [factor, hc.1, hc.2]

/-- What is read is decided by the first character, and for names by what follows. -/
theorem factor_cons (room : Nat) (hc : c.At (x :: s)) :
    factor (room + 1) c =
      if x = '-' then (factor room (c.advance 1)).map .negate
      else if x = '+' then factor room (c.advance 1)
      else if x.isDigit then number c
      else if x = 'x' then { value := .var, after := c.advance 1 }
      else if x = 'e' ∧ !s.head?.any Text.isLetter then
        { value := .number Number.e, after := c.advance 1 }
      else if x = 'p' ∧ s.head? = some 'i' then
        { value := .number Number.pi, after := c.advance 2 }
      else if Text.isLetter x then named (expression (factor room)) c
      else if x = '(' then group (expression (factor room)) c
      else .absent (.unexpectedCharacter x) c := by
  simp only [factor, hc.1, hc.2, Bool.false_eq_true, if_false]

end Factors

/-! ## Words -/

/-- A word at the front that goes on as long as `p` holds. -/
theorem exists_word {p : Char → Bool} (s : List Char) : ∃ w r, s = w ++ r ∧
    (∀ d ∈ w, p d) ∧ (∀ d ∈ r.head?, ¬ p d) := by
  refine ⟨s.takeWhile p, s.dropWhile p, List.takeWhile_append_dropWhile.symm,
    List.all_eq_true.1 List.all_takeWhile, fun d hd => ?_⟩
  have := List.head?_dropWhile_not p s
  rw [Option.mem_def.1 hd] at this
  simp [this]

theorem no_letter_iff {next : Option Char} :
    (!next.any Text.isLetter) = true ↔ ∀ c ∈ next, ¬ Text.isLetter c := by
  cases next <;> simp

/-- An operand begins with a digit, a letter or a parenthesis. -/
theorem startsOperand_iff (c : Char) :
    startsOperand c ↔ c.isDigit ∨ Text.isLetter c ∨ c = '(' := by
  have letter : c = 'x' → Text.isLetter c := by rintro rfl; decide
  simp only [startsOperand, Bool.or_eq_true, beq_iff_eq]
  constructor
  · rintro (((h | h) | h) | h) <;> simp_all
  · rintro (h | h | h) <;> simp_all

end Parser

end Curves
