import Curves.Expr.Parser

/-!
# The grammar of expressions

Which trees a text stands for, said by rules and without a parser. `Derives k n s t r` says that
`s` begins with a construct of kind `k` that stands for `t`, that `r` is what follows it, and that
factors nest at most `n` deep in it. A chain is a rule that recurses on its left operand. What
follows a number or the constant `e` is restricted, because both extend as far as they can.
-/

namespace Curves.Grammar

/-- The constructs, from the loosest to the tightest. -/
inductive Construct where
  | expression
  | term
  | power
  | factor

def isSeparator (c : Char) : Bool := c == '.' || c == ','

/-- A digit, and more digits with at most one separator among or behind them. -/
structure IsLiteral (w : List Char) : Prop where
  digit_first : ∃ c ∈ w.head?, c.isDigit
  digit_or_separator : ∀ c ∈ w, c.isDigit ∨ isSeparator c
  one_separator : w.countP isSeparator ≤ 1

/-- The decimal that a literal denotes. What follows the separator are its decimals. -/
def literalDecimal (w : List Char) : Number.Decimal where
  digits := Number.digitsValue (w.filter Char.isDigit)
  exponent := -((w.dropWhile Char.isDigit).tail.length : Int)

/-- `s` is a construct that stands for `t`, and then `r`, with factors nested at most `n` deep. An
operand without signs, parentheses and arguments is one deep, and each sign, pair of parentheses
and argument around it adds one. Names of functions are written in letters and end at their `(`;
none of them is `e` or begins with `x` or `pi`. -/
inductive Derives : (kind : Construct) → (n : Nat) → (s : List Char) → (t : Expr) →
    (r : List Char) → Prop
  | term {n s t r} : Derives .term n s t r → Derives .expression n s t r
  | add {n s t s' u r} : Derives .expression n s t ('+' :: s') → Derives .term n s' u r →
      Derives .expression n s (.binary .add t u) r
  | subtract {n s t s' u r} : Derives .expression n s t ('-' :: s') → Derives .term n s' u r →
      Derives .expression n s (.binary .subtract t u) r
  | power {n s t r} : Derives .power n s t r → Derives .term n s t r
  | multiply {n s t s' u r} : Derives .term n s t ('*' :: s') → Derives .power n s' u r →
      Derives .term n s (.binary .multiply t u) r
  | divide {n s t s' u r} : Derives .term n s t ('/' :: s') → Derives .power n s' u r →
      Derives .term n s (.binary .divide t u) r
  | adjacent {n s t c s' u r} : Derives .term n s t (c :: s') →
      c.isDigit ∨ Text.isLetter c ∨ c = '(' → Derives .power n (c :: s') u r →
      Derives .term n s (.binary .multiply t u) r
  | factor {n s t r} : Derives .factor n s t r → Derives .power n s t r
  | raise {n s t s' u r} : Derives .power n s t ('^' :: s') → Derives .factor n s' u r →
      Derives .power n s (.binary .power t u) r
  | square {n s t r} : Derives .power n s t ('²' :: r) → Derives .power n s (.square t) r
  | cube {n s t r} : Derives .power n s t ('³' :: r) → Derives .power n s (.cube t) r
  | plus {n s t r} : Derives .factor n s t r → Derives .factor (n + 1) ('+' :: s) t r
  | minus {n s t r} : Derives .factor n s t r → Derives .factor (n + 1) ('-' :: s) (.negate t) r
  | number {n w r} : IsLiteral w → (∀ c ∈ r.head?, ¬ (c.isDigit ∨ isSeparator c)) →
      Derives .factor (n + 1) (w ++ r) (.number (literalDecimal w).toFloat) r
  | var {n r} : Derives .factor (n + 1) ('x' :: r) .var r
  | euler {n r} : (∀ c ∈ r.head?, ¬ Text.isLetter c) →
      Derives .factor (n + 1) ('e' :: r) (.number Number.e) r
  | circle {n r} : Derives .factor (n + 1) ('p' :: 'i' :: r) (.number Number.pi) r
  | call {n s t r} (f : NamedFunction) : Derives .expression n s t (')' :: r) →
      Derives .factor (n + 1) (f.name.toList ++ '(' :: s) (.call f t) r
  | group {n s t r} : Derives .expression n s t (')' :: r) →
      Derives .factor (n + 1) ('(' :: s) t r

/-- Every construct takes up some text. -/
theorem Derives.length_lt {k : Construct} {n : Nat} {s r : List Char} {t : Expr}
    (h : Derives k n s t r) : r.length < s.length := by
  induction h with
  | number literal _ =>
    obtain ⟨c, hc, _⟩ := literal.digit_first
    have := List.ne_nil_of_mem (List.mem_of_mem_head? hc)
    have := List.length_pos_iff.2 this
    simp only [List.length_append]
    omega
  | call f _ ih => simp at ih ⊢; omega
  | _ => simp_all <;> omega

/-- What is read at one depth is read where factors may nest deeper. -/
theorem Derives.succ {k : Construct} {n : Nat} {s r : List Char} {t : Expr}
    (h : Derives k n s t r) : Derives k (n + 1) s t r := by
  induction h with
  | term _ ih => exact .term ih
  | add _ _ ihl ihr => exact .add ihl ihr
  | subtract _ _ ihl ihr => exact .subtract ihl ihr
  | power _ ih => exact .power ih
  | multiply _ _ ihl ihr => exact .multiply ihl ihr
  | divide _ _ ihl ihr => exact .divide ihl ihr
  | adjacent _ starts _ ihl ihr => exact .adjacent ihl starts ihr
  | factor _ ih => exact .factor ih
  | raise _ _ ihl ihr => exact .raise ihl ihr
  | square _ ih => exact .square ih
  | cube _ ih => exact .cube ih
  | plus _ ih => exact .plus ih
  | minus _ ih => exact .minus ih
  | number literal stop => exact .number literal stop
  | var => exact .var
  | euler alone => exact .euler alone
  | circle => exact .circle
  | call f _ ih => exact .call f ih
  | group _ ih => exact .group ih

/-- A construct may stand where factors may nest deeper. -/
theorem Derives.mono {k : Construct} {n m : Nat} {s r : List Char} {t : Expr}
    (h : Derives k n s t r) (deeper : n ≤ m) : Derives k m s t r := by
  induction deeper with
  | refl => exact h
  | step _ ih => exact ih.succ

end Curves.Grammar
