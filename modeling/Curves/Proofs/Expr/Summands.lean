import Curves.Proofs.Expr.Composition
import Curves.Proofs.Number.Signs

/-!
# Signed fragments as summands

A signed fragment that is a single term is added to the equation or subtracted from it. Alone its
sign belongs to its first factor, behind the equation to the whole term. For a plus that makes no
difference. A minus passes through products, quotients and third powers, but not through squares and
`^`: alone `-x²` is the square of `-x`, and behind an equation it takes `x²` away.

Main statements:

* `Expr.eval_unsigned`: the value of a term with a minus in front;
* `Derives.signed_term`: the tree of a sum whose last term was signed;
* `append_signed`: equations with a signed fragment more.
-/

namespace Curves
open Grammar

/-- Whether a minus in front of the first factor negates the value. -/
def Expr.isNegated : Expr → Bool
  | .negate _ => true
  | .binary .multiply left _ | .binary .divide left _ => left.isNegated
  | .cube e => e.isNegated
  | _ => false

/-- A term whose minus negates its value has the opposite value without it. -/
theorem Expr.eval_unsigned {t : Expr} (negated : t.isNegated) (conventions : Conventions)
    (x : Float) : t.eval conventions x = -(t.unsigned '-').eval conventions x := by
  induction t with
  | negate e => rfl
  | binary op left right ih =>
    cases op with
    | multiply => exact (congrArg (· * _) (ih negated)).trans (Number.negated_mul ..)
    | divide => exact (congrArg (· / _) (ih negated)).trans (Number.negated_div ..)
    | _ => cases negated
  | cube e ih => exact (congrArg (fun v => v * v * v) (ih negated)).trans (Number.negated_cube _)
  | _ => cases negated

def Grammar.IsTerm (s : List Char) : Prop := ∃ t, Derives .term maxDepth s t []

section Derives
variable {n : Nat} {x : Char} {s s' r : List Char} {t u : Expr}

theorem Grammar.endsWords_of_sign (sign : x = '+' ∨ x = '-') (s : List Char) :
    EndsWords (x :: s) := by
  rintro c ⟨⟩
  rcases sign with rfl | rfl <;> decide

def Grammar.signOperator (sign : Char) : Operator := if sign = '-' then .subtract else .add

/-- Behind an expression a signed term is its last summand. -/
theorem Grammar.Derives.signed_term (h : Derives .expression n s t [])
    (sign : x = '+' ∨ x = '-') (h' : Derives .term n (x :: s') u r) :
    Derives .expression n (s ++ x :: s') (.binary (signOperator x) t (u.unsigned x)) r := by
  have first := h.append (endsWords_of_sign sign s')
  have last := h'.unsigned sign
  rcases sign with rfl | rfl
  · exact .add first last
  · exact .subtract first last

end Derives

namespace Formula
variable {source : String} {t : Expr}

/-- The formula of a text that the grammar derives has the value of its tree. -/
theorem eval_of_derives
    (h : Derives .expression maxDepth (normalizeChars source.toList) t [])
    (short : (normalizeChars source.toList).length ≤ maxLength) (conventions : Conventions) :
    (ofSource source conventions).isClean ∧
      ∀ x, (ofSource source conventions).eval x = t.eval conventions x := by
  have nonempty : 1 ≤ (normalizeChars source.toList).length :=
    Nat.lt_of_le_of_lt (Nat.zero_le _) h.length_lt
  obtain ⟨clean, tree⟩ := (parse_clean_iff_derives _ t).2 ⟨nonempty, short, h⟩
  have none : (ofSource source conventions).diagnostics = [] := clean
  refine ⟨List.isEmpty_iff.2 none, fun x => ?_⟩
  rw [eval, hasError, none]
  exact congrArg (Expr.eval conventions x) tree

end Formula

namespace Equation
variable {equation : Equation} {fragment : String} {t u : Expr}

def withoutSign (fragment : String) : String := String.ofList fragment.toList.tail

/-- A fragment that begins with a sign and is a single term extends the sum of an equation. A plus
adds the value that the fragment has alone. A minus takes away the value that it has without the
minus, and this is to add the value that it has alone unless its first factor, to which the minus
belongs there, is squared or raised. -/
theorem append_signed (accepted : Expr.ofSource equation.text = .ok t)
    (accepted' : Expr.ofSource fragment = .ok u) (signed : isSigned fragment)
    (term : IsTerm (normalizeChars fragment.toList))
    (short : (equation.append fragment).chars.length ≤ 4096) (conventions : Conventions)
    (x : Float) :
    let joined := (equation.append fragment).formula conventions
    let value := fun source => (Formula.ofSource source conventions).eval x
    joined.isClean ∧
      (fragment.startsWith '+' → joined.eval x = value equation.text + value fragment) ∧
      (fragment.startsWith '-' →
        joined.eval x = value equation.text - value (withoutSign fragment) ∧
        (u.isNegated → joined.eval x = value equation.text + value fragment)) := by
  intro joined value
  obtain ⟨y, s, sign, normalized, text⟩ := exists_normalized_of_isSigned signed
  obtain ⟨-, short_equation, whole⟩ := (Expr.ofSource_eq_ok_iff _ t).1 accepted
  obtain ⟨-, short_fragment, alone⟩ := (Expr.ofSource_eq_ok_iff _ u).1 accepted'
  obtain ⟨v, single⟩ := term
  obtain rfl : v = u := (Derives.term single).unique alone
  rw [normalized] at single
  have chars : (equation.append fragment).chars = equation.chars ++ y :: normalizeChars s := by
    simp [chars_append, joins, signed, normalized]
  have sum : Derives .expression maxDepth (equation.append fragment).chars
      (.binary (signOperator y) t (v.unsigned y)) [] := chars ▸ whole.signed_term sign single
  obtain ⟨clean, joined_eval⟩ := Formula.eval_of_derives sum short conventions
  obtain ⟨-, equation_eval⟩ := Formula.eval_of_derives whole short_equation conventions
  obtain ⟨-, fragment_eval⟩ := Formula.eval_of_derives alone short_fragment conventions
  have rest : (withoutSign fragment).toList = s := by simp [withoutSign, text]
  have short_rest : (normalizeChars s).length ≤ maxLength := by
    rw [chars, List.length_append, List.length_cons] at short
    exact Nat.le_trans (by omega) short
  have behind : Derives .expression maxDepth (normalizeChars (withoutSign fragment).toList)
      (v.unsigned y) [] := rest ▸ .term (single.unsigned sign)
  obtain ⟨-, rest_eval⟩ := Formula.eval_of_derives behind (rest ▸ short_rest) conventions
  have begins (z : Char) : fragment.startsWith z ↔ y = z := by
    simp [String.startsWith_char_eq_head?, text]
  have value_joined : joined.eval x = _ := joined_eval x
  simp only [value, begins, value_joined, equation_eval, fragment_eval, rest_eval]
  refine ⟨clean, ?_, ?_⟩
  · rintro rfl
    rw [Expr.unsigned_plus]
    rfl
  · rintro rfl
    refine ⟨rfl, fun negated => ?_⟩
    rw [Expr.eval_unsigned negated, ← Number.sub_eq_add_negated]
    rfl

/-- Cubed and divided, `-x` is the opposite of what follows the minus. -/
theorem append_signed_cube :
    let equation : Equation := ⟨"sin(x)"⟩
    let fragment := "-X³/(x+e)"
    let u : Expr := .binary .divide (.cube (.negate .var)) (.binary .add .var (.number Number.e))
    let joined := (equation.append fragment).formula
    Expr.ofSource equation.text = .ok (.call .sin .var) ∧ Expr.ofSource fragment = .ok u ∧
      isSigned fragment ∧ IsTerm (normalizeChars fragment.toList) ∧ u.isNegated ∧
      joined.source = "sin(x)-x³/(x+e)" ∧ joined.isClean ∧
      joined.eval 2.0 = (Formula.ofSource equation.text).eval 2.0 +
        (Formula.ofSource fragment).eval 2.0 := by
  intro equation fragment u joined
  have normalized : normalizeChars fragment.toList =
      ['-', 'x', '³', '/', '(', 'x', '+', 'e', ')'] := by decide +kernel
  have group : Derives .factor maxDepth ['(', 'x', '+', 'e', ')']
      (.binary .add .var (.number Number.e)) [] := by
    refine .group (.add (.term (.power (.factor .var))) (.power (.factor (.euler ?_))))
    rintro c ⟨⟩
    decide
  have term : Derives .term maxDepth (normalizeChars fragment.toList) u [] :=
    normalized ▸ .divide (.power (.cube (.factor (.minus .var)))) (.factor group)
  have accepted : Expr.ofSource equation.text = .ok (.call .sin .var) :=
    (Expr.ofSource_eq_ok_iff_parse _ _).2 (by decide +kernel)
  have accepted' : Expr.ofSource fragment = .ok u :=
    (Expr.ofSource_eq_ok_iff _ _).2 ⟨by simp [normalized], by simp [normalized], .term term⟩
  have signed : isSigned fragment := by decide
  have source : (equation.append fragment).chars.length ≤ 4096 := by decide +kernel
  obtain ⟨clean, -, minus⟩ := append_signed accepted accepted' signed ⟨u, term⟩ source {} 2.0
  exact ⟨accepted, accepted', signed, ⟨u, term⟩, rfl, by decide +kernel, clean,
    (minus (by decide)).2 rfl⟩

/-- Alone `-x²` is the square of `-x`, and behind `x` it takes the square away. -/
theorem square_taken_away :
    let equation : Equation := ⟨"x"⟩
    let fragment := "-x²"
    let joined := (equation.append fragment).formula
    let sum := (Formula.ofSource equation.text).eval 3.0 + (Formula.ofSource fragment).eval 3.0
    Expr.ofSource equation.text = .ok .var ∧
      Expr.ofSource fragment = .ok (.square (.negate .var)) ∧ isSigned fragment ∧
      IsTerm (normalizeChars fragment.toList) ∧ (equation.append fragment).chars.length ≤ 4096 ∧
      joined.eval 3.0 = -6.0 ∧ sum = 12.0 ∧ (joined.eval 3.0 == sum) = false := by
  intro equation fragment joined sum
  have normalized : normalizeChars fragment.toList = ['-', 'x', '²'] := by decide +kernel
  have term : Derives .term maxDepth (normalizeChars fragment.toList) (.square (.negate .var)) [] :=
    normalized ▸ .power (.square (.factor (.minus .var)))
  exact ⟨(Expr.ofSource_eq_ok_iff_parse _ _).2 (by decide +kernel),
    (Expr.ofSource_eq_ok_iff_parse _ _).2 (by decide +kernel), by decide, ⟨_, term⟩,
    by decide +kernel, by decide +kernel, by decide +kernel, by decide +kernel⟩

end Equation

end Curves
