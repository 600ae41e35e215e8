import Curves.Formula

/-!
# Expressions without the variable

Whether a formula uses its variable is read off the tree by a recursion of its own, which passes
over the argument of an unknown function and answers at once if the formula has an error. The value
of a formula passes over the same parts, so a formula that does not use its variable has one value,
also where `x` is infinite or NaN.

Main statements:

* `Expr.eval_eq_of_not_usesVariable`: the values of a tree;
* `eval_ofSource_eq_of_not_usesVariable`: the values of the formula of a source.
-/

namespace Curves

/-- A tree that does not use the variable has the same value everywhere. -/
theorem Expr.eval_eq_of_not_usesVariable {e : Expr} (unused : e.usesVariable = false)
    (conventions : Conventions) (x y : Float) :
    e.eval conventions x = e.eval conventions y := by
  induction e with
  | number | missing | unknownName | unknownCall => rfl
  | var => cases unused
  | negate e ih | square e ih | cube e ih | call _ e ih => simp only [eval, ih unused]
  | binary op left right ihl ihr =>
    obtain ⟨unused_left, unused_right⟩ := Bool.or_eq_false_iff.1 unused
    simp only [eval, ihl unused_left, ihr unused_right]

/-- A formula that does not use its variable is constant, because it has an error or because its
tree does not use the variable. -/
theorem Formula.eval_eq_of_not_usesVariable {f : Formula} (unused : f.usesVariable = false)
    (x y : Float) : f.eval x = f.eval y := by
  cases error : f.hasError with
  | true => rw [eval_of_hasError error, eval_of_hasError error]
  | false =>
    have tree : f.tree.usesVariable = false := by
      simpa [usesVariable, error] using unused
    simp only [eval, error, Bool.false_eq_true, if_false]
    exact Expr.eval_eq_of_not_usesVariable tree f.conventions x y

/-- Whatever the source and the conventions are, a formula that is said not to use its variable has
the same value, bit for bit, at any two doubles. -/
theorem eval_ofSource_eq_of_not_usesVariable (source : String) (conventions : Conventions)
    (unused : (Formula.ofSource source conventions).usesVariable = false) (x y : Float) :
    (Formula.ofSource source conventions).eval x = (Formula.ofSource source conventions).eval y :=
  Formula.eval_eq_of_not_usesVariable unused x y

/-- The variable stands in the argument of an unknown function only. -/
theorem eval_ofSource_eq_of_not_usesVariable_unknown :
    (Formula.ofSource "foo(x)^2-sqrt(-3)" { sqrt := .absolute }).usesVariable = false ∧
      (Formula.ofSource "foo(x)^2-sqrt(-3)" { sqrt := .absolute }).eval (0.0 / 0.0) =
        (Formula.ofSource "foo(x)^2-sqrt(-3)" { sqrt := .absolute }).eval (1.0 / 0.0) := by
  have unused :
      (Formula.ofSource "foo(x)^2-sqrt(-3)" { sqrt := .absolute }).usesVariable = false := by
    decide +kernel
  exact ⟨unused, eval_ofSource_eq_of_not_usesVariable _ _ unused _ _⟩

end Curves
