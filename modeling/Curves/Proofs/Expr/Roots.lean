import Curves.Expr.Function
import Curves.Proofs.Number.ReadBack

/-!
# Roots under both conventions

The conventions for `sqrt` differ in its argument, of which one of them takes the absolute value
first. That makes a difference to negative numbers and to the negative zero, whose root has its
sign. Where `sqrt` meets neither while an expression is evaluated, both conventions give one value.

Main statements:

* `abs_eq_self_iff`: doubles that are their own absolute values;
* `eval_of_unsigned`: evaluations that differ in the convention for `sqrt`;
* `eval_strict_eq_absolute`: the values under both conventions.
-/

namespace Curves

namespace Number
open Float.Model
open Float.Model.UnpackedFloat (Sign)

/-- The absolute value changes negative numbers and the negative zero only. -/
theorem abs_unpacked_eq_self_iff (u : UnpackedFloat) : u.abs = u ↔
    u.compare (.zero .positive) ≠ some .lt ∧ u ≠ .zero .negative := by
  rcases u with (_ | _) | _ | (_ | _) | ⟨_ | _, _, _, _⟩ <;>
    simp [UnpackedFloat.abs, UnpackedFloat.compare]

/-- A double is its own absolute value unless it is negative or the negative zero. -/
theorem abs_eq_self_iff (v : Float) : v.abs = v ↔ ¬ v < 0.0 ∧ v ≠ -0.0 := by
  have zero : (0.0 : Float).toModel.unpack = .zero .positive := rfl
  have negative : v.toModel.unpack = .zero .negative ↔ v = -0.0 := unpack_inj (w := -0.0)
  rw [← unpack_inj, unpack_abs, abs_unpacked_eq_self_iff, lt_iff_compare, zero, Ne, Ne, negative]

end Number

/-- The convention for `sqrt` makes no difference to its value at its own absolute value. -/
theorem NamedFunction.apply_of_abs_eq {conventions other : Conventions}
    (log : other.log = conventions.log) {function : NamedFunction} {v : Float}
    (unsigned : function = .sqrt → v.abs = v) :
    function.apply other v = function.apply conventions v := by
  cases function with
  | sqrt =>
    simp only [apply, unsigned rfl]
    split <;> split <;> rfl
  | log => simp only [apply, log]
  | _ => rfl

namespace Expr

/-- What `sqrt` is applied to while an expression is evaluated at `x`. The argument of an unknown
function is not evaluated. -/
def rootArguments (conventions : Conventions) (x : Float) : Expr → List Float
  | .number _ | .var | .missing | .unknownName _ | .unknownCall _ _ => []
  | .negate e | .square e | .cube e => e.rootArguments conventions x
  | .binary _ left right => left.rootArguments conventions x ++ right.rootArguments conventions x
  | .call function e =>
    let inner := e.rootArguments conventions x
    if function = .sqrt then inner ++ [e.eval conventions x] else inner

/-- The convention for `sqrt` makes no difference where `sqrt` is applied to nothing but absolute
values. -/
theorem eval_of_unsigned (conventions other : Conventions)
    (log : other.log = conventions.log) {x : Float} {e : Expr}
    (unsigned : ∀ v ∈ e.rootArguments conventions x, v.abs = v) :
    e.eval other x = e.eval conventions x := by
  induction e with
  | number | var | missing | unknownName | unknownCall => rfl
  | negate e ih | square e ih | cube e ih => simp only [eval, ih unsigned]
  | binary op left right ihl ihr =>
    obtain ⟨unsigned_left, unsigned_right⟩ := List.forall_mem_append.1 unsigned
    simp only [eval, ihl unsigned_left, ihr unsigned_right]
  | call function e ih =>
    unfold rootArguments at unsigned
    by_cases root : function = .sqrt
    · rw [if_pos root] at unsigned
      obtain ⟨inner, argument⟩ := List.forall_mem_append.1 unsigned
      rw [eval, eval, ih inner]
      exact NamedFunction.apply_of_abs_eq log fun _ => argument _ (List.mem_singleton_self _)
    · rw [if_neg root] at unsigned
      rw [eval, eval, ih unsigned]
      exact NamedFunction.apply_of_abs_eq log fun found => absurd found root

/-- Whatever the base of `log` is, both conventions for `sqrt` give the same double if `sqrt` is
applied neither to a negative number nor to the negative zero while the expression is evaluated
under one of them. -/
theorem eval_strict_eq_absolute (e : Expr) (x : Float) (log : LogConvention) (root : RootConvention)
    (unsigned : ∀ v ∈ e.rootArguments { sqrt := root, log } x, ¬ v < 0.0 ∧ v ≠ -0.0) :
    e.eval { sqrt := .strict, log } x = e.eval { sqrt := .absolute, log } x := by
  have absolute : ∀ v ∈ e.rootArguments { sqrt := root, log } x, v.abs = v :=
    fun v mem => (Number.abs_eq_self_iff v).2 (unsigned v mem)
  have same (other : RootConvention) :
      e.eval { sqrt := other, log } x = e.eval { sqrt := root, log } x :=
    eval_of_unsigned { sqrt := root, log } { sqrt := other, log } rfl absolute
  exact (same .strict).trans (same .absolute).symm

/-- The argument of `sqrt` is a zero that has lost its sign. -/
theorem eval_strict_eq_absolute_abs :
    let e : Expr := .binary .divide (.number 1.0) (.call .sqrt (.call .abs .var))
    e.rootArguments {} (-0.0) = [0.0] ∧ (¬ (0.0 : Float) < 0.0 ∧ (0.0 : Float) ≠ -0.0) ∧
      e.eval { sqrt := .strict } (-0.0) = e.eval { sqrt := .absolute } (-0.0) := by
  intro e
  have arguments : e.rootArguments {} (-0.0) = [0.0] := by decide +kernel
  have zero : ¬ (0.0 : Float) < 0.0 ∧ (0.0 : Float) ≠ -0.0 := by decide +kernel
  refine ⟨arguments, zero, eval_strict_eq_absolute e (-0.0) .natural .strict ?_⟩
  intro v mem
  have value : v = 0.0 := by simpa [arguments] using mem
  rw [value]
  exact zero

/-- The negative zero is not below zero, but its root keeps its sign under one convention only, and
a quotient makes opposite infinities of the two roots. -/
theorem negative_zero_root :
    let e : Expr := .binary .divide (.number 1.0) (.call .sqrt .var)
    (∀ v ∈ e.rootArguments {} (-0.0), ¬ v < 0.0) ∧
      e.eval { sqrt := .strict } (-0.0) = -(1.0 / 0.0) ∧
      e.eval { sqrt := .absolute } (-0.0) = 1.0 / 0.0 ∧
      e.eval { sqrt := .strict } (-0.0) ≠ e.eval { sqrt := .absolute } (-0.0) := by
  decide +kernel

end Expr

end Curves
