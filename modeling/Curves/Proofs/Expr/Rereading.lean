import Curves.Proofs.Expr.Accounting
import Curves.Proofs.Expr.Literal
import Curves.Proofs.Number.Scientific
import Curves.Proofs.Text.Lowercase

/-!
# Reading a formula again

The source that a formula keeps is normalized, so it is read as it is. Formulas are compared by the
equality of doubles, under which NaN differs from itself; but no literal of a source is NaN.

Main statements:

* `beq_self_iff`: the trees that are equal to themselves;
* `Run.count_isNaN`: no literal that is read is NaN;
* `ofSource_source`: the formula of the source of a formula.
-/

namespace Curves

namespace Expr

def isNaN : Expr → Bool
  | .number value => value.isNaN
  | _ => false

/-- A tree is equal to itself exactly if none of its literals is NaN. -/
theorem beq_self_iff (e : Expr) : (e == e) = true ↔ e.count isNaN = 0 := by
  induction e with
  | number value =>
    change (value == value) = true ↔ value.isNaN.toNat = 0
    rw [Number.beq_self_iff]
    cases value.isNaN <;> decide
  | var | missing => exact iff_of_true rfl rfl
  | unknownName name => exact iff_of_true (beq_self_eq_true name) rfl
  | negate e ih | square e ih | cube e ih =>
    change (e == e) = true ↔ 0 + e.count isNaN = 0
    rw [Nat.zero_add, ih]
  | call name e ih | unknownCall name e ih =>
    change (name == name && e == e) = true ↔ 0 + e.count isNaN = 0
    rw [beq_self_eq_true, Bool.true_and, Nat.zero_add, ih]
  | binary op left right ihl ihr =>
    change (op == op && (left == left && right == right)) = true ↔
      0 + left.count isNaN + right.count isNaN = 0
    rw [beq_self_eq_true, Bool.true_and, Bool.and_eq_true, Nat.zero_add, ihl, ihr,
      Nat.add_eq_zero_iff]

example : (Expr.number (0.0 / 0.0) == Expr.number (0.0 / 0.0)) = false := by decide +kernel

end Expr

/-! ## Literals -/

namespace Parser
open Cursor

/-- No literal that is read is NaN. -/
theorem isNaN_literalValue {w : List Char} (first : ∃ d ∈ w.head?, d.isDigit)
    (word : ∀ d ∈ w, isLiteralChar d) {value : Float} (h : literalValue? w = some value) :
    value.isNaN = false := by
  have chars : ∀ d ∈ w, d.isDigit ∨ Grammar.isSeparator d :=
    fun d hd => (Grammar.isLiteralChar_iff d).1 (word d hd)
  obtain ⟨-, rfl⟩ := (Grammar.literalValue?_eq_some_iff first chars value).1 h
  exact (Number.Decimal.toFloat_roundsTo _).isNaN_eq_false

theorem isNaN_constants :
    (0.0 : Float).isNaN = false ∧ Number.e.isNaN = false ∧ Number.pi.isNaN = false := by
  decide +kernel

theorem value_closed (opening : Nat) (p : Parsed Expr) : (p.closed opening).value = p.value := by
  rcases closed_cases opening p with ⟨-, -, eq⟩ | ⟨-, eq⟩ | ⟨-, eq⟩ <;> rw [eq]

theorem Leaf.count_isNaN {c : Cursor} {p : Parsed Expr} (leaf : Leaf c p) :
    p.value.count Expr.isNaN = 0 := by
  cases leaf with
  | @number x s h digit =>
    have first : ∃ d ∈ (c.rest.takeWhile isLiteralChar).head?, d.isDigit :=
      ⟨x, by simp [h.1, isLiteralChar, digit], digit⟩
    have word : ∀ d ∈ c.rest.takeWhile isLiteralChar, isLiteralChar d :=
      List.all_eq_true.1 List.all_takeWhile
    unfold Parser.number
    dsimp only
    split
    · exact congrArg Bool.toNat (isNaN_literalValue first word ‹_›)
    · exact congrArg Bool.toNat isNaN_constants.1
  | euler => exact congrArg Bool.toNat isNaN_constants.2.1
  | circle => exact congrArg Bool.toNat isNaN_constants.2.2
  | _ => rfl

/-- No number in a tree that is read is NaN. -/
theorem Run.count_isNaN {room n : Nat} {k : Stage} {c : Cursor} {p : Parsed Expr}
    (run : Run room k n c p) : p.value.count Expr.isNaN = 0 := by
  induction run with
  | tooDeep => rfl
  | leaf leaf => exact leaf.count_isNaN
  | plus _ _ ih | first _ ih | complete _ _ ih => exact ih
  | negate _ _ ih => exact (Nat.zero_add _).trans ih
  | group _ _ ih => rwa [value_closed]
  | call _ _ _ _ _ ih | unknownCall _ _ _ _ ih =>
    refine (Nat.zero_add _).trans ?_
    rwa [value_closed]
  | square _ _ ih | cube _ _ ih => exact (Nat.zero_add _).trans ih
  | operation _ _ _ left right =>
    change 0 + _ + _ = 0
    rw [left, right]

end Parser

/-! ## Sources -/

/-- No tree that was read holds a literal that is not a number. -/
theorem count_isNaN_parse (s : List Char) : (parse s).tree.count Expr.isNaN = 0 := by
  rcases parse_cases s with ⟨-, eq⟩ | ⟨-, eq⟩ | ⟨-, n, p, trailing, run, left, eq⟩ <;> rw [eq]
  · rfl
  · rfl
  · exact run.count_isNaN

/-- Formulas are equal to themselves if no number in their trees is NaN. -/
theorem Formula.beq_self {f : Formula} (numbers : f.tree.count Expr.isNaN = 0) :
    (f == f) = true := by
  obtain ⟨source, tree, conventions, diagnostics⟩ := f
  change (source == source && (tree == tree && (conventions == conventions &&
    diagnostics == diagnostics))) = true
  have trees : (tree == tree) = true := (Expr.beq_self_iff tree).2 numbers
  simp [trees]

/-- The source of a formula is normalized, and its formula is the same one. The two are equal as
formulas are compared, because no number in the tree is NaN. -/
theorem ofSource_source (source : String) (conventions : Conventions) :
    let f := Formula.ofSource source conventions
    let again := Formula.ofSource f.source conventions
    normalize (normalize source) = normalize source ∧ again = f ∧ (again == f) = true ∧
      again.hasError = f.hasError ∧ f.tree.count Expr.isNaN = 0 := by
  intro f again
  have kept : normalizeChars f.source.toList = normalizeChars source.toList := by
    change normalizeChars (String.ofList (normalizeChars source.toList)).toList = _
    rw [String.toList_ofList, normalizeChars_normalizeChars]
  have same : again = f := by
    change Formula.ofSource f.source conventions = Formula.ofSource source conventions
    simp only [Formula.ofSource, kept]
  have numbers : f.tree.count Expr.isNaN = 0 := count_isNaN_parse (normalizeChars source.toList)
  refine ⟨congrArg String.ofList kept, same, ?_, congrArg Formula.hasError same, numbers⟩
  rw [same]
  exact Formula.beq_self numbers

end Curves
