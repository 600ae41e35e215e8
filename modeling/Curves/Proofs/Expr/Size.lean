import Curves.Formula
import Curves.Proofs.Expr.Execution

/-!
# The size of parsed expressions

Each character that is passed pays for two nodes and for one level of a tree; one node more is there
even if nothing was passed. The right operand of a product without a sign is paid for by its own
characters, so an operand that begins where it should costs one node less.

Main statements:

* `Run.size_le`: the nodes and the levels of what a run reads;
* `ofSource_bounded`: nesting, size, height and recursion for any source.
-/

namespace Curves

namespace Expr

/-- The number of nodes on the longest path. -/
def height : Expr → Nat
  | .number _ | .var | .missing | .unknownName _ => 1
  | .negate e | .square e | .cube e | .call _ e | .unknownCall _ e => 1 + e.height
  | .binary _ left right => 1 + max left.height right.height

/-- The value at `x`, if no more than `levels` evaluations are under way at a time. -/
def evalWithin (conventions : Conventions) (x : Float) : (levels : Nat) → Expr → Option Float
  | 0, _ => none
  | _ + 1, .number value => some value
  | _ + 1, .var => some x
  | _ + 1, .missing | _ + 1, .unknownName _ | _ + 1, .unknownCall _ _ => some 0.0
  | levels + 1, .negate e => do
    let v ← e.evalWithin conventions x levels
    return -v
  | levels + 1, .binary op left right => do
    let a ← left.evalWithin conventions x levels
    let b ← right.evalWithin conventions x levels
    return op.apply a b
  | levels + 1, .square e => do
    let v ← e.evalWithin conventions x levels
    return v * v
  | levels + 1, .cube e => do
    let v ← e.evalWithin conventions x levels
    return v * v * v
  | levels + 1, .call function e => do
    let v ← e.evalWithin conventions x levels
    return function.apply conventions v

/-- Evaluation needs as many levels as the tree is high. -/
theorem evalWithin_eq_some (conventions : Conventions) (x : Float) {e : Expr} {levels : Nat}
    (h : e.height ≤ levels) : e.evalWithin conventions x levels = some (e.eval conventions x) := by
  induction e generalizing levels with
  | number | var | missing | unknownName =>
    cases levels with
    | zero => cases h
    | succ levels => rfl
  | unknownCall =>
    cases levels with
    | zero => simp [height] at h
    | succ levels => rfl
  | negate e ih | square e ih | cube e ih | call f e ih =>
    cases levels with
    | zero => simp [height] at h
    | succ levels =>
      have inner : e.height ≤ levels := by
        simp only [height] at h
        omega
      simp [evalWithin, eval, ih inner]
  | binary op left right ihl ihr =>
    cases levels with
    | zero => simp [height] at h
    | succ levels =>
      have inner : left.height ≤ levels ∧ right.height ≤ levels := by
        simp only [height] at h
        omega
      simp [evalWithin, eval, ihl inner.1, ihr inner.2]

end Expr

namespace Parser
open Cursor

/-- What a construct that begins at `c` can do without: one character if an operand begins there. -/
def spare (room : Nat) (c : Cursor) : Nat :=
  if 0 < room ∧ c.peek.any startsOperand then 1 else 0

theorem spare_le_one (room : Nat) (c : Cursor) : spare room c ≤ 1 := by
  unfold spare
  split <;> omega

/-- The size of what was read: two nodes for each character that is not spare and one more, and one
level for each such character and one more. -/
structure Bounded (spare : Nat) (c : Cursor) (p : Parsed Expr) : Prop where
  forward : c.position + spare ≤ p.after.position
  size : p.value.size + 2 * (c.position + spare) ≤ 2 * p.after.position + 1
  height : p.value.height + c.position + spare ≤ p.after.position + 1

section Bounded
variable {room spared : Nat} {c d : Cursor} {p q : Parsed Expr} {op : Operator} {k : Chain}
  {seams : List Nat}

theorem Bounded.of_one_node (forward : c.position + spared ≤ p.after.position)
    (size : p.value.size = 1) (height : p.value.height = 1) : Bounded spared c p :=
  ⟨forward, by omega, by omega⟩

/-- A group needs no node of its own. -/
theorem Bounded.closed (h : Bounded spared c p) (opening : Nat) :
    Bounded spared c (p.closed opening) := by
  obtain ⟨forward, size, height⟩ := h
  rcases closed_cases opening p with ⟨-, -, eq⟩ | ⟨-, eq⟩ | ⟨-, eq⟩ <;> rw [eq]
  · exact ⟨Nat.le_succ_of_le forward, by simp only [position_advance]; omega,
      by simp only [position_advance]; omega⟩
  · exact ⟨forward, size, height⟩
  · exact ⟨forward, size, height⟩

theorem spare_eq_zero {x : Char} {s : List Char} (h : c.At (x :: s))
    (other : startsOperand x = false) : spare room c = 0 := by
  simp [spare, h.peek, other]

theorem spare_eq_one {x : Char} {s : List Char} (pos : 0 < room) (h : c.At (x :: s))
    (starts : startsOperand x) : spare room c = 1 := by
  simp [spare, pos, h.peek, starts]

/-- Between operands there is a character, or the right one has one to spare. -/
theorem OperatorAt.position_lt (h : OperatorAt k c op d seams) (pos : 0 < room) :
    c.position < d.position + spare room d := by
  cases h with
  | adjacent h starts =>
    rw [spare_eq_one pos h starts]
    exact Nat.lt_succ_self _
  | raise | multiply | divide | add | subtract =>
    rw [position_advance]
    omega

/-- A leaf is one node. -/
theorem Leaf.bounded (leaf : Leaf c p) : Bounded (spare room c) c p := by
  have forward : c.position + spare room c ≤ p.after.position := by
    obtain ⟨w, passes, nonempty⟩ := leaf.passes
    rw [passes.position, spare]
    split
    · rename_i starts
      have := List.length_pos_iff.2 (nonempty starts.2)
      omega
    · omega
  cases leaf with
  | number =>
    have value : ∃ v, (Parser.number c).value = .number v := by
      unfold Parser.number
      dsimp only
      split <;> exact ⟨_, rfl⟩
    obtain ⟨v, value⟩ := value
    exact .of_one_node forward (by rw [value]; rfl) (by rw [value]; rfl)
  | _ => exact .of_one_node forward rfl rfl

/-- Every character that is passed pays for two nodes and a level. -/
theorem Run.bounded {k : Stage} {n : Nat} (run : Run room k n c p) :
    Bounded (spare room c) c p := by
  induction run with
  | @tooDeep c going => exact .of_one_node (by simp [spare]) rfl rfl
  | leaf leaf => exact leaf.bounded
  | @plus room n c s p h _ ih =>
    obtain ⟨forward, size, height⟩ := ih
    have := spare_le_one (room + 1) c
    rw [position_advance] at forward size height
    constructor <;> omega
  -- The sign pays for its own node, and a cursor at a minus has no character to spare.
  | @negate room n c s p h _ ih =>
    obtain ⟨forward, size, height⟩ := ih
    rw [position_advance] at forward size height
    rw [spare_eq_zero h (by decide)]
    constructor <;> simp only [Parsed.map, Expr.size, Expr.height] <;> omega
  | @group room n c s p h _ ih =>
    obtain ⟨forward, size, height⟩ := ih
    have := spare_le_one (room + 1) c
    rw [position_advance] at forward size height
    exact Bounded.closed ⟨by omega, by omega, by omega⟩ _
  | @call room n c w s p f h nonempty _ _ ih | @unknownCall room n c w s p h nonempty _ _ ih =>
    obtain ⟨forward, size, height⟩ := ih.closed (c.position + w.length)
    have := spare_le_one (room + 1) c
    have := List.length_pos_iff.2 nonempty
    rw [position_advance] at forward size height
    constructor <;> simp only [Parsed.map, Expr.size, Expr.height] <;> omega
  | first _ ih => exact ih
  | square _ h ih | cube _ h ih =>
    obtain ⟨forward, size, height⟩ := ih
    constructor <;>
      simp only [Parsed.join, Link.attach, Expr.size, Expr.height, position_advance] <;> omega
  | operation left h _ ihl ihr =>
    have := h.position_lt (left.room_pos h.going)
    obtain ⟨forward₁, size₁, height₁⟩ := ihl
    obtain ⟨forward₂, size₂, height₂⟩ := ihr
    constructor <;>
      simp only [Parsed.join, Parsed.map, Link.attach, Expr.size, Expr.height] <;> omega
  | complete _ _ ih => exact ih

end Bounded

end Parser

/-! ## Sources -/

section Sources
open Curves.Parser

/-- The bounds hold for every source, also for one that is too long. -/
theorem parse_bounded (s : List Char) : (parse s).tree.size ≤ 2 * s.length + 1 ∧
    (parse s).tree.height ≤ min s.length maxLength + 1 ∧
    (maxLength < s.length → (parse s).tree = .missing) := by
  rcases parse_cases s with ⟨-, eq⟩ | ⟨-, eq⟩ | ⟨short, n, p, trailing, run, -, eq⟩ <;> rw [eq]
  · exact ⟨Nat.le_add_left .., Nat.le_add_left .., fun _ => rfl⟩
  · exact ⟨Nat.le_add_left .., Nat.le_add_left .., fun _ => rfl⟩
  · have inside := run.position_le
    obtain ⟨-, size, height⟩ := run.bounded
    exact ⟨by dsimp only; omega, by dsimp only; omega, fun long => absurd long (by omega)⟩

/-- Parsing any source comes to an end with factors nested at most `maxDepth` deep. Its tree has at
most `2 * n + 1` nodes and `n + 1` levels for a source of `n` characters. Sources that are too long
have a single node, so evaluation is never more than `maxLength + 1` levels deep. -/
theorem ofSource_bounded (source : String) (conventions : Conventions) :
    let f := Formula.ofSource source conventions
    (∃ nested, Run maxDepth (.whole .sum) nested (.start f.source.toList)
      (expression (factor maxDepth) (.start f.source.toList))) ∧
    (∀ nested p, Run maxDepth (.whole .sum) nested (.start f.source.toList) p →
      nested ≤ maxDepth) ∧
    f.tree.size ≤ 2 * f.source.length + 1 ∧
    f.tree.height ≤ f.source.length + 1 ∧
    (maxLength < f.source.length → f.tree = .missing) ∧
    ∀ x, f.tree.evalWithin conventions x (maxLength + 1) = some (f.tree.eval conventions x) := by
  intro f
  have chars : f.source.toList = normalizeChars source.toList := String.toList_ofList
  have length : f.source.length = (normalizeChars source.toList).length := by
    rw [← String.length_toList, chars]
  obtain ⟨size, height, tooLong⟩ := parse_bounded (normalizeChars source.toList)
  rw [← length] at size height tooLong
  refine ⟨?_, fun _ _ run => run.nested_le, size, ?_, tooLong, fun x => ?_⟩
  · rw [chars]
    exact exists_run _
  · exact Nat.le_trans height (Nat.succ_le_succ (Nat.min_le_left ..))
  · exact Expr.evalWithin_eq_some conventions x
      (Nat.le_trans height (Nat.succ_le_succ (Nat.min_le_right ..)))

end Sources

end Curves
