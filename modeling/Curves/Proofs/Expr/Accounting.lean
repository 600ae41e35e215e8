import Curves.Formula
import Curves.Proofs.Expr.Execution

/-!
# Diagnostics account for the tree

Every node that stands for something that could not be read has a diagnostic of its own, and every
`(` that was passed has its `)` or a diagnostic, unless a limit ended the reading. Both are kept by
every step of a run.
-/

namespace Curves

namespace Expr

/-- The number of nodes with a property. -/
def count (q : Expr → Bool) : Expr → Nat
  | e@(.number _) | e@.var | e@.missing | e@(.unknownName _) => (q e).toNat
  | e@(.negate inner) | e@(.square inner) | e@(.cube inner) | e@(.call _ inner)
  | e@(.unknownCall _ inner) => (q e).toNat + inner.count q
  | e@(.binary _ left right) => (q e).toNat + left.count q + right.count q

def isMissing : Expr → Bool
  | .missing => true
  | _ => false

def isUnknownName : Expr → Bool
  | .unknownName _ => true
  | _ => false

def isUnknownCall : Expr → Bool
  | .unknownCall _ _ => true
  | _ => false

def isPlaceholder (e : Expr) : Bool := e.isMissing || e.isUnknownName || e.isUnknownCall

theorem count_isPlaceholder (e : Expr) : e.count isPlaceholder =
    e.count isMissing + e.count isUnknownName + e.count isUnknownCall := by
  induction e with
  | binary op left right ihl ihr =>
    simp only [count, ihl, ihr]
    simp [isPlaceholder, isMissing, isUnknownName, isUnknownCall]
    omega
  | unknownCall name e ih =>
    simp only [count, ih]
    simp [isPlaceholder, isMissing, isUnknownName, isUnknownCall]
    omega
  | negate e ih | square e ih | cube e ih | call f e ih =>
    simp only [count, ih]
    simp [isPlaceholder, isMissing, isUnknownName, isUnknownCall]
  | _ => simp [count, isPlaceholder, isMissing, isUnknownName, isUnknownCall]

end Expr

/-- The number of diagnostics of a kind. -/
def reported (kind : Diagnostic.Kind) (issues : List Diagnostic) : Nat :=
  issues.countP (·.kind == kind)

section Reported
variable {kind : Diagnostic.Kind}

@[simp] theorem reported_nil : reported kind [] = 0 := rfl

@[simp] theorem reported_append (issues more : List Diagnostic) :
    reported kind (issues ++ more) = reported kind issues + reported kind more :=
  List.countP_append

@[simp] theorem reported_diagnostic_cons (anomaly : Anomaly) (place : Nat)
    (issues : List Diagnostic) : reported kind (anomaly.diagnostic place :: issues) =
      reported kind issues + if anomaly.kind = kind then 1 else 0 := by
  simp [reported, List.countP_cons, Anomaly.diagnostic]

end Reported

namespace Parser
open Cursor

/-! ## Nodes -/

/-- Each placeholder in the tree has a diagnostic among the issues, and the other way round. -/
structure Accounted (tree : Expr) (issues : List Diagnostic) : Prop where
  missing : tree.count Expr.isMissing =
    reported .unexpectedCharacter issues + reported .emptyExpression issues +
      reported .limitExceeded issues
  names : tree.count Expr.isUnknownName = reported .missingFunctionArgument issues
  calls : tree.count Expr.isUnknownCall = reported .unknownFunction issues

section Accounted
variable {e e' : Expr} {issues more : List Diagnostic}

theorem Accounted.binary (h : Accounted e issues) (h' : Accounted e' more) (op : Operator) :
    Accounted (.binary op e e') (issues ++ more) := by
  obtain ⟨missing, names, calls⟩ := h
  obtain ⟨missing', names', calls'⟩ := h'
  constructor <;> simp only [reported_append, Expr.count, Expr.isMissing, Expr.isUnknownName,
    Expr.isUnknownCall, Bool.toNat_false] <;> omega

/-- A node that is no placeholder needs no diagnostic. -/
theorem Accounted.unary (h : Accounted e issues) (node : Expr)
    (same : ∀ q, node.count q = (q node).toNat + e.count q)
    (usual : node.isPlaceholder = false) : Accounted node issues := by
  simp only [Expr.isPlaceholder, Bool.or_eq_false_iff] at usual
  obtain ⟨missing, names, calls⟩ := h
  constructor <;> simp only [same, usual, Bool.toNat_false, Nat.zero_add] <;> assumption

theorem Accounted.unknownCall (h : Accounted e issues) (name : String) (w : List Char)
    (place : Nat) :
    Accounted (.unknownCall name e) ((Anomaly.unknownFunction w).diagnostic place :: issues) := by
  obtain ⟨missing, names, calls⟩ := h
  constructor <;> simp [Expr.count, Expr.isMissing, Expr.isUnknownName, Expr.isUnknownCall,
    Anomaly.kind, *]
  omega

/-- Closing a group keeps placeholders and diagnostics in step. -/
theorem Accounted.closed {p : Parsed Expr} (h : Accounted p.value p.issues) (opening : Nat) :
    Accounted (p.closed opening).value (p.closed opening).issues := by
  rcases closed_cases opening p with ⟨-, -, eq⟩ | ⟨-, eq⟩ | ⟨-, eq⟩ <;> rw [eq]
  · exact h
  · exact h
  · obtain ⟨missing, names, calls⟩ := h
    constructor <;> simp [Anomaly.kind, *]

theorem Leaf.accounted {c : Cursor} {p : Parsed Expr} (leaf : Leaf c p) :
    Accounted p.value p.issues := by
  cases leaf with
  | number =>
    unfold Parser.number
    dsimp only
    split
    · exact ⟨rfl, rfl, rfl⟩
    · exact ⟨rfl, rfl, rfl⟩
  | _ => exact ⟨rfl, rfl, rfl⟩

/-- In every run each placeholder of the tree has its diagnostic, and the other way round. -/
theorem Run.accounted {room n : Nat} {k : Stage} {c : Cursor} {p : Parsed Expr}
    (run : Run room k n c p) : Accounted p.value p.issues := by
  induction run with
  | tooDeep => exact ⟨rfl, rfl, rfl⟩
  | leaf leaf => exact leaf.accounted
  | plus _ _ ih => exact ih
  | negate _ _ ih => exact ih.unary (.negate _) (fun _ => rfl) rfl
  | group _ _ ih => exact ih.closed _
  | call f _ _ _ _ ih => exact (ih.closed _).unary (.call f _) (fun _ => rfl) rfl
  | unknownCall _ _ _ _ ih => exact (ih.closed _).unknownCall ..
  | first _ ih => exact ih
  | square _ _ ih =>
    simpa only [Parsed.join, Link.attach, List.append_nil] using
      ih.unary (.square _) (fun _ => rfl) rfl
  | cube _ _ ih =>
    simpa only [Parsed.join, Link.attach, List.append_nil] using
      ih.unary (.cube _) (fun _ => rfl) rfl
  | operation _ _ _ left right => exact left.binary right _
  | complete _ _ ih => exact ih

end Accounted

/-! ## Parentheses -/

theorem closed_limit {p : Parsed Expr} (opening : Nat)
    (h : p.after.halted → 0 < reported .limitExceeded p.issues)
    (halted : (p.closed opening).after.halted) :
    0 < reported .limitExceeded (p.closed opening).issues := by
  rcases closed_cases opening p with ⟨s, found, eq⟩ | ⟨-, eq⟩ | ⟨going, eq⟩ <;> rw [eq] at halted ⊢
  · rw [halted_advance, found.2] at halted
    cases halted
  · exact h halted
  · rw [going] at halted
    cases halted

/-- Reading is halted only where a limit is reported. -/
theorem Run.limit_of_halted {room n : Nat} {k : Stage} {c : Cursor} {p : Parsed Expr}
    (run : Run room k n c p) (halted : p.after.halted) : 0 < reported .limitExceeded p.issues := by
  induction run with
  | tooDeep => exact Nat.one_pos
  | @leaf _ c p leaf =>
    have going : p.after.halted = false := by
      cases leaf with
      | number h =>
        rw [after_number]
        exact h.2
      | var h | euler h | circle h | name h | unexpected h | «end» h => exact h.2
    rw [going] at halted
    cases halted
  | plus _ _ ih | negate _ _ ih | first _ ih | complete _ _ ih => exact ih halted
  | group _ _ ih | call _ _ _ _ _ ih => exact closed_limit _ ih halted
  | unknownCall _ _ _ _ ih =>
    rw [reported_diagnostic_cons]
    exact Nat.lt_add_right _ (closed_limit _ ih halted)
  | square _ h _ | cube _ h _ =>
    have going : _ = false := h.2
    rw [Parsed.join, halted_advance, going] at halted
    cases halted
  | operation _ _ _ _ right =>
    rw [Parsed.join, reported_append]
    exact Nat.lt_add_left _ (right halted)

/-- Each `(` in `w` has its `)` or a diagnostic, unless a limit is reported. -/
def Matched (w : List Char) (issues : List Diagnostic) : Prop :=
  reported .limitExceeded issues = 0 →
    reported .unclosedParenthesis issues + w.count ')' = w.count '('

section Matched
variable {v w : List Char} {issues more : List Diagnostic}

theorem Matched.append (h : Matched v issues) (h' : Matched w more) :
    Matched (v ++ w) (issues ++ more) := by
  intro limit
  rw [reported_append] at limit
  have := h (by omega)
  have := h' (by omega)
  rw [reported_append, List.count_append, List.count_append]
  omega

/-- Text without parentheses. -/
theorem matched_of_all {q : Char → Bool} (hw : ∀ d ∈ w, q d) (opening : q '(' = false)
    (closing : q ')' = false) (clean : reported .unclosedParenthesis issues = 0) :
    Matched w issues := by
  intro _
  have absent {x : Char} (hx : q x = false) : w.count x = 0 :=
    List.count_eq_zero.2 fun mem => by simp [hw x mem] at hx
  rw [clean, absent opening, absent closing]

theorem matched_of_letters (letters : ∀ d ∈ w, Text.isLetter d)
    (clean : reported .unclosedParenthesis issues = 0) : Matched w issues :=
  matched_of_all letters (by decide) (by decide) clean

/-- A `(` before a group is paid for where the group ends. -/
theorem Matched.closed {p : Parsed Expr} {d : Cursor} (opening : Nat) (h : Matched w p.issues)
    (passes : d.Passes w p.after)
    (limit : p.after.halted → 0 < reported .limitExceeded p.issues) :
    ∃ v, d.Passes v (p.closed opening).after ∧
      Matched ('(' :: v) (p.closed opening).issues := by
  rcases closed_cases opening p with ⟨s, found, eq⟩ | ⟨halted, eq⟩ | ⟨-, eq⟩ <;> rw [eq]
  · refine ⟨_, passes.trans (.next found), fun none => ?_⟩
    have := h none
    simp
    omega
  · exact ⟨w, passes, fun none => absurd none (Nat.ne_of_gt (limit halted))⟩
  · refine ⟨w, passes, fun none => ?_⟩
    rw [reported_append] at none ⊢
    have := h (by omega)
    simp [Anomaly.kind]
    omega

theorem Leaf.matched {c : Cursor} {p : Parsed Expr} (leaf : Leaf c p) :
    ∃ w, c.Passes w p.after ∧ Matched w p.issues := by
  cases leaf with
  | number h digit =>
    obtain ⟨w, passes, -, literal⟩ := number_passes h digit
    refine ⟨w, passes, matched_of_all literal rfl rfl ?_⟩
    unfold Parser.number
    dsimp only
    split <;> rfl
  | name h _ letters =>
    exact ⟨_, .word h, matched_of_letters letters rfl⟩
  | var h | euler h => exact ⟨_, .next h, fun _ => rfl⟩
  | circle h => exact ⟨_, .word (w := ['p', 'i']) h, fun _ => rfl⟩
  | unexpected | «end» => exact ⟨[], .refl _, fun _ => rfl⟩

theorem OperatorAt.matched {k : Chain} {c d : Cursor} {op : Operator} {seams : List Nat}
    (h : OperatorAt k c op d seams) : ∃ v, c.Passes v d ∧ Matched v [] := by
  cases h with
  | adjacent => exact ⟨[], .refl _, fun _ => rfl⟩
  | raise h | multiply h | divide h | add h | subtract h => exact ⟨_, .next h, fun _ => rfl⟩

/-- In every run each opening parenthesis has its partner or its diagnostic. -/
theorem Run.matched {room n : Nat} {k : Stage} {c : Cursor} {p : Parsed Expr}
    (run : Run room k n c p) : ∃ w, c.Passes w p.after ∧ Matched w p.issues := by
  induction run with
  | tooDeep => exact ⟨[], ⟨rfl, rfl⟩, nofun⟩
  | leaf leaf => exact leaf.matched
  | plus h _ ih =>
    obtain ⟨w, passes, matched⟩ := ih
    have sign : Matched ['+'] [] := fun _ => rfl
    exact ⟨_, (Passes.next h).trans passes, sign.append matched⟩
  | negate h _ ih =>
    obtain ⟨w, passes, matched⟩ := ih
    have sign : Matched ['-'] [] := fun _ => rfl
    exact ⟨_, (Passes.next h).trans passes, sign.append matched⟩
  | group h run ih =>
    obtain ⟨w, passes, matched⟩ := ih
    obtain ⟨v, closing, whole⟩ := matched.closed _ passes run.limit_of_halted
    exact ⟨_, (Passes.next h).trans closing, whole⟩
  | call f h _ letters run ih =>
    obtain ⟨w, passes, matched⟩ := ih
    obtain ⟨v, closing, whole⟩ := matched.closed _ passes run.limit_of_halted
    refine ⟨_, (Passes.opened h).trans closing, ?_⟩
    have name : Matched _ [] := matched_of_letters letters rfl
    rw [List.append_assoc]
    exact name.append whole
  | @unknownCall _ _ c name _ p h _ letters run ih =>
    obtain ⟨w, passes, matched⟩ := ih
    obtain ⟨v, closing, whole⟩ := matched.closed _ passes run.limit_of_halted
    refine ⟨_, (Passes.opened h).trans closing, ?_⟩
    have unknown : Matched name [(Anomaly.unknownFunction name).diagnostic c.position] :=
      matched_of_letters letters rfl
    rw [List.append_assoc]
    exact unknown.append whole
  | first _ ih => exact ih
  | square _ h ih | cube _ h ih =>
    obtain ⟨w, passes, matched⟩ := ih
    exact ⟨_, passes.trans (.next h), matched.append (fun _ => rfl)⟩
  | operation _ h _ left right =>
    obtain ⟨w, passes, matched⟩ := left
    obtain ⟨v, sign, nothing⟩ := h.matched
    obtain ⟨u, operand, matched'⟩ := right
    exact ⟨_, passes.trans (sign.trans operand), matched.append (nothing.append matched')⟩
  | complete _ _ ih => exact ih

end Matched

end Parser

/-! ## Sources -/

section Sources
open Curves.Parser

/-- Text that is left over has nothing to do with the tree. -/
theorem reported_append_trailing (issues : List Diagnostic) {trailing : List Diagnostic}
    (h : ∀ d ∈ trailing, d.kind = .trailingInput) {kind : Diagnostic.Kind}
    (other : kind ≠ .trailingInput) :
    reported kind (issues ++ trailing) = reported kind issues := by
  have none : reported kind trailing = 0 :=
    List.countP_eq_zero.2 fun d hd => by simpa [h d hd] using other.symm
  rw [reported_append, none, Nat.add_zero]

/-- The counts hold for a whole source, of which only the part that is read matters for parentheses.
-/
theorem parse_accounted (s : List Char) : Accounted (parse s).tree (parse s).diagnostics ∧
    Matched (s.take (parse s).consumed) (parse s).diagnostics := by
  rcases parse_cases s with ⟨-, eq⟩ | ⟨-, eq⟩ | ⟨-, n, p, trailing, run, left, eq⟩ <;> rw [eq]
  · exact ⟨⟨rfl, rfl, rfl⟩, fun _ => rfl⟩
  · exact ⟨⟨rfl, rfl, rfl⟩, nofun⟩
  · have same {kind : Diagnostic.Kind} (other : kind ≠ .trailingInput) :=
      reported_append_trailing p.issues left other
    obtain ⟨missing, names, calls⟩ := run.accounted
    obtain ⟨w, passes, matched⟩ := run.matched
    have whole : s = w ++ p.after.rest := passes.rest
    have position : p.after.position = 0 + w.length := passes.position
    refine ⟨⟨?_, ?_, ?_⟩, ?_⟩
    · rw [same (by decide), same (by decide), same (by decide)]
      exact missing
    · rw [same (by decide)]
      exact names
    · rw [same (by decide)]
      exact calls
    · rw [Matched, same (by decide), same (by decide), position, Nat.zero_add, whole,
        List.take_left]
      exact matched

/-- Diagnostics account for the tree of any source: each placeholder has a diagnostic of its own,
and so has each `(` without its `)` in the part of the source that was read, unless a limit is
exceeded. So a tree without diagnostics has no placeholders. -/
theorem ofSource_accounted (source : String) (conventions : Conventions) :
    let f := Formula.ofSource source conventions
    let consumed := f.source.toList.take (parse f.source.toList).consumed
    f.tree.count Expr.isMissing = reported .unexpectedCharacter f.diagnostics +
      reported .emptyExpression f.diagnostics + reported .limitExceeded f.diagnostics ∧
    f.tree.count Expr.isUnknownName = reported .missingFunctionArgument f.diagnostics ∧
    f.tree.count Expr.isUnknownCall = reported .unknownFunction f.diagnostics ∧
    (reported .limitExceeded f.diagnostics = 0 →
      reported .unclosedParenthesis f.diagnostics + consumed.count ')' = consumed.count '(') ∧
    (f.diagnostics = [] → f.tree.count Expr.isPlaceholder = 0) := by
  intro f consumed
  have chars : f.source.toList = normalizeChars source.toList := String.toList_ofList
  have part : consumed = (normalizeChars source.toList).take (parse _).consumed :=
    congrArg (fun s => s.take (parse s).consumed) chars
  obtain ⟨accounted, matched⟩ := parse_accounted (normalizeChars source.toList)
  refine ⟨accounted.missing, accounted.names, accounted.calls, ?_, fun clean => ?_⟩
  · rw [part]
    exact matched
  · have issues : (parse (normalizeChars source.toList)).diagnostics = [] := clean
    rw [issues] at accounted
    have missing : f.tree.count Expr.isMissing = 0 := accounted.missing
    have names : f.tree.count Expr.isUnknownName = 0 := accounted.names
    have calls : f.tree.count Expr.isUnknownCall = 0 := accounted.calls
    rw [Expr.count_isPlaceholder, missing, names, calls]

end Sources

end Curves
