import Curves.Proofs.Expr.Unexpected

/-!
# The places of anomalies

Each diagnostic is that of an anomaly which is found at its place in the source. The places of words
are their beginnings, as far as the words go on behind them; a number does not go on before its
place either, because the parser never stops inside of a literal. Each `(` is reported once at most.

Main statements:

* `Trace.apart`: no reading ends inside of a literal;
* `Trace.found`: what is reported is found at its place;
* `Run.openings`: groups that are not closed have different places;
* `ofSource_places`: sources.
-/

namespace Curves

def runFrom (q : Char → Bool) (s : List Char) (place : Nat) : List Char :=
  (s.drop place).takeWhile q

def startsNoFactor (x : Char) : Prop :=
  x.isDigit = false ∧ Text.isLetter x = false ∧ x ≠ '(' ∧ x ≠ '+' ∧ x ≠ '-'

/-- `w` is a literal of the source `s`: a longest run of digits and separators that begins with a
digit. -/
structure LiteralAt (s : List Char) (place : Nat) (w : List Char) : Prop where
  digit : ∃ x ∈ s[place]?, x.isDigit
  alone : ∀ x ∈ (s.take place).getLast?, ¬ Parser.isLiteralChar x
  longest : w = runFrom Parser.isLiteralChar s place

/-- What is at the place of an anomaly in the source `s`. -/
def Anomaly.IsFoundAt (s : List Char) (place : Nat) : Anomaly → Prop
  | .unexpectedCharacter found => s[place]? = some found ∧ startsNoFactor found
  | .unexpectedEnd => place = s.length
  | .unknownFunction name => (∃ x ∈ s[place]?, Text.isLetter x) ∧
      name = runFrom Text.isLetter s place ∧ s[place + name.length]? = some '(' ∧
      NamedFunction.ofName? (String.ofList name) = none
  | .missingFunctionArgument name => (∃ x ∈ s[place]?, Text.isLetter x) ∧
      name = runFrom Text.isLetter s place ∧ s[place + name.length]? ≠ some '('
  | .unclosedParenthesis => s[place]? = some '('
  | .trailingInput rest => place < s.length ∧ rest = s.drop place
  | .invalidNumber literal => (∃ x ∈ s[place]?, x.isDigit) ∧
      (∀ x ∈ (s.take place).getLast?, ¬ Parser.isLiteralChar x) ∧
      literal = runFrom Parser.isLiteralChar s place ∧ 2 ≤ literal.countP Grammar.isSeparator
  | .emptyExpression => place = 0 ∧ s = []
  | .tooLong length => place = maxLength ∧ length = s.length ∧ maxLength < s.length
  | .tooDeep => place ≤ s.length ∧ s.length ≤ maxLength

namespace Parser
open Cursor

/-! ## Literals -/

theorem isLetter_of_isLiteralChar {x : Char} (literal : isLiteralChar x) :
    Text.isLetter x = false := by
  simp only [isLiteralChar, Bool.or_eq_true, beq_iff_eq] at literal
  rcases literal with (digit | rfl) | rfl
  · have digits : ∀ n < 58, 48 ≤ n → Text.isLetter (Char.ofNat n) = false := by decide
    obtain ⟨low, high⟩ := Char.isDigit_iff_toNat.1 digit
    rw [← Char.ofNat_toNat x]
    exact digits x.toNat (Nat.lt_succ_of_le high) low
  · decide
  · decide

theorem not_isLiteralChar_of_isLetter {x : Char} (letter : Text.isLetter x) : ¬ isLiteralChar x :=
  fun literal => by simp [isLetter_of_isLiteralChar literal] at letter

/-- No literal goes on from one text into the next one. -/
def Apart (before rest : List Char) : Prop :=
  ∀ x ∈ before.getLast?, isLiteralChar x → ∀ y ∈ rest.head?, ¬ isLiteralChar y

section Apart
variable {before rest w r s : List Char} {x : Char}

theorem apart_of_last (last : ∀ x ∈ w.getLast?, ¬ isLiteralChar x) (nonempty : w ≠ []) :
    Apart (before ++ w) rest := by
  intro x hx literal
  refine absurd literal (last x ?_)
  simpa [List.getLast?_append, List.getLast?_eq_some_getLast nonempty] using hx

theorem apart_of_next (next : ∀ y ∈ rest.head?, ¬ isLiteralChar y) : Apart before rest :=
  fun _ _ _ => next

theorem apart_snoc (other : ¬ isLiteralChar x) : Apart (before ++ [x]) rest :=
  apart_of_last (by simpa using other) (List.cons_ne_nil _ _)

/-- A word does not end inside of a literal. -/
theorem Begins.apart {e : Expr} {a : Option Anomaly} (begins : Begins (w ++ r) (.word w e a)) :
    Apart (before ++ w) r := by
  have letters {x : Char} {v : List Char} (first : Text.isLetter x)
      (word : ∀ d ∈ v, Text.isLetter d) : ∀ d ∈ (x :: v).getLast?, ¬ isLiteralChar d := by
    intro d hd
    rcases List.mem_cons.1 (List.mem_of_getLast? hd) with rfl | inside
    · exact not_isLiteralChar_of_isLetter first
    · exact not_isLiteralChar_of_isLetter (word d inside)
  generalize text : w ++ r = s at begins
  cases begins with
  | number _ _ stop =>
    obtain rfl := List.append_cancel_left text
    exact apart_of_next stop
  | invalidNumber _ _ stop =>
    obtain rfl := List.append_cancel_left text
    exact apart_of_next stop
  | var | euler => exact apart_snoc (by decide)
  | circle => exact apart_of_last (by simp; decide) (List.cons_ne_nil _ _)
  | name first word => exact apart_of_last (letters first.letter word) (List.cons_ne_nil _ _)

end Apart

section Trace
variable {room : Nat} {k : Chain} {stage : Stage} {c d : Cursor} {p : Parsed Expr}
  {s before w : List Char} {t : List Step}

/-- An operator does not end inside of a literal. -/
theorem OperatorAt.apart {op : Operator} {seams : List Nat} (h : OperatorAt k c op d seams)
    (apart : Apart before c.rest) (passes : c.Passes w d) : Apart (before ++ w) d.rest := by
  cases h with
  | adjacent =>
    obtain rfl := passes.unique (.refl c)
    rwa [List.append_nil]
  | raise h | multiply h | divide h | add h | subtract h =>
    obtain rfl := passes.unique (.next h)
    exact apart_snoc (by decide)

theorem closed_apart (opening : Nat) {v : List Char} (apart : Apart before p.after.rest)
    (passes : p.after.Passes v (p.closed opening).after) :
    Apart (before ++ v) (p.closed opening).after.rest := by
  rcases closed_cases opening p with ⟨r, found, eq⟩ | ⟨-, eq⟩ | ⟨-, eq⟩ <;> rw [eq] at passes ⊢
  · obtain rfl := passes.unique (.next found)
    exact apart_snoc (by decide)
  · obtain rfl := passes.unique (.refl _)
    rwa [List.append_nil]
  · obtain rfl := passes.unique (.refl _)
    rwa [List.append_nil]

/-- A reading that begins between literals ends between literals. -/
theorem Trace.apart (trace : Trace room stage c p t) (apart : Apart before c.rest)
    (passes : c.Passes w p.after) : Apart (before ++ w) p.after.rest := by
  induction trace generalizing before w with
  | tooDeep | missing =>
    have nothing : w = [] := passes.unique ⟨rfl, rfl⟩
    rwa [nothing, List.append_nil]
  | @word _ c _ v value anomaly h begins =>
    obtain ⟨r, rfl, -⟩ := begins.word
    obtain rfl := passes.unique (.word h)
    have rest : (Parsed.ofWord w value anomaly c).after.rest = r := h.advance.1
    rw [rest]
    exact begins.apart
  | plus h inner ih | negate h inner ih =>
    obtain ⟨v, passes', -⟩ := inner.passes
    obtain rfl := passes.unique ((Passes.next h).trans passes')
    rw [← List.append_assoc]
    exact ih (apart_snoc (by decide)) passes'
  | @group _ c _ name p _ h begins inner ih =>
    obtain ⟨r, rfl, -⟩ := begins.opening
    obtain ⟨v, passes', -⟩ := inner.passes
    obtain ⟨u, closing⟩ := closed_passes (c.position + name.length) p
    rw [Parsed.after_argumentOf] at passes ⊢
    obtain rfl := passes.unique (((Passes.opened h).trans passes').trans closing)
    rw [List.append_assoc, ← List.append_assoc before, ← List.append_assoc]
    refine closed_apart _ (ih ?_ passes') closing
    rw [← List.append_assoc]
    exact apart_snoc (by decide)
  | first _ ih | complete _ _ ih => exact ih apart passes
  | square left h ih | cube left h ih =>
    obtain ⟨v, passes', -⟩ := left.passes
    obtain rfl := passes.unique (passes'.trans (.next h))
    rw [← List.append_assoc]
    exact apart_snoc (by decide)
  | operation left h right ihl ihr =>
    obtain ⟨v, passes', -⟩ := left.passes
    obtain ⟨u, sign, -⟩ := h.passes
    obtain ⟨v', passes'', -⟩ := right.passes
    obtain rfl := passes.unique ((passes'.trans sign).trans passes'')
    rw [← List.append_assoc, ← List.append_assoc]
    exact ihr (h.apart (ihl apart passes') sign) passes''

/-! ## Anomalies -/

/-- `c` is the place of `s` behind `before`, and not inside of a literal. -/
structure Between (s before : List Char) (c : Cursor) : Prop where
  text : s = before ++ c.rest
  position : c.position = before.length
  apart : Apart before c.rest

def IsFound (s : List Char) (d : Diagnostic) : Prop :=
  ∃ a : Anomaly, d = a.diagnostic d.position ∧ a.IsFoundAt s d.position

section Between
variable {x : Char} {r : List Char} (h : Between s before c)
include h

/-- What is left of the source at a place. -/
theorem Between.drop : s.drop c.position = c.rest := by
  rw [h.text, h.position, List.drop_left]

theorem Between.getElem? (i : Nat) : s[c.position + i]? = c.rest[i]? := by
  rw [h.text, h.position, List.getElem?_append_right (Nat.le_add_right ..), Nat.add_sub_cancel_left]

theorem Between.next (found : c.At (x :: r)) : s[c.position]? = some x := by
  have := h.getElem? 0
  rwa [found.1] at this

/-- The place behind a text that ends outside of literals. -/
theorem Between.advance (passes : c.Passes w d) (apart : Apart (before ++ w) d.rest) :
    Between s (before ++ w) d where
  text := by rw [h.text, passes.rest, List.append_assoc]
  position := by rw [passes.position, h.position, List.length_append]
  apart := apart

/-- The longest run at a place is the word that is read there. -/
theorem Between.runFrom {q : Char → Bool} {w r : List Char} (here : c.At (w ++ r))
    (word : ∀ d ∈ w, q d) (stop : ∀ d ∈ r.head?, ¬ q d) : w = Curves.runFrom q s c.position := by
  rw [Curves.runFrom, h.drop, here.1, (Grammar.takeWhile_dropWhile_append word stop).1]

/-- What is found where a factor is missing. -/
theorem Between.missing {anomaly : Anomaly} (here : c.At r) (begins : Begins r (.missing anomaly)) :
    anomaly.IsFoundAt s c.position := by
  rcases begins.missing with ⟨rfl, rfl⟩ | ⟨x, r, rfl, rfl, other, plus, minus⟩
  · rw [Anomaly.IsFoundAt, h.text, here.1, List.append_nil, h.position]
  · simp only [startsOperand, Bool.or_eq_false_iff, beq_eq_false_iff_ne, ne_eq] at other
    exact ⟨h.next here, other.1.1.1, other.1.2, other.2, plus, minus⟩

/-- A literal that is read is one of the source. -/
theorem Between.literalAt (here : c.At (w ++ r)) (first : ∃ d ∈ w.head?, d.isDigit)
    (word : ∀ d ∈ w, isLiteralChar d) (stop : ∀ d ∈ r.head?, ¬ isLiteralChar d) :
    LiteralAt s c.position w := by
  obtain ⟨x, hx, digit⟩ := first
  obtain ⟨v, rfl⟩ := List.head?_eq_some_iff.1 hx
  refine ⟨⟨x, h.next here, digit⟩, fun y last before => ?_, h.runFrom here word stop⟩
  rw [h.text, h.position, List.take_left] at last
  exact h.apart y last before x (by rw [here.1]; rfl) (word x List.mem_cons_self)

/-- What is found at a word with something wrong. -/
theorem Between.word {text : List Char} {value : Expr} {anomaly : Anomaly} (here : c.At r)
    (begins : Begins r (.word text value anomaly)) : anomaly.IsFoundAt s c.position := by
  cases begins with
  | @invalidNumber w r first word stop invalid =>
    obtain ⟨digit, alone, longest⟩ := h.literalAt here first word stop
    have chars : ∀ d ∈ text, d.isDigit ∨ Grammar.isSeparator d :=
      fun d hd => (Grammar.isLiteralChar_iff d).1 (word d hd)
    exact ⟨digit, alone, longest, (Grammar.literalValue?_eq_none_iff first chars).1 invalid⟩
  | @name x w r first letters stop closed =>
    have word : ∀ d ∈ x :: w, Text.isLetter d := List.forall_mem_cons.2 ⟨first.letter, letters⟩
    refine ⟨⟨x, h.next here, first.letter⟩, h.runFrom (w := x :: w) here word stop, ?_⟩
    rw [h.getElem?, here.1, ← List.cons_append, List.getElem?_append_right (Nat.le_refl _),
      Nat.sub_self, ← List.head?_eq_getElem?]
    exact closed

/-- The `(` of a group, and what is found at a name before it that is no function. -/
theorem Between.opening {name : List Char} (here : c.At r) (begins : Begins r (.opening name)) :
    s[c.position + name.length]? = some '(' ∧
      (name ≠ [] → NamedFunction.ofName? (String.ofList name) = none →
        (Anomaly.unknownFunction name).IsFoundAt s c.position) := by
  obtain ⟨r, rfl, -⟩ := begins.opening
  have opening : s[c.position + name.length]? = some '(' := by
    rw [h.getElem?, here.1, List.getElem?_append_right (Nat.le_refl _), Nat.sub_self]
    rfl
  refine ⟨opening, fun nonempty unknown => ?_⟩
  generalize text : name ++ '(' :: r = u at begins
  cases begins with
  | group => exact absurd rfl nonempty
  | @call x w r' first letters =>
    rw [← List.cons_append] at text
    have stop : ∀ d ∈ ('(' :: r).head?, ¬ Text.isLetter d := by
      rintro d ⟨⟩
      decide
    have word : ∀ d ∈ x :: w, Text.isLetter d := List.forall_mem_cons.2 ⟨first.letter, letters⟩
    exact ⟨⟨x, h.next here, first.letter⟩, h.runFrom here word stop, opening, unknown⟩

end Between

theorem IsFound.of_anomaly {anomaly : Anomaly} {place : Nat} (found : anomaly.IsFoundAt s place) :
    IsFound s (anomaly.diagnostic place) := ⟨anomaly, rfl, found⟩

/-- What is reported is found at its place. -/
theorem Trace.found (trace : Trace room stage c p t) (h : Between s before c)
    (short : s.length ≤ maxLength) : ∀ d ∈ p.issues, IsFound s d := by
  induction trace generalizing before with
  | tooDeep =>
    have inside := congrArg List.length h.text
    rw [List.length_append, ← h.position] at inside
    exact List.forall_mem_singleton.2 (.of_anomaly ⟨by omega, short⟩)
  | missing here begins => exact List.forall_mem_singleton.2 (.of_anomaly (h.missing here begins))
  | @word _ _ _ _ _ anomaly here begins =>
    cases anomaly with
    | none => exact List.forall_mem_nil _
    | some anomaly => exact List.forall_mem_singleton.2 (.of_anomaly (h.word here begins))
  | plus here _ ih | negate here _ ih =>
    exact ih (h.advance (.next here) (apart_snoc (by decide)))
  | @group _ c _ name p _ here begins inner ih =>
    obtain ⟨opening, unknown⟩ := h.opening here begins
    obtain ⟨r, rfl, -⟩ := begins.opening
    have content := ih (h.advance (.opened here) (by
      rw [← List.append_assoc]
      exact apart_snoc (by decide)))
    have closed : ∀ d ∈ (p.closed (c.position + name.length)).issues, IsFound s d := by
      rcases closed_cases (c.position + name.length) p with
        ⟨-, -, eq⟩ | ⟨-, eq⟩ | ⟨-, eq⟩ <;> rw [eq]
      · exact content
      · exact content
      · exact List.forall_mem_append.2 ⟨content, List.forall_mem_singleton.2 (.of_anomaly opening)⟩
    unfold Parsed.argumentOf
    split
    · exact closed
    split
    · exact closed
    · exact List.forall_mem_cons.2 ⟨.of_anomaly (unknown ‹_› ‹_›), closed⟩
  | first _ ih | complete _ _ ih => exact ih h
  | square _ _ ih | cube _ _ ih =>
    rw [Parsed.join, List.append_nil]
    exact ih h
  | operation left operator _ ihl ihr =>
    obtain ⟨w, passes, -⟩ := left.passes
    obtain ⟨v, sign, -⟩ := operator.passes
    have behind := h.advance passes (left.apart h.apart passes)
    have operand := behind.advance sign (operator.apart behind.apart sign)
    exact List.forall_mem_append.2 ⟨ihl h, ihr operand⟩

end Trace

/-! ## Groups that are not closed -/

/-- The places of the groups that are reported as not closed. -/
def openPlaces (issues : List Diagnostic) : List Nat :=
  (issues.filter (·.kind == .unclosedParenthesis)).map (·.position)

section Openings
variable {issues more : List Diagnostic} {c : Cursor} {p : Parsed Expr}

@[simp] theorem openPlaces_append :
    openPlaces (issues ++ more) = openPlaces issues ++ openPlaces more := by
  simp [openPlaces]

/-- The groups that are not closed in a reading have different places inside of it. -/
structure Openings (c : Cursor) (p : Parsed Expr) : Prop where
  nodup : (openPlaces p.issues).Nodup
  inside : ∀ i ∈ openPlaces p.issues, c.position ≤ i ∧ i < p.after.position

theorem Openings.none (h : openPlaces p.issues = []) : Openings c p :=
  ⟨by simp [h], by simp [h]⟩

/-- Openings depend on what is reported and on where the reading ends. -/
theorem Openings.same {d : Cursor} {q : Parsed Expr} (h : Openings d p)
    (before : c.position ≤ d.position) (issues : openPlaces q.issues = openPlaces p.issues)
    (after : p.after.position ≤ q.after.position) : Openings c q where
  nodup := issues ▸ h.nodup
  inside i hi := by
    have := h.inside i (issues ▸ hi)
    omega

/-- A group that is not closed begins before its content. -/
theorem Openings.closed {d : Cursor} {opening : Nat} (h : Openings d p)
    (before : c.position ≤ opening) (behind : opening < d.position)
    (forward : d.position ≤ p.after.position) : Openings c (p.closed opening) := by
  rcases closed_cases opening p with ⟨-, -, eq⟩ | ⟨-, eq⟩ | ⟨-, eq⟩ <;> rw [eq]
  · exact h.same (by omega) rfl (Nat.le_succ _)
  · exact h.same (by omega) rfl (Nat.le_refl _)
  · have places : openPlaces (p.issues ++ [Anomaly.unclosedParenthesis.diagnostic opening]) =
        openPlaces p.issues ++ [opening] := openPlaces_append
    refine ⟨?_, fun i hi => ?_⟩
    · rw [places, List.nodup_append]
      refine ⟨h.nodup, by simp, fun i hi j hj => ?_⟩
      have := h.inside i hi
      have := List.mem_singleton.1 hj
      omega
    · rw [places] at hi
      rcases List.mem_append.1 hi with inner | here
      · have := h.inside i inner
        exact ⟨by omega, this.2⟩
      · rw [List.mem_singleton.1 here]
        exact ⟨before, Nat.lt_of_lt_of_le behind forward⟩

theorem Leaf.openPlaces_eq_nil (leaf : Leaf c p) : openPlaces p.issues = [] := by
  cases leaf with
  | number =>
    unfold Parser.number
    dsimp only
    split <;> rfl
  | _ => rfl

/-- Groups that are not closed have different places. -/
theorem Run.openings {room n : Nat} {stage : Stage} (run : Run room stage n c p) :
    Openings c p := by
  induction run with
  | tooDeep => exact .none rfl
  | leaf leaf => exact .none leaf.openPlaces_eq_nil
  | plus _ _ ih | negate _ _ ih => exact ih.same (Nat.le_succ _) rfl (Nat.le_refl _)
  | group _ inner ih =>
    obtain ⟨w, passes, -⟩ := inner.passes
    exact ih.closed (Nat.le_refl _) (Nat.lt_succ_self _) passes.position_le
  | call _ _ _ _ inner ih | unknownCall _ _ _ inner ih =>
    obtain ⟨w, passes, -⟩ := inner.passes
    have content := ih.closed (Nat.le_add_right ..) (Nat.lt_succ_self _) passes.position_le
    exact content.same (Nat.le_refl _) rfl (Nat.le_refl _)
  | first _ ih | complete _ _ ih => exact ih
  | square _ _ ih | cube _ _ ih =>
    exact ih.same (Nat.le_refl _) (by rw [Parsed.join, List.append_nil]) (Nat.le_succ _)
  | operation left h right ihl ihr =>
    obtain ⟨w, passes, -⟩ := left.passes
    obtain ⟨v, sign, -⟩ := h.passes
    obtain ⟨u, passes', -⟩ := right.passes
    have operand := Nat.le_trans passes.position_le sign.position_le
    have forward := Nat.le_trans sign.position_le passes'.position_le
    refine ⟨?_, fun i hi => ?_⟩
    · rw [Parsed.join, openPlaces_append, List.nodup_append]
      refine ⟨ihl.nodup, ihr.nodup, fun i hi j hj => ?_⟩
      have := ihl.inside i hi
      have := ihr.inside j hj
      have := sign.position_le
      omega
    · rw [Parsed.join, openPlaces_append, List.mem_append] at hi
      rcases hi with left | right
      · have inside := ihl.inside i left
        exact ⟨inside.1, Nat.lt_of_lt_of_le inside.2 forward⟩
      · have inside := ihr.inside i right
        exact ⟨Nat.le_trans operand inside.1, inside.2⟩

end Openings

end Parser

/-! ## Sources -/

section Sources
open Curves.Parser

theorem between_start (s : List Char) : Between s [] (.start s) where
  text := rfl
  position := rfl
  apart := by simp [Apart]

/-- What is reported of a source, and how what is left over is reported. -/
theorem parse_places (s : List Char) :
    (∀ d ∈ (parse s).diagnostics, IsFound s d) ∧ (openPlaces (parse s).diagnostics).Nodup ∧
      ∀ d ∈ (parse s).diagnostics, d.kind = .trailingInput → d.position = (parse s).consumed ∧
        ∃ before, (parse s).diagnostics = before ++ [d] ∧ reported .trailingInput before = 0 := by
  by_cases nonempty : s = []
  · subst s
    refine ⟨List.forall_mem_singleton.2 (.of_anomaly ⟨rfl, rfl⟩), List.nodup_nil, ?_⟩
    intro d mem left
    rw [List.mem_singleton.1 mem] at left
    cases left
  by_cases short : s.length ≤ maxLength
  · obtain ⟨t, trace⟩ := exists_trace s
    obtain ⟨n, run⟩ := trace.exists_run
    have found := trace.found (between_start s) short
    obtain ⟨w, passes, -⟩ := trace.passes
    have between := (between_start s).advance passes (trace.apart (between_start s).apart passes)
    rw [parse_of_trace trace nonempty short]
    generalize expression (factor maxDepth) (.start s) = p at run found between
    dsimp only
    unfold trailing
    split
    · rw [List.append_nil]
      refine ⟨found, run.openings.nodup, fun d mem left => ?_⟩
      exact absurd run.no_trailing (Nat.ne_of_gt (List.countP_pos_iff.2 ⟨d, mem, by simp [left]⟩))
    · rename_i more
      simp only [Bool.or_eq_true, List.isEmpty_iff, not_or] at more
      have rest : IsFound s ((Anomaly.trailingInput p.after.rest).diagnostic p.after.position) := by
        refine .of_anomaly ⟨?_, between.drop.symm⟩
        have length := congrArg List.length between.text
        have := List.length_pos_iff.2 more.2
        rw [List.length_append, ← between.position] at length
        omega
      refine ⟨List.forall_mem_append.2 ⟨found, List.forall_mem_singleton.2 rest⟩, ?_, ?_⟩
      · rw [openPlaces_append]
        exact List.append_nil _ ▸ run.openings.nodup
      · intro d mem left
        rcases List.mem_append.1 mem with inside | last
        · exact absurd run.no_trailing
            (Nat.ne_of_gt (List.countP_pos_iff.2 ⟨d, inside, by simp [left]⟩))
        · rw [List.mem_singleton.1 last]
          exact ⟨rfl, p.issues, rfl, run.no_trailing⟩
  · have long := Nat.not_le.1 short
    rw [parse_of_long long]
    refine ⟨List.forall_mem_singleton.2 (.of_anomaly ⟨rfl, rfl, long⟩), List.nodup_nil, ?_⟩
    intro d mem left
    rw [List.mem_singleton.1 mem] at left
    cases left

/-- Every diagnostic of a source is that of an anomaly which is found at its place. No two groups
that are not closed have the same place. What is left over is reported once at most, as the last
thing and at the place that the parser has come to. -/
theorem ofSource_places (source : String) (conventions : Conventions) :
    let f := Formula.ofSource source conventions
    let s := f.source.toList
    (∀ d ∈ f.diagnostics, ∃ a : Anomaly, d = a.diagnostic d.position ∧ a.IsFoundAt s d.position) ∧
      ((f.diagnostics.filter (·.kind == .unclosedParenthesis)).map (·.position)).Nodup ∧
      ∀ d ∈ f.diagnostics, d.kind = .trailingInput → d.position = (parse s).consumed ∧
        ∃ before, f.diagnostics = before ++ [d] ∧ reported .trailingInput before = 0 := by
  intro f s
  have text : s = normalizeChars source.toList := String.toList_ofList
  rw [text]
  exact parse_places (normalizeChars source.toList)

/-- Six anomalies of one source. The number, the function and the missing argument are at the
beginnings of their words, the group is at its `(`, and what is left over begins at the `[` at which
a factor is missing. -/
theorem ofSource_places_six :
    let f := Formula.ofSource "(1.2.3+foo(2)*bar+["
    let s := f.source.toList
    let left := (Anomaly.trailingInput ['[']).diagnostic 18
    f.diagnostics.map (fun d => (d.kind, d.position)) =
        [(.invalidNumber, 1), (.unknownFunction, 7), (.missingFunctionArgument, 14),
          (.unexpectedCharacter, 18), (.unclosedParenthesis, 0), (.trailingInput, 18)] ∧
      left ∈ f.diagnostics ∧ (parse s).consumed = 18 ∧
      (∃ a : Anomaly, left = a.diagnostic 18 ∧ a.IsFoundAt s 18) ∧
      ((f.diagnostics.filter (·.kind == .unclosedParenthesis)).map (·.position)).Nodup ∧
      ∃ before, f.diagnostics = before ++ [left] ∧ reported .trailingInput before = 0 := by
  intro f s left
  have mem : left ∈ f.diagnostics := by decide +kernel
  obtain ⟨found, groups, last⟩ := ofSource_places "(1.2.3+foo(2)*bar+[" {}
  obtain ⟨stays, final⟩ := last left mem rfl
  exact ⟨by decide +kernel, mem, stays.symm, found left mem, groups, final⟩

end Sources

end Curves
