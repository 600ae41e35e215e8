import Curves.Proofs.Expr.Places

/-!
# Invalid numbers

A literal is a longest run of digits and separators that begins with a digit. The parser reads each
literal as a whole and stops inside of none, so the literals that it passes over are the numbers it
reads, and it reports those in which there are two separators or more.

Main statements:

* `Trace.reports`: the literals that a reading reports;
* `parse_reports`: sources.
-/

namespace Curves
open Grammar

namespace Parser
open Cursor

/-! ## Literals that are reported -/

/-- Of the literals from the place `i` to the place `j`, exactly those with two separators or more
are reported in `issues`. -/
def ReportsLiterals (s : List Char) (issues : List Diagnostic) (i j : Nat) : Prop :=
  ∀ place, (Diagnostic.Kind.invalidNumber, place) ∈ issues.map Diagnostic.spot ↔
    i ≤ place ∧ place < j ∧ ∃ w, LiteralAt s place w ∧ 2 ≤ w.countP isSeparator

section Literals
variable {room : Nat} {stage : Stage} {c d : Cursor} {p : Parsed Expr} {t : List Step}
  {s before w r : List Char} {issues more : List Diagnostic} {i j k : Nat}

/-- Reports of literals in adjoining ranges are those of both together. -/
theorem ReportsLiterals.append (h : ReportsLiterals s issues i j) (h' : ReportsLiterals s more j k)
    (first : i ≤ j) (second : j ≤ k) : ReportsLiterals s (issues ++ more) i k := by
  intro place
  rw [List.map_append, List.mem_append, h place, h' place]
  constructor
  · rintro (⟨low, high, found⟩ | ⟨low, high, found⟩)
    · exact ⟨low, by omega, found⟩
    · exact ⟨by omega, high, found⟩
  · rintro ⟨low, high, found⟩
    rcases Nat.lt_or_ge place j with left | right
    · exact .inl ⟨low, left, found⟩
    · exact .inr ⟨right, high, found⟩

theorem digitless_of_letters (letters : ∀ x ∈ w, Text.isLetter x) : w.any Char.isDigit = false :=
  List.any_eq_false.2 fun x hx digit =>
    not_isLiteralChar_of_isLetter (letters x hx) ((isLiteralChar_iff x).2 (.inl digit))

/-- No literal begins in a text without digits. -/
theorem Between.reports (h : Between s before c) (passes : c.Passes w d)
    (digitless : w.any Char.isDigit = false) (quiet : ∀ d ∈ issues, d.kind ≠ .invalidNumber) :
    ReportsLiterals s issues c.position d.position := by
  intro place
  refine iff_of_false (fun reported => ?_) ?_
  · obtain ⟨d, mem, spot⟩ := List.mem_map.1 reported
    exact quiet d mem (congrArg Prod.fst spot)
  · rintro ⟨low, high, w', ⟨⟨x, there, digit⟩, -⟩, -⟩
    obtain ⟨n, rfl⟩ := Nat.exists_eq_add_of_le low
    rw [passes.position] at high
    have inside : n < w.length := by omega
    rw [h.getElem?, passes.rest, List.getElem?_append_left inside] at there
    exact List.any_eq_false.1 digitless x (List.mem_of_getElem? there) digit

/-- A literal that begins in a word of digits and separators begins with the word. -/
theorem Between.eq_of_literalAt (h : Between s before c) (here : c.At (w ++ r))
    (word : ∀ d ∈ w, isLiteralChar d) {place : Nat} {v : List Char} (literal : LiteralAt s place v)
    (low : c.position ≤ place) (high : place < c.position + w.length) : place = c.position := by
  obtain ⟨n, rfl⟩ := Nat.exists_eq_add_of_le low
  cases n with
  | zero => rfl
  | succ n =>
    -- The character of the word before it would belong to the literal, too.
    have inside : n < w.length := by omega
    have last : (s.take (c.position + (n + 1))).getLast? = some w[n] := by
      rw [List.getLast?_take, if_neg (by omega), ← Nat.add_assoc, Nat.add_sub_cancel, h.getElem?,
        here.1, List.getElem?_append_left inside, List.getElem?_eq_getElem inside]
      rfl
    exact absurd (word _ (List.getElem_mem inside)) (literal.alone _ last)

/-- Where a literal is read, nothing but the literal itself is to be reported. -/
theorem Between.reports_literal (h : Between s before c) (here : c.At (w ++ r))
    (first : ∃ d ∈ w.head?, d.isDigit) (word : ∀ d ∈ w, isLiteralChar d)
    (stop : ∀ d ∈ r.head?, ¬ isLiteralChar d)
    (reported : ∀ place, (Diagnostic.Kind.invalidNumber, place) ∈ issues.map Diagnostic.spot ↔
      place = c.position ∧ literalValue? w = none) :
    ReportsLiterals s issues c.position (c.position + w.length) := by
  have literal := h.literalAt here first word stop
  have invalid := literalValue?_eq_none_iff first fun d hd => (isLiteralChar_iff d).1 (word d hd)
  intro place
  rw [reported, invalid]
  constructor
  · rintro ⟨rfl, separators⟩
    have nonempty : w ≠ [] := by
      rintro rfl
      cases separators
    exact ⟨Nat.le_refl _, Nat.lt_add_of_pos_right (List.length_pos_iff.2 nonempty), w, literal,
      separators⟩
  · rintro ⟨low, high, v, other, separators⟩
    obtain rfl := h.eq_of_literalAt here word other low high
    rw [literal.longest, ← other.longest]
    exact ⟨rfl, separators⟩

/-- Of a word, what is reported is a literal with two separators or more. -/
theorem Between.reports_word {anomaly : Option Anomaly} {value : Expr} (h : Between s before c)
    (here : c.At r) (begins : Begins r (.word w value anomaly)) :
    ReportsLiterals s (Parsed.ofWord w value anomaly c).issues c.position
      (c.position + w.length) := by
  obtain ⟨u, rfl, -⟩ := begins.word
  have passes : c.Passes w (c.advance w.length) := .word here
  generalize text : w ++ u = v at begins
  cases begins with
  | number first word stop value =>
    obtain rfl := List.append_cancel_left text
    exact h.reports_literal here first word stop (by simp [Parsed.ofWord, value])
  | invalidNumber first word stop value =>
    obtain rfl := List.append_cancel_left text
    exact h.reports_literal here first word stop
      (by simp [Parsed.ofWord, value, Anomaly.kind])
  | var | euler | circle => exact h.reports passes rfl (by simp [Parsed.ofWord])
  | name first letters =>
    have digitless := digitless_of_letters (List.forall_mem_cons.2 ⟨first.letter, letters⟩)
    exact h.reports passes digitless (by simp [Parsed.ofWord, Anomaly.diagnostic, Anomaly.kind])

theorem Begins.digitless_name {name : List Char} (begins : Begins r (.opening name)) :
    (name ++ ['(']).any Char.isDigit = false := by
  rw [List.any_append, Bool.or_eq_false_iff]
  refine ⟨?_, rfl⟩
  cases begins with
  | call first letters =>
    exact digitless_of_letters (List.forall_mem_cons.2 ⟨first.letter, letters⟩)
  | group => rfl

/-- An operator has no digits. -/
theorem OperatorAt.digitless {k : Chain} {op : Operator} {seams : List Nat}
    (h : OperatorAt k c op d seams) : ∃ w, c.Passes w d ∧ w.any Char.isDigit = false := by
  cases h with
  | adjacent => exact ⟨[], .refl c, rfl⟩
  | raise h | multiply h | divide h | add h | subtract h => exact ⟨_, .next h, rfl⟩

/-- At the end of a group nothing is reported of a literal. -/
theorem ReportsLiterals.closed (opening : Nat)
    (h : ReportsLiterals s p.issues i p.after.position) (between : Between s before p.after)
    (forward : i ≤ p.after.position) :
    ReportsLiterals s (p.closed opening).issues i (p.closed opening).after.position := by
  rcases closed_cases opening p with ⟨r, found, eq⟩ | ⟨-, eq⟩ | ⟨-, eq⟩ <;> rw [eq]
  · have closing : ReportsLiterals s [] p.after.position (p.after.advance 1).position :=
      between.reports (.next found) rfl (by simp)
    exact List.append_nil p.issues ▸ h.append closing forward (Nat.le_succ _)
  · exact h
  · have here : ReportsLiterals s [Anomaly.unclosedParenthesis.diagnostic opening]
        p.after.position p.after.position :=
      between.reports (.refl _) rfl (by simp [Anomaly.diagnostic, Anomaly.kind])
    exact h.append here forward (Nat.le_refl _)

/-- Of a group with a name nothing more is reported than of the group and of its name. -/
theorem issues_argumentOf (name : List Char) (place : Nat) (p : Parsed Expr) :
    ∃ more, (p.argumentOf name place).issues = more ++ p.issues ∧
      ∀ d ∈ more, d.kind ≠ .invalidNumber := by
  unfold Parsed.argumentOf
  split
  · exact ⟨[], rfl, by simp⟩
  split
  · exact ⟨[], rfl, by simp⟩
  · exact ⟨[(Anomaly.unknownFunction name).diagnostic place], rfl,
      by simp [Anomaly.diagnostic, Anomaly.kind]⟩

/-- A reading reports the literals with two separators or more. -/
theorem Trace.reports (trace : Trace room stage c p t) (h : Between s before c) :
    ReportsLiterals s p.issues c.position p.after.position := by
  -- What is passed between the parts of a reading has no digits, so the ranges of the parts adjoin.
  induction trace generalizing before with
  | tooDeep =>
    exact h.reports (w := []) ⟨rfl, rfl⟩ rfl
      (by simp [Parsed.absent, Anomaly.diagnostic, Anomaly.kind])
  | missing here begins =>
    refine h.reports (.refl _) rfl ?_
    rcases begins.missing with ⟨-, rfl⟩ | ⟨x, r, -, rfl, -⟩ <;>
      simp [Parsed.absent, Anomaly.diagnostic, Anomaly.kind]
  | word here begins => exact h.reports_word here begins
  | plus here inner ih | negate here inner ih =>
    have sign : ReportsLiterals s [] _ _ := h.reports (.next here) rfl (by simp)
    obtain ⟨w, passes, -⟩ := inner.passes
    have factor := ih (h.advance (.next here) (apart_snoc (by decide)))
    exact sign.append factor (Nat.le_succ _) passes.position_le
  | @group _ c _ name p _ here begins inner ih =>
    obtain ⟨more, issues, quiet⟩ :=
      issues_argumentOf name c.position (p.closed (c.position + name.length))
    have digitless := begins.digitless_name
    obtain ⟨r, rfl, -⟩ := begins.opening
    obtain ⟨w, passes, -⟩ := inner.passes
    obtain ⟨v, closing⟩ := closed_passes (c.position + name.length) p
    have opened := h.advance (.opened here) (by
      rw [← List.append_assoc]
      exact apart_snoc (by decide))
    have front : ReportsLiterals s more _ _ := h.reports (.opened here) digitless quiet
    have content := (ih opened).closed (c.position + name.length)
      (opened.advance passes (inner.apart opened.apart passes)) passes.position_le
    rw [issues, Parsed.after_argumentOf]
    exact front.append content (Nat.le_add_right ..)
      (Nat.le_trans passes.position_le closing.position_le)
  | first _ ih | complete _ _ ih => exact ih h
  | square left sign ih | cube left sign ih =>
    obtain ⟨w, passes, -⟩ := left.passes
    have behind := h.advance passes (left.apart h.apart passes)
    have exponent : ReportsLiterals s [] _ _ := behind.reports (.next sign) rfl (by simp)
    exact (ih h).append exponent passes.position_le (Nat.le_succ _)
  | operation left operator right ihl ihr =>
    obtain ⟨w, passes, -⟩ := left.passes
    have behind := h.advance passes (left.apart h.apart passes)
    obtain ⟨v, sign, digitless⟩ := operator.digitless
    have between : ReportsLiterals s [] _ _ := behind.reports sign digitless (by simp)
    obtain ⟨u, passes', -⟩ := right.passes
    have operand := ihr (behind.advance sign (operator.apart behind.apart sign))
    exact (ihl h).append (between.append operand sign.position_le passes'.position_le)
      passes.position_le (Nat.le_trans sign.position_le passes'.position_le)

end Literals

end Parser

/-! ## Sources -/

/-- Of the literals that are parsed, exactly those with two separators or more are reported. -/
theorem parse_reports (s : List Char) :
    Parser.ReportsLiterals s (parse s).diagnostics 0 (parse s).consumed := by
  by_cases empty : s = []
  · subst s
    refine (between_start []).reports (.refl _) rfl ?_
    exact List.forall_mem_singleton.2 (by decide)
  by_cases short : s.length ≤ maxLength
  · obtain ⟨t, trace⟩ := Parser.exists_trace s
    have between := between_start s
    obtain ⟨w, passes, -⟩ := trace.passes
    have behind := between.advance passes (trace.apart between.apart passes)
    rw [Parser.parse_of_trace trace empty short]
    refine (trace.reports between).append ?_ passes.position_le (Nat.le_refl _)
    refine behind.reports (.refl _) rfl fun d hd => ?_
    rw [Parser.kind_of_mem_trailing hd]
    decide
  · have long := Nat.not_le.1 short
    rw [Parser.parse_of_long long]
    refine (between_start s).reports (.refl _) rfl ?_
    exact List.forall_mem_singleton.2 (by simp [Anomaly.diagnostic, Anomaly.kind])

end Curves
