import Curves.Proofs.Expr.Trace

/-!
# Parentheses that are missing at the end

A group that ends without its `)` in a text that is read up to its end is open there, and the end of
the text has the same effect as the `)` would have. So a text that lacks some parentheses at its end
is read like the text with them, except that nothing is reported about them.

Main statements:

* `Run.stuck`: behind a group that is not closed nothing more is read;
* `Trace.supply`: a trace on a text with its missing parentheses;
* `parse_supplied`: sources.
-/

namespace Curves

namespace Parser
open Cursor

/-! ## Where a reading ends -/

/-- How far up a chain stands. -/
def Chain.level : Chain → Nat
  | .power => 0
  | .term => 1
  | .sum => 2

/-- The chains below this level are complete. -/
def Stage.level : Stage → Nat
  | .factor => 0
  | .links k => k.level
  | .whole k => k.level + 1

theorem Chain.level_operand (k : Chain) : k.operand.level = k.level := by
  cases k <;> rfl

theorem Chain.level_injective {j k : Chain} (h : j.level = k.level) : j = k := by
  cases j <;> cases k <;> cases h <;> rfl

theorem OperatorAt.goesOn {k : Chain} {c d : Cursor} {op : Operator} {seams : List Nat}
    (h : OperatorAt k c op d seams) : ∃ x ∈ c.peek, k.goesOn x := by
  cases h with
  | adjacent h starts => exact ⟨_, h.peek, by simp [Chain.goesOn, starts]⟩
  | raise h | multiply h | divide h | add h | subtract h => exact ⟨_, h.peek, rfl⟩

/-- No chain that is complete goes on behind a reading. -/
theorem Run.stops {room n : Nat} {stage : Stage} {c : Cursor} {p : Parsed Expr}
    (run : Run room stage n c p) {j : Chain} (below : j.level < stage.level) :
    ∀ x ∈ p.after.peek, ¬ j.goesOn x := by
  induction run with
  | first _ ih => exact ih (by rwa [Chain.level_operand])
  | operation _ _ _ _ right => exact right (by rwa [Chain.level_operand])
  | @complete _ k _ _ _ _ stops ih =>
    rcases Nat.lt_succ_iff_lt_or_eq.1 below with inner | same
    · exact ih inner
    · exact Chain.level_injective same ▸ stops
  | _ => cases below

/-- No chain goes on at a cursor, and no group is closed there. -/
def Stuck (c : Cursor) : Prop := ∀ x ∈ c.peek, x ≠ ')' ∧ ∀ k : Chain, ¬ k.goesOn x

theorem Stuck.not_operatorAt {k : Chain} {c d : Cursor} {op : Operator} {seams : List Nat}
    (stuck : Stuck c) (h : OperatorAt k c op d seams) : False := by
  obtain ⟨x, next, goesOn⟩ := h.goesOn
  exact (stuck x next).2 k goesOn

theorem closed_stuck {p : Parsed Expr} (opening : Nat)
    (ih : 0 < reported .unclosedParenthesis p.issues → Stuck p.after)
    (stops : ∀ (k : Chain), ∀ x ∈ p.after.peek, ¬ k.goesOn x)
    (unclosed : 0 < reported .unclosedParenthesis (p.closed opening).issues) :
    Stuck (p.closed opening).after := by
  by_cases closing : p.after.peek = some ')'
  · rw [Parsed.closed, if_pos closing] at unclosed
    exact absurd rfl (ih unclosed ')' closing).1
  have after : (p.closed opening).after = p.after := by
    rw [Parsed.closed, if_neg closing]
    split <;> rfl
  rw [after]
  intro x next
  exact ⟨fun same => closing (same ▸ next), fun k => stops k x next⟩

/-- Behind a group that is not closed nothing more is read. -/
theorem Run.stuck {room n : Nat} {stage : Stage} {c : Cursor} {p : Parsed Expr}
    (run : Run room stage n c p) (unclosed : 0 < reported .unclosedParenthesis p.issues) :
    Stuck p.after := by
  have all_stop {room n : Nat} {c : Cursor} {p : Parsed Expr} (run : Run room (.whole .sum) n c p)
      (k : Chain) : ∀ x ∈ p.after.peek, ¬ k.goesOn x :=
    run.stops (by cases k <;> decide)
  induction run with
  | tooDeep => cases unclosed
  | leaf leaf =>
    cases leaf with
    | number =>
      unfold Parser.number at unclosed
      dsimp only at unclosed
      split at unclosed <;> cases unclosed
    | _ => cases unclosed
  | plus _ _ ih | negate _ _ ih | first _ ih | complete _ _ ih => exact ih unclosed
  | group _ run ih | call _ _ _ _ run ih => exact closed_stuck _ ih (all_stop run) unclosed
  | unknownCall _ _ _ run ih =>
    rw [reported_diagnostic_cons] at unclosed
    exact closed_stuck _ ih (all_stop run) (by simpa [Anomaly.kind] using unclosed)
  | square _ h ih | cube _ h ih =>
    rw [Parsed.join, List.append_nil] at unclosed
    exact absurd rfl ((ih unclosed _ h.peek).2 .power)
  | operation _ h _ left right =>
    rw [Parsed.join, reported_append] at unclosed
    rcases Nat.eq_zero_or_pos (reported .unclosedParenthesis _) with none | some
    · rw [none, Nat.zero_add] at unclosed
      exact right unclosed
    · exact ((left some).not_operatorAt h).elim

/-- Behind a group that is not closed no chain goes on, and no group is closed there. -/
theorem Trace.stuck {room : Nat} {stage : Stage} {c : Cursor} {p : Parsed Expr} {t : List Step}
    (trace : Trace room stage c p t) (unclosed : 0 < reported .unclosedParenthesis p.issues) :
    Stuck p.after := by
  obtain ⟨n, run⟩ := trace.exists_run
  exact run.stuck unclosed

/-! ## Texts with their missing parentheses -/

abbrev missingIn (p : Parsed Expr) : Nat := reported .unclosedParenthesis p.issues

/-- `d` is the place of `c` in the text with `m` more parentheses at its end. -/
structure Supplied (m : Nat) (c d : Cursor) : Prop where
  rest : d.rest = c.rest ++ List.replicate m ')'
  position : d.position = c.position
  going : d.halted = false

/-- No more than `m` parentheses are missing, and only at the end of a text that is read whole. -/
structure Lacks (m : Nat) (p : Parsed Expr) : Prop where
  enough : missingIn p ≤ m
  ends : 0 < missingIn p → p.after.rest = []
  going : p.after.halted = false

/-- `q` is the reading `p` with the missing ones of `m` parentheses supplied. -/
structure Completes (m : Nat) (p q : Parsed Expr) : Prop where
  value : q.value = p.value
  spots : q.issues.map Diagnostic.spot =
    (p.issues.filter (·.kind != .unclosedParenthesis)).map Diagnostic.spot
  rest : q.after.rest = p.after.rest ++ List.replicate (m - missingIn p) ')'
  position : q.after.position = p.after.position + missingIn p
  going : q.after.halted = false

section Supplied
variable {m room : Nat} {k : Chain} {stage : Stage} {c d : Cursor} {p q : Parsed Expr}
  {x : Char} {s w : List Char} {t : List Step}

theorem Supplied.advance (h : Supplied m c d) {n : Nat} (inside : n ≤ c.rest.length) :
    Supplied m (c.advance n) (d.advance n) where
  rest := by simp [h.rest, List.drop_append_of_le_length inside]
  position := by simp [h.position]
  going := h.going

/-- The place in the longer text has the parentheses behind it. -/
theorem Supplied.at (h : Supplied m c d) (hc : c.At s) : d.At (s ++ List.replicate m ')') :=
  ⟨by rw [h.rest, hc.1], h.going⟩

/-- A parenthesis ends a word as well as the end of the text. -/
theorem sameEnd_replicate (m : Nat) (r : List Char) : SameEnd r (r ++ List.replicate m ')') := by
  cases r with
  | cons x r => exact .inl rfl
  | nil =>
    refine .inr fun x next => ?_
    obtain rfl : x = ')' := List.eq_of_mem_replicate (List.mem_of_mem_head? next)
    exact ⟨by decide, by decide, by decide⟩

/-- Where no factor is found at the end of the text, none is found before a parenthesis. -/
theorem Begins.missing_replicate {anomaly : Anomaly} (begins : Begins s (.missing anomaly))
    (m : Nat) : ∃ other : Anomaly, anomaly.kind = .unexpectedCharacter ∧
      other.kind = .unexpectedCharacter ∧
        Begins (s ++ List.replicate m ')') (.missing other) := by
  rcases begins.missing with ⟨rfl, rfl⟩ | ⟨x, r, rfl, rfl, other, plus, minus⟩
  · cases m with
    | zero => exact ⟨_, rfl, rfl, .end⟩
    | succ m => exact ⟨.unexpectedCharacter ')', rfl, rfl, .stranger rfl (by decide) (by decide)⟩
  · exact ⟨_, rfl, rfl, .stranger other plus minus⟩

/-- An operator is read alike in the longer text. -/
theorem OperatorAt.supplied {op : Operator} {seams : List Nat} {c' : Cursor}
    (operator : OperatorAt k c op d seams) (h : Supplied m c c') :
    ∃ d', OperatorAt k c' op d' seams ∧ Supplied m d d' := by
  rcases operator.cases with ⟨x, s, hc, rfl, rfl, written⟩ | ⟨x, s, hc, starts, rfl, rfl, rfl, rfl⟩
  · exact ⟨_, written _ _ (h.at hc), h.advance (by simp [hc.1])⟩
  · refine ⟨c', ?_, h⟩
    rw [← h.position]
    exact .adjacent (h.at hc) starts

/-! ### Readings without open groups -/

theorem filter_of_no_missing (none : missingIn p = 0) :
    p.issues.filter (·.kind != .unclosedParenthesis) = p.issues := by
  refine List.filter_eq_self.2 fun d hd => ?_
  simpa using List.countP_eq_zero.1 none d hd

/-- A reading in which no parenthesis is missing lacks none. -/
theorem lacks_of_no_missing (none : missingIn p = 0) (going : p.after.halted = false) :
    Lacks m p :=
  ⟨none ▸ Nat.zero_le m, fun some => absurd none (Nat.ne_of_gt some), going⟩

/-- Where nothing is missing, nothing is changed. -/
theorem completes_of_no_missing (none : missingIn p = 0) (value : q.value = p.value)
    (spots : q.issues.map Diagnostic.spot = p.issues.map Diagnostic.spot)
    (after : Supplied m p.after q.after) : Completes m p q where
  value
  spots := by rw [filter_of_no_missing none, spots]
  rest := by rw [none, after.rest, Nat.sub_zero]
  position := by rw [none, after.position, Nat.add_zero]
  going := after.going

theorem Completes.supplied (h : Completes m p q) (none : missingIn p = 0) :
    Supplied m p.after q.after where
  rest := by rw [h.rest, none, Nat.sub_zero]
  position := by rw [h.position, none, Nat.add_zero]
  going := h.going

theorem Completes.map (h : Completes m p q) (f : Expr → Expr) :
    Completes m (p.map f) (q.map f) :=
  ⟨congrArg f h.value, h.spots, h.rest, h.position, h.going⟩

@[simp] theorem missingIn_argumentOf (name : List Char) (place : Nat) :
    missingIn (p.argumentOf name place) = missingIn p := by
  unfold Parsed.argumentOf
  split
  · rfl
  split
  · rfl
  · exact reported_diagnostic_cons ..

theorem Completes.argumentOf (h : Completes m p q) (name : List Char) (place : Nat) :
    Completes m (p.argumentOf name place) (q.argumentOf name place) where
  value := by
    unfold Parsed.argumentOf
    split
    · exact h.value
    split
    · exact congrArg (Expr.call _) h.value
    · exact congrArg (Expr.unknownCall _) h.value
  spots := by
    unfold Parsed.argumentOf
    split
    · exact h.spots
    split
    · exact h.spots
    · exact congrArg (_ :: ·) h.spots
  rest := by simpa using h.rest
  position := by simpa using h.position
  going := by simpa using h.going

theorem Lacks.of_argumentOf {name : List Char} {place : Nat}
    (lacks : Lacks m (p.argumentOf name place)) : Lacks m p where
  enough := by simpa using lacks.enough
  ends := by simpa using lacks.ends
  going := by simpa using lacks.going

/-! ### Groups -/

theorem missingIn_unclosed (p : Parsed Expr) (opening : Nat) :
    missingIn { p with issues := p.issues ++ [Anomaly.unclosedParenthesis.diagnostic opening] } =
      missingIn p + 1 :=
  reported_append ..

/-- Behind a `)` that is there none is missing. -/
theorem no_missing_of_peek (stuck : 0 < missingIn p → Stuck p.after)
    (closing : p.after.peek = some ')') : missingIn p = 0 :=
  Nat.eq_zero_of_not_pos fun some => (stuck some ')' closing).1 rfl

/-- What is missing in a group is missing in its content, or it is the parenthesis behind it. -/
theorem Lacks.of_closed {opening : Nat} (lacks : Lacks m (p.closed opening))
    (stuck : 0 < missingIn p → Stuck p.after) : Lacks m p := by
  have going : p.after.halted = false := by simpa using lacks.going
  by_cases closing : p.after.peek = some ')'
  · have none := no_missing_of_peek stuck closing
    exact lacks_of_no_missing none going
  · rw [closed_of_open opening closing going] at lacks
    obtain ⟨enough, ends, -⟩ := lacks
    rw [missingIn_unclosed] at enough ends
    exact ⟨Nat.le_of_succ_le enough, fun _ => ends (Nat.succ_pos _), going⟩

/-- A group that is not closed takes one of the parentheses that are supplied. -/
theorem Completes.closed {opening : Nat} (h : Completes m p q) (lacks : Lacks m (p.closed opening))
    (stuck : 0 < missingIn p → Stuck p.after) :
    Completes m (p.closed opening) (q.closed opening) := by
  have going : p.after.halted = false := by simpa using lacks.going
  by_cases closing : p.after.peek = some ')'
  · -- The parenthesis is there with and without the ones behind the text.
    have none := no_missing_of_peek stuck closing
    obtain ⟨s, hp⟩ := At.of_peek closing
    have closing' : q.after.peek = some ')' := ((h.supplied none).at hp).peek
    rw [Parsed.closed, if_pos closing, Parsed.closed, if_pos closing']
    exact completes_of_no_missing none h.value (by rw [h.spots, filter_of_no_missing none])
      ((h.supplied none).advance (by simp [hp.1]))
  · -- The text ends here, and the next one of the parentheses closes the group.
    rw [closed_of_open opening closing going] at lacks ⊢
    obtain ⟨enough, ends, -⟩ := lacks
    rw [missingIn_unclosed] at enough ends
    have rest : p.after.rest = [] := ends (Nat.succ_pos _)
    obtain ⟨n, left⟩ : ∃ n, m - missingIn p = n + 1 := ⟨m - missingIn p - 1, by omega⟩
    have hq : q.after.At (')' :: List.replicate n ')') :=
      ⟨by rw [h.rest, rest, left]; rfl, h.going⟩
    have closing' : q.after.peek = some ')' := hq.peek
    rw [Parsed.closed, if_pos closing']
    refine ⟨h.value, ?_, ?_, ?_, h.going⟩
    · simp [h.spots, Anomaly.kind, Anomaly.diagnostic]
    · have fewer : m - (missingIn p + 1) = n := by omega
      rw [missingIn_unclosed, fewer, rest, rest_advance, hq.1]
      rfl
    · rw [missingIn_unclosed, position_advance, h.position, Nat.add_assoc]

/-! ### Chains -/

section Join
variable {op : Operator} {seams : List Nat} {p' q' : Parsed Expr}

theorem missingIn_join (p q : Parsed Expr) :
    missingIn (p.join { q.map (Link.operation op) with seams := seams ++ q.seams }) =
      missingIn p + missingIn q :=
  reported_append ..

/-- Before an operator nothing is missing. -/
theorem no_missing_of_operatorAt (stuck : 0 < missingIn p → Stuck p.after)
    (operator : OperatorAt k p.after op d seams) : missingIn p = 0 :=
  Nat.eq_zero_of_not_pos fun some => (stuck some).not_operatorAt operator

/-- A link is supplied with what its right operand is supplied with, as the left one lacks nothing.
-/
theorem Completes.join (h : Completes m p p') (none : missingIn p = 0) (h' : Completes m q q') :
    Completes m (p.join { q.map (Link.operation op) with seams := seams ++ q.seams })
      (p'.join { q'.map (Link.operation op) with seams := seams ++ q'.seams }) where
  value := by
    simp only [Parsed.join, Link.attach, Parsed.map, h.value, h'.value]
  spots := by
    simp only [Parsed.join, Parsed.map, List.map_append, List.filter_append, h.spots, h'.spots]
  rest := by
    rw [missingIn_join, none, Nat.zero_add]
    exact h'.rest
  position := by
    rw [missingIn_join, none, Nat.zero_add]
    exact h'.position
  going := h'.going

/-- Before an exponent that is one character nothing is missing. -/
theorem no_missing_of_goesOn (stuck : 0 < missingIn p → Stuck p.after) (hc : p.after.At (x :: s))
    (goesOn : k.goesOn x) : missingIn p = 0 :=
  Nat.eq_zero_of_not_pos fun some => (stuck some x hc.peek).2 k goesOn

theorem Completes.exponent (h : Completes m p p') (none : missingIn p = 0)
    (hc : p.after.At (x :: s)) (link : Link) :
    Completes m (p.join { value := link, after := p.after.advance 1 })
      (p'.join { value := link, after := p'.after.advance 1 }) := by
  refine completes_of_no_missing ?_ (congrArg link.attach h.value) ?_
    ((h.supplied none).advance (by simp [hc.1])) <;> simp only [Parsed.join, List.append_nil]
  · exact none
  · rw [h.spots, filter_of_no_missing none]

/-- A chain that ends with the text ends before a parenthesis. -/
theorem Completes.stops (h : Completes m p q) (going : p.after.halted = false)
    (stops : ∀ x ∈ p.after.peek, ¬ k.goesOn x) : ∀ x ∈ q.after.peek, ¬ k.goesOn x := by
  have hq : q.after.At (p.after.rest ++ List.replicate (m - missingIn p) ')') := ⟨h.rest, h.going⟩
  have hp : p.after.At p.after.rest := ⟨rfl, going⟩
  rw [hq.peek]
  rw [hp.peek] at stops
  intro x next
  cases rest : p.after.rest with
  | cons y r =>
    rw [rest] at next stops
    exact stops x next
  | nil =>
    rw [rest] at next
    obtain rfl : x = ')' := List.eq_of_mem_replicate (List.mem_of_mem_head? next)
    cases k <;> decide

end Join

/-! ### Traces -/

theorem Begins.word_kind {e : Expr} {anomaly : Anomaly} (begins : Begins s (.word w e anomaly)) :
    anomaly.kind = .invalidNumber ∨ anomaly.kind = .missingFunctionArgument := by
  cases begins with
  | invalidNumber => exact .inl rfl
  | name => exact .inr rfl

theorem missingIn_ofWord {e : Expr} {anomaly : Option Anomaly}
    (begins : Begins s (.word w e anomaly)) (c : Cursor) :
    missingIn (.ofWord w e anomaly c) = 0 := by
  cases anomaly with
  | none => rfl
  | some anomaly =>
    rw [missingIn, Parsed.ofWord, Option.map_some, Option.toList_some, reported_diagnostic_cons]
    rcases begins.word_kind with kind | kind <;> rw [kind] <;> rfl

/-- A text is read in the same way with the parentheses that are missing in it, but nothing is
reported about them. -/
theorem Trace.supply (trace : Trace room stage c p t) (h : Supplied m c d) (lacks : Lacks m p) :
    ∃ q u, Trace room stage d q u ∧ Completes m p q := by
  induction trace generalizing m d with
  | tooDeep => cases lacks.going
  | missing hc begins =>
    obtain ⟨other, kind, kind', begins'⟩ := begins.missing_replicate m
    refine ⟨_, _, .missing (h.at hc) begins', completes_of_no_missing ?_ rfl ?_ h⟩
    · simp [missingIn, Parsed.absent, kind]
    · simp [Parsed.absent, kind, kind', h.position]
  | @word _ _ _ text e anomaly hc begins =>
    obtain ⟨r, rfl, -, same⟩ := begins.word
    have hd := h.at hc
    rw [List.append_assoc] at hd
    refine ⟨_, _, .word hd (same _ (sameEnd_replicate m r)),
      completes_of_no_missing (missingIn_ofWord begins _) rfl ?_ (h.advance (by simp [hc.1]))⟩
    cases anomaly <;> simp [Parsed.ofWord, h.position]
  | plus hc _ ih =>
    obtain ⟨q, u, trace, completes⟩ := ih (h.advance (by simp [hc.1])) lacks
    exact ⟨q, _, .plus (h.at hc) trace, completes⟩
  | negate hc _ ih =>
    have operand := ih (h.advance (by simp [hc.1])) ⟨lacks.enough, lacks.ends, lacks.going⟩
    obtain ⟨q, u, trace, completes⟩ := operand
    exact ⟨_, _, .negate (h.at hc) trace, completes.map _⟩
  | @group _ c _ name p _ hc begins content ih =>
    obtain ⟨r, rfl, other⟩ := begins.opening
    have lacks' : Lacks m (p.closed (c.position + name.length)) := lacks.of_argumentOf
    obtain ⟨q, u, trace, completes⟩ := ih
      (h.advance (by simp [hc.1])) (lacks'.of_closed content.stuck)
    have hd := h.at hc
    rw [List.append_assoc, List.cons_append] at hd
    refine ⟨_, _, .group hd (other _) trace, ?_⟩
    rw [h.position]
    exact (completes.closed lacks' content.stuck).argumentOf name _
  | first _ ih =>
    obtain ⟨q, u, trace, completes⟩ := ih h lacks
    exact ⟨q, u, .first trace, completes⟩
  | square left hc ih =>
    have none := no_missing_of_goesOn (k := .power) left.stuck hc rfl
    obtain ⟨q, u, trace, completes⟩ := ih h (lacks_of_no_missing none hc.2)
    exact ⟨_, _, .square trace ((completes.supplied none).at hc), completes.exponent none hc _⟩
  | cube left hc ih =>
    have none := no_missing_of_goesOn (k := .power) left.stuck hc rfl
    obtain ⟨q, u, trace, completes⟩ := ih h (lacks_of_no_missing none hc.2)
    exact ⟨_, _, .cube trace ((completes.supplied none).at hc), completes.exponent none hc _⟩
  | operation left operator _ ihl ihr =>
    have none := no_missing_of_operatorAt left.stuck operator
    obtain ⟨enough, ends, going⟩ := lacks
    rw [missingIn_join, none, Nat.zero_add] at enough ends
    obtain ⟨p', t', trace, completes⟩ := ihl h
      (lacks_of_no_missing none operator.going)
    obtain ⟨d', operator', behind⟩ := operator.supplied (completes.supplied none)
    obtain ⟨q', u', trace', completes'⟩ := ihr behind ⟨enough, ends, going⟩
    exact ⟨_, _, .operation trace operator' trace', completes.join none completes'⟩
  | complete left stops ih =>
    obtain ⟨q, u, trace, completes⟩ := ih h lacks
    exact ⟨q, u, .complete trace (completes.stops lacks.going stops), completes⟩

end Supplied

end Parser

/-! ## Sources -/

section Sources
open Curves.Parser
variable {s : List Char}

/-- A source of which no text is left over and that keeps to the limits is read up to its end. -/
theorem reading_ends (nonempty : s ≠ []) (whole : reported .trailingInput (parse s).diagnostics = 0)
    (within : reported .limitExceeded (parse s).diagnostics = 0) :
    s.length ≤ maxLength ∧ (expression (factor maxDepth) (.start s)).after.At [] := by
  obtain ⟨n, run⟩ := exists_run s
  have limit := run.limit_of_halted
  unfold parse at whole within
  rw [if_neg (by simpa using nonempty)] at whole within
  split at within
  · cases within
  rename_i short
  rw [if_neg short] at whole
  generalize expression (factor maxDepth) (.start s) = p at *
  dsimp only at whole within
  rw [reported_append] at whole within
  have going : p.after.halted = false := Bool.eq_false_iff.2 fun halted => by
    have := limit halted
    omega
  refine ⟨Nat.not_lt.1 short, ?_, going⟩
  rw [going, Bool.false_or] at whole
  split at whole
  · exact List.isEmpty_iff.1 ‹_›
  · simp [Anomaly.kind] at whole

/-- A source that is read up to its end is read in the same way with the parentheses that are
missing in it, and only they are no longer reported. -/
theorem parse_supplied (s : List Char)
    (whole : reported .trailingInput (parse s).diagnostics = 0)
    (within : reported .limitExceeded (parse s).diagnostics = 0) :
    let missing := reported .unclosedParenthesis (parse s).diagnostics
    let supplied := s ++ List.replicate missing ')'
    supplied.length ≤ 4096 →
      (parse supplied).tree = (parse s).tree ∧
      (parse supplied).diagnostics.map Diagnostic.spot =
        ((parse s).diagnostics.filter (·.kind != .unclosedParenthesis)).map Diagnostic.spot := by
  intro missing supplied short
  cases s with
  | nil => exact ⟨rfl, rfl⟩
  | cons x s =>
    obtain ⟨length, ends⟩ := reading_ends (List.cons_ne_nil x s) whole within
    obtain ⟨tree, -, diagnostics⟩ := parse_of_end length ends
    have issues := diagnostics (Nat.succ_pos _)
    obtain ⟨t, trace⟩ := exists_trace (x :: s)
    have start : Supplied missing (.start (x :: s)) (.start supplied) := ⟨rfl, rfl, rfl⟩
    have lacks : Lacks missing (expression (factor maxDepth) (.start (x :: s))) :=
      ⟨Nat.le_of_eq (congrArg _ issues).symm, fun _ => ends.1, ends.2⟩
    obtain ⟨q, u, trace', completes⟩ := trace.supply start lacks
    have reading : expression (factor maxDepth) (.start supplied) = q := trace'.read_eq
    have none : missing - missingIn (expression (factor maxDepth) (.start (x :: s))) = 0 := by
      rw [missingIn, ← issues, Nat.sub_self]
    have ends' : (expression (factor maxDepth) (.start supplied)).after.At [] := by
      rw [reading]
      exact ⟨by rw [completes.rest, ends.1, none]; rfl, completes.going⟩
    obtain ⟨tree', -, diagnostics'⟩ := parse_of_end short ends'
    rw [tree, tree', diagnostics' (by simp [supplied]), issues, reading]
    exact ⟨completes.value, completes.spots⟩

/-- The end of the text leaves an argument and two groups open, and a factor is missing there. -/
theorem parse_supplied_three_open :
    let s := ['2', '(', 's', 'i', 'n', '(', 'f', '(', 'x', '+']
    reported .trailingInput (parse s).diagnostics = 0 ∧
      reported .limitExceeded (parse s).diagnostics = 0 ∧
      reported .unclosedParenthesis (parse s).diagnostics = 3 ∧
      (parse (s ++ [')', ')', ')'])).tree = (parse s).tree ∧
      (parse (s ++ [')', ')', ')'])).diagnostics.map Diagnostic.spot =
        [(.unknownFunction, 6), (.unexpectedCharacter, 10)] := by
  intro s
  have whole : reported .trailingInput (parse s).diagnostics = 0 := by decide +kernel
  have within : reported .limitExceeded (parse s).diagnostics = 0 := by decide +kernel
  have missing : reported .unclosedParenthesis (parse s).diagnostics = 3 := by decide +kernel
  have supplied := parse_supplied s whole within
  rw [missing] at supplied
  obtain ⟨tree, diagnostics⟩ := supplied (by decide)
  refine ⟨whole, within, missing, tree, diagnostics.trans ?_⟩
  decide +kernel

end Sources

end Curves
