import Curves.Proofs.Expr.Accounting

/-!
# Text that is left over

The parser looks at a character that it does not pass in order to find out where a construct ends.
Each time the end of the text would have had the same effect, so a text that is left over does not
influence what was read before it.

Two cursors are compared that stand at the same place of a text, with and without its end. As long
as the reading of the whole text stays in front of that end, both readings agree.

Main statements:

* `factor_indifferent`, `Chain.indifferent`: readings of a text with and without its end;
* `ofNormalized_take`: formulas of which a text is left over.
-/

namespace Curves

def Diagnostic.spot (d : Diagnostic) : Diagnostic.Kind × Nat := (d.kind, d.position)

/-- A diagnostic has the kind of its anomaly and the place where that was found. -/
@[simp] theorem Anomaly.spot_diagnostic (anomaly : Anomaly) (position : Nat) :
    (anomaly.diagnostic position).spot = (anomaly.kind, position) := rfl

/-- Errors can be told from their kinds. -/
theorem Diagnostic.any_isError (issues : List Diagnostic) : issues.any Diagnostic.isError =
    (issues.map Diagnostic.spot).any (·.1.severity == .error) := by
  rw [List.any_map]
  rfl

namespace Cursor

/-! ## Places of a text with and without its end -/

/-- `d` is the place of `c` in the text without its end `b`. -/
structure Cut (b : List Char) (c d : Cursor) : Prop where
  rest : c.rest = d.rest ++ b
  position : d.position = c.position
  going : c.halted = false
  going' : d.halted = false

/-- Reading goes on at `c`, and the end `b` of the text has not been touched. -/
structure Spares (b : List Char) (c : Cursor) : Prop where
  going : c.halted = false
  length_le : b.length ≤ c.rest.length

/-- `d` may be reached from `c`: nothing is read twice, and what was halted stays halted. -/
structure Before (c d : Cursor) : Prop where
  length_le : d.rest.length ≤ c.rest.length
  going : d.halted = false → c.halted = false

section Places
variable {b w : List Char} {c d e : Cursor} {x : Char} {p : Char → Bool}

theorem Before.refl (c : Cursor) : c.Before c := ⟨Nat.le_refl _, id⟩

/-- Places are reached one after the other. -/
theorem Before.trans (h : c.Before d) (h' : d.Before e) : c.Before e :=
  ⟨Nat.le_trans h'.length_le h.length_le, fun going => h.going (h'.going going)⟩

theorem Before.advance (c : Cursor) (n : Nat) : c.Before (c.advance n) :=
  ⟨by simp, id⟩

theorem Passes.before (h : c.Passes w d) (going : c.halted = false) : c.Before d :=
  ⟨by simp [h.rest], fun _ => going⟩

/-- What is spared later was spared before. -/
theorem Spares.of_before (h : d.Spares b) (before : c.Before d) : c.Spares b :=
  ⟨before.going h.going, Nat.le_trans h.length_le before.length_le⟩

/-- The text without its end has come to its own end, or both texts go on with one character. -/
theorem Cut.cases (h : c.Cut b d) :
    (c.At b ∧ d.At []) ∨ ∃ x r, c.At (x :: (r ++ b)) ∧ d.At (x :: r) := by
  cases rest : d.rest with
  | nil => exact .inl ⟨⟨by rw [h.rest, rest]; rfl, h.going⟩, rest, h.going'⟩
  | cons x r => exact .inr ⟨x, r, ⟨by rw [h.rest, rest]; rfl, h.going⟩, rest, h.going'⟩

/-- What is next without the end is next with it. -/
theorem Cut.mem_peek (h : c.Cut b d) (next : x ∈ d.peek) : x ∈ c.peek := by
  rcases h.cases with ⟨-, hd⟩ | ⟨y, r, hc, hd⟩
  · simp [hd.peek] at next
  · rw [hd.peek] at next
    rw [hc.peek]
    exact next

/-- What is passed without touching the end is there without it. -/
theorem Cut.next (h : c.Cut b d) (hx : c.peek = some x) (spares : (c.advance 1).Spares b) :
    ∃ r, d.At (x :: r) := by
  rcases h.cases with ⟨hc, -⟩ | ⟨y, r, hc, hd⟩
  · obtain ⟨r, rfl⟩ := hc.peek_eq_some_iff.1 hx
    exact absurd spares.length_le (by simp [hc.1])
  · rw [hc.peek] at hx
    cases hx
    exact ⟨r, hd⟩

/-- Moving on inside both texts keeps their places alike. -/
theorem Cut.advance (h : c.Cut b d) {n : Nat} (inside : n ≤ d.rest.length) :
    (c.advance n).Cut b (d.advance n) where
  rest := by simp [h.rest, List.drop_append_of_le_length inside]
  position := by simp [h.position]
  going := h.going
  going' := h.going'

/-- A word that ends in front of the end is the same without it. -/
theorem Cut.word (h : c.Cut b d) (spares : (c.advance (c.rest.takeWhile p).length).Spares b) :
    c.rest.takeWhile p = d.rest.takeWhile p ∧
      (c.advance (c.rest.takeWhile p).length).Cut b
        (d.advance (c.rest.takeWhile p).length) := by
  have inside : (c.rest.takeWhile p).length ≤ d.rest.length := by
    have := (List.takeWhile_sublist p (l := c.rest)).length_le
    have := spares.length_le
    simp only [rest_advance, List.length_drop, h.rest, List.length_append] at *
    omega
  refine ⟨?_, h.advance inside⟩
  rw [h.rest, List.takeWhile_append] at inside ⊢
  split
  · rename_i whole
    rw [if_pos whole, List.length_append] at inside
    have none : b.takeWhile p = [] := List.length_eq_zero_iff.1 (by omega)
    rw [none, List.append_nil, (List.takeWhile_prefix p).eq_of_length whole]
  · rfl

end Places

end Cursor

/-- Two readings of the same with and without the end `b`. -/
structure Parsed.Same {α : Type} (b : List Char) (p q : Parsed α) : Prop where
  value : q.value = p.value
  spots : q.issues.map Diagnostic.spot = p.issues.map Diagnostic.spot
  after : p.after.Cut b q.after

theorem Parsed.Same.map {α β : Type} {b : List Char} {p q : Parsed α} (h : p.Same b q)
    (f : α → β) : (p.map f).Same b (q.map f) :=
  ⟨congrArg f h.value, h.spots, h.after⟩

namespace Parser
open Cursor

/-- A text is read in the same way without its end `b` if the reading does not touch that end. -/
def Indifferent (b : List Char) (read : Cursor → Parsed Expr) : Prop :=
  ∀ ⦃c d : Cursor⦄, c.Cut b d → (read c).after.Spares b → (read c).Same b (read d)

/-! ## Chains -/

section Chain
variable {room : Nat} {k : Chain} {b : List Char} {c d : Cursor} {link : Parsed Link}

theorem Chain.operand_run (room : Nat) (k : Chain) (c : Cursor) (going : c.halted = false) :
    ∃ n, Run room k.operand n c (k.readOperand room c) := by
  cases k with
  | power => exact factor_run room c going
  | term => exact Chain.run (factor_run room) .power c going
  | sum => exact Chain.run (factor_run room) .term c going

theorem Chain.links_before (room : Nat) (k : Chain) (c : Cursor) :
    c.Before (links (k.next? room) c).after := by
  have link_before {c : Cursor} {link : Parsed Link} (found : k.next? room c = some link) :
      c.Before link.after := by
    obtain ⟨going, v, passes, -⟩ := next?_passes (operand_run room k) found
    exact passes.before going
  fun_induction links (k.next? room) c with
  | case1 c none => exact .refl c
  | case2 c link found progress more ih => exact (link_before found).trans ih
  | case3 c link found => exact link_before found

/-- Whether a chain goes on is seen from the next character. -/
theorem Chain.next?_eq_none_iff : k.next? room c = none ↔ ∀ x ∈ c.peek, ¬ k.goesOn x := by
  refine ⟨not_goesOn, fun stops => ?_⟩
  cases found : k.next? room c with
  | none => rfl
  | some link =>
    rcases next?_cases found with ⟨s, rfl, hc, -⟩ | ⟨s, rfl, hc, -⟩ | ⟨op, d, seams, hc, -⟩
    · exact absurd rfl (stops _ hc.peek)
    · exact absurd rfl (stops _ hc.peek)
    · cases hc with
      | adjacent hc starts => exact absurd (by simp [goesOn, starts]) (stops _ hc.peek)
      | raise hc | multiply hc | divide hc | add hc | subtract hc =>
        exact absurd rfl (stops _ hc.peek)

theorem Chain.next?_none_of_cut (h : c.Cut b d) (stops : k.next? room c = none) :
    k.next? room d = none :=
  next?_eq_none_iff.2 fun x next => next?_eq_none_iff.1 stops x (h.mem_peek next)

/-- A link that stays in front of the end is found without it. -/
theorem Chain.next?_same (pos : 0 < room) (operand : Indifferent b (k.readOperand room))
    (h : c.Cut b d) (found : k.next? room c = some link) (spares : link.after.Spares b) :
    ∃ link', k.next? room d = some link' ∧ link.Same b link' := by
  obtain ⟨-, v, passes, nonempty⟩ := next?_passes (operand_run room k) found
  have progress := passes.length_lt (nonempty pos)
  rcases h.cases with ⟨hc, -⟩ | ⟨x, r, hc, hd⟩
  · have := spares.length_le
    rw [hc.1] at progress
    omega
  have inside : 1 ≤ d.rest.length := by simp [hd.1]
  cases k with
  | power =>
    simp only [next?, powerLink?, hc.peek, hd.peek, List.head?_cons] at found ⊢
    split at found <;> cases found
    · exact ⟨_, rfl, rfl, rfl, h.advance inside⟩
    · exact ⟨_, rfl, rfl, rfl, h.advance inside⟩
    · exact ⟨_, rfl, (operand (h.advance inside) spares).map _⟩
  | term =>
    simp only [next?, termLink?, hc.peek, hd.peek, List.head?_cons] at found ⊢
    split at found
    · cases found
      exact ⟨_, rfl, (operand (h.advance inside) spares).map _⟩
    · cases found
      exact ⟨_, rfl, (operand (h.advance inside) spares).map _⟩
    · split at found <;> cases found
      rename_i starts
      obtain ⟨value, spots, after⟩ := (operand h spares).map (Link.operation .multiply)
      exact ⟨_, if_pos starts, value, spots, after⟩
    · cases found
  | sum =>
    simp only [next?, sumLink?, hc.peek, hd.peek, List.head?_cons] at found ⊢
    split at found <;> cases found
    · exact ⟨_, rfl, (operand (h.advance inside) spares).map _⟩
    · exact ⟨_, rfl, (operand (h.advance inside) spares).map _⟩

/-- The links of a chain are the same with and without the end that is spared. -/
theorem Chain.links_same (pos : 0 < room) (operand : Indifferent b (k.readOperand room))
    (c : Cursor) : ∀ d : Cursor, c.Cut b d → (links (k.next? room) c).after.Spares b →
      (links (k.next? room) c).Same b (links (k.next? room) d) := by
  fun_induction links (k.next? room) c with
  | case1 c stops =>
    intro d h _
    rw [links, next?_none_of_cut h stops]
    exact ⟨rfl, rfl, h⟩
  | case2 c link found progress more ih =>
    intro d h spares
    obtain ⟨link', found', value, spots, after⟩ := next?_same pos operand h found
      (spares.of_before (links_before room k link.after))
    have progress' : link'.after.rest.length < d.rest.length := by
      simpa [h.rest, after.rest] using progress
    obtain ⟨values, more_spots, more_after⟩ := ih link'.after after spares
    rw [links, found']
    simp only [progress', if_true]
    refine ⟨?_, ?_, more_after⟩
    · rw [value, values]
    · rw [List.map_append, List.map_append, spots, more_spots]
  | case3 c link found stuck =>
    obtain ⟨-, v, passes, nonempty⟩ := next?_passes (operand_run room k) found
    exact absurd (passes.length_lt (nonempty pos)) stuck

/-- A chain is read in the same way without an end that it does not touch if its operands are. -/
theorem Chain.indifferent_of_operand (operand : Indifferent b (k.readOperand room)) :
    Indifferent b (k.read room) := by
  intro c d h spares
  have pos : 0 < room := by
    obtain ⟨n, run⟩ := Chain.run (factor_run room) k c h.going
    exact run.room_pos spares.going
  rw [read_eq] at spares ⊢
  rw [read_eq]
  obtain ⟨value, spots, after⟩ := operand h
    (spares.of_before (links_before room k (k.readOperand room c).after))
  obtain ⟨values, more_spots, more_after⟩ := links_same pos operand _ _ after spares
  refine ⟨?_, ?_, more_after⟩
  · simp only [chain, value, values]
  · simp only [chain, List.map_append, spots, more_spots]

/-- Chains spare the end if factors do. -/
theorem Chain.indifferent (factors : Indifferent b (factor room)) (k : Chain) :
    Indifferent b (k.read room) := by
  have powers := indifferent_of_operand (k := .power) factors
  have terms := indifferent_of_operand (k := .term) powers
  cases k with
  | power => exact powers
  | term => exact terms
  | sum => exact indifferent_of_operand (k := .sum) terms

end Chain

/-! ## Factors -/

section Factor
variable {room n : Nat} {b r : List Char} {c d : Cursor} {p q : Parsed Expr}

/-! ### Groups -/

theorem closed_before (opening : Nat) (p : Parsed Expr) :
    p.after.Before (p.closed opening).after := by
  rcases closed_cases opening p with ⟨s, -, eq⟩ | ⟨-, eq⟩ | ⟨-, eq⟩ <;> rw [eq]
  · exact .advance _ 1
  · exact .refl _
  · exact .refl _

theorem closed_same (h : p.Same b q) (opening : Nat)
    (spares : (p.closed opening).after.Spares b) :
    (p.closed opening).Same b (q.closed opening) := by
  by_cases closing : p.after.peek = some ')'
  · have eq : p.closed opening = { p with after := p.after.advance 1 } := if_pos closing
    rw [eq] at spares ⊢
    obtain ⟨r, hq⟩ := h.after.next closing spares
    have closing' : q.after.peek = some ')' := hq.peek
    rw [Parsed.closed, if_pos closing']
    exact ⟨h.value, h.spots, h.after.advance (by simp [hq.1])⟩
  · have closing' : ¬ q.after.peek = some ')' := fun found => closing (h.after.mem_peek found)
    rw [Parsed.closed, Parsed.closed, if_neg closing, if_neg closing',
      if_neg (by simp [h.after.going]), if_neg (by simp [h.after.going'])]
    refine ⟨h.value, ?_, h.after⟩
    rw [List.map_append, List.map_append, h.spots]

theorem group_before (room : Nat) (c : Cursor) (going : c.halted = false) :
    (c.advance 1).Before (group (expression (factor room)) c).after := by
  obtain ⟨n, run⟩ := Chain.run (factor_run room) .sum (c.advance 1) going
  obtain ⟨w, passes, -⟩ := run.passes
  exact (passes.before going).trans (closed_before c.position _)

/-- A group is the same with and without the end that is spared. -/
theorem group_same (sums : Indifferent b (expression (factor room))) (h : c.Cut b d)
    (opened : c.peek = some '(') (spares : (group (expression (factor room)) c).after.Spares b) :
    (group (expression (factor room)) c).Same b (group (expression (factor room)) d) := by
  obtain ⟨r, hd⟩ := h.next opened (spares.of_before (group_before room c h.going))
  have content := sums (h.advance (n := 1) (by simp [hd.1]))
    (spares.of_before (closed_before c.position _))
  have place : group (expression (factor room)) d =
      (expression (factor room) (d.advance 1)).closed c.position := by
    rw [← h.position]
    rfl
  rw [place]
  exact closed_same content c.position spares

/-! ### Words -/

/-- A number is the same with and without the end that is spared. -/
theorem number_same (h : c.Cut b d) (spares : (number c).after.Spares b) :
    (number c).Same b (number d) := by
  rw [after_number] at spares
  obtain ⟨literal, after⟩ := h.word spares
  unfold number
  rw [← literal]
  dsimp only
  split
  · exact ⟨rfl, rfl, after⟩
  · exact ⟨rfl, by simp [h.position], after⟩

theorem named_before (room : Nat) (c : Cursor) (going : c.halted = false) :
    (c.advance (c.rest.takeWhile Text.isLetter).length).Before
      (named (expression (factor room)) c).after := by
  unfold named
  dsimp only
  split
  · have argument := (Before.advance _ 1).trans
      (group_before room (c.advance (c.rest.takeWhile Text.isLetter).length) going)
    split
    · exact argument
    · exact argument
  · exact .refl _

/-- A name and its argument are the same with and without the end that is spared. -/
theorem named_same (sums : Indifferent b (expression (factor room))) :
    Indifferent b (named (expression (factor room))) := by
  intro c d h spares
  obtain ⟨name, behind⟩ := h.word (spares.of_before (named_before room c h.going))
  unfold named at spares ⊢
  rw [← name]
  generalize c.rest.takeWhile Text.isLetter = w at *
  dsimp only at spares ⊢
  by_cases opened : (c.advance w.length).peek = some '('
  · rw [if_pos opened] at spares ⊢
    have reached : (group (expression (factor room)) (c.advance w.length)).after.Spares b := by
      split at spares
      · exact spares
      · exact spares
    have argument := group_same sums behind opened reached
    obtain ⟨s, hd⟩ := behind.next opened (reached.of_before (group_before room _ behind.going))
    have opened' : (d.advance w.length).peek = some '(' := hd.peek
    rw [if_pos opened']
    split
    · exact argument.map _
    · obtain ⟨value, spots, after⟩ := argument
      have call := congrArg (Expr.unknownCall (String.ofList w)) value
      exact ⟨call, by simp [h.position, spots], after⟩
  · have closed' : ¬ (d.advance w.length).peek = some '(' :=
      fun opened' => opened (behind.mem_peek opened')
    rw [if_neg opened, if_neg closed']
    exact ⟨rfl, by simp [h.position], behind⟩

/-! ### The next character -/

/-- Where a factor is read without passing anything, something else was found. -/
theorem Run.absent_of_stays (run : Run (room + 1) .factor n c p)
    (stays : c.rest.length ≤ p.after.rest.length) :
    ∃ anomaly : Anomaly, anomaly.kind = .unexpectedCharacter ∧ p = .absent anomaly c := by
  have passes_nothing {w : List Char} (passes : c.Passes w p.after) (nonempty : w ≠ []) : False :=
    absurd (passes.length_lt nonempty) (Nat.not_lt.2 stays)
  cases run with
  | leaf leaf =>
    cases leaf with
    | unexpected => exact ⟨_, rfl, rfl⟩
    | «end» => exact ⟨_, rfl, rfl⟩
    | number h digit =>
      obtain ⟨w, passes, nonempty, -⟩ := number_passes h digit
      exact (passes_nothing passes nonempty).elim
    | var h | euler h => exact (passes_nothing (.next h) (List.cons_ne_nil _ _)).elim
    | circle h => exact (passes_nothing (.word (w := ['p', 'i']) h) (List.cons_ne_nil _ _)).elim
    | name h nonempty => exact (passes_nothing (.word h) nonempty).elim
  | plus h run | negate h run =>
    obtain ⟨w, passes, -⟩ := run.passes
    exact (passes_nothing ((Passes.next h).trans passes) (List.cons_ne_nil _ _)).elim
  | @group _ _ _ _ p h run =>
    obtain ⟨w, passes, -⟩ := run.passes
    obtain ⟨v, closing⟩ := closed_passes c.position p
    exact (passes_nothing (((Passes.next h).trans passes).trans closing)
      (List.cons_ne_nil _ _)).elim
  | @call _ _ _ name _ p _ h nonempty _ run | @unknownCall _ _ _ name _ p h nonempty _ run =>
    obtain ⟨w, passes, -⟩ := run.passes
    obtain ⟨v, closing⟩ := closed_passes (c.position + name.length) p
    exact (passes_nothing (((Passes.opened h).trans passes).trans closing) (by simp)).elim

/-- A name that begins with `e` and goes on in the end is not read without touching the end. -/
theorem euler_indifferent (h : c.Cut b d) (hc : c.At ('e' :: (r ++ b))) (hd : d.At ('e' :: r))
    (spares : (factor (room + 1) c).after.Spares b) :
    (r ++ b).head?.any Text.isLetter = r.head?.any Text.isLetter := by
  cases r with
  | cons y r => rfl
  | nil =>
    cases b with
    | nil => rfl
    | cons y b =>
      have letter : Text.isLetter 'e' := by decide
      cases next : Text.isLetter y with
      | false => simp [next]
      | true =>
        have reads : factor (room + 1) c = named (expression (factor room)) c := by
          simp [factor_cons room hc, next, letter]
        rw [reads] at spares
        obtain ⟨name, -⟩ := h.word (spares.of_before (named_before room c h.going))
        simp [hc.1, hd.1, letter, next] at name

/-- If `pi` goes on in the end, it is not read without touching the end. -/
theorem circle_indifferent (hc : c.At ('p' :: (r ++ b)))
    (spares : (factor (room + 1) c).after.Spares b) :
    (r ++ b).head? = some 'i' ↔ r.head? = some 'i' := by
  cases r with
  | cons y r => rfl
  | nil =>
    refine ⟨fun next => ?_, nofun⟩
    obtain ⟨b, rfl⟩ := List.head?_eq_some_iff.1 next
    have reads : (factor (room + 1) c).after = c.advance 2 := by
      simp [factor_cons room hc]
    rw [reads] at spares
    exact absurd spares.length_le (by simp [hc.1])

/-- A factor is read in the same way without an end that it does not touch. -/
theorem factor_indifferent (b : List Char) (room : Nat) : Indifferent b (factor room) := by
  induction room with
  | zero =>
    intro c d h spares
    have going := spares.going
    simp [factor, h.going] at going
  | succ room ih =>
    intro c d h spares
    have sums : Indifferent b (expression (factor room)) := Chain.indifferent ih .sum
    rcases h.cases with ⟨hc, hd⟩ | ⟨x, r, hc, hd⟩
    · -- Without its end the text has come to its own, where another character is as good as none.
      obtain ⟨n, run⟩ := factor_run (room + 1) c h.going
      obtain ⟨anomaly, kind, eq⟩ := run.absent_of_stays (by rw [hc.1]; exact spares.length_le)
      have kind' : Anomaly.unexpectedEnd.kind = anomaly.kind := kind.symm
      rw [eq, factor_end room hd]
      exact ⟨rfl, by simp [Parsed.absent, kind', h.position], h⟩
    have one : (c.advance 1).Cut b (d.advance 1) := h.advance (by simp [hd.1])
    have euler : (x = 'e' ∧ !(r ++ b).head?.any Text.isLetter) ↔
        x = 'e' ∧ !r.head?.any Text.isLetter := by
      refine and_congr_right ?_
      rintro rfl
      rw [euler_indifferent h hc hd spares]
    have circle : (x = 'p' ∧ (r ++ b).head? = some 'i') ↔ x = 'p' ∧ r.head? = some 'i' := by
      refine and_congr_right ?_
      rintro rfl
      exact circle_indifferent hc spares
    rw [factor_cons room hc] at spares ⊢
    rw [factor_cons room hd]
    simp only [euler, circle] at spares ⊢
    -- The cases come in the order of the tests on the next character.
    by_cases minus : x = '-'
    · simp only [if_pos minus] at spares ⊢
      exact (ih one spares).map _
    by_cases plus : x = '+'
    · simp only [if_neg minus, if_pos plus] at spares ⊢
      exact ih one spares
    by_cases digit : x.isDigit
    · simp only [if_neg minus, if_neg plus, if_pos digit] at spares ⊢
      exact number_same h spares
    simp only [if_neg minus, if_neg plus, if_neg digit] at spares ⊢
    by_cases var : x = 'x'
    · simp only [if_pos var] at spares ⊢
      exact ⟨rfl, rfl, one⟩
    by_cases e : x = 'e' ∧ !r.head?.any Text.isLetter
    · simp only [if_neg var, if_pos e] at spares ⊢
      exact ⟨rfl, rfl, one⟩
    by_cases pi : x = 'p' ∧ r.head? = some 'i'
    · obtain ⟨s, rfl⟩ := List.head?_eq_some_iff.1 pi.2
      simp only [if_neg var, if_neg e, if_pos pi] at spares ⊢
      exact ⟨rfl, rfl, h.advance (by simp [hd.1])⟩
    simp only [if_neg var, if_neg e, if_neg pi] at spares ⊢
    by_cases letter : Text.isLetter x
    · simp only [if_pos letter] at spares ⊢
      exact named_same sums h spares
    by_cases opened : x = '('
    · simp only [if_neg letter, if_pos opened] at spares ⊢
      exact group_same sums h (by rw [hc.peek, opened]; rfl) spares
    · simp only [if_neg letter, if_neg opened] at spares ⊢
      exact ⟨rfl, by simp [Parsed.absent, h.position], h⟩

end Factor

/-! ## The end of a text -/

/-- Where the text has come to its end, no construct is found. -/
theorem Chain.read_end (room : Nat) (k : Chain) {c : Cursor} (h : c.At []) :
    k.read (room + 1) c = .absent .unexpectedEnd c := by
  have stops (k : Chain) : k.next? (room + 1) c = none :=
    next?_eq_none_iff.2 (by simp [h.peek])
  have power : Chain.power.read (room + 1) c = .absent .unexpectedEnd c := by
    rw [read_eq, readOperand, factor_end room h]
    exact chain_of_none (stops .power)
  have term : Chain.term.read (room + 1) c = .absent .unexpectedEnd c := by
    rw [read_eq, readOperand, power]
    exact chain_of_none (stops .term)
  cases k with
  | power => exact power
  | term => exact term
  | sum =>
    rw [read_eq, readOperand, term]
    exact chain_of_none (stops .sum)

theorem closed_no_trailing {p : Parsed Expr} (h : reported .trailingInput p.issues = 0)
    (opening : Nat) : reported .trailingInput (p.closed opening).issues = 0 := by
  rcases closed_cases opening p with ⟨s, -, eq⟩ | ⟨-, eq⟩ | ⟨-, eq⟩ <;> rw [eq]
  · exact h
  · exact h
  · simp [h, Anomaly.kind]

/-- Text that is left over is not reported while something is read. -/
theorem Run.no_trailing {room n : Nat} {k : Stage} {c : Cursor} {p : Parsed Expr}
    (run : Run room k n c p) : reported .trailingInput p.issues = 0 := by
  induction run with
  | tooDeep => rfl
  | leaf leaf =>
    cases leaf with
    | number =>
      unfold Parser.number
      dsimp only
      split
      · rfl
      · rfl
    | _ => rfl
  | plus _ _ ih | negate _ _ ih | first _ ih | complete _ _ ih => exact ih
  | group _ _ ih | call _ _ _ _ _ ih => exact closed_no_trailing ih _
  | unknownCall _ _ _ _ ih =>
    rw [reported_diagnostic_cons, closed_no_trailing ih]
    rfl
  | square _ _ ih | cube _ _ ih => simpa [Parsed.join] using ih
  | operation _ _ _ left right =>
    rw [Parsed.join, reported_append, left, Nat.zero_add]
    exact right

end Parser

/-! ## Sources -/

section Sources
open Curves.Parser
variable {s : List Char} {d : Diagnostic}

/-- Text that is left over is reported last, and the text before it is read in the same way
alone. -/
theorem parse_of_trailing (mem : d ∈ (parse s).diagnostics) (left : d.kind = .trailingInput) :
    ∃ w r q, s = w ++ r ∧ s.length ≤ maxLength ∧ d = (Anomaly.trailingInput r).diagnostic w.length ∧
      q = expression (factor maxDepth) (.start w) ∧ q.after.At [] ∧ (parse s).tree = q.value ∧
      (parse s).diagnostics.map Diagnostic.spot = q.issues.map Diagnostic.spot ++ [d.spot] := by
  obtain ⟨n, run⟩ := exists_run s
  obtain ⟨w, passes, -⟩ := run.passes
  have none := run.no_trailing
  have untouched : (expression (factor maxDepth) (.start s)).after.Spares _ →
      (expression (factor maxDepth) (.start s)).Same _ (expression (factor maxDepth) (.start w)) :=
    Chain.indifferent (factor_indifferent _ maxDepth) .sum ⟨passes.rest, rfl, rfl, rfl⟩
  unfold parse at mem ⊢
  split at mem
  · rw [List.mem_singleton.1 mem] at left
    cases left
  rename_i nonempty
  split at mem
  · rw [List.mem_singleton.1 mem] at left
    cases left
  rename_i short
  rw [if_neg nonempty, if_neg short]
  generalize expression (factor maxDepth) (.start s) = p at *
  have position : p.after.position = w.length := passes.position.trans (Nat.zero_add _)
  dsimp only at mem ⊢
  rcases List.mem_append.1 mem with found | found
  · exact absurd (List.countP_eq_zero.1 none d found) (by simp [left])
  split at found
  · cases found
  rename_i rest
  rw [if_neg rest, List.mem_singleton.1 found, position]
  simp only [Bool.or_eq_true, not_or, Bool.not_eq_true] at rest
  obtain ⟨value, spots, after⟩ := untouched ⟨rest.1, Nat.le_refl _⟩
  refine ⟨w, _, _, passes.rest, Nat.not_lt.1 short, rfl, rfl, ⟨?_, after.going'⟩, value.symm, ?_⟩
  · exact List.self_eq_append_left.1 after.rest
  · rw [List.map_append, spots]
    rfl

/-- What parsing makes of a text that is read up to its end. -/
theorem parse_of_end (short : s.length ≤ maxLength)
    (ends : (expression (factor maxDepth) (.start s)).after.At []) :
    (parse s).tree = (expression (factor maxDepth) (.start s)).value ∧
      (parse s).diagnostics.any Diagnostic.isError =
        (expression (factor maxDepth) (.start s)).issues.any Diagnostic.isError ∧
      (0 < s.length →
        (parse s).diagnostics = (expression (factor maxDepth) (.start s)).issues) := by
  cases s with
  | nil =>
    have nothing : expression (factor maxDepth) (.start []) = .absent .unexpectedEnd (.start []) :=
      Chain.read_end _ .sum ⟨rfl, rfl⟩
    rw [nothing]
    exact ⟨rfl, rfl, nofun⟩
  | cons x s =>
    have fits : ¬ maxLength < s.length + 1 := Nat.not_lt.2 short
    simp [parse, fits, ends.1]

end Sources

namespace Formula

def ofNormalized (source : List Char) (conventions : Conventions := {}) : Formula where
  source := String.ofList source
  tree := (parse source).tree
  conventions
  diagnostics := (parse source).diagnostics

theorem ofSource_eq_ofNormalized (source : String) (conventions : Conventions) :
    ofSource source conventions = ofNormalized (normalizeChars source.toList) conventions := rfl

/-- A text that is left over does not influence the formula: the text before it alone gives the
same tree, the same value everywhere and, unless it is empty, the same diagnostics except for the
last one, which reports the text that is left over. -/
theorem ofNormalized_take (s : List Char) (conventions : Conventions) (d : Diagnostic)
    (mem : d ∈ (ofNormalized s conventions).diagnostics) (left : d.kind = .trailingInput) :
    let whole := ofNormalized s conventions
    let part := ofNormalized (s.take d.position) conventions
    part.tree = whole.tree ∧ part.hasError = whole.hasError ∧ (∀ x, part.eval x = whole.eval x) ∧
      (0 < d.position → whole.diagnostics.map Diagnostic.spot =
        part.diagnostics.map Diagnostic.spot ++ [d.spot]) := by
  intro whole part
  obtain ⟨w, r, q, rfl, short, rfl, rfl, ends, tree, spots⟩ := parse_of_trailing mem left
  have text : part = ofNormalized w conventions :=
    congrArg (ofNormalized · conventions) List.take_left
  rw [List.length_append] at short
  obtain ⟨same, errors, diagnostics⟩ := parse_of_end (Nat.le_of_add_right_le short) ends
  have tree_eq : part.tree = whole.tree := by
    rw [text]
    exact same.trans tree.symm
  have error_eq : part.hasError = whole.hasError := by
    rw [text, hasError, hasError, Diagnostic.any_isError whole.diagnostics]
    have spots : whole.diagnostics.map Diagnostic.spot = _ := spots
    rw [spots, List.any_append, ← Diagnostic.any_isError]
    exact errors.trans (Bool.or_false _).symm
  refine ⟨tree_eq, error_eq, fun x => ?_, fun pos => ?_⟩
  · rw [eval, eval, error_eq, tree_eq]
    rfl
  · rw [text]
    exact spots.trans (by rw [← diagnostics pos]; rfl)

/-- `e` is followed by `]` or by nothing, and the group is not closed in either case. -/
theorem ofNormalized_take_unclosed :
    let d := (Anomaly.trailingInput [']']).diagnostic 4
    let whole := ofNormalized ['2', '+', '(', 'e', ']']
    let part := ofNormalized ['2', '+', '(', 'e']
    d ∈ whole.diagnostics ∧ d.kind = .trailingInput ∧ part.tree = whole.tree ∧
      part.hasError = whole.hasError ∧ (∀ x, part.eval x = whole.eval x) ∧
      whole.diagnostics.map Diagnostic.spot =
        part.diagnostics.map Diagnostic.spot ++ [(.trailingInput, 4)] := by
  intro d whole part
  have mem : d ∈ whole.diagnostics := by decide +kernel
  obtain ⟨tree, error, eval, diagnostics⟩ :=
    ofNormalized_take ['2', '+', '(', 'e', ']'] {} d mem rfl
  exact ⟨mem, rfl, tree, error, eval, diagnostics (by decide)⟩

end Formula

end Curves
