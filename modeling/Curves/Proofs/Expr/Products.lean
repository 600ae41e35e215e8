import Curves.Proofs.Expr.Trace

/-!
# Understood products, written out

Where an operand follows another one a product is understood. A text is read in the same way with
the sign of each such product written, and what is reported is reported at the same characters.

A reading decides alone where its products are understood, so the text that it passes can be
rewritten before it is known what stands behind that text. A sign that is put there ends a word as
the operand does that it stands before.

Main statements:

* `Run.within`: places of products and of anomalies;
* `Trace.explicit`: a trace on a text with its product signs;
* `parse_productsWritten`: sources.
-/

namespace Curves

/-- The text `s` from place `start` on, with a product sign before the character at each of
`places`. -/
def signsWritten (places : List Nat) (start : Nat) (s : List Char) : List Char :=
  (s.zipIdx start).flatMap fun (x, i) => if i ∈ places then ['*', x] else [x]

/-- Where the character at `i` is when product signs are written at `places`. -/
def movedBy (places : List Nat) (i : Nat) : Nat := i + places.countP (· ≤ i)

section SignsWritten
variable {places more : List Nat} {i : Nat} {x : Char} {s v w : List Char}

theorem signsWritten_cons : signsWritten places i (x :: s) =
    (if i ∈ places then ['*', x] else [x]) ++ signsWritten places (i + 1) s := rfl

/-- Product signs are written in one part after the other. -/
theorem signsWritten_append : signsWritten places i (v ++ w) =
    signsWritten places i v ++ signsWritten places (i + v.length) w := by
  simp [signsWritten, List.zipIdx_append]

theorem signsWritten_congr
    (same : ∀ j, i ≤ j → j < i + w.length → (j ∈ places ↔ j ∈ more)) :
    signsWritten places i w = signsWritten more i w := by
  induction w generalizing i with
  | nil => rfl
  | cons x w ih =>
    have here : i ∈ places ↔ i ∈ more := same i (Nat.le_refl i) (by simp)
    have behind : signsWritten places (i + 1) w = signsWritten more (i + 1) w :=
      ih fun j lower upper => same j (Nat.le_of_succ_le lower) (by grind)
    simp only [signsWritten_cons, here, behind]

@[simp] theorem signsWritten_no_places : signsWritten [] i w = w := by
  induction w generalizing i with
  | nil => rfl
  | cons x w ih => simp [signsWritten_cons, ih]

/-- A text in which no product is understood stays as it is. -/
theorem signsWritten_of_outside (outside : ∀ j ∈ places, i ≤ j → i + w.length ≤ j) :
    signsWritten places i w = w := by
  have none : signsWritten places i w = signsWritten [] i w := by
    apply signsWritten_congr
    intro j lower upper
    exact iff_of_false (fun mem => Nat.not_le.2 upper (outside j mem lower)) List.not_mem_nil
  rw [none, signsWritten_no_places]

/-- Product signs behind a part leave it as it is. -/
theorem signsWritten_append_of_le (behind : ∀ j ∈ places, i + v.length ≤ j) :
    signsWritten places i (v ++ w) = v ++ signsWritten places (i + v.length) w := by
  rw [signsWritten_append, signsWritten_of_outside fun j mem _ => behind j mem]

theorem signsWritten_append_of_lt (before : ∀ j ∈ places, j < i + v.length) :
    signsWritten places i (v ++ w) = signsWritten places i v ++ w := by
  rw [signsWritten_append, signsWritten_of_outside (w := w)]
  exact fun j mem lower => absurd (before j mem) (Nat.not_lt.2 lower)

theorem length_le_signsWritten : s.length ≤ (signsWritten places i s).length := by
  induction s generalizing i with
  | nil => exact Nat.le_refl 0
  | cons x s ih =>
    have := ih (i := i + 1)
    rw [signsWritten_cons]
    split <;> simp only [List.length_append, List.length_cons, List.length_nil] <;> omega

@[simp] theorem movedBy_nil : movedBy [] i = i := rfl

theorem movedBy_append_of_lt (later : ∀ j ∈ more, i < j) :
    movedBy (places ++ more) i = movedBy places i := by
  have none : more.countP (· ≤ i) = 0 :=
    List.countP_eq_zero.2 fun j mem => by simpa using later j mem
  rw [movedBy, List.countP_append, none]
  rfl

/-- A character is moved by all signs that are written before it. -/
theorem movedBy_append_of_le (earlier : ∀ j ∈ places, j ≤ i) :
    movedBy (places ++ more) i = movedBy more i + places.length := by
  have all : places.countP (· ≤ i) = places.length :=
    List.countP_eq_length.2 fun j mem => by simpa using earlier j mem
  rw [movedBy, List.countP_append, all, movedBy]
  omega

theorem movedBy_of_lt (later : ∀ j ∈ places, i < j) : movedBy places i = i := by
  have unmoved : movedBy ([] ++ places) i = movedBy [] i := movedBy_append_of_lt later
  exact unmoved

theorem movedBy_of_le (earlier : ∀ j ∈ places, j ≤ i) : movedBy places i = i + places.length := by
  have moved : movedBy (places ++ []) i = movedBy [] i + places.length :=
    movedBy_append_of_le earlier
  simpa using moved

end SignsWritten

namespace Parser
open Cursor

/-! ## Places -/

/-- Products are understood inside of what was read, and anomalies are found there or right behind
it, but not before an operand. -/
structure Within {α : Type} (c : Cursor) (p : Parsed α) : Prop where
  seams : ∀ i ∈ p.seams, c.position < i ∧ i < p.after.position
  issues : ∀ d ∈ p.issues, c.position ≤ d.position ∧ d.position ≤ p.after.position ∧
    (d.position = p.after.position → p.after.peek.any startsOperand = false)

section Within
variable {room n : Nat} {k : Chain} {stage : Stage} {c d : Cursor} {p q : Parsed Expr}

/-- Where an operand is next, something was read before it. -/
theorem Run.position_lt (run : Run room stage n c p) (going : p.after.halted = false)
    (starts : p.after.peek.any startsOperand) : c.position < p.after.position := by
  obtain ⟨w, passes, nonempty⟩ := run.passes
  by_cases nothing : w = []
  · subst nothing
    have here : c.At p.after.rest := ⟨passes.rest, run.going⟩
    have there : p.after.At p.after.rest := ⟨rfl, going⟩
    rw [there.peek, ← here.peek] at starts
    exact absurd rfl (nonempty (run.room_pos going) starts)
  · exact passes.position_lt nothing

theorem Within.silent (seams : p.seams = []) (issues : p.issues = []) : Within c p :=
  ⟨by simp [seams], by simp [issues]⟩

/-- Nothing is read where no operand is next. -/
theorem Within.absent (anomaly : Anomaly) (same : d.position = c.position)
    (other : d.peek.any startsOperand = false) :
    Within c { Parsed.absent anomaly c with after := d } where
  seams := by simp [Parsed.absent]
  issues x mem := by
    obtain rfl := List.mem_singleton.1 mem
    exact ⟨Nat.le_refl _, Nat.le_of_eq same.symm, fun _ => other⟩

theorem Within.mono (h : Within c p) (before : d.position ≤ c.position) : Within d p where
  seams i mem := ⟨Nat.lt_of_le_of_lt before (h.seams i mem).1, (h.seams i mem).2⟩
  issues x mem := ⟨Nat.le_trans before (h.issues x mem).1, (h.issues x mem).2⟩

/-- An anomaly in front of what is next. -/
theorem Within.report (h : Within c p) {x : Diagnostic} (lower : c.position ≤ x.position)
    (upper : x.position < p.after.position) : Within c { p with issues := x :: p.issues } where
  seams := h.seams
  issues y mem := by
    rcases List.mem_cons.1 mem with rfl | mem
    · exact ⟨lower, Nat.le_of_lt upper, fun same => absurd same (Nat.ne_of_lt upper)⟩
    · exact h.issues y mem

theorem Within.map {α : Type} (h : Within c p) (f : Expr → α) : Within c (p.map f) :=
  ⟨h.seams, h.issues⟩

theorem Within.advance (h : Within c p) : Within c { p with after := p.after.advance 1 } where
  seams i mem := ⟨(h.seams i mem).1, Nat.lt_succ_of_lt (h.seams i mem).2⟩
  issues x mem :=
    have ⟨lower, upper, _⟩ := h.issues x mem
    have before := Nat.lt_succ_of_le upper
    ⟨lower, Nat.le_of_lt before, fun same => absurd same (Nat.ne_of_lt before)⟩

theorem Within.exponent (h : Within c p) (link : Link) :
    Within c (p.join { value := link, after := p.after.advance 1 }) := by
  obtain ⟨seams, issues⟩ := h.advance
  exact ⟨by simpa [Parsed.join] using seams, by simpa [Parsed.join] using issues⟩

theorem Within.closed (h : Within c p) {opening : Nat} (lower : d.position ≤ opening)
    (upper : opening < c.position) (forward : c.position ≤ p.after.position) :
    Within d (p.closed opening) := by
  have content : Within d p := h.mono (by omega)
  rcases closed_cases opening p with ⟨s, -, eq⟩ | ⟨-, eq⟩ | ⟨-, eq⟩ <;> rw [eq]
  · exact content.advance
  · exact content
  · obtain ⟨seams, issues⟩ := content.report (x := Anomaly.unclosedParenthesis.diagnostic opening)
      lower (Nat.lt_of_lt_of_le upper forward)
    exact ⟨seams, fun x mem => issues x (by simpa [or_comm] using mem)⟩

/-- Products are understood between the operands that they join. -/
theorem OperatorAt.places {op : Operator} {seams : List Nat} (h : OperatorAt k c op d seams) :
    (seams = [] ∧ d.position = c.position + 1) ∨
      (seams = [c.position] ∧ d = c ∧ c.peek.any startsOperand) := by
  rcases h.cases with ⟨x, s, hc, rfl, rfl, -⟩ | ⟨x, s, hc, starts, rfl, rfl, -⟩
  · exact .inl ⟨rfl, rfl⟩
  · exact .inr ⟨rfl, rfl, by simpa [hc.peek] using starts⟩

section Operation
variable {op : Operator} {seams : List Nat} (operator : OperatorAt k p.after op d seams)
  (left : Within c p) (right : Within d q)
include operator left right

theorem Within.join (nonempty : seams ≠ [] →
      c.position < p.after.position ∧ d.position < q.after.position)
    (forward : c.position ≤ p.after.position) (forward' : d.position ≤ q.after.position) :
    Within c (p.join { q.map (Link.operation op) with seams := seams ++ q.seams }) where
  seams i mem := by
    have inside : i ∈ p.seams ∨ i ∈ seams ∨ i ∈ q.seams := by simpa [Parsed.join] using mem
    change c.position < i ∧ i < q.after.position
    have in_left := left.seams i
    have in_right := right.seams i
    rcases operator.places with ⟨rfl, place⟩ | ⟨rfl, rfl, starts⟩
    · grind
    · grind
  issues x mem := by
    have found : x ∈ p.issues ∨ x ∈ q.issues := by simpa [Parsed.join, Parsed.map] using mem
    change c.position ≤ x.position ∧ x.position ≤ q.after.position ∧
      (x.position = q.after.position → q.after.peek.any startsOperand = false)
    have in_left := left.issues x
    have in_right := right.issues x
    rcases operator.places with ⟨rfl, place⟩ | ⟨rfl, rfl, starts⟩
    · grind
    · grind

/-- What is reported about the left operand lies before all products that are understood later. -/
theorem Within.issues_lt : ∀ x ∈ p.issues, ∀ i ∈ seams ++ q.seams, x.position < i := by
  intro x found i mem
  have upper := left.issues x found
  have lower := right.seams i
  rcases operator.places with ⟨rfl, place⟩ | ⟨rfl, rfl, starts⟩
  · grind
  · grind

/-- What is reported about the right operand lies behind all products that were understood. -/
theorem Within.le_issues : ∀ x ∈ q.issues, ∀ i ∈ p.seams ++ seams, i ≤ x.position := by
  intro x found i mem
  have upper := left.seams i
  have lower := right.issues x found
  rcases operator.places with ⟨rfl, place⟩ | ⟨rfl, rfl, starts⟩
  · grind
  · grind

end Operation

/-- Products are understood and anomalies found where something is read. -/
theorem Run.within (run : Run room stage n c p) : Within c p := by
  induction run with
  | tooDeep => exact .absent _ rfl rfl
  | @leaf _ c _ leaf =>
    cases leaf with
    | number h digit =>
      obtain ⟨w, passes, nonempty, -⟩ := number_passes h digit
      rw [after_number] at passes
      have read (value : Expr) : Within c
          { value, after := c.advance (c.rest.takeWhile isLiteralChar).length } :=
        .silent rfl rfl
      unfold Parser.number
      dsimp only
      split
      · exact read _
      · exact (read _).report (Nat.le_refl _) (passes.position_lt nonempty)
    | var h | euler h | circle h => exact .silent rfl rfl
    | @name w s h nonempty =>
      have read : Within c
          { value := Expr.unknownName (String.ofList w), after := c.advance w.length } :=
        .silent rfl rfl
      exact read.report (Nat.le_refl _) ((Passes.word h).position_lt nonempty)
    | unexpected h other => exact .absent _ rfl (by rw [h.peek]; exact other)
    | «end» h => exact .absent _ rfl (by rw [h.peek]; rfl)
  | plus h _ ih => exact ih.mono (Nat.le_succ _)
  | negate h _ ih => exact (ih.mono (Nat.le_succ _)).map _
  | group _ run ih =>
    obtain ⟨w, passes, -⟩ := run.passes
    exact ih.closed (Nat.le_refl _) (Nat.lt_succ_self _) passes.position_le
  | call f _ _ _ run ih =>
    obtain ⟨w, passes, -⟩ := run.passes
    exact (ih.closed (Nat.le_add_right ..) (Nat.lt_succ_self _) passes.position_le).map _
  | @unknownCall _ _ c name _ p h nonempty _ run ih =>
    obtain ⟨w, passes, -⟩ := run.passes
    obtain ⟨v, closing⟩ := closed_passes (c.position + name.length) p
    have content := ih.closed (Nat.le_add_right ..) (Nat.lt_succ_self _) passes.position_le
    exact (content.map _).report (Nat.le_refl _)
      (((Passes.opened h).trans passes).trans closing |>.position_lt (by simp))
  | first _ ih | complete _ _ ih => exact ih
  | square _ h ih | cube _ h ih => exact ih.exponent _
  | operation left operator right ihl ihr =>
    obtain ⟨w, passes, -⟩ := left.passes
    obtain ⟨w', passes', nonempty⟩ := right.passes
    refine ihl.join operator ihr (fun understood => ?_) passes.position_le passes'.position_le
    rcases operator.places with ⟨rfl, -⟩ | ⟨-, rfl, starts⟩
    · exact absurd rfl understood
    · exact ⟨left.position_lt operator.going starts,
        passes'.position_lt (nonempty (left.room_pos operator.going) starts)⟩

/-- The places of a whole trace are inside of what was read. -/
theorem Trace.within {t : List Step} (trace : Trace room stage c p t) : Within c p := by
  obtain ⟨n, run⟩ := trace.exists_run
  exact run.within

end Within

/-! ## Texts with their product signs -/

/-- `r` goes on like `s`, or with a product sign where `s` goes on with an operand. -/
def GoesOnLike (s r : List Char) : Prop :=
  r.head? = s.head? ∨ r.head? = some '*' ∧ s.head?.any startsOperand

/-- `q` is the reading `p` with its product signs written and the text `r` behind them. All of it
stands `offset` characters further on. -/
structure Explicit (offset : Nat) (r : List Char) (p q : Parsed Expr) : Prop where
  value : q.value = p.value
  spots : q.issues.map Diagnostic.spot =
    p.issues.map fun d => (d.kind, movedBy p.seams d.position + offset)
  seams : q.seams = []
  rest : q.after.rest = r
  position : q.after.position = p.after.position + (p.seams.length + offset)
  halted : q.after.halted = p.after.halted

section Explicit
variable {offset room : Nat} {k : Chain} {stage : Stage} {c d : Cursor} {p q : Parsed Expr}
  {x : Char} {r s w : List Char} {t : List Step}

/-- A product sign ends a word as the operand behind it does. -/
theorem GoesOnLike.sameEnd (h : GoesOnLike s r) : SameEnd s r := by
  rcases h with same | ⟨sign, -⟩
  · exact .inl same
  · refine .inr fun x next => ?_
    obtain rfl : x = '*' := Option.some_inj.1 (next.symm.trans sign)
    exact ⟨by decide, by decide, by decide⟩

theorem Begins.goesOnLike {anomaly : Anomaly} (begins : Begins s (.missing anomaly))
    (h : GoesOnLike s r) : Begins r (.missing anomaly) := by
  rcases begins.missing with ⟨rfl, rfl⟩ | ⟨x, s, rfl, rfl, other, plus, minus⟩
  · rcases h with same | ⟨-, starts⟩
    · obtain rfl : r = [] := List.head?_eq_none_iff.1 same
      exact .end
    · cases starts
  · rcases h with same | ⟨-, starts⟩
    · obtain ⟨r, rfl⟩ := List.head?_eq_some_iff.1 same
      exact .stranger other plus minus
    · simp [other] at starts

/-- The explicit reading ends before the text that follows. -/
theorem Explicit.at (h : Explicit offset r p q) (going : p.after.halted = false) : q.after.At r :=
  ⟨h.rest, h.halted.trans going⟩

/-- A chain that is complete before an operand is complete before a product sign. -/
theorem Explicit.stops (h : Explicit offset r p q) (follows : GoesOnLike p.after.rest r)
    (stops : ∀ x ∈ p.after.peek, ¬ k.goesOn x) : ∀ x ∈ q.after.peek, ¬ k.goesOn x := by
  cases halted : p.after.halted with
  | true =>
    have halted' : q.after.halted = true := h.halted.trans halted
    simp [Cursor.peek, halted']
  | false =>
    have here : p.after.At p.after.rest := ⟨rfl, halted⟩
    rw [here.peek] at stops
    rw [(h.at halted).peek]
    rcases follows with same | ⟨sign, starts⟩
    · rwa [same]
    · intro x next
      obtain rfl : x = '*' := Option.some_inj.1 (next.symm.trans sign)
      cases k with
      | power | sum => decide
      | term =>
        obtain ⟨y, first, operand⟩ := (Option.any_eq_true _ _).1 starts
        exact absurd (by simp [Chain.goesOn, operand]) (stops y first)

theorem spot_before_signs {anomaly : Anomaly} {places : List Nat} {place : Nat}
    (before : ∀ i ∈ places, place < i) :
    ((anomaly.diagnostic place).kind, movedBy places (anomaly.diagnostic place).position + offset) =
      (anomaly.kind, place + offset) := by
  change (anomaly.kind, movedBy places place + offset) = _
  rw [movedBy_of_lt before]

theorem Explicit.map (h : Explicit offset r p q) (f : Expr → Expr) :
    Explicit offset r (p.map f) (q.map f) :=
  ⟨congrArg f h.value, h.spots, h.seams, h.rest, h.position, h.halted⟩

theorem Explicit.argumentOf (h : Explicit offset r p q) (name : List Char) (place : Nat)
    (before : ∀ i ∈ p.seams, place < i) :
    Explicit offset r (p.argumentOf name place) (q.argumentOf name (place + offset)) where
  value := by
    unfold Parsed.argumentOf
    split
    · exact h.value
    split
    · exact congrArg (Expr.call _) h.value
    · exact congrArg (Expr.unknownCall _) h.value
  spots := by
    unfold Parsed.argumentOf
    split
    · exact h.spots
    split
    · exact h.spots
    · rw [List.map_cons, Anomaly.spot_diagnostic]
      simp only [Parsed.map, List.map_cons, h.spots, spot_before_signs before]
  seams := by simpa using h.seams
  rest := by simpa using h.rest
  position := by simpa using h.position
  halted := by simpa using h.halted

/-- A group is closed with and without the signs in it. -/
theorem Explicit.closed {v : List Char} (h : Explicit offset (v ++ r) p q) {opening : Nat}
    (before : ∀ i ∈ p.seams, opening < i) (closing : p.after.Passes v (p.closed opening).after)
    (follows : GoesOnLike (p.closed opening).after.rest r) :
    Explicit offset r (p.closed opening) (q.closed (opening + offset)) := by
  by_cases found : p.after.peek = some ')'
  · have eq : p.closed opening = { p with after := p.after.advance 1 } := if_pos found
    rw [eq] at closing ⊢
    obtain ⟨s, hp⟩ := At.of_peek found
    obtain rfl : v = [')'] := closing.unique (.next hp)
    have found' : q.after.peek = some ')' := (h.at hp.2).peek
    rw [Parsed.closed, if_pos found']
    exact ⟨h.value, h.spots, h.seams, by simp [h.rest], by simp [h.position]; omega, h.halted⟩
  cases halted : p.after.halted with
  | true =>
    have eq : p.closed opening = p := by rw [Parsed.closed, if_neg found, if_pos halted]
    rw [eq] at closing ⊢
    obtain rfl : v = [] := closing.unique (.refl _)
    have halted' : q.after.halted := h.halted.trans halted
    have found' : q.after.peek ≠ some ')' := by simp [Cursor.peek, halted']
    rwa [Parsed.closed, if_neg found', if_pos halted']
  | false =>
    have eq := closed_of_open opening found halted
    rw [eq] at closing follows ⊢
    obtain rfl : v = [] := closing.unique (.refl _)
    have hp : p.after.At p.after.rest := ⟨rfl, halted⟩
    have found' : q.after.peek ≠ some ')' := by
      rw [hp.peek] at found
      rw [(h.at halted).peek]
      rcases follows with same | ⟨sign, -⟩
      · rwa [List.nil_append, same]
      · rw [List.nil_append, sign]
        decide
    rw [closed_of_open _ found' (h.halted.trans halted)]
    refine ⟨h.value, ?_, h.seams, h.rest, h.position, h.halted⟩
    simp only [List.map_append, h.spots, List.map_cons, List.map_nil, Anomaly.spot_diagnostic,
      spot_before_signs before]

theorem Explicit.exponent (h : Explicit offset (x :: r) p q) (link : Link) :
    Explicit offset r (p.join { value := link, after := p.after.advance 1 })
      (q.join { value := link, after := q.after.advance 1 }) where
  value := congrArg link.attach h.value
  spots := by simpa [Parsed.join] using h.spots
  seams := by simpa [Parsed.join] using h.seams
  rest := by simp [Parsed.join, h.rest]
  position := by simp [Parsed.join, h.position]; omega
  halted := h.halted

/-- Linking moves the places of the right operand by the signs that were written before it. -/
theorem Explicit.join {op : Operator} {seams : List Nat} {p' q' : Parsed Expr}
    (h : Explicit offset w p p')
    (h' : Explicit (p.seams.length + offset + seams.length) r q q')
    (before : ∀ x ∈ p.issues, ∀ i ∈ seams ++ q.seams, x.position < i)
    (behind : ∀ x ∈ q.issues, ∀ i ∈ p.seams ++ seams, i ≤ x.position) :
    Explicit offset r (p.join { q.map (Link.operation op) with seams := seams ++ q.seams })
      (p'.join { q'.map (Link.operation op) with seams := [] ++ q'.seams }) where
  value := by simp only [Parsed.join, Link.attach, Parsed.map, h.value, h'.value]
  spots := by
    have left : p.issues.map (fun d => (d.kind, movedBy (p.seams ++ (seams ++ q.seams)) d.position
        + offset)) = p.issues.map fun d => (d.kind, movedBy p.seams d.position + offset) :=
      List.map_congr_left fun x found => by rw [movedBy_append_of_lt (before x found)]
    have right : q.issues.map (fun d => (d.kind, movedBy (p.seams ++ (seams ++ q.seams)) d.position
        + offset)) = q.issues.map fun d =>
          (d.kind, movedBy q.seams d.position + (p.seams.length + offset + seams.length)) :=
      List.map_congr_left fun x found => by
        rw [← List.append_assoc, movedBy_append_of_le (behind x found), List.length_append]
        congr 1
        omega
    simp only [Parsed.join, Parsed.map, List.map_append, h.spots, h'.spots, left, right]
  seams := by simp [Parsed.join, Parsed.map, h.seams, h'.seams]
  rest := h'.rest
  position := by
    simp [Parsed.join, Parsed.map, h'.position]
    omega
  halted := h'.halted

/-- An operator in front of a text is written in front of the text with its signs. -/
theorem OperatorAt.explicit {op : Operator} {seams : List Nat}
    (operator : OperatorAt k c op d seams) : ∃ v x, c.Passes v d ∧
      (∀ r, GoesOnLike c.rest (x :: r)) ∧
      (∀ places w, (∀ i ∈ places, d.position < i) → (seams ≠ [] → w ≠ []) →
        signsWritten (seams ++ places) c.position (v ++ w) =
          x :: signsWritten places d.position w) ∧
      ∀ (c' : Cursor) (r : List Char), c'.At (x :: r) → ∃ d', OperatorAt k c' op d' [] ∧ d'.At r ∧
        ∀ offset, c'.position = c.position + offset →
          d'.position = d.position + (offset + seams.length) := by
  rcases operator.cases with ⟨x, s, hc, rfl, rfl, written⟩ | ⟨x, s, hc, starts, rfl, rfl, rfl, rfl⟩
  · refine ⟨[x], x, .next hc, fun r => .inl (by rw [hc.1]; rfl), fun places w later _ => ?_,
      fun c' r hc' => ⟨c'.advance 1, written c' r hc', hc'.next, fun offset place => ?_⟩⟩
    · have unmarked : c.position ∉ places := fun mem => absurd (later _ mem) (by simp)
      simp [signsWritten_cons, unmarked]
    · simp [place]; omega
  · refine ⟨[], '*', .refl _, fun r => .inr ⟨rfl, by simpa [hc.1] using starts⟩,
      fun places w later nonempty => ?_,
      fun c' r hc' => ⟨c'.advance 1, .multiply hc', hc'.next, fun offset place => ?_⟩⟩
    · obtain ⟨y, w, rfl⟩ := List.exists_cons_of_ne_nil (nonempty (List.cons_ne_nil _ _))
      have unmarked : d.position ∉ places := fun mem => Nat.lt_irrefl _ (later _ mem)
      have behind : signsWritten (d.position :: places) (d.position + 1) w =
          signsWritten places (d.position + 1) w :=
        signsWritten_congr fun j lower _ => by grind
      simp [signsWritten_cons, unmarked, behind]
    · simp [place]; omega

theorem GoesOnLike.prepend (h : GoesOnLike s r) (w : List Char) :
    GoesOnLike (w ++ s) (w ++ r) := by
  cases w with
  | nil => exact h
  | cons x w => exact .inl rfl

theorem position_advance_add (h : d.position = c.position + offset) (n : Nat) :
    (d.advance n).position = (c.advance n).position + offset := by
  rw [position_advance, position_advance, h, Nat.add_right_comm]

/-- In the text before a reading no product is understood in it. -/
theorem Within.text_behind {n : Nat} (within : Within (c.advance n) p) {u v : List Char}
    (before : u.length = n) : signsWritten p.seams c.position (u ++ v) =
      u ++ signsWritten p.seams (c.advance n).position v := by
  subst n
  exact signsWritten_append_of_le fun i mem => Nat.le_of_lt (within.seams i mem).1

/-- The text of a reading that is extended by an exponent of one character. -/
theorem Within.text_exponent (within : Within c p) {v : List Char} (passes : c.Passes v p.after)
    (hp : p.after.At (x :: s)) (passes' : c.Passes w (p.after.advance 1)) (r : List Char) :
    signsWritten (p.seams ++ []) c.position w ++ r =
      signsWritten p.seams c.position v ++ (x :: r) := by
  have before : ∀ i ∈ p.seams, i < c.position + v.length := fun i mem =>
    passes.position ▸ (within.seams i mem).2
  obtain rfl : w = v ++ [x] := passes'.unique (passes.trans (.next hp))
  rw [List.append_nil, signsWritten_append_of_lt before, List.append_assoc]
  rfl

/-- The text of a group and of the name before it. -/
theorem Within.text_group {name v z : List Char} (within : Within (c.advance (name.length + 1)) p)
    (passes : (c.advance (name.length + 1)).Passes v p.after) :
    signsWritten p.seams c.position (name ++ ['('] ++ v ++ z) =
      name ++ ['('] ++ (signsWritten p.seams (c.advance (name.length + 1)).position v ++ z) := by
  have before : ∀ i ∈ p.seams, i < c.position + (name ++ ['('] ++ v).length := fun i mem => by
    have upper := (within.seams i mem).2
    rw [passes.position, position_advance] at upper
    simp only [List.length_append, List.length_singleton]
    omega
  rw [signsWritten_append_of_lt before, within.text_behind (by simp), List.append_assoc]

/-- The text of an operation. -/
theorem Within.text_operation {op : Operator} {seams : List Nat} {b v v' : List Char}
    (left : Within c p) (right : Within d q) (operator : OperatorAt k p.after op d seams)
    (passes : c.Passes v p.after)
    (text : ∀ places w, (∀ i ∈ places, d.position < i) → (seams ≠ [] → w ≠ []) →
        signsWritten (seams ++ places) p.after.position (b ++ w) =
          x :: signsWritten places d.position w)
    (nonempty : seams ≠ [] → v' ≠ []) :
    signsWritten (p.seams ++ (seams ++ q.seams)) c.position v =
        signsWritten p.seams c.position v ∧
      signsWritten (p.seams ++ (seams ++ q.seams)) p.after.position (b ++ v') =
        x :: signsWritten q.seams d.position v' := by
  have in_left := left.seams
  have in_right := right.seams
  have join := passes.position
  constructor
  · refine signsWritten_congr fun j _ upper => ?_
    rcases operator.places with ⟨rfl, place⟩ | ⟨rfl, rfl, -⟩
    · grind
    · grind
  · rw [← text q.seams v' (fun i mem => (in_right i mem).1) nonempty]
    exact signsWritten_congr fun j lower _ => by grind

/-- A text is read in the same way with the sign of each product that is understood in it. -/
theorem Trace.explicit (trace : Trace room stage c p t) (passes : c.Passes w p.after)
    (h : d.At (signsWritten p.seams c.position w ++ r)) (place : d.position = c.position + offset)
    (follows : GoesOnLike p.after.rest r) :
    ∃ q u, Trace room stage d q u ∧ Explicit offset r p q := by
  induction trace generalizing w r d offset with
  | @tooDeep c going =>
    obtain rfl : w = [] := passes.unique ⟨rfl, rfl⟩
    refine ⟨_, _, .tooDeep h.2, rfl, ?_, rfl, h.1, by simpa [Parsed.absent] using place, rfl⟩
    simp [Parsed.absent, place, Anomaly.diagnostic, Diagnostic.spot]
  | @missing _ c _ anomaly hc begins =>
    obtain rfl : w = [] := passes.unique (.refl _)
    rw [← hc.1] at begins
    refine ⟨_, _, .missing h (begins.goesOnLike follows), rfl, ?_, rfl, h.1,
      by simpa [Parsed.absent] using place, h.2.trans hc.2.symm⟩
    simp [Parsed.absent, place, Anomaly.diagnostic, Diagnostic.spot]
  | @word _ c _ text _ anomaly hc begins =>
    obtain ⟨s, rfl, nonempty, same⟩ := begins.word
    obtain rfl : w = text := passes.unique (.word hc)
    have rest : (c.advance w.length).rest = s := hc.advance.1
    have hd : d.At (w ++ r) := by simpa [Parsed.ofWord] using h
    rw [Parsed.ofWord, rest] at follows
    refine ⟨_, _, .word hd (same r follows.sameEnd), rfl, ?_, rfl, hd.advance.1, ?_,
      hd.2.trans hc.2.symm⟩
    · cases anomaly <;> simp [Parsed.ofWord, place, Anomaly.diagnostic, Diagnostic.spot]
    · simp [Parsed.ofWord, place]
      omega
  | @plus _ c s p t hc right ih =>
    obtain ⟨v, passes', -⟩ := right.passes
    obtain rfl := passes.unique ((Passes.next hc).trans passes')
    rw [right.within.text_behind rfl] at h
    obtain ⟨q, u, trace, explicit⟩ :=
      ih passes' h.next (position_advance_add place 1) follows
    exact ⟨q, _, .plus h trace, explicit⟩
  | @negate _ c s p t hc right ih =>
    obtain ⟨v, passes', -⟩ := right.passes
    obtain rfl := passes.unique ((Passes.next hc).trans passes')
    have text : signsWritten (p.map Expr.negate).seams c.position (['-'] ++ v) = _ :=
      right.within.text_behind rfl
    rw [text] at h
    obtain ⟨q, u, trace, explicit⟩ :=
      ih passes' h.next (position_advance_add place 1) follows
    exact ⟨_, _, .negate h trace, explicit.map _⟩
  | @group _ c _ name p t hc begins content ih =>
    obtain ⟨v, passes', -⟩ := content.passes
    obtain ⟨z, closing⟩ := closed_passes (c.position + name.length) p
    obtain ⟨s, rfl, other⟩ := begins.opening
    rw [Parsed.after_argumentOf] at passes follows
    rw [Parsed.seams_argumentOf, seams_closed] at h
    obtain rfl := passes.unique (((Passes.opened hc).trans passes').trans closing)
    rw [content.within.text_group passes'] at h
    have hd : d.At (name ++ '(' :: (signsWritten p.seams (c.advance (name.length + 1)).position v ++
      (z ++ r))) := by simpa using h
    have content_at := At.advance (w := name ++ ['(']) (by simpa using hd)
    rw [List.length_append] at content_at
    obtain ⟨q, u, trace, explicit⟩ := ih passes' content_at
      (position_advance_add place _) (closing.rest ▸ follows.prepend z)
    have behind_name : ∀ i ∈ p.seams, c.position + name.length < i := fun i mem =>
      Nat.lt_of_succ_lt (content.within.seams i mem).1
    have argument := (explicit.closed behind_name closing follows).argumentOf name c.position
      fun i mem => Nat.lt_of_le_of_lt (Nat.le_add_right ..) (behind_name i (by simpa using mem))
    refine ⟨_, _, .group hd (other _) trace, ?_⟩
    rw [place, Nat.add_right_comm]
    exact argument
  | first _ ih =>
    obtain ⟨q, u, trace, explicit⟩ := ih passes h place follows
    exact ⟨q, u, .first trace, explicit⟩
  | @square _ c s p t left hc ih =>
    obtain ⟨v, passes', -⟩ := left.passes
    rw [Parsed.join, left.within.text_exponent passes' hc passes] at h
    have follows' : GoesOnLike p.after.rest ('²' :: r) := .inl (by rw [hc.1]; rfl)
    obtain ⟨q, u, trace, explicit⟩ := ih passes' h place follows'
    exact ⟨_, _, .square trace (explicit.at hc.2), explicit.exponent _⟩
  | @cube _ c s p t left hc ih =>
    obtain ⟨v, passes', -⟩ := left.passes
    rw [Parsed.join, left.within.text_exponent passes' hc passes] at h
    have follows' : GoesOnLike p.after.rest ('³' :: r) := .inl (by rw [hc.1]; rfl)
    obtain ⟨q, u, trace, explicit⟩ := ih passes' h place follows'
    exact ⟨_, _, .cube trace (explicit.at hc.2), explicit.exponent _⟩
  | @operation _ _ c p t op e seams q u left operator right ihl ihr =>
    obtain ⟨v, passes_left, -⟩ := left.passes
    obtain ⟨v', passes_right, nonempty⟩ := right.passes
    obtain ⟨b, x, passes_operator, follows', text, written⟩ := operator.explicit
    obtain rfl := passes.unique (passes_left.trans (passes_operator.trans passes_right))
    obtain ⟨text_left, text_right⟩ :=
      left.within.text_operation right.within operator passes_left text fun understood => by
        rcases operator.places with ⟨rfl, -⟩ | ⟨-, rfl, starts⟩
        · exact absurd rfl understood
        · exact nonempty (left.room_pos operator.going) starts
    have hd : d.At (signsWritten p.seams c.position v ++
        (x :: (signsWritten q.seams e.position v' ++ r))) := by
      simpa [Parsed.join, Parsed.map, signsWritten_append, text_left, ← passes_left.position,
        text_right] using h
    obtain ⟨p', t', trace, explicit⟩ := ihl passes_left hd place (follows' _)
    obtain ⟨e', operator', he, place'⟩ := written _ _ (explicit.at operator.going)
    obtain ⟨q', u', trace', explicit'⟩ := ihr passes_right he
      (place' _ explicit.position) follows
    exact ⟨_, _, .operation trace operator' trace', explicit.join explicit'
      (left.within.issues_lt operator right.within) (left.within.le_issues operator right.within)⟩
  | complete left stops ih =>
    obtain ⟨q, u, trace, explicit⟩ := ih passes h place follows
    exact ⟨q, u, .complete trace (explicit.stops follows stops), explicit⟩

end Explicit

end Parser

/-! ## Sources -/

section Sources
open Curves.Parser

/-- The source `s` with the sign of each product that is understood in it. -/
def productsWritten (s : List Char) : List Char := signsWritten (parse s).seams 0 s

/-- Understood products are products: with all of their signs written, a source has the same tree
and the same anomalies at the same characters, and in none of it a product is understood. -/
theorem parse_productsWritten (s : List Char) (short : (productsWritten s).length ≤ 4096) :
    (parse (productsWritten s)).tree = (parse s).tree ∧
      (parse (productsWritten s)).diagnostics.map Diagnostic.spot =
        (parse s).diagnostics.map
          (fun d => (d.kind, d.position + (parse s).seams.countP (· ≤ d.position))) ∧
      (parse (productsWritten s)).seams = [] := by
  by_cases nonempty : s = []
  · subst s
    exact ⟨rfl, rfl, rfl⟩
  have length_le : s.length ≤ (productsWritten s).length := length_le_signsWritten
  have nonempty' : productsWritten s ≠ [] := fun nothing => by simp [nothing, nonempty] at length_le
  obtain ⟨t, trace⟩ := exists_trace s
  have parsed := parse_of_trace trace nonempty (Nat.le_trans length_le short)
  generalize expression (factor maxDepth) (.start s) = p at *
  have diagnostics : (parse s).diagnostics = p.issues ++ trailing p :=
    congrArg Analysis.diagnostics parsed
  have seams : (parse s).seams = p.seams := congrArg Analysis.seams parsed
  obtain ⟨w, passes, -⟩ := trace.passes
  have inside : ∀ i ∈ p.seams, i < p.after.position := fun i mem => (trace.within.seams i mem).2
  have text : productsWritten s = signsWritten p.seams 0 w ++ p.after.rest := by
    have whole : s = w ++ p.after.rest := passes.rest
    rw [← signsWritten_append_of_lt, ← whole, productsWritten, seams]
    exact fun j mem => Nat.lt_of_lt_of_eq (inside j mem) passes.position
  have start : (Cursor.start (productsWritten s)).position = (Cursor.start s).position + 0 := rfl
  obtain ⟨q, u, trace', explicit⟩ := trace.explicit passes ⟨text, rfl⟩ start (.inl rfl)
  have left_over : (trailing q).map Diagnostic.spot =
      (trailing p).map fun d => (d.kind, movedBy p.seams d.position) := by
    have moved : movedBy p.seams p.after.position = p.after.position + p.seams.length :=
      movedBy_of_le fun i mem => Nat.le_of_lt (inside i mem)
    rw [trailing, trailing, explicit.halted, explicit.rest, explicit.position]
    split
    · rfl
    · rw [List.map_cons, List.map_nil, Anomaly.spot_diagnostic]
      rw [Nat.add_zero, ← moved]
      rfl
  rw [parse_of_trace trace' nonempty' short]
  refine ⟨explicit.value.trans (congrArg Analysis.tree parsed).symm, ?_, explicit.seams⟩
  rw [diagnostics, List.map_append, List.map_append, left_over, explicit.spots, seams]
  rfl

/-- Five products are understood, two of them around `e`. The name behind the last one has no
argument, the group is not closed, and `]` is left over. -/
theorem parse_productsWritten_nested :
    let s := ['2', 'x', '(', '3', 'e', '4', 'f', ']']
    let written := ['2', '*', 'x', '*', '(', '3', '*', 'e', '*', '4', '*', 'f', ']']
    productsWritten s = written ∧ written.length ≤ 4096 ∧
      (parse written).tree = (parse s).tree ∧
      (parse written).diagnostics.map Diagnostic.spot =
        [(.missingFunctionArgument, 11), (.unclosedParenthesis, 4), (.trailingInput, 12)] ∧
      (parse written).seams = [] := by
  intro s written
  have text : productsWritten s = written := by decide +kernel
  obtain ⟨tree, diagnostics, seams⟩ := parse_productsWritten s (by rw [text]; decide)
  rw [text] at tree diagnostics seams
  refine ⟨text, by decide, tree, diagnostics.trans ?_, seams⟩
  decide +kernel

end Sources

end Curves
