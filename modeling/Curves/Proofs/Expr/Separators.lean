import Curves.Proofs.Expr.InvalidNumbers
import Curves.Proofs.Text.Lowercase
import Mathlib.Data.List.Forall2

/-!
# Decimal separators

Point and comma are separators of decimals, and neither of them is anything else. A text in which
each comma is replaced by a point is read in the same steps, so two texts that differ in their
separators are read alike.

Main statements:

* `Trace.pointed`: the trace on a text with points for its commas;
* `parse_exchanged`: sources that differ in separators;
* `ofSource_exchanged`: formulas of such sources.
-/

namespace Curves

namespace Grammar

/-! ## Texts that differ in separators -/

/-- Some separators of a text are replaced by the other one. -/
def Exchanged : List Char → List Char → Prop :=
  List.Forall₂ fun c d => d = c ∨ (isSeparator c ∧ isSeparator d)

section Pointed
variable {c d x : Char} {w s other : List Char}

/-- What holds of both separators or of none is not changed by a point for a comma. -/
theorem apply_pointed {α : Type} {q : Char → α} (same : q ',' = q '.') (c : Char) :
    q (pointed c) = q c := by
  unfold pointed
  split
  · subst c
    exact same.symm
  · rfl

theorem pointed_of_not_isSeparator (other : isSeparator c = false) : pointed c = c := by
  refine if_neg ?_
  rintro rfl
  exact absurd other (by decide)

theorem pointed_eq_iff (other : isSeparator x = false) : pointed c = x ↔ c = x := by
  cases separator : isSeparator c with
  | false => rw [pointed_of_not_isSeparator separator]
  | true =>
    rw [pointed_of_isSeparator separator]
    refine iff_of_false ?_ ?_
    · rintro rfl
      exact absurd other (by decide)
    · rintro rfl
      simp [separator] at other

/-- Two characters are pointed alike if they are equal or both are separators. -/
theorem pointed_eq_pointed_iff :
    pointed d = pointed c ↔ d = c ∨ (isSeparator c ∧ isSeparator d) := by
  constructor
  · intro same
    cases first : isSeparator c with
    | false =>
      rw [pointed_of_not_isSeparator first, pointed_eq_iff first] at same
      exact .inl same
    | true =>
      cases second : isSeparator d with
      | false =>
        rw [pointed_of_not_isSeparator second, eq_comm, pointed_eq_iff second] at same
        exact .inl same.symm
      | true => exact .inr ⟨rfl, rfl⟩
  · rintro (rfl | ⟨first, second⟩)
    · rfl
    · rw [pointed_of_isSeparator first, pointed_of_isSeparator second]

/-- Texts that differ in separators are the same with points for commas. -/
theorem exchanged_iff : Exchanged s other ↔ other.map pointed = s.map pointed := by
  rw [eq_comm, ← List.forall₂_eq_eq_eq, List.forall₂_map_left_iff, List.forall₂_map_right_iff]
  have relation : (fun c d => d = c ∨ (isSeparator c ∧ isSeparator d)) =
      fun c d => pointed c = pointed d := by
    funext c d
    rw [eq_comm (a := pointed c), pointed_eq_pointed_iff]
  rw [Exchanged, relation]

/-- The characters of literals stay so. -/
@[simp] theorem isLiteralChar_pointed (c : Char) :
    Parser.isLiteralChar (pointed c) = Parser.isLiteralChar c :=
  apply_pointed (by decide) c

@[simp] theorem isLetter_pointed (c : Char) : Text.isLetter (pointed c) = Text.isLetter c :=
  apply_pointed (by decide) c

@[simp] theorem isDigit_pointed (c : Char) : (pointed c).isDigit = c.isDigit :=
  apply_pointed (q := Char.isDigit) (by decide) c

@[simp] theorem startsOperand_pointed (c : Char) :
    Parser.startsOperand (pointed c) = Parser.startsOperand c :=
  apply_pointed (by decide) c

@[simp] theorem goesOn_pointed (k : Parser.Chain) (c : Char) : k.goesOn (pointed c) = k.goesOn c :=
  apply_pointed (by cases k <;> decide) c

theorem pointed_pointed (c : Char) : pointed (pointed c) = pointed c :=
  apply_pointed (by decide) c

theorem forall_mem_pointed {q : Char → Bool} (same : ∀ c, q (pointed c) = q c)
    (word : ∀ d ∈ w, q d) : ∀ d ∈ w.map pointed, q d := by
  simpa [same] using word

theorem forall_head?_pointed {q : Char → Bool} (same : ∀ c, q (pointed c) = q c)
    (stop : ∀ d ∈ s.head?, ¬ q d) : ∀ d ∈ (s.map pointed).head?, ¬ q d := by
  cases s with
  | nil => exact stop
  | cons y s => simpa [same] using stop

theorem map_pointed_of_letters (letters : ∀ d ∈ w, Text.isLetter d) : w.map pointed = w := by
  have same : ∀ d ∈ w, pointed d = d := by
    refine fun d hd => pointed_of_not_isSeparator (Bool.eq_false_iff.2 fun separator => ?_)
    have literal : Parser.isLiteralChar d := (isLiteralChar_iff d).2 (.inr separator)
    exact Parser.not_isLiteralChar_of_isLetter (letters d hd) literal
  rw [List.map_congr_left same, List.map_id']

/-- A literal has the same value with a point for its comma. -/
theorem literalValue?_pointed (w : List Char) :
    Parser.literalValue? (w.map pointed) = Parser.literalValue? w := by
  have same : (w.map pointed).map pointed = w.map pointed := by
    rw [List.map_map]
    exact List.map_congr_left fun c _ => pointed_pointed c
  exact congrArg Number.read? same

end Pointed

end Grammar

open Grammar

/-! ## Readings with points for commas -/

namespace Cursor

/-- The same place of the text with points for its commas. -/
def pointed (c : Cursor) : Cursor := { c with rest := c.rest.map Grammar.pointed }

section Pointed
variable {c : Cursor} {x : Char} {s : List Char}

@[simp] theorem halted_pointed (c : Cursor) : c.pointed.halted = c.halted := rfl

@[simp] theorem peek_pointed (c : Cursor) : c.pointed.peek = c.peek.map Grammar.pointed := by
  unfold peek pointed
  cases c.halted <;> simp

@[simp] theorem advance_pointed (n : Nat) (c : Cursor) :
    c.pointed.advance n = (c.advance n).pointed := by
  simp [advance, pointed, List.map_drop]

theorem At.pointed (h : c.At s) : c.pointed.At (s.map Grammar.pointed) :=
  ⟨congrArg (List.map Grammar.pointed) h.1, h.2⟩

/-- A character that is no separator is still there. -/
theorem At.pointed_cons (h : c.At (x :: s)) (other : isSeparator x = false) :
    c.pointed.At (x :: s.map Grammar.pointed) := by
  have same := h.pointed
  rwa [List.map_cons, pointed_of_not_isSeparator other] at same

theorem peek_pointed_eq_iff (other : isSeparator x = false) :
    c.pointed.peek = some x ↔ c.peek = some x := by
  rw [peek_pointed]
  cases c.peek with
  | none => simp
  | some d => simp [pointed_eq_iff other]

end Pointed

end Cursor

def Anomaly.pointed : Anomaly → Anomaly
  | .unexpectedCharacter found => .unexpectedCharacter (Grammar.pointed found)
  | .trailingInput rest => .trailingInput (rest.map Grammar.pointed)
  | .invalidNumber literal => .invalidNumber (literal.map Grammar.pointed)
  | anomaly => anomaly

@[simp] theorem Anomaly.kind_pointed (anomaly : Anomaly) : anomaly.pointed.kind = anomaly.kind := by
  cases anomaly <;> rfl

/-- The reading `q` of the text with points for its commas gives the same tree as `p`, and reports
the same kinds of anomalies at the same places. -/
structure Parsed.Alike (p q : Parsed Expr) : Prop where
  value : q.value = p.value
  spots : q.issues.map Diagnostic.spot = p.issues.map Diagnostic.spot
  seams : q.seams = p.seams
  after : q.after = p.after.pointed

theorem Parsed.Alike.join {p q : Parsed Expr} {link link' : Parsed Parser.Link} (h : p.Alike q)
    (value : link'.value = link.value)
    (spots : link'.issues.map Diagnostic.spot = link.issues.map Diagnostic.spot)
    (seams : link'.seams = link.seams) (after : link'.after = link.after.pointed) :
    (p.join link).Alike (q.join link') where
  value := by rw [Parsed.join, Parsed.join, h.value, value]
  spots := by rw [Parsed.join, Parsed.join, List.map_append, List.map_append, h.spots, spots]
  seams := by rw [Parsed.join, Parsed.join, h.seams, seams]
  after := after

namespace Parser
open Cursor

def Front.pointed : Front → Front
  | .missing anomaly => .missing anomaly.pointed
  | .word text value anomaly => .word (text.map Grammar.pointed) value (anomaly.map Anomaly.pointed)
  | front => front

def Step.pointed : Step → Step
  | .passes place text => .passes place (text.map Grammar.pointed)
  | step => step

section Pointed
variable {room : Nat} {stage : Stage} {k : Chain} {c d : Cursor} {x : Char} {s : List Char}
  {f : Front} {p q : Parsed Expr} {t : List Step}

theorem StartsName.pointed (name : StartsName x s) : StartsName x (s.map Grammar.pointed) := by
  refine { name with euler := fun e => ?_, circle := fun p i => ?_ }
  · have next := name.euler e
    cases s with
    | nil => exact next
    | cons y s => simpa using next
  · refine name.circle p ?_
    cases s with
    | nil => exact i
    | cons y s => simpa [pointed_eq_iff (x := 'i') (by decide)] using i

theorem StartsName.word_pointed {w r : List Char} (name : StartsName x (w ++ r))
    (letters : ∀ d ∈ w, Text.isLetter d) : (x :: w).map Grammar.pointed = x :: w ∧
      (x :: (w ++ r)).map Grammar.pointed = x :: (w ++ r.map Grammar.pointed) ∧
      StartsName x (w ++ r.map Grammar.pointed) := by
  have tail : w.map Grammar.pointed = w := map_pointed_of_letters letters
  have word : (x :: w).map Grammar.pointed = x :: w :=
    map_pointed_of_letters (List.forall_mem_cons.2 ⟨name.letter, letters⟩)
  refine ⟨word, ?_, ?_⟩
  · rw [← List.cons_append, List.map_append, word, List.cons_append]
  · have first := name.pointed
    rwa [List.map_append, tail] at first

/-- A factor begins with the same thing. -/
theorem Begins.pointed (begins : Begins s f) : Begins (s.map Grammar.pointed) f.pointed := by
  cases begins with
  | «end» => exact .end
  | minus => exact .minus
  | plus => exact .plus
  | number first word stop value =>
    rw [List.map_append]
    exact .number (by simpa using first) (forall_mem_pointed isLiteralChar_pointed word)
      (forall_head?_pointed isLiteralChar_pointed stop) ((literalValue?_pointed _).trans value)
  | invalidNumber first word stop value =>
    rw [List.map_append]
    exact .invalidNumber (by simpa using first) (forall_mem_pointed isLiteralChar_pointed word)
      (forall_head?_pointed isLiteralChar_pointed stop) ((literalValue?_pointed _).trans value)
  | var => exact .var
  | euler alone => exact .euler (forall_head?_pointed isLetter_pointed alone)
  | circle => exact .circle
  | name first letters stop closed =>
    obtain ⟨word, text, name⟩ := first.word_pointed letters
    rw [text, Front.pointed, word]
    refine .name name letters (forall_head?_pointed isLetter_pointed stop) fun opened => closed ?_
    rw [List.head?_map, Option.map_eq_some_iff] at opened
    obtain ⟨d, next, opening⟩ := opened
    rw [next, (pointed_eq_iff (by decide)).1 opening]
  | call first letters =>
    obtain ⟨-, text, name⟩ := first.word_pointed letters
    rw [text]
    exact .call name letters
  | group => exact .group
  | stranger other plus minus =>
    refine .stranger (by rwa [startsOperand_pointed]) ?_ ?_
    · rwa [Ne, pointed_eq_iff (by decide)]
    · rwa [Ne, pointed_eq_iff (by decide)]

theorem Begins.map_pointed_name {name : List Char} (begins : Begins s (.opening name)) :
    name.map Grammar.pointed = name := by
  cases begins with
  | call first letters =>
    exact map_pointed_of_letters (List.forall_mem_cons.2 ⟨first.letter, letters⟩)
  | group => rfl

/-- Operators are the same when the separators are exchanged. -/
theorem OperatorAt.pointed {op : Operator} {seams : List Nat} (h : OperatorAt k c op d seams) :
    OperatorAt k c.pointed op d.pointed seams := by
  cases h with
  | raise h => exact advance_pointed 1 c ▸ .raise (h.pointed_cons (by decide))
  | multiply h => exact advance_pointed 1 c ▸ .multiply (h.pointed_cons (by decide))
  | divide h => exact advance_pointed 1 c ▸ .divide (h.pointed_cons (by decide))
  | add h => exact advance_pointed 1 c ▸ .add (h.pointed_cons (by decide))
  | subtract h => exact advance_pointed 1 c ▸ .subtract (h.pointed_cons (by decide))
  | adjacent h starts => exact .adjacent h.pointed (by rwa [startsOperand_pointed])

theorem operator_pointed (c d : Cursor) :
    Step.operator c.pointed d.pointed = (Step.operator c d).pointed := by
  simp [Step.operator, Step.pointed, Cursor.pointed, List.map_take]

theorem ending_pointed (opening : Nat) (c : Cursor) :
    Step.ending opening c.pointed = (Step.ending opening c).map Step.pointed := by
  unfold Step.ending
  rw [halted_pointed]
  simp only [peek_pointed_eq_iff (c := c) (x := ')') (by decide)]
  split
  · rfl
  split
  · rfl
  · rfl

/-- Closing a group keeps readings alike. -/
theorem closed_alike (h : p.Alike q) (opening : Nat) :
    (p.closed opening).Alike (q.closed opening) := by
  obtain ⟨value, spots, seams, after⟩ := h
  have closing : q.after.peek = some ')' ↔ p.after.peek = some ')' := by
    rw [after, peek_pointed_eq_iff (by decide)]
  have halted : q.after.halted = p.after.halted := by rw [after, halted_pointed]
  unfold Parsed.closed
  simp only [closing, halted]
  split
  · exact ⟨value, spots, seams, by rw [after, advance_pointed]⟩
  split
  · exact ⟨value, spots, seams, after⟩
  · exact ⟨value, by simp [spots], seams, after⟩

theorem argumentOf_alike (h : p.Alike q) (name : List Char) (place : Nat) :
    (p.argumentOf name place).Alike (q.argumentOf name place) := by
  obtain ⟨value, spots, seams, after⟩ := h
  unfold Parsed.argumentOf
  split
  · exact ⟨value, spots, seams, after⟩
  split
  · exact ⟨congrArg (Expr.call _) value, spots, seams, after⟩
  · exact ⟨congrArg (Expr.unknownCall _) value, congrArg (List.cons _) spots, seams, after⟩

/-- The text with points for its commas is read in the same steps. -/
theorem Trace.pointed (trace : Trace room stage c p t) :
    ∃ q, Trace room stage c.pointed q (t.map Step.pointed) ∧ p.Alike q := by
  -- The same rule applies at each place, because none of them tells a point from a comma.
  induction trace with
  | tooDeep going => exact ⟨_, .tooDeep going, rfl, rfl, rfl, rfl⟩
  | missing h begins =>
    refine ⟨_, .missing h.pointed begins.pointed, rfl, ?_, rfl, rfl⟩
    simp [Parsed.absent, Cursor.pointed]
  | @word _ c _ text value anomaly h begins =>
    refine ⟨_, .word h.pointed begins.pointed, rfl, ?_, rfl, ?_⟩
    · cases anomaly with
      | none => rfl
      | some anomaly => simp [Parsed.ofWord, Cursor.pointed]
    · simp [Parsed.ofWord]
  | plus h _ ih =>
    obtain ⟨q, trace, alike⟩ := ih
    rw [← advance_pointed] at trace
    exact ⟨q, .plus (h.pointed_cons (by decide)) trace, alike⟩
  | negate h _ ih =>
    obtain ⟨q, trace, value, spots, seams, after⟩ := ih
    rw [← advance_pointed] at trace
    exact ⟨_, .negate (h.pointed_cons (by decide)) trace, congrArg Expr.negate value, spots, seams,
      after⟩
  | @group _ c _ name p t h begins _ ih =>
    obtain ⟨q, trace, alike⟩ := ih
    rw [← advance_pointed] at trace
    refine ⟨_, ?_, argumentOf_alike (closed_alike alike _) name c.position⟩
    have read := Trace.group h.pointed begins.pointed trace
    rw [alike.after, ending_pointed, ← List.map_append] at read
    rw [List.map_cons, Step.pointed, begins.map_pointed_name]
    exact read
  | first _ ih =>
    obtain ⟨q, trace, alike⟩ := ih
    exact ⟨q, trace.first, alike⟩
  | square _ h ih =>
    obtain ⟨q, trace, alike⟩ := ih
    have read := trace.square (alike.after ▸ h.pointed_cons (by decide))
    rw [alike.after, advance_pointed] at read
    rw [List.map_append]
    exact ⟨_, read, alike.join rfl rfl rfl rfl⟩
  | cube _ h ih =>
    obtain ⟨q, trace, alike⟩ := ih
    have read := trace.cube (alike.after ▸ h.pointed_cons (by decide))
    rw [alike.after, advance_pointed] at read
    rw [List.map_append]
    exact ⟨_, read, alike.join rfl rfl rfl rfl⟩
  | @operation _ _ _ _ _ op _ seams _ _ _ h _ left right =>
    obtain ⟨q, trace, alike⟩ := left
    obtain ⟨q', trace', value, spots, seams', after⟩ := right
    have read := trace.operation (alike.after ▸ h.pointed) trace'
    rw [alike.after, operator_pointed] at read
    rw [List.map_append, List.map_cons]
    exact ⟨_, read, alike.join (congrArg (Link.operation op) value) spots
      (congrArg (seams ++ ·) seams') after⟩
  | @complete _ k _ p _ _ stops ih =>
    obtain ⟨q, trace, alike⟩ := ih
    refine ⟨q, trace.complete fun x hx => ?_, alike⟩
    rw [alike.after, peek_pointed] at hx
    obtain ⟨y, hy, rfl⟩ := Option.map_eq_some_iff.1 hx
    rw [goesOn_pointed]
    exact stops y hy

end Pointed

end Parser

/-! ## Sources -/

theorem Parsed.Alike.trailing {p q : Parsed Expr} (h : p.Alike q) :
    (Parser.trailing q).map Diagnostic.spot = (Parser.trailing p).map Diagnostic.spot := by
  unfold Parser.trailing
  simp only [h.after, Cursor.pointed, List.isEmpty_map]
  split <;> rfl

/-- A source with points for its commas is parsed alike. -/
theorem parse_pointed (s : List Char) :
    (parse (s.map pointed)).tree = (parse s).tree ∧
      (parse (s.map pointed)).diagnostics.map Diagnostic.spot =
        (parse s).diagnostics.map Diagnostic.spot := by
  by_cases empty : s = []
  · subst s
    exact ⟨rfl, rfl⟩
  have nonempty : s.map pointed ≠ [] := by simpa using empty
  have length : (s.map pointed).length = s.length := List.length_map pointed
  by_cases short : s.length ≤ maxLength
  · obtain ⟨t, trace⟩ := Parser.exists_trace s
    obtain ⟨q, trace', alike⟩ := trace.pointed
    rw [Parser.parse_of_trace trace empty short]
    rw [Parser.parse_of_trace (s := s.map pointed) trace' nonempty (length ▸ short)]
    refine ⟨alike.value, ?_⟩
    rw [List.map_append, List.map_append, alike.spots, alike.trailing]
  · have long := Nat.not_le.1 short
    rw [Parser.parse_of_long long, Parser.parse_of_long (length ▸ long)]
    exact ⟨rfl, rfl⟩

/-- Sources that differ in separators are parsed alike. -/
theorem parse_exchanged {s other : List Char} (exchanged : Exchanged s other) :
    (parse other).tree = (parse s).tree ∧
      (parse other).diagnostics.map Diagnostic.spot =
        (parse s).diagnostics.map Diagnostic.spot := by
  obtain ⟨tree, spots⟩ := parse_pointed s
  obtain ⟨tree', spots'⟩ := parse_pointed other
  rw [← exchanged_iff.1 exchanged] at tree spots
  exact ⟨tree'.symm.trans tree, spots'.symm.trans spots⟩

/-- A normalized source is read as it is. -/
theorem ofSource_of_normalized {source : String} {conventions : Conventions}
    (normalized : normalize source = source) :
    Formula.ofSource source conventions = Formula.ofNormalized source.toList conventions := by
  rw [Formula.ofSource_eq_ofNormalized]
  have kept : normalizeChars source.toList = source.toList :=
    String.ofList_injective (normalized.trans String.ofList_toList.symm)
  rw [kept]

/-- Separators are not changed by normalization. -/
theorem isSettled_pointed (c : Char) : Text.isSettled (pointed c) = Text.isSettled c :=
  apply_pointed (by decide +kernel) c

/-- With other separators a normalized source is normalized, too. -/
theorem normalize_exchanged {source other : String} (normalized : normalize source = source)
    (exchanged : Exchanged source.toList other.toList) : normalize other = other := by
  have settled : source.toList.all Text.isSettled := by
    rw [← normalized, normalize, String.toList_ofList, List.all_eq_true]
    exact fun _ => isSettled_of_mem_normalizeChars
  have pointed_settled (s : List Char) :
      (s.map pointed).all Text.isSettled = s.all Text.isSettled := by
    simp [Function.comp_def, isSettled_pointed]
  rw [← pointed_settled, ← exchanged_iff.1 exchanged, pointed_settled, List.all_eq_true] at settled
  rw [normalize, normalizeChars_of_isSettled settled, String.ofList_toList]

/-- Decimal point and decimal comma are interchangeable: a normalized source in which some of them
are replaced by the other one is normalized, and its formula has the same tree and reports the same
kinds of anomalies at the same places. A literal has no value exactly if there are two separators or
more in it, and of the literals that are read those are reported as invalid numbers. -/
theorem ofSource_exchanged (source other : String) (conventions : Conventions)
    (normalized : normalize source = source)
    (exchanged : Exchanged source.toList other.toList) :
    let f := Formula.ofSource source conventions
    let g := Formula.ofSource other conventions
    let s := source.toList
    (normalize other = other ∧ g.tree = f.tree ∧ g.hasError = f.hasError ∧
        g.diagnostics.map (fun d => (d.kind, d.position)) =
          f.diagnostics.map (fun d => (d.kind, d.position))) ∧
      (∀ w : List Char, (∃ c ∈ w.head?, c.isDigit) → (∀ c ∈ w, c.isDigit ∨ isSeparator c) →
        (Parser.literalValue? w = none ↔ 2 ≤ w.countP isSeparator)) ∧
      ∀ place, (Diagnostic.Kind.invalidNumber, place) ∈
          f.diagnostics.map (fun d => (d.kind, d.position)) ↔
        place < (parse s).consumed ∧ ∃ w, LiteralAt s place w ∧ 2 ≤ w.countP isSeparator := by
  intro f g s
  have normalized' := normalize_exchanged normalized exchanged
  have f_eq : f = Formula.ofNormalized s conventions := ofSource_of_normalized normalized
  have g_eq : g = Formula.ofNormalized other.toList conventions :=
    ofSource_of_normalized normalized'
  obtain ⟨tree, spots⟩ := parse_exchanged exchanged
  rw [f_eq, g_eq]
  refine ⟨⟨normalized', tree, ?_, spots⟩, fun w => literalValue?_eq_none_iff, fun place => ?_⟩
  · rw [Formula.hasError, Formula.hasError, Diagnostic.any_isError, Diagnostic.any_isError]
    exact congrArg (List.any · _) spots
  · exact (parse_reports s place).trans (and_iff_right (Nat.zero_le place))

/-- A literal with a comma is read, one with two separators is reported, and so is a separator where
a factor is missing. -/
theorem ofSource_exchanged_literals :
    let f := Formula.ofSource "1,5x+2.3.4-."
    let g := Formula.ofSource "1.5x+2,3.4-,"
    let spots :=
      [(Diagnostic.Kind.invalidNumber, 5), (.unexpectedCharacter, 11), (.trailingInput, 11)]
    normalize "1,5x+2.3.4-." = "1,5x+2.3.4-." ∧
      Exchanged "1,5x+2.3.4-.".toList "1.5x+2,3.4-,".toList ∧
      f.diagnostics.map (fun d => (d.kind, d.position)) = spots ∧
      g.diagnostics.map (fun d => (d.kind, d.position)) = spots ∧ g.tree = f.tree := by
  intro f g spots
  have normalized : normalize "1,5x+2.3.4-." = "1,5x+2.3.4-." := by decide +kernel
  have exchanged : Exchanged "1,5x+2.3.4-.".toList "1.5x+2,3.4-,".toList :=
    exchanged_iff.2 (by decide +kernel)
  obtain ⟨⟨-, tree, -, same⟩, -⟩ :=
    ofSource_exchanged "1,5x+2.3.4-." "1.5x+2,3.4-," {} normalized exchanged
  have places : f.diagnostics.map (fun d => (d.kind, d.position)) = spots := by decide +kernel
  exact ⟨normalized, exchanged, places, same.trans places, tree⟩

end Curves
