import Curves.Equation
import Curves.Proofs.Expr.Exactness
import Curves.Proofs.Text.Lowercase

/-!
# Expressions put together

What becomes of expressions that are written one after the other. Behind a sign that is written
between them the second expression goes on with the last term of the first, so neither keeps its
tree, but the text as a whole is derived, and no factor nests deeper than before. Hence fragments
that are expressions add up to an equation that is one.

Main statements:

* `Derives.append`: a text may follow that extends no word;
* `Derives.product`, `Derives.sum`: expressions with a product sign between them, and an expression
  behind which a signed one stands;
* `extend_isClean`: equations of fragments.
-/

namespace Curves

namespace Expr

/-- The tree of a text without the sign that it begins with. Only a minus is in the tree. -/
def unsigned (sign : Char) : Expr → Expr
  | .negate e => if sign = '-' then e else .negate e
  | .binary op left right => .binary op (left.unsigned sign) right
  | .square e => .square (e.unsigned sign)
  | .cube e => .cube (e.unsigned sign)
  | e => e

theorem unsigned_plus (t : Expr) : t.unsigned '+' = t := by
  induction t <;> simp_all [unsigned]

end Expr

namespace Grammar

variable {k : Construct} {n : Nat} {s s' r : List Char} {t u : Expr} {x : Char}

/-! ## Texts that may follow -/

/-- No number and no name goes on with `q`. -/
def EndsWords (q : List Char) : Prop :=
  ∀ c ∈ q.head?, ¬ (c.isDigit ∨ isSeparator c) ∧ ¬ Text.isLetter c

theorem head?_append_stops {p : Char → Prop} {q : List Char} (stop : ∀ c ∈ r.head?, ¬ p c)
    (stop' : ∀ c ∈ q.head?, ¬ p c) : ∀ c ∈ (r ++ q).head?, ¬ p c := by
  cases r with
  | nil => exact stop'
  | cons d r => exact stop

/-- A text may follow that extends no word. -/
theorem Derives.append {q : List Char} (h : Derives k n s t r) (ends : EndsWords q) :
    Derives k n (s ++ q) t (r ++ q) := by
  induction h with
  | term _ ih => exact .term ih
  | add _ _ ihl ihr => exact .add ihl ihr
  | subtract _ _ ihl ihr => exact .subtract ihl ihr
  | power _ ih => exact .power ih
  | multiply _ _ ihl ihr => exact .multiply ihl ihr
  | divide _ _ ihl ihr => exact .divide ihl ihr
  | adjacent _ starts _ ihl ihr => exact .adjacent ihl starts ihr
  | factor _ ih => exact .factor ih
  | raise _ _ ihl ihr => exact .raise ihl ihr
  | square _ ih => exact .square ih
  | cube _ ih => exact .cube ih
  | plus _ ih => exact .plus ih
  | minus _ ih => exact .minus ih
  | number literal stop =>
    rw [List.append_assoc]
    exact .number literal (head?_append_stops stop fun c hc => (ends c hc).1)
  | var => exact .var
  | euler alone => exact .euler (head?_append_stops alone fun c hc => (ends c hc).2)
  | circle => exact .circle
  | call f _ ih =>
    rw [List.append_assoc]
    exact .call f ih
  | group _ ih => exact .group ih

/-! ## Products -/

/-- What extends every term extends the last term of an expression. -/
theorem Derives.extend_last (h : Derives .expression n s t (x :: s'))
    (extend : ∀ {s t}, Derives .term n s t (x :: s') → ∃ v, Derives .term n s v r) :
    ∃ v, Derives .expression n s v r := by
  cases h with
  | term last =>
    obtain ⟨v, longer⟩ := extend last
    exact ⟨_, .term longer⟩
  | add sum last =>
    obtain ⟨v, longer⟩ := extend last
    exact ⟨_, .add sum longer⟩
  | subtract sum last =>
    obtain ⟨v, longer⟩ := extend last
    exact ⟨_, .subtract sum longer⟩

/-- The last term of an expression goes on with the powers of a term. -/
theorem Derives.product_term (h : Derives .expression n s t ('*' :: s')) (h' : Derives k n s' u r)
    (term : k = .term) : ∃ v, Derives .expression n s v r := by
  induction h' with
  | power first => exact h.extend_last fun last => ⟨_, .multiply last first⟩
  | multiply _ next ih =>
    obtain ⟨v, longer⟩ := ih h term
    exact longer.extend_last fun last => ⟨_, .multiply last next⟩
  | divide _ next ih =>
    obtain ⟨v, longer⟩ := ih h term
    exact longer.extend_last fun last => ⟨_, .divide last next⟩
  | adjacent _ starts next ih =>
    obtain ⟨v, longer⟩ := ih h term
    exact longer.extend_last fun last => ⟨_, .adjacent last starts next⟩
  | _ => cases term

/-- With a product sign between them two expressions are one. -/
theorem Derives.product (h : Derives .expression n s t ('*' :: s')) (h' : Derives k n s' u r)
    (expression : k = .expression) : ∃ v, Derives .expression n s v r := by
  induction h' with
  | term first => exact h.product_term first rfl
  | add _ next ih =>
    obtain ⟨v, longer⟩ := ih h expression
    exact ⟨_, .add longer next⟩
  | subtract _ next ih =>
    obtain ⟨v, longer⟩ := ih h expression
    exact ⟨_, .subtract longer next⟩
  | _ => cases expression

/-! ## Sums -/

/-- A construct that begins with a sign is one without it. -/
theorem Derives.unsigned (h : Derives k n (x :: s) t r) (sign : x = '+' ∨ x = '-') :
    Derives k n s (t.unsigned x) r := by
  generalize text : x :: s = w at h
  induction h with
  -- the first operand of a chain has the sign
  | term _ ih => exact .term (ih text)
  | add _ right ih => exact .add (ih text) right
  | subtract _ right ih => exact .subtract (ih text) right
  | power _ ih => exact .power (ih text)
  | multiply _ right ih => exact .multiply (ih text) right
  | divide _ right ih => exact .divide (ih text) right
  | adjacent _ starts right ih => exact .adjacent (ih text) starts right
  | factor _ ih => exact .factor (ih text)
  | raise _ right ih => exact .raise (ih text) right
  | square _ ih => exact .square (ih text)
  | cube _ ih => exact .cube (ih text)
  | plus operand =>
    cases text
    rw [Expr.unsigned_plus]
    exact operand.succ
  | minus operand =>
    cases text
    exact operand.succ
  | number literal =>
    obtain ⟨c, hc, digit⟩ := literal.digit_first
    obtain ⟨w, rfl⟩ := List.head?_eq_some_iff.1 hc
    cases text
    rcases sign with rfl | rfl <;> cases digit
  | call f =>
    obtain ⟨a, b, w, name, -, -, other⟩ := Parser.name_shape f
    rw [name] at text
    cases text
    rcases sign with rfl | rfl <;> simp at other
  | _ =>
    cases text
    simp at sign

/-- An expression that begins with a sign goes on with the sum before it. -/
theorem Derives.sum (h : Derives .expression n s t (x :: s')) (sign : x = '+' ∨ x = '-')
    (h' : Derives k n (x :: s') u r) (expression : k = .expression) :
    ∃ v, Derives .expression n s v r := by
  generalize text : x :: s' = w at h'
  induction h' with
  | term first =>
    subst text
    have operand := first.unsigned sign
    rcases sign with rfl | rfl
    · exact ⟨_, .add h operand⟩
    · exact ⟨_, .subtract h operand⟩
  | add _ next ih => exact (ih h expression text).elim fun _ sum => ⟨_, .add sum next⟩
  | subtract _ next ih => exact (ih h expression text).elim fun _ sum => ⟨_, .subtract sum next⟩
  | _ => cases expression

end Grammar

/-! ## Equations -/

namespace Equation
open Grammar Text

variable {s : List Char} {t : Expr}

def IsExpression (s : List Char) : Prop := ∃ t, Derives .expression maxDepth s t []

/-- An expression times another one. -/
theorem IsExpression.product {s s' : List Char} (h : IsExpression s) (h' : IsExpression s') :
    IsExpression (s ++ '*' :: s') := by
  obtain ⟨t, h⟩ := h
  obtain ⟨u, h'⟩ := h'
  have ends : EndsWords ('*' :: s') := by
    rintro c ⟨⟩
    decide
  exact (h.append ends).product h' rfl

/-- An expression and a signed one behind it. -/
theorem IsExpression.sum {x : Char} {s s' : List Char} (h : IsExpression s)
    (sign : x = '+' ∨ x = '-') (h' : IsExpression (x :: s')) : IsExpression (s ++ x :: s') := by
  obtain ⟨t, h⟩ := h
  obtain ⟨u, h'⟩ := h'
  have ends : EndsWords (x :: s') := by
    rintro c ⟨⟩
    rcases sign with rfl | rfl <;> decide
  exact (h.append ends).sum sign h' rfl

/-- A fragment that begins with a sign. -/
theorem isSigned_iff (fragment : String) :
    isSigned fragment ↔ ∃ x s, fragment.toList = x :: s ∧ (x = '+' ∨ x = '-') := by
  simp only [isSigned, Bool.or_eq_true, String.startsWith_char_eq_head?, beq_iff_eq,
    List.head?_eq_some_iff]
  grind

def chars (equation : Equation) : List Char := normalizeChars equation.text.toList

variable {equation : Equation} {fragment : String}

def joins (equation : Equation) (fragment : String) : Bool :=
  !isSigned fragment && !equation.isEmpty

/-- Signs are neither blank nor letters, so texts around them are normalized by themselves. -/
theorem normalizeChars_append_sign {x : Char} (sign : x = '*' ∨ x = '+' ∨ x = '-')
    (v w : List Char) :
    normalizeChars (v ++ x :: w) = normalizeChars v ++ x :: normalizeChars w := by
  rcases sign with rfl | rfl | rfl <;>
    exact normalizeChars_append_divider (by decide +kernel) (by decide) (by decide)

/-- A signed fragment begins with its sign when it is normalized, too. -/
theorem exists_normalized_of_isSigned (signed : isSigned fragment) : ∃ x s,
    (x = '+' ∨ x = '-') ∧ normalizeChars fragment.toList = x :: normalizeChars s ∧
      fragment.toList = x :: s := by
  obtain ⟨x, s, text, sign⟩ := (isSigned_iff fragment).1 signed
  exact ⟨x, s, sign, text ▸ normalizeChars_append_sign (.inr sign) [] s, text⟩

theorem append_of_joins (h : equation.joins fragment) :
    equation.append fragment = ⟨equation.text ++ "*" ++ fragment⟩ := by
  simp only [joins, Bool.and_eq_true, Bool.not_eq_true'] at h
  simp [append, h]

theorem append_of_not_joins (h : equation.joins fragment = false) :
    equation.append fragment = ⟨equation.text ++ fragment⟩ := by
  simp only [joins, Bool.and_eq_false_iff, Bool.not_eq_false'] at h
  simp [append, h]

/-- A fragment adds its normalized text, behind a product sign if one joins it. -/
theorem chars_append (equation : Equation) (fragment : String) : (equation.append fragment).chars =
    equation.chars ++ ((if equation.joins fragment then ['*'] else []) ++
      normalizeChars fragment.toList) := by
  cases joint : equation.joins fragment with
  | true =>
    have text : (equation.text ++ "*" ++ fragment).toList =
        equation.text.toList ++ '*' :: fragment.toList := by simp
    rw [append_of_joins joint, chars, text, normalizeChars_append_sign (.inl rfl)]
    rfl
  | false =>
    rw [append_of_not_joins joint, chars, String.toList_append]
    simp only [joins, Bool.and_eq_false_iff, Bool.not_eq_false'] at joint
    rcases joint with signed | empty
    · obtain ⟨x, s, sign, normalized, text⟩ := exists_normalized_of_isSigned signed
      rw [text, normalizeChars_append_sign (.inr sign), ← text, normalized]
      rfl
    · have nothing : equation.text = "" := String.isEmpty_iff.1 empty
      simp [chars, nothing]
      rfl

/-- An expression that is appended to an expression, or is the first fragment, makes an
expression. -/
theorem isExpression_append (h : equation.isEmpty ∨ IsExpression equation.chars)
    (hf : IsExpression (normalizeChars fragment.toList)) :
    IsExpression (equation.append fragment).chars := by
  rw [chars_append]
  by_cases empty : equation.isEmpty
  · have first : equation.text = "" := String.isEmpty_iff.1 empty
    have nothing : equation.chars = [] := by simp [chars, first]; rfl
    simpa [joins, empty, nothing] using hf
  · have whole := h.resolve_left empty
    by_cases signed : isSigned fragment
    · obtain ⟨x, s, sign, normalized, -⟩ := exists_normalized_of_isSigned signed
      rw [normalized] at hf ⊢
      simpa [joins, signed] using whole.sum sign hf
    · simpa [joins, signed, empty] using whole.product hf

theorem extend_cons (equation : Equation) (fragment : String) (fragments : List String) :
    equation.extend (fragment :: fragments) = (equation.append fragment).extend fragments := rfl

/-- Fragments that are expressions make the equation a longer expression. -/
theorem isExpression_extend {fragments : List String} (h : IsExpression equation.chars)
    (accepted : ∀ fragment ∈ fragments, IsExpression (normalizeChars fragment.toList)) :
    IsExpression (equation.extend fragments).chars := by
  induction fragments generalizing equation with
  | nil => exact h
  | cons fragment fragments ih =>
    obtain ⟨first, others⟩ := List.forall_mem_cons.1 accepted
    rw [extend_cons]
    exact ih (isExpression_append (.inr h) first) others

/-- An accepted fragment is an expression once it is normalized. -/
theorem isExpression_of_ofSource (h : Expr.ofSource fragment = .ok t) :
    IsExpression (normalizeChars fragment.toList) := by
  have clean := (Expr.ofSource_eq_ok_iff_parse fragment t).1 h
  exact ⟨t, ((parse_clean_iff_derives _ t).1 clean).2.2⟩

/-- An expression that is not too long has nothing wrong with it. -/
theorem IsExpression.parse_clean (h : IsExpression s) (short : s.length ≤ maxLength) :
    (parse s).diagnostics = [] := by
  obtain ⟨t, h⟩ := h
  have nonempty : 1 ≤ s.length := Nat.lt_of_le_of_lt (Nat.zero_le _) h.length_lt
  exact ((parse_clean_iff_derives s t).2 ⟨nonempty, short, h⟩).1

/-- An equation of fragments that are expressions has nothing wrong with it after any of them, as
long as it is not too long. -/
theorem extend_isClean {fragments : List String}
    (accepted : ∀ fragment ∈ fragments, ∃ t, Expr.ofSource fragment = .ok t) {i : Nat}
    (inside : i < fragments.length) (conventions : Conventions) :
    let f := (({} : Equation).extend (fragments.take (i + 1))).formula conventions
    f.source.length ≤ 4096 → f.diagnostics = [] := by
  intro f short
  have expressions : ∀ fragment ∈ fragments.take (i + 1),
      IsExpression (normalizeChars fragment.toList) := by
    intro fragment h
    obtain ⟨t, ok⟩ := accepted fragment (List.mem_of_mem_take h)
    exact isExpression_of_ofSource ok
  have whole : IsExpression (({} : Equation).extend (fragments.take (i + 1))).chars := by
    cases fragments with
    | nil => cases inside
    | cons fragment fragments =>
      rw [List.take_succ_cons] at expressions ⊢
      obtain ⟨first, others⟩ := List.forall_mem_cons.1 expressions
      have empty : ({} : Equation).isEmpty := by decide
      rw [extend_cons]
      exact isExpression_extend (isExpression_append (.inl empty) first) others
  have source : f.source.length = (({} : Equation).extend (fragments.take (i + 1))).chars.length :=
    String.length_ofList
  rw [source] at short
  exact whole.parse_clean short

theorem extend_isClean_signs_and_blanks :
    let fragments := ["Sin( X )", "2", "-3²", " -x", "+e^2"]
    let f := (({} : Equation).extend (fragments.take 5)).formula
    (∀ fragment ∈ fragments, ∃ t, Expr.ofSource fragment = .ok t) ∧
      f.source = "sin(x)*2-3²*-x+e^2" ∧ f.diagnostics = [] := by
  intro fragments f
  have accepted : ∀ fragment ∈ fragments, ∃ t, Expr.ofSource fragment = .ok t := by
    intro fragment h
    have ok : (Expr.ofSource fragment).isOk :=
      List.all_eq_true.1 (by decide +kernel : fragments.all fun s => (Expr.ofSource s).isOk) _ h
    cases read : Expr.ofSource fragment with
    | ok t => exact ⟨t, rfl⟩
    | error d => simp [read, Except.isOk, Except.toBool] at ok
  have source : f.source = "sin(x)*2-3²*-x+e^2" := by decide
  refine ⟨accepted, source, extend_isClean accepted (i := 4) (by decide) {} ?_⟩
  decide

end Equation

end Curves
