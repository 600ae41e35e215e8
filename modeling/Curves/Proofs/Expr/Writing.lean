import Curves.Proofs.Expr.Exactness
import Curves.Proofs.Number.ReadBack
import Curves.Proofs.Text.Normalization

/-!
# Expressions are read back

The fully parenthesised text of a tree, in which each operand stands in parentheses of its own. It
is in the grammar with the tree as its meaning, wherever it stands before a `)` or the end, and it
is its own normalized form.

Main statements:

* `derives_written`: the derivation of a written tree;
* `ofSource_written`: a written tree is read back, unless it is too long or too deep.
-/

namespace Curves

def Operator.sign : Operator → Char
  | .add => '+'
  | .subtract => '-'
  | .multiply => '*'
  | .divide => '/'
  | .power => '^'

def enclosed (w : List Char) : List Char := '(' :: (w ++ [')'])

namespace Expr

/-- Whether the tree can be written: nothing in it is missing or unknown, and each number is finite
with its sign bit clear. -/
def isWritable : Expr → Bool
  | .number value => value.isFinite && value.toBits >>> 63 == 0
  | .var => true
  | .missing | .unknownName _ | .unknownCall _ _ => false
  | .negate e | .square e | .cube e | .call _ e => e.isWritable
  | .binary _ left right => left.isWritable && right.isWritable

/-- The text of a tree with all its operands in parentheses. Placeholders have none. -/
def written : Expr → List Char
  | .number value => (Number.text value).toList
  | .var => ['x']
  | .negate e => '-' :: enclosed e.written
  | .square e => enclosed e.written ++ ['²']
  | .cube e => enclosed e.written ++ ['³']
  | .binary op left right => enclosed left.written ++ op.sign :: enclosed right.written
  | .call f e => f.name.toList ++ enclosed e.written
  | .missing | .unknownName _ | .unknownCall _ _ => []

/-- How deep factors nest in the text of a tree: each sign, pair of parentheses and argument is one
level. -/
def nesting : Expr → Nat
  | .negate e => e.nesting + 2
  | .square e | .cube e | .call _ e => e.nesting + 1
  | .binary _ left right => max left.nesting right.nesting + 1
  | .number _ | .var | .missing | .unknownName _ | .unknownCall _ _ => 1

end Expr

namespace Grammar

variable {n : Nat} {r : List Char}

/-! ## Derivations of written trees -/

/-- The shortest digits of a double are a literal for it. -/
theorem derives_text {value : Float} (finite : value.isFinite)
    (unsigned : value.toBits >>> 63 = 0) (stop : ∀ c ∈ r.head?, ¬ (c.isDigit ∨ isSeparator c)) :
    Derives .factor (n + 1) ((Number.text value).toList ++ r) (.number value) r := by
  obtain ⟨first, chars⟩ := Number.text_of_unsigned finite unsigned
  have word : ∀ c ∈ (Number.text value).toList, c.isDigit ∨ isSeparator c := fun c hc =>
    (chars c hc).imp_right fun point => by simp [point, isSeparator]
  have no_comma : (Number.text value).toList.map pointed = (Number.text value).toList := by
    refine (List.map_congr_left fun c hc => ?_).trans (List.map_id' _)
    rcases chars c hc with digit | rfl
    · exact if_neg (by rintro rfl; cases digit)
    · rfl
  have read : Parser.literalValue? (Number.text value).toList = some value := by
    change Number.read? ((Number.text value).toList.map pointed) = _
    rw [no_comma, Number.read?_text]
  obtain ⟨literal, same⟩ := (literalValue?_eq_some_iff first word value).1 read
  have number := Derives.number (n := n) literal stop
  rwa [same] at number

/-- A text in parentheses is a factor. -/
theorem derives_enclosed {w : List Char} {t : Expr}
    (inner : Derives .expression n (w ++ ')' :: r) t (')' :: r)) :
    Derives .factor (n + 1) (enclosed w ++ r) t r := by
  have same : enclosed w ++ r = '(' :: (w ++ ')' :: r) := by simp [enclosed]
  rw [same]
  exact .group inner

/-- Operands in parentheses with an operator between them. -/
theorem derives_binary (op : Operator) {v w : List Char} {t u : Expr}
    (left : ∀ r, Derives .factor n (enclosed v ++ r) t r)
    (right : ∀ r, Derives .factor n (enclosed w ++ r) u r) (r : List Char) :
    Derives .expression n (enclosed v ++ op.sign :: enclosed w ++ r) (.binary op t u) r := by
  rw [List.append_assoc]
  cases op with
  | add => exact .add (.term (.power (.factor (left _)))) (.power (.factor (right r)))
  | subtract => exact .subtract (.term (.power (.factor (left _)))) (.power (.factor (right r)))
  | multiply => exact .term (.multiply (.power (.factor (left _))) (.factor (right r)))
  | divide => exact .term (.divide (.power (.factor (left _))) (.factor (right r)))
  | power => exact .term (.power (.raise (.factor (left _)) (right r)))

/-- The text of a tree stands for the tree before a `)` and at the end. -/
theorem derives_written {t : Expr} (writable : t.isWritable) (closes : ∀ c ∈ r.head?, c = ')') :
    Derives .expression t.nesting (t.written ++ r) t r := by
  have close (r : List Char) : ∀ c ∈ (')' :: r).head?, c = ')' := by simp
  induction t generalizing r with
  | number value =>
    simp only [Expr.isWritable, Bool.and_eq_true, beq_iff_eq] at writable
    refine .term (.power (.factor (derives_text writable.1 writable.2 fun c hc => ?_)))
    rw [closes c hc]
    decide
  | var => exact .term (.power (.factor .var))
  | missing | unknownName | unknownCall => cases writable
  | negate e ih =>
    have operand := derives_enclosed (ih (r := ')' :: r) writable (close r))
    exact .term (.power (.factor (.minus operand)))
  | square e ih =>
    have operand := derives_enclosed (ih (r := ')' :: '²' :: r) writable (close _))
    rw [Expr.written, List.append_assoc]
    exact .term (.power (.square (.factor operand)))
  | cube e ih =>
    have operand := derives_enclosed (ih (r := ')' :: '³' :: r) writable (close _))
    rw [Expr.written, List.append_assoc]
    exact .term (.power (.cube (.factor operand)))
  | binary op e₁ e₂ ih₁ ih₂ =>
    simp only [Expr.isWritable, Bool.and_eq_true] at writable
    refine derives_binary op (fun r => derives_enclosed ?_) (fun r => derives_enclosed ?_) r
    · exact (ih₁ writable.1 (close r)).mono (le_max_left ..)
    · exact (ih₂ writable.2 (close r)).mono (le_max_right ..)
  | call f e ih =>
    have operand := ih (r := ')' :: r) writable (close r)
    have same : (Expr.call f e).written ++ r =
        f.name.toList ++ '(' :: (e.written ++ ')' :: r) := by simp [Expr.written, enclosed]
    rw [same]
    exact .term (.power (.factor (.call f operand)))

end Grammar

/-! ## Normalized texts -/

section Settled
open Text

theorem isSettled_of_isDigit {c : Char} (h : c.isDigit) : isSettled c := by
  have ink := isBlank_of_isGraphic (isGraphic_of_isDigit h)
  have small : lowerChar c = c := by
    have ascii : c.toNat < 0x80 := by
      have := isGraphic_of_isDigit h
      simp only [isGraphic, Bool.and_eq_true, decide_eq_true_eq] at this
      omega
    rw [lowerChar, if_pos ascii, Grammar.toLower_of_isDigit h]
  have undotted : c ≠ 'İ' := by
    rintro rfl
    cases h
  simp [isSettled, ink, small, undotted]

theorem isSettled_sign (op : Operator) : isSettled op.sign := by
  cases op <;> decide

theorem isSettled_name (f : NamedFunction) : ∀ c ∈ f.name.toList, isSettled c := by
  cases f <;> exact List.all_eq_true.1 (by decide)

theorem isSettled_enclosed {w : List Char} (h : ∀ c ∈ w, isSettled c) :
    ∀ c ∈ enclosed w, isSettled c := by
  have opening : isSettled '(' := by decide
  have closing : isSettled ')' := by decide
  exact List.forall_mem_cons.2
    ⟨opening, List.forall_mem_append.2 ⟨h, List.forall_mem_singleton.2 closing⟩⟩

/-- What is written is normalized. -/
theorem isSettled_written {t : Expr} (writable : t.isWritable) :
    ∀ c ∈ t.written, isSettled c := by
  induction t with
  | number value =>
    simp only [Expr.isWritable, Bool.and_eq_true, beq_iff_eq] at writable
    intro c hc
    rcases (Number.text_of_unsigned writable.1 writable.2).2 c hc with digit | rfl
    · exact isSettled_of_isDigit digit
    · decide
  | var => exact List.all_eq_true.1 (by decide)
  | missing | unknownName | unknownCall => cases writable
  | negate e ih => exact List.forall_mem_cons.2 ⟨by decide, isSettled_enclosed (ih writable)⟩
  | square e ih | cube e ih =>
    refine List.forall_mem_append.2 ⟨isSettled_enclosed (ih writable), ?_⟩
    exact List.all_eq_true.1 (by decide)
  | binary op e₁ e₂ ih₁ ih₂ =>
    simp only [Expr.isWritable, Bool.and_eq_true] at writable
    exact List.forall_mem_append.2 ⟨isSettled_enclosed (ih₁ writable.1),
      List.forall_mem_cons.2 ⟨isSettled_sign op, isSettled_enclosed (ih₂ writable.2)⟩⟩
  | call f e ih =>
    exact List.forall_mem_append.2 ⟨isSettled_name f, isSettled_enclosed (ih writable)⟩

end Settled

/-- Every tree that can be written is read back from its text, if that has at most 4096 characters
and factors nest at most 128 deep in it. -/
theorem Expr.ofSource_written {t : Expr} (writable : t.isWritable) (short : t.written.length ≤ 4096)
    (shallow : t.nesting ≤ 128) : Expr.ofSource (String.ofList t.written) = .ok t := by
  have derived := (Grammar.derives_written (r := []) writable nofun).mono shallow
  rw [List.append_nil] at derived
  have nonempty : 1 ≤ t.written.length := Nat.lt_of_le_of_lt (Nat.zero_le _) derived.length_lt
  rw [ofSource_eq_ok_iff_parse, String.toList_ofList,
    normalizeChars_of_isSettled (isSettled_written writable), parse_clean_iff_derives]
  exact ⟨nonempty, short, derived⟩

/-- Signs, parentheses and a decimal, with the exponent in parentheses of its own. -/
theorem Expr.ofSource_written_power :
    let t : Expr := .binary .power (.negate .var) (.call .sin (.cube (.number 0.5)))
    String.ofList t.written = "(-(x))^(sin((0.5)³))" ∧ t.nesting = 4 ∧
      Expr.ofSource "(-(x))^(sin((0.5)³))" = .ok t := by
  intro t
  have text : String.ofList t.written = "(-(x))^(sin((0.5)³))" := by decide +kernel
  refine ⟨text, rfl, ?_⟩
  rw [← text]
  exact Expr.ofSource_written (by decide +kernel) (by decide +kernel) (by decide)

end Curves
