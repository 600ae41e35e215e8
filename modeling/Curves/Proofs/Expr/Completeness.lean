import Curves.Proofs.Expr.Literal
import Curves.Proofs.Expr.Reading

/-!
# Derivations are read

What the grammar derives is read without finding anything wrong, with the same tree and the same
rest. A derivation of a chain can end where the text would go on, so for chains the induction shows
less: the parser comes to the end of the derived part with the derived tree as its operand. It
stops there if what follows cannot extend the construct.
-/

namespace Curves

namespace Parser
open Grammar

/-! ## Chains -/

/-- What is left of the reading `p` is to hang links on the operand `t` from `r` on. -/
def Resumes (next? : Cursor → Option (Parsed Link)) (p : Parsed Expr) (t : Expr)
    (r : List Char) : Prop :=
  ∃ c : Cursor, c.At r ∧
    ∀ {v r'}, (chain next? { value := t, after := c }).Reads v r' → p.Reads v r'

section Chains
variable {next? : Cursor → Option (Parsed Link)} {p : Parsed Expr} {t : Expr} {s r : List Char}

theorem Resumes.start (h : p.Reads t r) : Resumes next? (chain next? p) t r := by
  refine ⟨p.after, h.after, fun chained => ⟨?_, ?_, chained.after⟩⟩
  · simpa [chain, h.value] using chained.value
  · simpa [chain, h.no_issues] using chained.no_issues

/-- A link that is found is hung on what has been read. -/
theorem Resumes.step {l : Link} (h : Resumes next? p t s)
    (found : ∀ c : Cursor, c.At s → ∃ link, next? c = some link ∧ link.Reads l r)
    (shorter : r.length < s.length) : Resumes next? p (l.attach t) r := by
  obtain ⟨c, hc, rest⟩ := h
  obtain ⟨link, hlink, reads⟩ := found c hc
  have progress : link.after.rest.length < c.rest.length := by
    rwa [hc.1, reads.after.1]
  have unfolded : links next? c =
      { value := link.value :: (links next? link.after).value
        issues := link.issues ++ (links next? link.after).issues
        seams := link.seams ++ (links next? link.after).seams
        after := (links next? link.after).after } := by
    rw [links, hlink]
    simp only [progress, if_true]
  refine ⟨link.after, reads.after, fun chained => rest ⟨?_, ?_, ?_⟩⟩
  · simpa [chain, unfolded, reads.value] using chained.value
  · simpa [chain, unfolded, reads.no_issues] using chained.no_issues
  · simpa [chain, unfolded] using chained.after

theorem Resumes.operate {op : Operator} {x : Char} {u : Expr} {read : Cursor → Parsed Expr}
    (h : Resumes next? p t (x :: s))
    (found : ∀ c : Cursor, c.At (x :: s) →
      next? c = some ((read (c.advance 1)).map (.operation op)))
    (operand : ∀ c : Cursor, c.At s → (read c).Reads u r) (shorter : r.length < s.length) :
    Resumes next? p (.binary op t u) r :=
  h.step (l := .operation op u)
    (fun c hc => ⟨_, found c hc, (operand _ hc.next).map (Link.operation op)⟩)
    (Nat.lt_succ_of_lt shorter)

/-- When no link is found, the reading is complete. -/
theorem Resumes.finish (h : Resumes next? p t r) (stop : ∀ c : Cursor, c.At r → next? c = none) :
    p.Reads t r := by
  obtain ⟨c, hc, rest⟩ := h
  have nothing : links next? c = { value := [], after := c } := by
    rw [links, stop c hc]
  refine rest ⟨?_, ?_, ?_⟩
  · simp [chain, nothing]
  · simp [chain, nothing]
  · simpa [chain, nothing] using hc

end Chains

/-! ## Where constructs end -/

/-- `r` does not go on with an exponent. -/
def EndsPower (r : List Char) : Prop := ∀ x ∈ r.head?, x ≠ '²' ∧ x ≠ '³' ∧ x ≠ '^'

/-- `r` does not go on with an exponent or a factor. -/
def EndsTerm (r : List Char) : Prop :=
  EndsPower r ∧ ∀ x ∈ r.head?, x ≠ '*' ∧ x ≠ '/' ∧ ¬ startsOperand x

/-- `r` does not go on with an exponent, a factor or a summand. -/
def EndsExpression (r : List Char) : Prop :=
  EndsTerm r ∧ ∀ x ∈ r.head?, x ≠ '+' ∧ x ≠ '-'

theorem endsExpression_nil : EndsExpression [] := by
  simp [EndsExpression, EndsTerm, EndsPower]

theorem endsExpression_close (r : List Char) : EndsExpression (')' :: r) := by
  have : startsOperand ')' = false := by decide
  simp [EndsExpression, EndsTerm, EndsPower, this]

section Ends
variable {c : Cursor} {r : List Char}

theorem powerLink?_eq_none (ends : EndsPower r) (hc : c.At r) (factor : Cursor → Parsed Expr) :
    powerLink? factor c = none := by
  rw [powerLink?, hc.peek]
  cases r <;> simp_all [EndsPower]

theorem termLink?_eq_none (ends : EndsTerm r) (hc : c.At r) (power : Cursor → Parsed Expr) :
    termLink? power c = none := by
  rw [termLink?, hc.peek]
  cases r <;> simp_all [EndsTerm]

theorem sumLink?_eq_none (ends : EndsExpression r) (hc : c.At r) (term : Cursor → Parsed Expr) :
    sumLink? term c = none := by
  rw [sumLink?, hc.peek]
  cases r <;> simp_all [EndsExpression]

end Ends

/-! ## Factors -/

section Factors
variable {n : Nat} {c : Cursor} {x : Char} {s w r : List Char}

theorem factor_of_isDigit (hc : c.At (x :: s)) (hx : x.isDigit) : factor (n + 1) c = number c := by
  have unsigned : x ≠ '-' ∧ x ≠ '+' := by
    constructor <;> rintro rfl <;> simp at hx
  simp [factor, hc.1, hc.2, unsigned, hx]

/-- A literal is read as the number that it denotes. -/
theorem number_reads (literal : IsLiteral w) (stop : ∀ d ∈ r.head?, ¬ (d.isDigit ∨ isSeparator d))
    (hc : c.At (w ++ r)) : (number c).Reads (.number (literalDecimal w).toFloat) r := by
  have word : ∀ d ∈ w, isLiteralChar d := fun d hd =>
    (isLiteralChar_iff d).2 (literal.digit_or_separator d hd)
  have ends : ∀ d ∈ r.head?, ¬ isLiteralChar d := fun d hd => by
    rw [isLiteralChar_iff]
    exact stop d hd
  have value : literalValue? w = some (literalDecimal w).toFloat :=
    (literalValue?_eq_some_iff literal.digit_first literal.digit_or_separator _).2 ⟨literal, rfl⟩
  simp only [number, hc.1, takeWhile_dropWhile_append word ends, value]
  exact ⟨rfl, rfl, hc.advance⟩

/-- A group is read up to its `)`. -/
theorem group_reads {read : Cursor → Parsed Expr} {t : Expr}
    (inner : ∀ d : Cursor, d.At s → (read d).Reads t (')' :: r)) (hc : c.At ('(' :: s)) :
    (group read c).Reads t r := by
  have reads := inner (c.advance 1) hc.next
  have closed : (read (c.advance 1)).after.peek = some ')' := reads.after.peek
  rw [group, if_pos closed]
  exact ⟨reads.value, reads.no_issues, reads.after.next⟩

/-- Names begin with two letters that keep them from being read as anything else. -/
theorem name_shape (f : NamedFunction) : ∃ a b w, f.name.toList = a :: b :: w ∧
    (a :: b :: w).all Text.isLetter ∧ a.isDigit = false ∧ a ∉ ['-', '+', 'x', 'p'] := by
  cases f <;> exact ⟨_, _, _, rfl, by decide, by decide, by decide⟩

theorem factor_of_name {f : NamedFunction} (hc : c.At (f.name.toList ++ s)) :
    factor (n + 1) c = named (expression (factor n)) c := by
  obtain ⟨a, b, w, name, letters, no_digit, other⟩ := name_shape f
  rw [name] at hc
  have letters := List.all_eq_true.1 letters
  have first : Text.isLetter a := letters a (by simp)
  have second : Text.isLetter b := letters b (by simp)
  simp_all [factor, hc.1, hc.2]

/-- A function is read with the argument in its parentheses. -/
theorem named_reads {f : NamedFunction} {read : Cursor → Parsed Expr} {t : Expr}
    (inner : ∀ d : Cursor, d.At s → (read d).Reads t (')' :: r))
    (hc : c.At (f.name.toList ++ '(' :: s)) : (named read c).Reads (.call f t) r := by
  obtain ⟨a, b, w, name, letters, -⟩ := name_shape f
  rw [← name, List.all_eq_true] at letters
  have ends : ∀ d ∈ ('(' :: s).head?, ¬ Text.isLetter d := by
    rintro d ⟨⟩
    decide
  have opening : (c.advance f.name.toList.length).At ('(' :: s) := hc.advance
  have opened : (c.advance f.name.toList.length).peek = some '(' := opening.peek
  simp only [named, hc.1, takeWhile_dropWhile_append letters ends, opened, if_true,
    String.ofList_toList, NamedFunction.ofName?_name]
  exact (group_reads inner opening).map (Expr.call f)

end Factors

/-! ## Derivations -/

/-- What a derivation of `t` from `s` up to `r` shows about the readings of `s`. -/
def Complete (n : Nat) (s : List Char) (t : Expr) (r : List Char) : Construct → Prop
  | .factor => ∀ c : Cursor, c.At s → (factor n c).Reads t r
  | .power => ∀ c : Cursor, c.At s → Resumes (powerLink? (factor n)) (power (factor n) c) t r
  | .term => EndsPower r → ∀ c : Cursor, c.At s →
      Resumes (termLink? (power (factor n))) (term (factor n) c) t r
  | .expression => EndsTerm r → ∀ c : Cursor, c.At s →
      Resumes (sumLink? (term (factor n))) (expression (factor n) c) t r

section Complete
variable {n : Nat} {s r : List Char} {t : Expr} {c : Cursor}

/-- A power is read completely if what follows does not go on with an exponent. -/
theorem Complete.power_reads (h : Complete n s t r .power) (ends : EndsPower r) (hc : c.At s) :
    (power (factor n) c).Reads t r :=
  (h c hc).finish fun _ hd => powerLink?_eq_none ends hd _

/-- A term is read completely if what follows does not go on with a factor. -/
theorem Complete.term_reads (h : Complete n s t r .term) (ends : EndsTerm r) (hc : c.At s) :
    (term (factor n) c).Reads t r :=
  (h ends.1 c hc).finish fun _ hd => termLink?_eq_none ends hd _

/-- An expression is read completely if nothing that follows goes on with it. -/
theorem Complete.expression_reads (h : Complete n s t r .expression) (ends : EndsExpression r)
    (hc : c.At s) : (expression (factor n) c).Reads t r :=
  (h ends.1 c hc).finish fun _ hd => sumLink?_eq_none ends hd _

end Complete

theorem ends_power_of_starts {x : Char} (hx : startsOperand x) (s : List Char) :
    EndsPower (x :: s) := by
  rintro y ⟨⟩
  refine ⟨?_, ?_, ?_⟩ <;> rintro rfl <;> exact absurd hx (by decide +kernel)

/-- What is derived is read. A chain that is derived may be the beginning of a longer one, so for
chains only the operand that the parser comes to is known, unless what follows ends them. -/
theorem complete_of_derives {k : Construct} {n : Nat} {s r : List Char} {t : Expr}
    (h : Derives k n s t r) : Complete n s t r k := by
  induction h with
  | term _ ih =>
    intro ends c hc
    exact .start (ih.term_reads ends hc)
  | add _ right ihl ihr | subtract _ right ihl ihr =>
    intro ends c hc
    -- a sign cannot extend the terms before it
    have reached := ihl (by simp [EndsTerm, EndsPower]; decide) c hc
    exact reached.operate (fun d hd => by rw [sumLink?, hd.peek]; rfl)
      (fun d hd => ihr.term_reads ends hd) right.length_lt
  | power _ ih =>
    intro ends c hc
    exact .start (ih.power_reads ends hc)
  | multiply _ right ihl ihr | divide _ right ihl ihr =>
    intro ends c hc
    have reached := ihl (by simp [EndsPower]) c hc
    exact reached.operate (fun d hd => by rw [termLink?, hd.peek]; rfl)
      (fun d hd => ihr.power_reads ends hd) right.length_lt
  | @adjacent n s t x s' u r _ first right ihl ihr =>
    intro ends c hc
    have starts : startsOperand x := (startsOperand_iff x).2 first
    refine (ihl (ends_power_of_starts starts _) c hc).step (l := .operation .multiply u)
      (fun d hd => ?_) right.length_lt
    have reads := (ihr.power_reads ends hd).map (Link.operation .multiply)
    have no_sign : x ≠ '*' ∧ x ≠ '/' := by
      constructor <;> rintro rfl <;> exact absurd starts (by decide)
    have found : termLink? (power (factor n)) d =
        some { (power (factor n) d).map (Link.operation .multiply) with
          seams := d.position :: (power (factor n) d).seams } := by
      rw [termLink?, hd.peek]
      simp [no_sign, starts, Parsed.map]
    exact ⟨_, found, reads.value, reads.no_issues, reads.after⟩
  | factor _ ih =>
    intro c hc
    exact .start (ih c hc)
  | raise _ right ihl ihr =>
    intro c hc
    exact (ihl c hc).operate (fun d hd => by rw [powerLink?, hd.peek]; rfl) ihr right.length_lt
  | square _ ih =>
    intro c hc
    exact (ih c hc).step (l := .square)
      (fun d hd => ⟨_, by rw [powerLink?, hd.peek]; rfl, rfl, rfl, hd.next⟩) (Nat.lt_succ_self _)
  | cube _ ih =>
    intro c hc
    exact (ih c hc).step (l := .cube)
      (fun d hd => ⟨_, by rw [powerLink?, hd.peek]; rfl, rfl, rfl, hd.next⟩) (Nat.lt_succ_self _)
  | plus _ ih =>
    intro c hc
    rw [factor]
    simpa [hc.1, hc.2] using ih _ hc.next
  | minus _ ih =>
    intro c hc
    rw [factor]
    simpa [hc.1, hc.2] using (ih _ hc.next).map Expr.negate
  | number literal stop =>
    intro c hc
    obtain ⟨x, hx, digit⟩ := literal.digit_first
    obtain ⟨w, rfl⟩ := List.head?_eq_some_iff.1 hx
    rw [factor_of_isDigit hc digit]
    exact number_reads literal stop hc
  | var =>
    intro c hc
    simpa [factor, hc.1, hc.2] using ⟨rfl, rfl, hc.next⟩
  | euler alone =>
    intro c hc
    have := no_letter_iff.2 alone
    simpa [factor, hc.1, hc.2, this] using ⟨rfl, rfl, hc.next⟩
  | circle =>
    intro c hc
    simpa [factor, hc.1, hc.2] using ⟨rfl, rfl, hc.advance (w := ['p', 'i'])⟩
  | call f _ ih =>
    intro c hc
    rw [factor_of_name hc]
    exact named_reads (fun d hd => ih.expression_reads (endsExpression_close _) hd) hc
  | group _ ih =>
    intro c hc
    have no_letter : Text.isLetter '(' = false := by decide
    have reads := group_reads (fun d hd => ih.expression_reads (endsExpression_close _) hd) hc
    rw [factor]
    simpa [hc.1, hc.2, no_letter] using reads

end Parser

end Curves
