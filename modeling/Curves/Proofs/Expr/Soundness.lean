import Curves.Proofs.Expr.Literal
import Curves.Proofs.Expr.Reading

/-!
# Readings are derivations

What the parser reads without finding anything wrong is derived by the grammar, with the tree and
the rest that the parser returns. For chains one fact is enough: what holds of the first operand and
is kept by every link holds of the whole chain.
-/

namespace Curves.Parser
open Grammar

/-! ## Chains -/

section Chains
variable {next? : Cursor → Option (Parsed Link)} {P : Expr → List Char → Prop}
  (step : ∀ {c s t link}, c.At s → next? c = some link → link.issues = [] → P t s →
    ∃ l r, link.Reads l r ∧ P (l.attach t) r)
include step

/-- What every link keeps, the links of a chain keep. -/
theorem links_keep {c : Cursor} {s : List Char} {t : Expr} (hc : c.At s)
    (clean : (links next? c).issues = []) (ht : P t s) :
    ∃ ls r, (links next? c).Reads ls r ∧ P (ls.foldl Link.attach t) r := by
  induction c using links.induct next? generalizing s t with
  | case1 c stop =>
    rw [links, stop]
    exact ⟨[], s, ⟨rfl, rfl, hc⟩, ht⟩
  | case2 c link found shorter ih =>
    rw [links, found] at clean ⊢
    simp only [shorter, if_true] at clean ⊢
    obtain ⟨first, later⟩ := List.append_eq_nil_iff.1 clean
    obtain ⟨l, r, one, hl⟩ := step hc found first ht
    obtain ⟨ls, r', more, hls⟩ := ih one.after later hl
    exact ⟨l :: ls, r', ⟨by simp [one.value, more.value], clean, more.after⟩, hls⟩
  | case3 c link found longer =>
    -- no link is so long, but the statement holds of it all the same
    rw [links, found] at clean ⊢
    simp only [longer, if_false] at clean ⊢
    obtain ⟨l, r, one, hl⟩ := step hc found clean ht
    exact ⟨[l], r, one.map ([·]), hl⟩

/-- What holds of the first operand and is kept by every link holds of the chain. -/
theorem chain_keeps {first : Parsed Expr} (clean : (chain next? first).issues = [])
    (start : first.issues = [] → ∃ t r, first.Reads t r ∧ P t r) :
    ∃ t r, (chain next? first).Reads t r ∧ P t r := by
  obtain ⟨none_first, none_later⟩ := List.append_eq_nil_iff.1 clean
  obtain ⟨t, r, one, ht⟩ := start none_first
  obtain ⟨ls, r', more, hls⟩ := links_keep step one.after none_later ht
  refine ⟨_, r', ⟨?_, clean, more.after⟩, hls⟩
  rw [← one.value, ← more.value]
  rfl

end Chains

/-! ## Powers, terms and expressions -/

/-- Readings by `read` are derivations of `k` if nothing was wrong. -/
def Sound (k : Construct) (n : Nat) (read : Cursor → Parsed Expr) : Prop :=
  ∀ ⦃c s⦄, c.At s → (read c).issues = [] → ∃ t r, (read c).Reads t r ∧ Derives k n s t r

variable {n : Nat}

theorem sound_power {factor : Cursor → Parsed Expr} (sound : Sound .factor n factor) :
    Sound .power n (power factor) := by
  intro c s hc clean
  refine chain_keeps (P := Derives .power n s) ?_ clean fun first => ?_
  · intro d s' t link hd found clean ht
    obtain ⟨s', ⟨rfl, rfl⟩ | ⟨rfl, rfl⟩ | ⟨rfl, rfl⟩⟩ := powerLink?_cases hd found
    · exact ⟨.square, s', ⟨rfl, rfl, hd.next⟩, .square ht⟩
    · exact ⟨.cube, s', ⟨rfl, rfl, hd.next⟩, .cube ht⟩
    · obtain ⟨u, r, right, hu⟩ := sound hd.next clean
      exact ⟨_, r, right.map _, .raise ht hu⟩
  · obtain ⟨t, r, left, ht⟩ := sound hc first
    exact ⟨t, r, left, .factor ht⟩

theorem sound_term {factor : Cursor → Parsed Expr} (sound : Sound .factor n factor) :
    Sound .term n (term factor) := by
  intro c s hc clean
  have operand := sound_power sound
  refine chain_keeps (P := Derives .term n s) ?_ clean fun first => ?_
  · intro d s' t link hd found clean ht
    obtain ⟨s', ⟨rfl, rfl⟩ | ⟨rfl, rfl⟩ | ⟨x, rfl, hx, rfl⟩⟩ := termLink?_cases hd found
    · obtain ⟨u, r, right, hu⟩ := operand hd.next clean
      exact ⟨_, r, right.map _, .multiply ht hu⟩
    · obtain ⟨u, r, right, hu⟩ := operand hd.next clean
      exact ⟨_, r, right.map _, .divide ht hu⟩
    · obtain ⟨u, r, right, hu⟩ := operand hd clean
      exact ⟨.operation .multiply u, r, ⟨congrArg _ right.value, clean, right.after⟩,
        .adjacent ht ((startsOperand_iff x).1 hx) hu⟩
  · obtain ⟨t, r, left, ht⟩ := operand hc first
    exact ⟨t, r, left, .power ht⟩

theorem sound_expression {factor : Cursor → Parsed Expr} (sound : Sound .factor n factor) :
    Sound .expression n (expression factor) := by
  intro c s hc clean
  have operand := sound_term sound
  refine chain_keeps (P := Derives .expression n s) ?_ clean fun first => ?_
  · intro d s' t link hd found clean ht
    obtain ⟨s', ⟨rfl, rfl⟩ | ⟨rfl, rfl⟩⟩ := sumLink?_cases hd found
    · obtain ⟨u, r, right, hu⟩ := operand hd.next clean
      exact ⟨_, r, right.map _, .add ht hu⟩
    · obtain ⟨u, r, right, hu⟩ := operand hd.next clean
      exact ⟨_, r, right.map _, .subtract ht hu⟩
  · obtain ⟨t, r, left, ht⟩ := operand hc first
    exact ⟨t, r, left, .term ht⟩

/-! ## Factors -/

section Factors
variable {c : Cursor} {s : List Char}

theorem sound_number {x : Char} (hc : c.At (x :: s)) (hx : x.isDigit)
    (clean : (number c).issues = []) :
    ∃ t r, (number c).Reads t r ∧ Derives .factor (n + 1) (x :: s) t r := by
  obtain ⟨w, r, cut, word, stop⟩ := exists_word (p := isLiteralChar) (x :: s)
  rw [cut] at hc
  simp only [number, hc.1, takeWhile_dropWhile_append word stop] at clean ⊢
  simp only [isLiteralChar_iff] at word stop
  have first : ∃ d ∈ w.head?, d.isDigit := by
    cases w with
    | nil =>
      rw [List.nil_append] at cut
      exact absurd (.inl hx) (stop x (by simp [← cut]))
    | cons d w => exact ⟨d, rfl, by simp_all⟩
  cases h : literalValue? w with
  | none =>
    rw [h] at clean
    exact absurd clean (List.cons_ne_nil _ _)
  | some v =>
    obtain ⟨literal, rfl⟩ := (literalValue?_eq_some_iff first word v).1 h
    exact ⟨_, r, ⟨rfl, rfl, hc.advance⟩, cut ▸ .number literal stop⟩

/-- A group is an expression between parentheses. -/
theorem sound_group {read : Cursor → Parsed Expr} (sound : Sound .expression n read)
    (hc : c.At ('(' :: s)) (clean : (group read c).issues = []) :
    ∃ t r, (group read c).Reads t r ∧ Derives .expression n s t (')' :: r) := by
  have inner_clean : (read (c.advance 1)).issues = [] := by
    simp only [group] at clean
    split at clean
    · exact clean
    · split at clean <;> simp_all
  obtain ⟨t, r, inner, ht⟩ := sound hc.next inner_clean
  by_cases closed : (read (c.advance 1)).after.peek = some ')'
  · obtain ⟨r, rfl⟩ := inner.after.peek_eq_some_iff.1 closed
    rw [group, if_pos closed]
    exact ⟨t, r, ⟨inner.value, inner_clean, inner.after.next⟩, ht⟩
  · simp [group, closed, inner.after.2] at clean

/-- A call is a function with its argument. -/
theorem sound_named {read : Cursor → Parsed Expr} (sound : Sound .expression n read) (hc : c.At s)
    (clean : (named read c).issues = []) :
    ∃ t r, (named read c).Reads t r ∧ Derives .factor (n + 1) s t r := by
  obtain ⟨w, r, rfl, word, stop⟩ := exists_word (p := Text.isLetter) s
  simp only [named, hc.1, takeWhile_dropWhile_append word stop] at clean ⊢
  by_cases opened : (c.advance w.length).peek = some '('
  · obtain ⟨s, rfl⟩ := hc.advance.peek_eq_some_iff.1 opened
    rw [if_pos opened] at clean ⊢
    cases h : NamedFunction.ofName? (String.ofList w) with
    | none =>
      rw [h] at clean
      exact absurd clean (List.cons_ne_nil _ _)
    | some f =>
      rw [h] at clean
      obtain ⟨t, r, argument, ht⟩ := sound_group sound hc.advance clean
      have name : f.name = String.ofList w := by simpa using List.find?_some h
      have call := Derives.call f ht
      rw [name, String.toList_ofList] at call
      exact ⟨_, r, argument.map _, call⟩
  · rw [if_neg opened] at clean
    exact absurd clean (List.cons_ne_nil _ _)

end Factors

/-- Factors that are read without anomalies have derivations. -/
theorem sound_factor : ∀ n, Sound .factor n (factor n)
  | 0 => by
    intro c s hc clean
    simp [factor, hc.2, Parsed.absent] at clean
  | n + 1 => by
    intro c s hc clean
    have sound := sound_factor n
    have argument := sound_expression sound
    generalize hp : factor (n + 1) c = p at clean ⊢
    simp only [factor, hc.1, hc.2, Bool.false_eq_true, if_false] at hp
    split at hp
    · subst hp
      exact absurd clean (List.cons_ne_nil _ _)
    rename_i first others
    split at hp
    · subst first hp
      obtain ⟨t, r, operand, ht⟩ := sound hc.next clean
      exact ⟨_, r, operand.map Expr.negate, .minus ht⟩
    split at hp
    · subst first hp
      obtain ⟨t, r, operand, ht⟩ := sound hc.next clean
      exact ⟨t, r, operand, .plus ht⟩
    split at hp
    · subst hp
      exact sound_number hc ‹_› clean
    split at hp
    · subst first hp
      exact ⟨_, others, ⟨rfl, rfl, hc.next⟩, .var⟩
    split at hp
    · obtain ⟨rfl, alone⟩ := ‹_ ∧ _›
      subst hp
      exact ⟨_, others, ⟨rfl, rfl, hc.next⟩, .euler (no_letter_iff.1 alone)⟩
    split at hp
    · obtain ⟨rfl, hi⟩ := ‹_ ∧ _›
      obtain ⟨r, rfl⟩ := List.head?_eq_some_iff.1 hi
      subst hp
      exact ⟨_, r, ⟨rfl, rfl, hc.advance (w := ['p', 'i'])⟩, .circle⟩
    split at hp
    · subst hp
      exact sound_named argument hc clean
    split at hp
    · subst first hp
      obtain ⟨t, r, inner, ht⟩ := sound_group argument hc clean
      exact ⟨t, r, inner, .group ht⟩
    · subst hp
      exact absurd clean (List.cons_ne_nil _ _)

end Curves.Parser
