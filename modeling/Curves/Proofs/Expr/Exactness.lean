import Curves.Formula
import Curves.Proofs.Expr.Completeness
import Curves.Proofs.Expr.Soundness

/-!
# Exactness of the parser

The grammar says exactly which sources are expressions and which trees they have. It is not
ambiguous, because the parser has one answer.
-/

namespace Curves
open Grammar

/-- A text is read to its end without finding anything wrong exactly if the grammar derives it. -/
theorem Parser.reads_iff_derives {n : Nat} {c : Cursor} {s : List Char} {t : Expr} (hc : c.At s) :
    (expression (factor n) c).Reads t [] ↔ Derives .expression n s t [] := by
  constructor
  · intro reads
    obtain ⟨u, r, same, h⟩ := sound_expression (sound_factor n) hc reads.no_issues
    obtain rfl : u = t := same.value.symm.trans reads.value
    obtain rfl : r = [] := same.after.1.symm.trans reads.after.1
    exact h
  · intro h
    exact (complete_of_derives h).expression_reads endsExpression_nil hc

/-- No text has two trees. -/
theorem Grammar.Derives.unique {n : Nat} {s : List Char} {t u : Expr}
    (ht : Derives .expression n s t []) (hu : Derives .expression n s u []) : t = u := by
  have start : (Cursor.start s).At s := ⟨rfl, rfl⟩
  have first := (Parser.reads_iff_derives start).2 ht
  have second := (Parser.reads_iff_derives start).2 hu
  exact first.value.symm.trans second.value

/-- The parser reports nothing exactly if the text has an allowed length and is read to its end. -/
theorem parse_clean_iff (s : List Char) (t : Expr) :
    (parse s).diagnostics = [] ∧ (parse s).tree = t ↔
      1 ≤ s.length ∧ s.length ≤ maxLength ∧
        (Parser.expression (Parser.factor maxDepth) (.start s)).Reads t [] := by
  have start : (Cursor.start s).At s := ⟨rfl, rfl⟩
  unfold parse
  split
  · exact iff_of_false (fun h => List.cons_ne_nil _ _ h.1) (by simp_all)
  split
  · exact iff_of_false (fun h => List.cons_ne_nil _ _ h.1) (by omega)
  rename_i hne hlen
  have allowed : 1 ≤ s.length ∧ s.length ≤ maxLength := by
    simp only [List.isEmpty_iff] at hne
    exact ⟨List.length_pos_iff.2 hne, by omega⟩
  simp only [List.append_eq_nil_iff, allowed, true_and]
  constructor
  · rintro ⟨⟨clean, no_trailing⟩, rfl⟩
    obtain ⟨u, r, reads, -⟩ := Parser.sound_expression (Parser.sound_factor maxDepth) start clean
    have done : r = [] := by
      simpa [reads.after.1, reads.after.2] using no_trailing
    exact ⟨rfl, clean, done ▸ reads.after⟩
  · intro reads
    simp [reads.no_issues, reads.after.1, reads.value]

/-- The parser reports nothing exactly if the text has an allowed length and the grammar derives
it. -/
theorem parse_clean_iff_derives (s : List Char) (t : Expr) :
    (parse s).diagnostics = [] ∧ (parse s).tree = t ↔
      1 ≤ s.length ∧ s.length ≤ maxLength ∧ Derives .expression maxDepth s t [] := by
  have start : (Cursor.start s).At s := ⟨rfl, rfl⟩
  rw [parse_clean_iff, Parser.reads_iff_derives start]

/-- Accepting a source means that its parser reports nothing. -/
theorem Expr.ofSource_eq_ok_iff_parse (source : String) (t : Expr) :
    Expr.ofSource source = .ok t ↔ (parse (normalizeChars source.toList)).diagnostics = [] ∧
      (parse (normalizeChars source.toList)).tree = t := by
  simp only [Expr.ofSource]
  split <;> simp_all

/-- The sources of expressions are those that the grammar derives, and their trees those of the
derivations. Sources have at most 4096 characters, and factors nest at most 128 deep. -/
theorem Expr.ofSource_eq_ok_iff (source : String) (t : Expr) :
    Expr.ofSource source = .ok t ↔
      1 ≤ (normalizeChars source.toList).length ∧ (normalizeChars source.toList).length ≤ 4096 ∧
        Derives .expression 128 (normalizeChars source.toList) t [] := by
  have start : (Cursor.start (normalizeChars source.toList)).At _ := ⟨rfl, rfl⟩
  rw [ofSource_eq_ok_iff_parse, parse_clean_iff, Parser.reads_iff_derives start]
  rfl

end Curves
