import Curves.Proofs.Expr.Grammar

/-!
# The values of literals

A word of digits and separators that begins with a digit has a value exactly if it is a literal,
and the value is the double nearest to its decimal. The word is cut at its first separator; what
follows the digits behind that one is empty or begins with another separator, on which reading the
number fails.
-/

namespace Curves.Grammar
open Number

/-! ## Reading the number -/

theorem toLower_of_isDigit {c : Char} (hc : c.isDigit) : c.toLower = c := by
  refine dif_neg fun upper => ?_
  simp only [Char.isDigit] at hc
  grind

/-- A word that begins with a digit has no sign and is no name of a special value. -/
theorem read?_of_digit_first {w : List Char} (first : ∃ c ∈ w.head?, c.isDigit) :
    read? w = (readDecimal? w).map Decimal.toFloat := by
  obtain ⟨c, hhead, hc⟩ := first
  obtain ⟨rest, rfl⟩ := List.head?_eq_some_iff.1 hhead
  have unsigned : splitSign (c :: rest) = (false, c :: rest) := by
    unfold splitSign
    split <;> simp_all
  have no_name (s : String) (h : String.ofList ((c :: rest).map Char.toLower) = s) :
      s.toList.head?.any Char.isDigit := by
    subst h
    simp [toLower_of_isDigit hc, hc]
  simp only [read?, unsigned, Bool.false_eq_true, if_false, Option.map_id']
  split
  · exact absurd (no_name _ ‹_›) (by decide)
  · exact absurd (no_name _ ‹_›) (by decide)
  · exact absurd (no_name _ ‹_›) (by decide)
  · rfl

theorem takeWhile_dropWhile_append {p : Char → Bool} {w r : List Char} (h : ∀ c ∈ w, p c)
    (stop : ∀ c ∈ r.head?, ¬ p c) :
    (w ++ r).takeWhile p = w ∧ (w ++ r).dropWhile p = r := by
  rw [List.takeWhile_append_of_pos h, List.dropWhile_append_of_pos h]
  cases r <;> simp_all

/-- Digits are read as the number that they denote. -/
theorem readDecimal?_digits {w : List Char} (hne : w ≠ []) (hw : ∀ c ∈ w, c.isDigit) :
    readDecimal? w = some ⟨digitsValue w, 0⟩ := by
  have cut := takeWhile_dropWhile_append (r := []) hw (by simp)
  rw [List.append_nil] at cut
  simp [readDecimal?, cut, readExponent?, hne]

/-- Digits around a point are read with decimals. -/
theorem readDecimal?_point {whole fraction rest : List Char} (hne : whole ≠ [])
    (hw : ∀ c ∈ whole, c.isDigit) (hf : ∀ c ∈ fraction, c.isDigit)
    (hrest : ∀ c ∈ rest.head?, c = '.') :
    readDecimal? (whole ++ '.' :: (fraction ++ rest)) =
      if rest = [] then some ⟨digitsValue (whole ++ fraction), -fraction.length⟩ else none := by
  have atPoint := takeWhile_dropWhile_append (r := '.' :: (fraction ++ rest)) hw (by simp)
  have atEnd := takeWhile_dropWhile_append (r := rest) hf
    (fun c hc => by rw [hrest c hc]; decide)
  simp only [readDecimal?, atPoint, atEnd]
  cases rest with
  | nil => simp [readExponent?, hne]
  | cons c rest =>
    obtain rfl : c = '.' := by simpa using hrest
    simp [readExponent?, hne]

/-! ## Words of digits and separators -/

theorem isDigit_eq_false {c : Char} (hc : isSeparator c) : c.isDigit = false := by
  simp only [isSeparator, Bool.or_eq_true, beq_iff_eq] at hc
  rcases hc with rfl | rfl <;> decide

theorem isSeparator_eq_false {c : Char} (hc : c.isDigit) : isSeparator c = false :=
  Bool.eq_false_iff.2 fun h => by simp [isDigit_eq_false h] at hc

theorem isLiteralChar_iff (c : Char) : Parser.isLiteralChar c ↔ c.isDigit ∨ isSeparator c := by
  simp [Parser.isLiteralChar, isSeparator, or_assoc]

/-- A word of digits and separators consists of digits only, or it is cut by its first separator
and the place where the digits behind it end. -/
theorem digits_or_cut {w : List Char} (h : ∀ c ∈ w, c.isDigit ∨ isSeparator c) :
    (∀ c ∈ w, c.isDigit) ∨ ∃ whole point fraction rest,
      w = whole ++ point :: (fraction ++ rest) ∧ (∀ c ∈ whole, c.isDigit) ∧
        isSeparator point ∧ (∀ c ∈ fraction, c.isDigit) ∧ ∀ c ∈ rest.head?, isSeparator c := by
  induction w with
  | nil => simp
  | cons c w ih =>
    obtain hc | hc := h c (by simp)
    · obtain digits | ⟨whole, point, fraction, rest, rfl, hw, cut⟩ :=
        ih fun d hd => h d (List.mem_cons_of_mem c hd)
      · exact .inl (by simpa using ⟨hc, digits⟩)
      · exact .inr ⟨c :: whole, point, fraction, rest, rfl, by simpa using ⟨hc, hw⟩, cut⟩
    · refine .inr ⟨[], c, w.takeWhile Char.isDigit, w.dropWhile Char.isDigit, ?_, by simp, hc,
        ?_, ?_⟩
      · simp
      · exact List.all_eq_true.1 List.all_takeWhile
      · intro d hd
        have stop := List.head?_dropWhile_not Char.isDigit w
        rw [Option.mem_def.1 hd] at stop
        have := h d (List.mem_cons_of_mem c
          (List.dropWhile_sublist _ |>.subset (List.mem_of_mem_head? hd)))
        simp_all

/-- Numbers are read with a point for the comma. -/
def pointed (c : Char) : Char := if c = ',' then '.' else c

theorem pointed_of_isSeparator {c : Char} (hc : isSeparator c) : pointed c = '.' := by
  simp only [isSeparator, Bool.or_eq_true, beq_iff_eq] at hc
  rcases hc with rfl | rfl <;> decide

theorem map_pointed_of_digits {w : List Char} (hw : ∀ c ∈ w, c.isDigit) : w.map pointed = w := by
  have unchanged : ∀ c ∈ w, pointed c = c := by
    intro c hc
    refine if_neg ?_
    rintro rfl
    exact absurd (hw _ hc) (by decide)
  rw [List.map_congr_left unchanged, List.map_id']

/-! ## Values -/

theorem digit_first_append {whole : List Char} (hne : whole ≠ [])
    (hw : ∀ c ∈ whole, c.isDigit) (rest : List Char) :
    ∃ c ∈ (whole ++ rest).head?, c.isDigit := by
  obtain ⟨c, whole, rfl⟩ := List.exists_cons_of_ne_nil hne
  exact ⟨c, rfl, hw c (by simp)⟩

/-- Digits are a literal without decimals. -/
theorem literalValue?_digits {w : List Char} (hne : w ≠ []) (hw : ∀ c ∈ w, c.isDigit) :
    Parser.literalValue? w = some (literalDecimal w).toFloat := by
  have first := digit_first_append hne hw []
  have cut := takeWhile_dropWhile_append (r := []) hw (by simp)
  rw [List.append_nil] at first cut
  change read? (w.map pointed) = _
  rw [map_pointed_of_digits hw, read?_of_digit_first first, readDecimal?_digits hne hw]
  simp [literalDecimal, List.filter_eq_self.2 hw, cut]

theorem literalDecimal_cut {whole fraction : List Char} {point : Char}
    (hw : ∀ c ∈ whole, c.isDigit) (hp : isSeparator point) (hf : ∀ c ∈ fraction, c.isDigit) :
    literalDecimal (whole ++ point :: fraction) =
      ⟨digitsValue (whole ++ fraction), -fraction.length⟩ := by
  have stop : ¬ point.isDigit := by simp [isDigit_eq_false hp]
  rw [literalDecimal, List.filter_append, List.filter_eq_self.2 hw, List.filter_cons_of_neg stop,
    List.filter_eq_self.2 hf, List.dropWhile_append_of_pos hw, List.dropWhile_cons_of_neg stop,
    List.tail_cons]

/-- What follows the separator of a literal are its decimals. -/
theorem literalValue?_cut {whole fraction rest : List Char} {point : Char} (hne : whole ≠ [])
    (hw : ∀ c ∈ whole, c.isDigit) (hp : isSeparator point) (hf : ∀ c ∈ fraction, c.isDigit)
    (hrest : ∀ c ∈ rest.head?, isSeparator c) :
    Parser.literalValue? (whole ++ point :: (fraction ++ rest)) =
      if rest = [] then some (literalDecimal (whole ++ point :: fraction)).toFloat else none := by
  have pointed_rest : ∀ d ∈ (rest.map pointed).head?, d = '.' := by
    intro d hd
    obtain ⟨e, he, rfl⟩ : ∃ e ∈ rest.head?, pointed e = d := by simpa using hd
    exact pointed_of_isSeparator (hrest e he)
  have image : (whole ++ point :: (fraction ++ rest)).map pointed =
      whole ++ '.' :: (fraction ++ rest.map pointed) := by
    rw [List.map_append, List.map_cons, List.map_append, map_pointed_of_digits hw,
      map_pointed_of_digits hf, pointed_of_isSeparator hp]
  change read? (List.map pointed _) = _
  rw [image, read?_of_digit_first (digit_first_append hne hw _),
    readDecimal?_point hne hw hf pointed_rest, literalDecimal_cut hw hp hf]
  split <;> simp_all

/-- A word of digits and separators that begins with a digit has a value exactly if it is a
literal. -/
theorem literalValue?_eq_some_iff {w : List Char} (first : ∃ c ∈ w.head?, c.isDigit)
    (h : ∀ c ∈ w, c.isDigit ∨ isSeparator c) (v : Float) :
    Parser.literalValue? w = some v ↔ IsLiteral w ∧ (literalDecimal w).toFloat = v := by
  have hne : w ≠ [] := by
    obtain ⟨c, hc, _⟩ := first
    exact List.ne_nil_of_mem (List.mem_of_mem_head? hc)
  have no_separator {xs : List Char} (hx : ∀ c ∈ xs, c.isDigit) : xs.countP isSeparator = 0 :=
    List.countP_eq_zero.2 fun c hc => by simp [isSeparator_eq_false (hx c hc)]
  obtain hw | ⟨whole, point, fraction, rest, rfl, hw, hp, hf, hrest⟩ := digits_or_cut h
  · have literal : IsLiteral w := ⟨first, h, by simp [no_separator hw]⟩
    simp [literalValue?_digits hne hw, literal]
  · have whole_ne : whole ≠ [] := by
      rintro rfl
      obtain ⟨c, hc, hd⟩ := first
      obtain rfl : point = c := by simpa using hc
      simp [isSeparator_eq_false hd] at hp
    rw [literalValue?_cut whole_ne hw hp hf hrest]
    cases rest with
    | nil =>
      have literal : IsLiteral (whole ++ point :: (fraction ++ [])) :=
        ⟨first, h, by simp [no_separator hw, no_separator hf, hp]⟩
      rw [List.append_nil] at literal
      simp [literal]
    | cons c rest =>
      have second : isSeparator c := hrest c rfl
      have not_literal : ¬ IsLiteral (whole ++ point :: (fraction ++ c :: rest)) := by
        intro literal
        have := literal.one_separator
        simp [no_separator hw, no_separator hf, hp, second] at this
      simp [not_literal]

/-- A word of digits and separators that begins with a digit has no value exactly if there are two
separators or more in it. -/
theorem literalValue?_eq_none_iff {w : List Char} (first : ∃ c ∈ w.head?, c.isDigit)
    (word : ∀ c ∈ w, c.isDigit ∨ isSeparator c) :
    Parser.literalValue? w = none ↔ 2 ≤ w.countP isSeparator := by
  rw [Option.eq_none_iff_forall_ne_some]
  constructor
  · intro none
    refine Nat.not_lt.1 fun few => none (literalDecimal w).toFloat ?_
    exact (literalValue?_eq_some_iff first word _).2 ⟨⟨first, word, by omega⟩, rfl⟩
  · intro two v some
    have one := ((literalValue?_eq_some_iff first word v).1 some).1.one_separator
    omega

end Curves.Grammar
