import Curves.Proofs.Text.Normalization

/-!
# Lowercase text

Whether a sigma ends a word shows from the word alone. A character that is neither a cased letter
nor ignored by casing divides words, so a text may be cut there and lowercased piece by piece. All
blanks divide words, and so do signs. What is lowercase stays as it is.

Main statements:

* `lower_append_divider`: a text is lowercased piece by piece;
* `normalizeChars_eq_filter`: trimming makes no difference to the normalized form;
* `normalizeChars_append_divider`: a text is normalized piece by piece;
* `normalizeChars_normalizeChars`: a normalized text is its own normalized form.
-/

namespace Curves

namespace Text

/-! ## Dividers -/

def isDivider (c : Char) : Bool := !casedLetters.has c && !caseIgnorable.has c

/-- Whether no character is in both sets. -/
def Ranges.isApart (ranges others : Ranges) : Bool :=
  ranges.all fun range => others.all fun other =>
    decide (range.2 < other.1) || decide (other.2 < range.1)

section Divider
variable {b c : Char} {before v w text : List Char}

theorem Ranges.has_eq_false_of_isApart {ranges others : Ranges} (apart : ranges.isApart others)
    (h : ranges.has c) : others.has c = false := by
  simp only [isApart, List.all_eq_true, Bool.or_eq_true, decide_eq_true_eq] at apart
  simp only [has, List.any_eq_true, Bool.and_eq_true, decide_eq_true_eq] at h
  obtain ⟨range, hrange, inside⟩ := h
  simp only [has, List.any_eq_false, Bool.and_eq_true, decide_eq_true_eq]
  intro other hother
  have := apart range hrange other hother
  omega

theorem isDivider_of_isBlank (blank : isBlank c) : isDivider c := by
  have uncased : casedLetters.has c = false :=
    Ranges.has_eq_false_of_isApart (by decide +kernel) blank
  have seen : caseIgnorable.has c = false :=
    Ranges.has_eq_false_of_isApart (by decide +kernel) blank
  simp [isDivider, uncased, seen]

/-- No word goes on beyond a divider. -/
theorem startsCased_append_divider (divider : isDivider b) :
    startsCased (v ++ b :: w) = startsCased v := by
  simp only [isDivider, Bool.and_eq_true, Bool.not_eq_true'] at divider
  unfold startsCased
  rw [List.dropWhile_append]
  cases v.dropWhile caseIgnorable.has with
  | nil => simp [divider]
  | cons c rest => rfl

theorem lowerAfter_divider_before (divider : isDivider b) :
    lowerAfter (v ++ b :: before) w = lowerAfter v w := by
  induction w generalizing v with
  | nil => rfl
  | cons c rest ih =>
    rw [lowerAfter, lowerAfter, startsCased_append_divider divider, ← List.cons_append, ih]

/-- Lowercase can be computed on either side of a character that divides words. -/
theorem lowerAfter_append_divider (divider : isDivider b) :
    lowerAfter before (v ++ b :: w) = lowerAfter before v ++ lowerChar b :: lower w := by
  induction v generalizing before with
  | nil =>
    have alone : b ≠ 'Σ' ∧ b ≠ 'İ' := by
      constructor <;> rintro rfl <;> exact absurd divider (by decide)
    have behind : lowerAfter ([] ++ b :: before) w = lowerAfter [] w :=
      lowerAfter_divider_before divider
    simp only [List.nil_append, lowerAfter, alone.1, alone.2, if_false]
    exact congrArg (lowerChar b :: ·) behind
  | cons c v ih =>
    rw [List.cons_append, lowerAfter, lowerAfter, startsCased_append_divider divider, ih,
      List.append_assoc]

/-- A text is lowercased piece by piece. -/
theorem lower_append_divider (divider : isDivider b) :
    lower (v ++ b :: w) = lower v ++ lowerChar b :: lower w :=
  lowerAfter_append_divider divider

theorem filter_lower_append_blank (blank : isBlank b) : (lower (v ++ b :: w)).filter (!isBlank ·) =
    (lower v).filter (!isBlank ·) ++ (lower w).filter (!isBlank ·) := by
  rw [lower_append_divider (isDivider_of_isBlank blank), List.filter_append,
    List.filter_cons_of_neg]
  simp [isBlank_lowerChar, blank]

theorem filter_lower_dropWhile (text : List Char) :
    (lower (text.dropWhile isBlank)).filter (!isBlank ·) = (lower text).filter (!isBlank ·) := by
  induction text with
  | nil => rfl
  | cons c rest ih =>
    rw [List.dropWhile_cons]
    split
    · rw [ih, ← List.nil_append (c :: rest), filter_lower_append_blank ‹_›]
      rfl
    · rfl

theorem filter_lower_reverse_dropWhile (text : List Char) :
    (lower (text.dropWhile isBlank).reverse).filter (!isBlank ·) =
      (lower text.reverse).filter (!isBlank ·) := by
  induction text with
  | nil => rfl
  | cons c rest ih =>
    rw [List.dropWhile_cons]
    split
    · rw [ih, List.reverse_cons, filter_lower_append_blank ‹_›]
      exact (List.append_nil _).symm
    · rfl

end Divider

/-! ## Small letters -/

def CaseRow.smallFirst (row : CaseRow) : Nat := (row.first + row.shift).toNat

def CaseRow.smallLast (row : CaseRow) : Nat := (row.last + row.shift).toNat

/-- The small letters of the row are no capitals. -/
def CaseRow.isFinal (row : CaseRow) : Bool :=
  Nat.blt 90 row.smallFirst && (Nat.blt row.smallLast 0x130 || Nat.blt 0x130 row.smallFirst) &&
    capitals.all fun other =>
      Nat.blt row.smallLast other.first || Nat.blt other.last row.smallFirst ||
        -- the two kinds of letters take turns
        ((row.step == 2 || row.first == row.last) && other.step == 2 &&
          (row.smallFirst + other.first) % 2 == 1)

theorem isFinal_of_mem_capitals : ∀ row ∈ capitals, row.isFinal :=
  List.all_eq_true.1 (by decide +kernel)

theorem CaseRow.not_has_small {row other : CaseRow} {c d : Char} (final : row.isFinal)
    (mem : other ∈ capitals) (capital : row.has c) (small : (d.toNat : Int) = c.toNat + row.shift) :
    other.has d = false := by
  simp only [isFinal, Bool.and_eq_true, List.all_eq_true] at final
  obtain ⟨⟨low, -⟩, all⟩ := final
  have apart := all other mem
  simp only [Bool.or_eq_true, Bool.and_eq_true, Nat.blt_eq, beq_iff_eq, smallFirst, smallLast]
    at low apart
  simp only [has, Bool.and_eq_true, decide_eq_true_eq, beq_iff_eq] at capital
  simp only [has, Bool.and_eq_false_iff, decide_eq_false_iff_not, beq_eq_false_iff_ne]
  obtain ⟨⟨lower, upper⟩, every⟩ := capital
  rcases apart with (before | behind) | ⟨⟨step | single, step'⟩, odd⟩
  · omega
  · omega
  · rw [step] at every
    rw [step']
    omega
  · rw [step']
    omega

theorem lowerChar_of_not_capital {c : Char} (ascii : ¬ (65 ≤ c.toNat ∧ c.toNat ≤ 90))
    (others : 0x80 ≤ c.toNat → ∀ row ∈ capitals, row.has c = false) : lowerChar c = c := by
  unfold lowerChar
  split
  · exact toLower_of_not_capital ascii
  · have none := others (Nat.not_lt.1 ‹_›)
    rw [List.find?_eq_none.2 fun row mem => by simp [none row mem]]

/-- A character is lowercase, or a capital of ASCII or of a row. -/
theorem lowerChar_cases (c : Char) : lowerChar c = c ∨
    (65 ≤ c.toNat ∧ c.toNat ≤ 90 ∧ lowerChar c = c.toLower) ∨
      ∃ row ∈ capitals, row.has c ∧ lowerChar c = Char.ofNat (c.toNat + row.shift).toNat := by
  unfold lowerChar
  split
  · by_cases capital : 65 ≤ c.toNat ∧ c.toNat ≤ 90
    · exact .inr (.inl ⟨capital.1, capital.2, rfl⟩)
    · exact .inl (toLower_of_not_capital capital)
  split
  · rename_i row found
    have capital : row.has c := by simpa using List.find?_some found
    exact .inr (.inr ⟨row, List.mem_of_find?_eq_some found, capital, rfl⟩)
  · exact .inl rfl

/-- Lowercasing leaves no capitals, not even the dotted one unless it was there. -/
theorem lowerChar_small (c : Char) :
    lowerChar (lowerChar c) = lowerChar c ∧ (c ≠ 'İ' → lowerChar c ≠ 'İ') := by
  have undotted {d : Char} (h : d.toNat ≠ 0x130) : d ≠ 'İ' := by
    rintro rfl
    exact h rfl
  rcases lowerChar_cases c with same | ⟨lower, upper, ascii⟩ | ⟨row, mem, capital, other⟩
  · exact ⟨by rw [same, same], by rw [same]; exact id⟩
  · have shifted := toNat_toLower ⟨lower, upper⟩
    rw [ascii]
    exact ⟨lowerChar_of_not_capital (by omega) (by omega), fun _ => undotted (by omega)⟩
  · have final := isFinal_of_mem_capitals row mem
    have shifted := toNat_ofNat (c.toNat + row.shift).toNat
    have bounds := final
    simp only [CaseRow.isFinal, CaseRow.smallFirst, CaseRow.smallLast, Bool.and_eq_true,
      Bool.or_eq_true, Nat.blt_eq] at bounds
    have inside := capital
    simp only [CaseRow.has, Bool.and_eq_true, decide_eq_true_eq] at inside
    rw [other]
    generalize Char.ofNat (c.toNat + row.shift).toNat = d at *
    split at shifted
    · have small : (d.toNat : Int) = c.toNat + row.shift := by omega
      exact ⟨lowerChar_of_not_capital (by omega) fun _ _ mem =>
          CaseRow.not_has_small final mem capital small,
        fun _ => undotted (by omega)⟩
    · exact ⟨lowerChar_of_not_capital (by omega) (by omega), fun _ => undotted (by omega)⟩

/-- Lowercase text stays as it is. -/
theorem lowerChar_of_mem_lowerAfter {before text : List Char} {d : Char}
    (h : d ∈ lowerAfter before text) : lowerChar d = d ∧ d ≠ 'İ' := by
  induction text generalizing before with
  | nil => cases h
  | cons c rest ih =>
    rcases List.mem_append.1 h with here | later
    · split at here
      · rw [List.mem_singleton.1 here]
        split <;> decide
      split at here
      · have marks : d = 'i' ∨ d = '\u0307' := by simpa using here
        rcases marks with rfl | rfl <;> decide
      · obtain rfl := List.mem_singleton.1 here
        obtain ⟨small, undotted⟩ := lowerChar_small c
        exact ⟨small, undotted ‹_›⟩
    · exact ih later

/-- Nothing else becomes a sign. -/
theorem lowerChar_eq_sign_iff {c sign : Char} (hsign : sign = '+' ∨ sign = '-') :
    lowerChar c = sign ↔ c = sign := by
  have code : sign.toNat = 43 ∨ sign.toNat = 45 := by
    rcases hsign with rfl | rfl <;> decide
  constructor
  · rintro rfl
    rcases lowerChar_cases c with same | ⟨lower, upper, ascii⟩ | ⟨row, mem, capital, other⟩
    · exact same.symm
    · rw [ascii, toNat_toLower ⟨lower, upper⟩] at code
      omega
    · have final := isFinal_of_mem_capitals row mem
      simp only [CaseRow.isFinal, CaseRow.smallFirst, Bool.and_eq_true, Nat.blt_eq] at final
      simp only [CaseRow.has, Bool.and_eq_true, decide_eq_true_eq] at capital
      rw [other, toNat_ofNat] at code
      split at code <;> omega
  · rintro rfl
    rcases hsign with rfl | rfl <;> decide

end Text

open Text

section Normalized
variable {b : Char} {text more : List Char}

/-- Normalization is lowercase without blanks. -/
theorem normalizeChars_eq_filter (text : List Char) :
    normalizeChars text = (lower text).filter (!isBlank ·) := by
  rw [normalizeChars, trim, filter_lower_reverse_dropWhile, List.reverse_reverse,
    filter_lower_dropWhile]

/-- A text is normalized piece by piece. -/
theorem normalizeChars_append_divider (divider : isDivider b) (ink : isBlank b = false)
    (small : lowerChar b = b) :
    normalizeChars (text ++ b :: more) = normalizeChars text ++ b :: normalizeChars more := by
  simp only [normalizeChars_eq_filter, lower_append_divider divider, List.filter_append, small]
  rw [List.filter_cons_of_pos (by simp [ink])]

/-- Blanks at the beginning make no difference. -/
theorem normalizeChars_dropWhile (text : List Char) :
    normalizeChars (text.dropWhile isBlank) = normalizeChars text := by
  rw [normalizeChars_eq_filter, normalizeChars_eq_filter, filter_lower_dropWhile]

/-- A normalized text begins with a sign if the text itself does. -/
theorem exists_normalizeChars_cons {c : Char} (ink : isBlank c = false) (text : List Char) :
    ∃ d rest, normalizeChars (c :: text) = d :: rest ∧
      ∀ sign : Char, sign = '+' ∨ sign = '-' → (d = sign ↔ c = sign) := by
  obtain ⟨d, rest, first, ink', same⟩ : ∃ d rest, lower (c :: text) = d :: rest ∧
      isBlank d = false ∧ ∀ sign : Char, sign = '+' ∨ sign = '-' → (d = sign ↔ c = sign) := by
    have other {d : Char} (letter : isDivider d = false) {sign : Char}
        (hsign : sign = '+' ∨ sign = '-') : d ≠ sign := by
      rintro rfl
      rcases hsign with rfl | rfl <;> exact absurd letter (by decide +kernel)
    by_cases sigma : c = 'Σ'
    · subst c
      refine ⟨_, _, rfl, ?_, fun sign hsign => iff_of_false (other ?_ hsign) (other ?_ hsign)⟩
      · split <;> decide
      · split <;> decide +kernel
      · decide +kernel
    by_cases dotted : c = 'İ'
    · subst c
      exact ⟨'i', _, rfl, by decide, fun sign hsign =>
        iff_of_false (other (by decide +kernel) hsign) (other (by decide +kernel) hsign)⟩
    · refine ⟨lowerChar c, lowerAfter [c] text, ?_, by rw [isBlank_lowerChar, ink],
        fun sign hsign => lowerChar_eq_sign_iff hsign⟩
      simp [lower, lowerAfter, sigma, dotted]
  refine ⟨d, rest.filter (!isBlank ·), ?_, same⟩
  rw [normalizeChars_eq_filter, first, List.filter_cons_of_pos (by simp [ink'])]

/-- Normalized characters are neither blank nor capital. -/
theorem isSettled_of_mem_normalizeChars {c : Char} (h : c ∈ normalizeChars text) :
    isSettled c := by
  obtain ⟨mem, ink⟩ := List.mem_filter.1 h
  obtain ⟨small, undotted⟩ := lowerChar_of_mem_lowerAfter mem
  simp [isSettled, small, undotted, isBlank_of_mem_normalizeChars h]

/-- A normalized text is its own normalized form. -/
theorem normalizeChars_normalizeChars (text : List Char) :
    normalizeChars (normalizeChars text) = normalizeChars text :=
  normalizeChars_of_isSettled fun _ => isSettled_of_mem_normalizeChars

end Normalized

end Curves
