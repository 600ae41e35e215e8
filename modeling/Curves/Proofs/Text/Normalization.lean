import Curves.Expr.Source

/-!
# Normalization character by character

Graphic characters of ASCII are no blanks. Only two capitals are lowercased together with what
stands around them or to more than one character. A text without them is normalized character by
character.

Main statements:

* `isBlank_lowerChar`: lowercasing neither makes nor takes away blanks;
* `normalizeChars_eq`: the normalized form of a text without the two capitals.
-/

namespace Curves

namespace Text

/-! ## Graphic characters -/

def isGraphic (c : Char) : Bool := decide (0x21 ≤ c.toNat) && decide (c.toNat ≤ 0x7E)

theorem isGraphic_of_isDigit {c : Char} (h : c.isDigit) : isGraphic c := by
  simp only [Char.isDigit, ge_iff_le, Bool.and_eq_true, decide_eq_true_eq, UInt32.le_iff_toNat_le]
    at h
  simp only [isGraphic, Bool.and_eq_true, decide_eq_true_eq, Char.toNat]
  have zero : '0'.val.toNat = 48 := rfl
  have nine : '9'.val.toNat = 57 := rfl
  omega

theorem isBlank_of_isGraphic {c : Char} (h : isGraphic c) : isBlank c = false := by
  simp only [isGraphic, Bool.and_eq_true, decide_eq_true_eq] at h
  simp only [isBlank, blanks, Ranges.has, List.any_cons, List.any_nil, Bool.or_false,
    Bool.or_eq_false_iff, Bool.and_eq_false_iff, decide_eq_false_iff_not]
  omega

/-- Nothing is trimmed from a text without blanks. -/
theorem trim_of_graphic {text : List Char} (graphic : ∀ c ∈ text, isGraphic c) :
    trim text = text := by
  have kept {w : List Char} (hw : ∀ c ∈ w, isGraphic c) : w.dropWhile isBlank = w := by
    cases w with
    | nil => rfl
    | cons c rest =>
      rw [List.dropWhile_cons, isBlank_of_isGraphic (hw c List.mem_cons_self), if_neg nofun]
  rw [trim, kept graphic, kept fun c hc => graphic c (List.mem_reverse.1 hc), List.reverse_reverse]

/-! ## Blanks and lowercase -/

/-- Neither the capitals of the row nor their small letters are blank. -/
def CaseRow.isInk (row : CaseRow) : Bool :=
  blanks.all fun range =>
    (decide (row.last < range.1) || decide (range.2 < row.first)) &&
      (decide (row.last + row.shift < range.1) || decide (range.2 < row.first + row.shift))

theorem isInk_of_mem_capitals : ∀ row ∈ capitals, row.isInk :=
  List.all_eq_true.1 (by decide)

theorem pos_of_mem_blanks : ∀ range ∈ blanks, 0 < range.1 := by decide

/-- A character is not blank if it is outside all ranges. -/
theorem isBlank_eq_false_iff (c : Char) :
    isBlank c = false ↔ ∀ range ∈ blanks, c.toNat < range.1 ∨ range.2 < c.toNat := by
  simp only [isBlank, Ranges.has, List.any_eq_false, Bool.and_eq_true, decide_eq_true_eq]
  exact forall₂_congr fun range _ => by omega

theorem toNat_ofNat (n : Nat) : (Char.ofNat n).toNat = if n.isValidChar then n else 0 := by
  by_cases valid : n.isValidChar
  · rw [Char.ofNat, dif_pos valid, if_pos valid]
    rfl
  · rw [Char.ofNat, dif_neg valid, if_neg valid]
    rfl

/-- The small letters of ASCII come 32 characters after the capitals. -/
theorem toNat_toLower {c : Char} (capital : 65 ≤ c.toNat ∧ c.toNat ≤ 90) :
    c.toLower.toNat = c.toNat + 32 := by
  have range : c.val ≥ 'A'.val ∧ c.val ≤ 'Z'.val := capital
  have small : c.toLower = ⟨c.val + 32, _⟩ := dif_pos range
  have shifted : c.toLower.val = c.val + 32 := congrArg Char.val small
  simp only [Char.toNat] at capital ⊢
  rw [shifted, UInt32.toNat_add]
  exact Nat.mod_eq_of_lt (show c.val.toNat + 32 < _ by omega)

theorem toLower_of_not_capital {c : Char} (h : ¬ (65 ≤ c.toNat ∧ c.toNat ≤ 90)) : c.toLower = c :=
  dif_neg fun capital => h capital

/-- The letters of ASCII are graphic in both cases. -/
theorem isBlank_toLower (c : Char) : isBlank c.toLower = isBlank c := by
  by_cases capital : 65 ≤ c.toNat ∧ c.toNat ≤ 90
  · have graphic : isGraphic c := by
      simp only [isGraphic, Bool.and_eq_true, decide_eq_true_eq]
      omega
    rw [isBlank_of_isGraphic graphic, isBlank_of_isGraphic]
    simp only [isGraphic, Bool.and_eq_true, decide_eq_true_eq, toNat_toLower capital]
    omega
  · rw [toLower_of_not_capital capital]

/-- Lowercasing leaves blanks as they are and makes no others. -/
theorem isBlank_lowerChar (c : Char) : isBlank (lowerChar c) = isBlank c := by
  unfold lowerChar
  split
  · exact isBlank_toLower c
  split
  · rename_i row found
    have ink := isInk_of_mem_capitals row (List.mem_of_find?_eq_some found)
    have inside := List.find?_some found
    simp only [CaseRow.isInk, List.all_eq_true, Bool.and_eq_true, Bool.or_eq_true,
      decide_eq_true_eq] at ink
    simp only [CaseRow.has, Bool.and_eq_true, decide_eq_true_eq] at inside
    have capital : isBlank c = false := by
      refine (isBlank_eq_false_iff c).2 fun range hrange => ?_
      have := ink range hrange
      omega
    have small : isBlank (Char.ofNat (c.toNat + row.shift).toNat) = false := by
      refine (isBlank_eq_false_iff _).2 fun range hrange => ?_
      have := ink range hrange
      have := pos_of_mem_blanks range hrange
      rw [toNat_ofNat]
      split <;> omega
    rw [capital, small]
  · rfl

/-! ## Texts that are lowercased character by character -/

/-- Neither of the capitals that are not lowercased by themselves to one character. -/
def IsSimple (text : List Char) : Prop := ∀ c ∈ text, c ≠ 'Σ' ∧ c ≠ 'İ'

/-- Characters that are neither blank nor lowercased to anything else. -/
def isSettled (c : Char) : Bool := !isBlank c && lowerChar c == c && c != 'İ'

/-- Without the two special capitals each character is lowercased by itself. -/
theorem lowerAfter_of_isSimple {text : List Char} (simple : IsSimple text) (before : List Char) :
    lowerAfter before text = text.map lowerChar := by
  induction text generalizing before with
  | nil => rfl
  | cons c rest ih =>
    obtain ⟨⟨sigma, dotted⟩, others⟩ := List.forall_mem_cons.1 simple
    simp [lowerAfter, sigma, dotted, ih others]

theorem filter_dropWhile_isBlank (text : List Char) :
    (text.dropWhile isBlank).filter (!isBlank ·) = text.filter (!isBlank ·) := by
  induction text with
  | nil => rfl
  | cons c rest ih =>
    by_cases blank : isBlank c
    · simp [blank, ih]
    · simp [blank]

/-- Nothing but blanks is trimmed. -/
theorem filter_trim (text : List Char) :
    (trim text).filter (!isBlank ·) = text.filter (!isBlank ·) := by
  rw [trim, List.filter_reverse, filter_dropWhile_isBlank, List.filter_reverse,
    List.reverse_reverse, filter_dropWhile_isBlank]

end Text

open Text

section Normalized
variable {text : List Char}

theorem mem_of_mem_trim {c : Char} (h : c ∈ trim text) : c ∈ text := by
  have inner := (List.dropWhile_sublist _).subset (List.mem_reverse.1 h)
  exact (List.dropWhile_sublist _).subset (List.mem_reverse.1 inner)

/-- Without the two special capitals normalization goes character by character. -/
theorem normalizeChars_eq (simple : IsSimple text) :
    normalizeChars text = (text.filter (!isBlank ·)).map lowerChar := by
  rw [normalizeChars, lower, lowerAfter_of_isSimple fun c hc => simple c (mem_of_mem_trim hc),
    List.filter_map, ← filter_trim]
  simp [Function.comp_def, isBlank_lowerChar]

/-- A text of settled characters is its own normalized form. -/
theorem normalizeChars_of_isSettled (settled : ∀ c ∈ text, isSettled c) :
    normalizeChars text = text := by
  simp only [isSettled, Bool.and_eq_true, Bool.not_eq_true', beq_iff_eq, bne_iff_ne] at settled
  have simple : IsSimple text := by
    refine fun c hc => ⟨?_, (settled c hc).2⟩
    rintro rfl
    exact absurd (settled _ hc).1.2 (by decide)
  rw [normalizeChars_eq simple, List.filter_eq_self.2 fun c hc => by simp [(settled c hc).1.1],
    List.map_congr_left fun c hc => (settled c hc).1.2, List.map_id']

end Normalized

end Curves
