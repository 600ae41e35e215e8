import Curves.Formula
import Curves.Proofs.Text.Lowercase
import Mathlib.Logic.Relation

/-!
# Blanks inside of sources

Blanks are removed behind the lowercase, and a blank ends a word for it. Of all characters only the
capital sigma is lowercased by its place in a word. So two sources that differ in nothing but blanks
have the same normalized form if each sigma ends a word in both or in neither, and then only.

Main statements:

* `respaced_iff`: texts that differ in blanks have the same other characters;
* `ink_lowerAfter`: lowercase text without its blanks, from the characters and their sigmas;
* `normalizeChars_eq_iff`: normalized forms of texts that differ in blanks;
* `ofSource_respaced_iff`: formulas of sources that differ in blanks.
-/

namespace Curves

namespace Text

def ink (text : List Char) : List Char := text.filter (!isBlank ·)

def InsertsBlank (text other : List Char) : Prop :=
  ∃ v b w, isBlank b ∧ text = v ++ w ∧ other = v ++ b :: w

/-- Blanks are inserted into a text and deleted from it anywhere. -/
def Respaced : List Char → List Char → Prop := Relation.EqvGen InsertsBlank

/-- Whether each capital sigma of a text, which follows the reversed `before`, ends a word. -/
def sigmaEndsAfter (before : List Char) : List Char → List Bool
  | [] => []
  | c :: rest =>
    let later := sigmaEndsAfter (c :: before) rest
    if c = 'Σ' then (startsCased before && !startsCased rest) :: later else later

def sigmaEnds (text : List Char) : List Bool := sigmaEndsAfter [] text

/-- A text in lowercase, if its capital sigmas end words as `ends` says. -/
def lowerWith : (ends : List Bool) → List Char → List Char
  | _, [] => []
  | ends, c :: rest =>
    if c = 'Σ' then (if ends.headD false then 'ς' else 'σ') :: lowerWith ends.tail rest
    else if c = 'İ' then 'i' :: '\u0307' :: lowerWith ends rest
    else lowerChar c :: lowerWith ends rest

section Ink
variable {text other : List Char}

theorem ink_cons (c : Char) (rest : List Char) :
    ink (c :: rest) = if isBlank c then ink rest else c :: ink rest := by
  cases blank : isBlank c <;> simp [ink, blank]

theorem count_ink {c : Char} (visible : isBlank c = false) : (ink text).count c = text.count c := by
  rw [ink, List.count_filter (by simp [visible])]

theorem InsertsBlank.cons (h : InsertsBlank text other) (c : Char) :
    InsertsBlank (c :: text) (c :: other) := by
  obtain ⟨v, b, w, blank, rfl, rfl⟩ := h
  exact ⟨c :: v, b, w, blank, rfl, rfl⟩

theorem Respaced.cons (h : Respaced text other) (c : Char) : Respaced (c :: text) (c :: other) := by
  induction h with
  | rel _ _ inserts => exact .rel _ _ (inserts.cons c)
  | refl => exact .refl _
  | symm _ _ _ ih => exact ih.symm
  | trans _ _ _ _ _ ih ih' => exact ih.trans _ _ _ ih'

/-- All blanks can be inserted. -/
theorem respaced_ink (text : List Char) : Respaced (ink text) text := by
  induction text with
  | nil => exact .refl _
  | cons c rest ih =>
    rw [ink_cons]
    split
    · exact ih.trans _ _ _ (.rel _ _ ⟨[], c, rest, ‹_›, rfl, rfl⟩)
    · exact ih.cons c

/-- Texts that differ in blanks are those whose other characters are the same. -/
theorem respaced_iff : Respaced text other ↔ ink other = ink text := by
  constructor
  · intro h
    induction h with
    | rel _ _ inserts =>
      obtain ⟨v, b, w, blank, rfl, rfl⟩ := inserts
      simp [ink, blank]
    | refl => rfl
    | symm _ _ _ ih => exact ih.symm
    | trans _ _ _ _ _ ih ih' => exact ih'.trans ih
  · intro same
    have deleted : Respaced text (ink text) := (respaced_ink text).symm
    exact deleted.trans _ _ _ (same ▸ respaced_ink other)

end Ink

section Sigmas
variable {before text : List Char} {ends ends' : List Bool}

/-- There is one answer for each capital sigma. -/
theorem length_sigmaEndsAfter (before text : List Char) :
    (sigmaEndsAfter before text).length = text.count 'Σ' := by
  induction text generalizing before with
  | nil => rfl
  | cons c rest ih =>
    by_cases sigma : c = 'Σ'
    · simp [sigmaEndsAfter, sigma, ih]
    · simp [sigmaEndsAfter, sigma, ih]

/-- Lowercase text without its blanks comes from its other characters and from where the words of
its sigmas end. -/
theorem ink_lowerAfter (before text : List Char) :
    ink (lowerAfter before text) = lowerWith (sigmaEndsAfter before text) (ink text) := by
  induction text generalizing before with
  | nil => rfl
  | cons c rest ih =>
    -- Blanks are seen by the test for the end of a word alone, whose outcome `ends` keeps.
    by_cases sigma : c = 'Σ'
    · subst c
      have visible : isBlank 'Σ' = false ∧ isBlank 'ς' = false ∧ isBlank 'σ' = false := by decide
      cases ends : startsCased before && !startsCased rest <;>
        simp [ink_cons, lowerAfter, sigmaEndsAfter, lowerWith, ends, visible, ih]
    by_cases dotted : c = 'İ'
    · subst c
      have visible : isBlank 'İ' = false ∧ isBlank 'i' = false ∧ isBlank '\u0307' = false := by
        decide
      simp [ink_cons, lowerAfter, sigmaEndsAfter, lowerWith, visible, ih]
    · cases blank : isBlank c <;>
        simp [ink_cons, lowerAfter, sigmaEndsAfter, lowerWith, sigma, dotted, isBlank_lowerChar,
          blank, ih]

/-- The ends of words show in the lowercase text. -/
theorem lowerWith_inj (count : ends.length = text.count 'Σ')
    (count' : ends'.length = text.count 'Σ') :
    lowerWith ends text = lowerWith ends' text ↔ ends = ends' := by
  induction text generalizing ends ends' with
  | nil =>
    have none : ends = [] := List.length_eq_zero_iff.1 count
    have none' : ends' = [] := List.length_eq_zero_iff.1 count'
    exact iff_of_true rfl (none.trans none'.symm)
  | cons c rest ih =>
    by_cases sigma : c = 'Σ'
    · subst c
      rw [List.count_cons_self] at count count'
      obtain ⟨e, ends, rfl⟩ := List.exists_cons_of_length_eq_add_one count
      obtain ⟨e', ends', rfl⟩ := List.exists_cons_of_length_eq_add_one count'
      have later := ih (Nat.succ.inj count) (Nat.succ.inj count')
      cases e <;> cases e' <;> simp [lowerWith, later]
    · rw [List.count_cons_of_ne sigma] at count count'
      have later := ih count count'
      by_cases dotted : c = 'İ'
      · simp [lowerWith, dotted, later]
      · simp [lowerWith, sigma, dotted, later]

end Sigmas

end Text

open Text

/-- Texts that differ in blanks have the same normalized form exactly if their sigmas end words in
the same places. -/
theorem normalizeChars_eq_iff {text other : List Char} (respaced : Respaced text other) :
    normalizeChars other = normalizeChars text ↔ sigmaEnds other = sigmaEnds text := by
  have same := respaced_iff.1 respaced
  have counts (text : List Char) : (sigmaEnds text).length = (ink text).count 'Σ' := by
    rw [sigmaEnds, length_sigmaEndsAfter, count_ink (by decide)]
  have normalized (text : List Char) :
      normalizeChars text = lowerWith (sigmaEnds text) (ink text) := by
    rw [normalizeChars_eq_filter]
    exact ink_lowerAfter [] text
  rw [normalized, normalized, same]
  exact lowerWith_inj (by rw [counts, same]) (counts text)

/-- Without a capital sigma nothing depends on the ends of words. -/
theorem sigmaEnds_of_not_mem {text : List Char} (none : 'Σ' ∉ text) : sigmaEnds text = [] := by
  rw [← List.length_eq_zero_iff, sigmaEnds, length_sigmaEndsAfter, List.count_eq_zero.2 none]

namespace Formula

/-- Blanks do not matter to a formula as long as each sigma ends a word with them if it does so
without them. Otherwise not even the normalized sources are the same. -/
theorem ofSource_respaced_iff (source other : String) (conventions : Conventions)
    (respaced : Respaced source.toList other.toList) :
    (normalize other = normalize source ↔ sigmaEnds other.toList = sigmaEnds source.toList) ∧
      (ofSource other conventions = ofSource source conventions ↔
        sigmaEnds other.toList = sigmaEnds source.toList) ∧
      ('Σ' ∉ source.toList → ofSource other conventions = ofSource source conventions) := by
  have formulas : ofSource other conventions = ofSource source conventions ↔
      sigmaEnds other.toList = sigmaEnds source.toList := by
    rw [← normalizeChars_eq_iff respaced]
    constructor
    · exact fun h => String.ofList_injective (congrArg Formula.source h)
    · exact fun h => by simp only [ofSource, h]
  refine ⟨?_, formulas, fun none => formulas.2 ?_⟩
  · rw [← normalizeChars_eq_iff respaced]
    exact String.ofList_inj
  · have none' : 'Σ' ∉ other.toList := by
      have visible : isBlank 'Σ' = false := by decide
      rw [← List.count_eq_zero, ← count_ink visible, respaced_iff.1 respaced, count_ink visible]
      exact List.count_eq_zero.2 none
    rw [sigmaEnds_of_not_mem none, sigmaEnds_of_not_mem none']

/-- The sigma ends its word before the parenthesis as well as before the blank. -/
theorem ofSource_respaced_iff_argument :
    Respaced " ΟΔΟΣ(X)".toList "ΟΔΟΣ ( X )".toList ∧ sigmaEnds "ΟΔΟΣ ( X )".toList = [true] ∧
      sigmaEnds " ΟΔΟΣ(X)".toList = [true] ∧ ofSource "ΟΔΟΣ ( X )" = ofSource " ΟΔΟΣ(X)" := by
  have respaced : Respaced " ΟΔΟΣ(X)".toList "ΟΔΟΣ ( X )".toList := respaced_iff.2 (by decide)
  have ends : sigmaEnds "ΟΔΟΣ ( X )".toList = [true] := by decide +kernel
  have ends' : sigmaEnds " ΟΔΟΣ(X)".toList = [true] := by decide +kernel
  have formulas := (ofSource_respaced_iff " ΟΔΟΣ(X)" "ΟΔΟΣ ( X )" {} respaced).2.1
  exact ⟨respaced, ends, ends', formulas.2 (ends.trans ends'.symm)⟩

/-- The sigma ends a word before a blank, and not before the letter behind it. -/
theorem sigma_before_blank :
    Respaced "ΑΣΒ".toList "ΑΣ Β".toList ∧ normalize "ΑΣ Β" ≠ normalize "ΑΣΒ" ∧
      ofSource "ΑΣ Β" ≠ ofSource "ΑΣΒ" := by
  exact ⟨respaced_iff.2 (by decide), by decide +kernel, by decide +kernel⟩

end Formula

end Curves
