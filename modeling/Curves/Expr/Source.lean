import Curves.Text.Blank
import Curves.Text.Lowercase

/-!
# Normalized sources

An expression is read from its normalized source: trimmed, in lowercase, and without blanks.
Lowercasing comes before the blanks inside are removed, so a blank still ends a word for it.
-/

namespace Curves

/-- The normalized form of a source, as characters. -/
def normalizeChars (source : List Char) : List Char :=
  (Text.lower (Text.trim source)).filter fun c => !Text.isBlank c

def normalize (source : String) : String := String.ofList (normalizeChars source.toList)

/-- A normalized source has no blanks. -/
theorem isBlank_of_mem_normalizeChars {source : List Char} {c : Char}
    (h : c ∈ normalizeChars source) : Text.isBlank c = false := by
  have := (List.mem_filter.1 h).2
  simpa using this

end Curves
