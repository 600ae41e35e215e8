import Curves.Proofs.Expr.Composition

/-!
# Blanks around fragments

How a fragment is joined to an equation is decided on its raw text and on the raw text before it.
Letter case has no influence on that, and blanks have in two places: before a sign, which is then
not the first character, and in fragments that are blank but not empty, since the equation is then
not empty. In both places the raw fragments have a product sign more than the normalized ones.

Main statements:

* `chars_extend_eq_iff`: equations from raw and from normalized fragments;
* `formula_normalized_iff`: the formulas of these equations.
-/

namespace Curves

namespace Equation

def trimStart (fragment : String) : String :=
  String.ofList (fragment.toList.dropWhile Text.isBlank)

section Fragments
variable {equation raw plain : Equation} {fragment : String} {fragments : List String}

/-! ## Normalized fragments -/

/-- Normalizing once more changes nothing that the parser reads. -/
theorem normalizeChars_normalize (fragment : String) :
    normalizeChars (normalize fragment).toList = normalizeChars fragment.toList := by
  rw [normalize, String.toList_ofList, normalizeChars_normalizeChars]

theorem isSigned_normalize (signed : isSigned fragment) : isSigned (normalize fragment) := by
  obtain ⟨x, s, sign, normalized, -⟩ := exists_normalized_of_isSigned signed
  exact (isSigned_iff _).2 ⟨x, normalizeChars s, by simp [normalize, normalized], sign⟩

theorem isSigned_ofList_cons (c : Char) (text : List Char) :
    isSigned (String.ofList (c :: text)) ↔ c = '+' ∨ c = '-' := by
  rw [isSigned_iff, String.toList_ofList]
  constructor
  · rintro ⟨x, s, eq, sign⟩
    cases eq
    exact sign
  · exact fun sign => ⟨c, text, rfl, sign⟩

/-- Apart from its first blanks a fragment is empty if its normalized text is, and begins with the
same sign if there is one. -/
theorem normalize_cases (fragment : String) :
    (trimStart fragment = "" ∧ normalize fragment = "") ∨
      (trimStart fragment ≠ "" ∧ normalize fragment ≠ "" ∧
        (isSigned (normalize fragment) ↔ isSigned (trimStart fragment))) := by
  have first := List.head?_dropWhile_not Text.isBlank fragment.toList
  rw [normalize, trimStart, ← normalizeChars_dropWhile]
  generalize fragment.toList.dropWhile Text.isBlank = text at *
  cases text with
  | nil => exact .inl ⟨rfl, by decide⟩
  | cons c text =>
    have ink : Text.isBlank c = false := first
    obtain ⟨d, rest, normalized, same⟩ := exists_normalizeChars_cons ink text
    rw [normalized]
    refine .inr ⟨by simp, by simp, ?_⟩
    rw [isSigned_ofList_cons, isSigned_ofList_cons]
    exact or_congr (same '+' (.inl rfl)) (same '-' (.inr rfl))

/-- Normalization shows the sign behind blanks. -/
theorem isSigned_normalize_iff :
    isSigned (normalize fragment) ↔ isSigned (trimStart fragment) := by
  rcases normalize_cases fragment with ⟨blank, nothing⟩ | ⟨-, -, same⟩
  · rw [blank, nothing]
  · exact same

/-- A fragment is empty once it is normalized exactly if it is blank. -/
theorem normalize_eq_empty_iff : normalize fragment = "" ↔ trimStart fragment = "" := by
  rcases normalize_cases fragment with ⟨blank, nothing⟩ | ⟨ink, something, -⟩
  · exact iff_of_true nothing blank
  · exact iff_of_false something ink

/-! ## Empty equations -/

theorem isEmpty_append :
    (equation.append fragment).isEmpty ↔ equation.isEmpty ∧ fragment = "" := by
  cases joint : equation.joins fragment with
  | true =>
    rw [append_of_joins joint]
    simp only [joins, Bool.and_eq_true, Bool.not_eq_true'] at joint
    have nonempty : ¬ (equation.isEmpty ∧ fragment = "") := fun both => by
      simp [joint.2] at both
    refine iff_of_false ?_ nonempty
    simp [isEmpty]
  | false =>
    rw [append_of_not_joins joint]
    simp [isEmpty]

/-- An equation stays empty as long as the fragments are. -/
theorem isEmpty_extend : (equation.extend fragments).isEmpty ↔
    equation.isEmpty ∧ ∀ fragment ∈ fragments, fragment = "" := by
  induction fragments generalizing equation with
  | nil => simp [extend]
  | cons fragment fragments ih =>
    rw [extend_cons, ih, isEmpty_append]
    simp [and_assoc]

/-- A product sign joins the unsigned fragments behind one that is not empty. -/
theorem joins_extend_iff : (({} : Equation).extend fragments).joins fragment ↔
    ¬ isSigned fragment ∧ ¬ ∀ other ∈ fragments, other = "" := by
  have empty : (({} : Equation).extend fragments).isEmpty ↔ ∀ other ∈ fragments, other = "" := by
    rw [isEmpty_extend]
    simp [isEmpty]
  simp only [joins, Bool.and_eq_true, Bool.not_eq_true', ← Bool.not_eq_true, empty]

/-- What is empty before normalization is empty after it. -/
theorem isEmpty_append_normalize (empty : raw.isEmpty → plain.isEmpty) (fragment : String) :
    (raw.append fragment).isEmpty → (plain.append (normalize fragment)).isEmpty := by
  simp only [isEmpty_append]
  rintro ⟨first, rfl⟩
  exact ⟨empty first, by decide⟩

/-- An equation without raw fragments has no normalized ones. -/
theorem isEmpty_extend_normalize (fragments : List String) :
    (({} : Equation).extend fragments).isEmpty →
      (({} : Equation).extend (fragments.map normalize)).isEmpty := by
  have nothing : normalize "" = "" := by decide
  simp only [isEmpty_extend, List.forall_mem_map]
  exact fun ⟨first, others⟩ => ⟨first, fun other mem => by rw [others other mem, nothing]⟩

/-! ## Joints -/

/-- A normalized fragment is joined by a product sign only if the raw one is. -/
theorem joins_of_joins_normalize (empty : raw.isEmpty → plain.isEmpty) (fragment : String)
    (h : plain.joins (normalize fragment)) : raw.joins fragment := by
  simp only [joins, Bool.and_eq_true, Bool.not_eq_true', Bool.eq_false_iff] at h ⊢
  exact ⟨fun signed => h.1 (isSigned_normalize signed), fun first => h.2 (empty first)⟩

theorem length_chars_append (equation : Equation) (fragment : String) :
    (equation.append fragment).chars.length = equation.chars.length +
      ((equation.joins fragment).toNat + (normalizeChars fragment.toList).length) := by
  rw [chars_append]
  cases equation.joins fragment <;> simp <;> omega

/-- Normalized fragments are joined with no more product signs than raw ones. -/
theorem toNat_joins_normalize_le (empty : raw.isEmpty → plain.isEmpty) (fragment : String) :
    (plain.joins (normalize fragment)).toNat ≤ (raw.joins fragment).toNat := by
  cases joint : plain.joins (normalize fragment) with
  | false => exact Nat.zero_le _
  | true =>
    have joined : raw.joins fragment = true := joins_of_joins_normalize empty fragment joint
    exact Nat.le_of_eq (congrArg Bool.toNat joined.symm)

/-- A product sign that is missing once is missing in the end. -/
theorem length_chars_extend_lt (empty : raw.isEmpty → plain.isEmpty)
    (shorter : plain.chars.length < raw.chars.length) :
    (plain.extend (fragments.map normalize)).chars.length <
      (raw.extend fragments).chars.length := by
  induction fragments generalizing raw plain with
  | nil => exact shorter
  | cons fragment fragments ih =>
    rw [List.map_cons, extend_cons, extend_cons]
    refine ih (isEmpty_append_normalize empty fragment) ?_
    have fewer := toNat_joins_normalize_le empty fragment
    rw [length_chars_append, length_chars_append, normalizeChars_normalize]
    omega

/-- Raw and normalized fragments make the same text exactly if they are joined in the same way. -/
theorem chars_extend_eq_iff (empty : raw.isEmpty → plain.isEmpty) (same : plain.chars = raw.chars) :
    (plain.extend (fragments.map normalize)).chars = (raw.extend fragments).chars ↔
      ∀ before fragment after, fragments = before ++ fragment :: after →
        (plain.extend (before.map normalize)).joins (normalize fragment) =
          (raw.extend before).joins fragment := by
  induction fragments generalizing raw plain with
  | nil => exact ⟨fun _ before fragment after h => by simp at h, fun _ => same⟩
  | cons first fragments ih =>
    rw [List.map_cons, extend_cons, extend_cons]
    have later := isEmpty_append_normalize empty first
    by_cases joint : plain.joins (normalize first) = raw.joins first
    · have same' : (plain.append (normalize first)).chars = (raw.append first).chars := by
        rw [chars_append, chars_append, joint, same, normalizeChars_normalize]
      rw [ih later same']
      refine ⟨fun others before fragment after split => ?_,
        fun all before fragment after split => ?_⟩
      · rcases List.cons_eq_append_iff.1 split with ⟨rfl, here⟩ | ⟨before, rfl, there⟩
        · cases here
          exact joint
        · rw [List.map_cons, extend_cons, extend_cons]
          exact others before fragment after there
      · have joined := all (first :: before) fragment after (by rw [split, List.cons_append])
        rwa [List.map_cons, extend_cons, extend_cons] at joined
    · -- From here on the raw fragments have one sign more.
      have fewer := toNat_joins_normalize_le empty first
      have other : (plain.joins (normalize first)).toNat ≠ (raw.joins first).toNat := fun eq => by
        cases h : plain.joins (normalize first) <;> cases h' : raw.joins first <;> simp_all
      have shorter : (plain.append (normalize first)).chars.length <
          (raw.append first).chars.length := by
        rw [length_chars_append, length_chars_append, normalizeChars_normalize, same]
        omega
      refine iff_of_false (fun eq => ?_) (fun all => joint ?_)
      · exact absurd (congrArg List.length eq) (Nat.ne_of_lt (length_chars_extend_lt later shorter))
      · simpa [extend] using all [] first fragments rfl

/-! ## Formulas -/

/-- A formula is told from the normalized text of its equation. -/
theorem formula_eq_iff (raw plain : Equation) (conventions : Conventions) :
    plain.formula conventions = raw.formula conventions ↔ plain.chars = raw.chars := by
  constructor
  · intro h
    have sources : String.ofList plain.chars = String.ofList raw.chars := congrArg Formula.source h
    exact String.ofList_injective sources
  · intro h
    have texts : normalizeChars plain.text.toList = normalizeChars raw.text.toList := h
    simp only [formula, Formula.ofSource, texts]

/-- Fragments make the same formula before and after normalization exactly if each unsigned fragment
behind one that is not empty has no sign behind its first blanks either, and stands behind one that
is not blank. -/
theorem formula_normalized_iff (fragments : List String) (conventions : Conventions) :
    (({} : Equation).extend (fragments.map normalize)).formula conventions =
        (({} : Equation).extend fragments).formula conventions ↔
      ∀ before fragment after, fragments = before ++ fragment :: after →
        ¬ isSigned fragment → (∃ other ∈ before, other ≠ "") →
          ¬ isSigned (trimStart fragment) ∧ ∃ other ∈ before, trimStart other ≠ "" := by
  rw [formula_eq_iff, chars_extend_eq_iff id rfl]
  refine forall_congr' fun before => forall_congr' fun fragment => forall₂_congr fun after _ => ?_
  have raw : (({} : Equation).extend before).joins fragment ↔
      ¬ isSigned fragment ∧ ∃ other ∈ before, other ≠ "" := by
    rw [joins_extend_iff]
    simp
  have plain : (({} : Equation).extend (before.map normalize)).joins (normalize fragment) ↔
      ¬ isSigned (trimStart fragment) ∧ ∃ other ∈ before, trimStart other ≠ "" := by
    simp only [joins_extend_iff, List.forall_mem_map, isSigned_normalize_iff,
      normalize_eq_empty_iff]
    simp
  have fewer := joins_of_joins_normalize (isEmpty_extend_normalize before) fragment
  rw [Bool.eq_iff_iff]
  exact ⟨fun same unsigned others => plain.1 (same.2 (raw.2 ⟨unsigned, others⟩)),
    fun kept => ⟨fewer, fun joined => plain.2 (kept (raw.1 joined).1 (raw.1 joined).2)⟩⟩

/-- A blank before its sign makes a factor of a summand, and a blank fragment makes a factor of the
next one. -/
theorem formula_blanks :
    (({} : Equation).extend ["x", " -1"]).formula.tree ≠
        (({} : Equation).extend (["x", " -1"].map normalize)).formula.tree ∧
      (({} : Equation).extend [" ", "x"]).formula.diagnostics ≠
        (({} : Equation).extend ([" ", "x"].map normalize)).formula.diagnostics := by
  decide +kernel

end Fragments

end Equation

end Curves
