import Curves.Proofs.Sampling.Multiples

/-!
# Grids of multiples

The multiples in a window are in order, and an end of the window is added unless a multiple is near
it, so a grid of multiples covers its window. Neighbours can coincide, but only `2 ^ 52` steps or
more away from zero.
-/

namespace Curves.Sampling
open Number

variable {sampling : Sampling}

/-! ## Ends -/

theorem toRat_gridTolerance : gridTolerance.isFinite ∧ 0 ≤ toRat gridTolerance := by
  have finite : gridTolerance.isFinite := by decide +kernel
  refine ⟨finite, ?_⟩
  rw [← toRat_zero.2, ← le_iff_toRat toRat_zero.1 finite]
  decide +kernel

section Ends
variable {xs : List Float} {x : Float}

theorem lt_of_lt_sub_tolerance (h : HasWindow sampling) (hx : x.isFinite)
    (less : x < sampling.high - gridTolerance) : toRat x < toRat sampling.high := by
  have above : ¬ sampling.high - gridTolerance ≤ x := fun le =>
    ((le_iff_not_gt (isNaN_eq_false_of_isFinite hx)).1 le).2 less
  rw [(sub_roundsTo h.high toRat_gridTolerance.1).le_iff hx, not_le] at above
  refine above.trans_le ((nearest_mono ?_).trans (nearest_toRat h.high).le)
  exact sub_le_self _ toRat_gridTolerance.2

theorem low_le_nearest (h : HasWindow sampling) :
    toRat sampling.low ≤ nearest (toRat sampling.low + toRat gridTolerance) :=
  (nearest_toRat h.low).ge.trans (nearest_mono (le_add_of_nonneg_right toRat_gridTolerance.2))

theorem lt_of_add_tolerance_lt (h : HasWindow sampling) (hx : x.isFinite)
    (less : x > sampling.low + gridTolerance) : toRat sampling.low < toRat x := by
  have sum := add_roundsTo h.low toRat_gridTolerance.1
  have above : ¬ x ≤ sampling.low + gridTolerance := fun le =>
    ((le_iff_not_gt sum.isNaN_eq_false).1 le).2 less
  rw [sum.ge_iff hx, not_le] at above
  exact (low_le_nearest h).trans_lt above

def lowEnd (sampling : Sampling) (xs : List Float) : List Float :=
  if xs.head?.all fun x => x > sampling.low + gridTolerance then [sampling.low] else []

def highEnd (sampling : Sampling) (xs : List Float) : List Float :=
  if xs.getLast?.all fun x => x < sampling.high - gridTolerance then [sampling.high] else []

/-- The ends are added before and behind the values. -/
theorem withEnds_eq (sampling : Sampling) (xs : List Float) : sampling.withEnds xs =
    (sampling.lowEnd xs ++ xs) ++ sampling.highEnd (sampling.lowEnd xs ++ xs) := by
  have low : (if xs.head?.all fun x => x > sampling.low + gridTolerance then sampling.low :: xs
      else xs) = sampling.lowEnd xs ++ xs := by
    unfold lowEnd
    split <;> rfl
  unfold withEnds highEnd
  rw [low]
  dsimp only
  split
  · rfl
  · rw [List.append_nil]

theorem lowEnd_append_ne_nil (sampling : Sampling) (xs : List Float) :
    sampling.lowEnd xs ++ xs ≠ [] := by
  cases xs <;> simp [lowEnd]

theorem finite_lowEnd_append (h : HasWindow sampling) (finite : ∀ x ∈ xs, x.isFinite) :
    ∀ x ∈ sampling.lowEnd xs ++ xs, x.isFinite := by
  intro x hx
  unfold lowEnd at hx
  split_ifs at hx
  · rcases List.mem_cons.1 hx with rfl | hx
    · exact h.low
    · exact finite x hx
  · exact finite x hx

theorem mem_of_mem_withEnds (hx : x ∈ sampling.withEnds xs) :
    x ∈ xs ∨ x = sampling.low ∨ x = sampling.high := by
  rw [withEnds_eq, List.mem_append, List.mem_append] at hx
  unfold lowEnd highEnd at hx
  split_ifs at hx <;> simp at hx <;> tauto

/-- An end that is added is less than the values behind it, or greater than those before it. -/
theorem withEnds_pairwise (h : HasWindow sampling) {R : Float → Float → Prop}
    (trans : ∀ {x y z}, R x y → R y z → R x z) (less : ∀ {x y}, toRat x < toRat y → R x y)
    (finite : ∀ x ∈ xs, x.isFinite) (sorted : xs.Pairwise R) :
    (sampling.withEnds xs).Pairwise R := by
  have : Trans R R R := ⟨trans⟩
  rw [← List.isChain_iff_pairwise] at sorted ⊢
  have low : (sampling.lowEnd xs ++ xs).IsChain R := by
    unfold lowEnd
    split_ifs with above
    · rw [List.singleton_append]
      refine List.isChain_cons.2 ⟨fun x hx => less (lt_of_add_tolerance_lt h ?_ ?_), sorted⟩
      · exact finite x (List.mem_of_mem_head? hx)
      · rw [Option.mem_def.1 hx] at above
        exact of_decide_eq_true above
    · exact sorted
  have finite := finite_lowEnd_append h finite
  rw [withEnds_eq]
  generalize sampling.lowEnd xs ++ xs = ys at low finite
  unfold highEnd
  split_ifs with below
  · refine List.isChain_append.2 ⟨low, List.isChain_singleton _, fun x hx y hy => ?_⟩
    obtain rfl : sampling.high = y := Option.some_inj.1 hy
    refine less (lt_of_lt_sub_tolerance h (finite x (List.mem_of_mem_getLast? hx)) ?_)
    rw [Option.mem_def.1 hx] at below
    exact of_decide_eq_true below
  · rwa [List.append_nil]

theorem withEnds_head (h : HasWindow sampling) (finite : ∀ x ∈ xs, x.isFinite) :
    (sampling.withEnds xs).head?.any fun x => x ≤ sampling.low + gridTolerance := by
  have sum := add_roundsTo h.low toRat_gridTolerance.1
  rw [withEnds_eq, List.head?_append_of_ne_nil _ (lowEnd_append_ne_nil sampling xs)]
  unfold lowEnd
  split_ifs with above
  · exact decide_eq_true ((sum.ge_iff h.low).2 (low_le_nearest h))
  · cases xs with
    | nil => exact absurd rfl above
    | cons x xs =>
      have hx := finite x List.mem_cons_self
      refine decide_eq_true ((le_iff_not_gt sum.isNaN_eq_false).2 ⟨?_, ?_⟩)
      · exact isNaN_eq_false_of_isFinite hx
      · exact fun greater => above (decide_eq_true greater)

theorem withEnds_last (h : HasWindow sampling) (finite : ∀ x ∈ xs, x.isFinite) :
    (sampling.withEnds xs).getLast?.any fun x => sampling.high - gridTolerance ≤ x := by
  have difference := sub_roundsTo h.high toRat_gridTolerance.1
  have finite := finite_lowEnd_append h finite
  have some := lowEnd_append_ne_nil sampling xs
  rw [withEnds_eq]
  generalize sampling.lowEnd xs ++ xs = ys at finite some
  unfold highEnd
  split_ifs with below
  · rw [List.getLast?_concat]
    refine decide_eq_true ((difference.le_iff h.high).2 ?_)
    exact (nearest_mono (sub_le_self _ toRat_gridTolerance.2)).trans (nearest_toRat h.high).le
  · rw [List.append_nil]
    rw [List.getLast?_eq_some_getLast some] at below ⊢
    have hx := isNaN_eq_false_of_isFinite (finite _ (List.getLast_mem some))
    refine decide_eq_true ((le_iff_not_gt hx).2 ⟨difference.isNaN_eq_false, ?_⟩)
    exact fun less => below (decide_eq_true less)

end Ends

/-! ## Order -/

/-- The values of `xs` are finite, inside the window and in order, and leave at most the tolerance
at both ends. -/
structure Covers (sampling : Sampling) (xs : List Float) : Prop where
  nonempty : xs ≠ []
  finite : ∀ x ∈ xs, x.isFinite
  inside : ∀ x ∈ xs, sampling.low ≤ x ∧ x ≤ sampling.high
  sorted : xs.Pairwise (· ≤ ·)
  first : xs.head?.any fun x => x ≤ sampling.low + gridTolerance
  last : xs.getLast?.any fun x => sampling.high - gridTolerance ≤ x

section Order

theorem finite_multiplesInside (h : HasWindow sampling) :
    ∀ x ∈ sampling.multiplesInside, x.isFinite := by
  intro x hx
  obtain ⟨k, hk, rfl⟩ := mem_multiplesInside.1 hx
  exact hk.isFinite h

theorem inside_withEnds (h : HasWindow sampling) {x : Float}
    (hx : x ∈ sampling.withEnds sampling.multiplesInside) :
    x.isFinite ∧ sampling.low ≤ x ∧ x ≤ sampling.high := by
  rcases mem_of_mem_withEnds hx with hx | rfl | rfl
  · obtain ⟨k, hk, rfl⟩ := mem_multiplesInside.1 hx
    exact ⟨hk.isFinite h, hk.low, hk.high⟩
  · exact ⟨h.low, (le_iff_toRat h.low h.low).2 le_rfl, (le_iff_toRat h.low h.high).2 h.ordered.le⟩
  · refine ⟨h.high, (le_iff_toRat h.low h.high).2 h.ordered.le, ?_⟩
    exact (le_iff_toRat h.high h.high).2 le_rfl

/-- A grid with its ends covers the window. -/
theorem covers_withEnds (h : HasWindow sampling)
    (few : ¬ sampling.piCount > maxGridSize.toUInt64.toFloat) :
    Covers sampling (sampling.withEnds sampling.multiplesInside) := by
  have finite := finite_multiplesInside h
  have sorted : sampling.multiplesInside.Pairwise (toRat · ≤ toRat ·) :=
    multiplesInside_pairwise_iff.2 fun i j hij hi hj => hi.mono h few hj hij.le
  have ends := withEnds_pairwise (R := (toRat · ≤ toRat ·)) h le_trans le_of_lt finite sorted
  refine ⟨?_, fun x hx => (inside_withEnds h hx).1, fun x hx => (inside_withEnds h hx).2, ?_,
    withEnds_head h finite, withEnds_last h finite⟩
  · rw [withEnds_eq]
    exact List.append_ne_nil_of_left_ne_nil (lowEnd_append_ne_nil sampling _) _
  · refine ends.imp_of_mem fun hx hy le => ?_
    exact (le_iff_toRat (inside_withEnds h hx).1 (inside_withEnds h hy).1).2 le

/-- Adding the ends keeps the order strict. -/
theorem withEnds_strict_iff (h : HasWindow sampling)
    (few : ¬ sampling.piCount > maxGridSize.toUInt64.toFloat) :
    (sampling.withEnds sampling.multiplesInside).Pairwise (· < ·) ↔ sampling.Separates := by
  have rational : (sampling.withEnds sampling.multiplesInside).Pairwise (· < ·) ↔
      (sampling.withEnds sampling.multiplesInside).Pairwise (toRat · < toRat ·) :=
    List.Pairwise.iff_of_mem fun hx hy =>
      lt_iff_toRat (inside_withEnds h hx).1 (inside_withEnds h hy).1
  rw [rational, ← strict_iff_separates h few]
  constructor
  · intro strict
    refine strict.sublist ?_
    rw [withEnds_eq, List.append_assoc]
    exact (List.sublist_append_left ..).trans (List.sublist_append_right ..)
  · exact withEnds_pairwise (R := (toRat · < toRat ·)) h lt_trans id (finite_multiplesInside h)

/-- What is known if a grid of multiples is given. -/
theorem piGrid_eq_ok {xs : List Float} (spacing : sampling.spacing = .piMultiples)
    (grid : sampling.grid = .ok xs) : HasWindow sampling ∧
      ¬ sampling.piCount > maxGridSize.toUInt64.toFloat ∧
        xs = sampling.withEnds sampling.multiplesInside := by
  have split : sampling.grid = sampling.check.bind fun _ => sampling.piGrid := by
    rw [Sampling.grid, spacing]
    rfl
  rw [split] at grid
  cases checked : sampling.check with
  | error problem =>
    rw [checked] at grid
    cases grid
  | ok =>
    rw [checked, Except.bind, piGrid_eq] at grid
    split_ifs at grid with narrow many
    exact ⟨hasWindow checked, many, (Except.ok.inj grid).symm⟩

/-- A grid of multiples covers its window in order. Its values are all different exactly if no two
neighbouring multiples are rounded to the same value, and this never happens less than `2 ^ 52`
steps away from zero. -/
theorem piGrid_ordered {xs : List Float} (spacing : sampling.spacing = .piMultiples)
    (grid : sampling.grid = .ok xs) : Covers sampling xs ∧
      (xs.Pairwise (· < ·) ↔ sampling.Separates) ∧
        (sampling.IsNear (2 ^ 52) → xs.Pairwise (· < ·)) := by
  obtain ⟨h, few, rfl⟩ := piGrid_eq_ok spacing grid
  have strict := withEnds_strict_iff h few
  exact ⟨covers_withEnds h few, strict, fun near => strict.2 (separates_of_near h few near)⟩

def halfTurns : Sampling := { low := 0.0, high := 4.0, resolution := 1, spacing := .piMultiples }

theorem piGrid_ordered_halfTurns :
    halfTurns.grid = .ok [0.0, pi, 4.0] ∧ Covers halfTurns [0.0, pi, 4.0] ∧
      halfTurns.Separates := by
  have grid : halfTurns.grid = .ok [0.0, pi, 4.0] := by decide +kernel
  obtain ⟨covers, strict, -⟩ := piGrid_ordered rfl grid
  exact ⟨grid, covers, strict.1 (by decide +kernel)⟩

/-- A sampling whose window is about `2 ^ 53` steps away from zero. -/
def distant : Sampling :=
  { low := 28300000000000000.0, high := 28300000000000012.0
    resolution := 1, spacing := .piMultiples }

/-- Two indices beyond `2 ^ 53` are rounded to one, and so are their multiples. -/
theorem distant_not_strict : distant.spacing = .piMultiples ∧
    ∃ xs, distant.grid = .ok xs ∧ ¬ xs.Pairwise (· < ·) := by
  refine ⟨rfl, [28300000000000000.0, 28300000000000000.0, 28300000000000004.0,
    28300000000000012.0, 28300000000000012.0], ?_, ?_⟩
  · decide +kernel
  · decide +kernel

end Order

end Curves.Sampling
