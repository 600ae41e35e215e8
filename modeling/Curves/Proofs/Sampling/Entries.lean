import Curves.Proofs.Sampling.Safety

/-!
# Entries of tables

Every entry of a table is the sample at its own abscissa, made single. A sample has none if it is
not finite or too large for single precision. Zero is stored for such a sample, and it is counted as
invalid, once.

Main statements:

* `countP_isLost`: the two ways in which a sample of a table is invalid exclude each other;
* `Tabulation.exists_table_iff`: which tabulations are accepted;
* `table_holds_samples`: what the tables of a curve hold.
-/

namespace Curves
open Number

/-! ## Samples without an entry -/

def Sample.isLost (s : Sample) : Bool := !s.y.isFinite || !(toSingle s.y).isFinite

theorem isFinite_of_toSingle {x : Float} (h : (toSingle x).isFinite) : x.isFinite := by
  have finite := finite_of_pack_single h
  change x.toModel.unpack.isFinite
  generalize x.toModel.unpack = u at finite
  cases u with
  | notANumber => cases finite
  | infinity => cases finite
  | _ => rfl

namespace Sample
variable {s : Sample}

theorem entry_of_isLost (lost : s.isLost) : s.entry = 0.0 := by
  refine if_neg fun single => ?_
  simp [isLost, single, isFinite_of_toSingle single] at lost

/-- An entry that is kept is the sample rounded to single precision. -/
theorem entry_of_not_isLost (kept : s.isLost = false) :
    s.entry = toSingle s.y ∧ singleRat s.entry = nearestIn .binary32 (toRat s.y) := by
  simp only [isLost, Bool.or_eq_false_iff, Bool.not_eq_false'] at kept
  obtain ⟨finite, single⟩ := kept
  have stored : s.entry = toSingle s.y := if_pos single
  rw [stored]
  exact ⟨rfl, (toSingle_rounds finite).singleRat_eq single⟩

/-- A sample without an entry is either not finite or overflows single precision, not both. -/
theorem countP_isLost (samples : List Sample) : samples.countP (·.isLost) =
    samples.countP (!·.isValid) + samples.countP (·.overflowsSingle) := by
  induction samples with
  | nil => rfl
  | cons s samples ih =>
    have one : s.isLost.toNat = (!s.isValid).toNat + s.overflowsSingle.toNat := by
      unfold isLost overflowsSingle isValid
      cases s.y.isFinite <;> cases (toSingle s.y).isFinite <;> rfl
    simp only [List.countP_cons, ih, Bool.toNat, Bool.cond_eq_ite] at one ⊢
    omega

end Sample

/-! ## Tables -/

/-- A tabulation has a table if its size, width and range are within their limits. -/
theorem Tabulation.exists_table_iff (plan : Tabulation) (curve : Float → Float) :
    (∃ table, plan.table curve = .ok table) ↔
      2 ≤ plan.size.toNat ∧ plan.size.toNat ≤ maxGridSize ∧ IsLength plan.width ∧
        ∀ b ∈ plan.clamp, b.isValid := by
  have range : checkClamp plan.clamp = .ok () ↔ ∀ b ∈ plan.clamp, b.isValid := by
    cases plan.clamp with
    | none => exact iff_of_true rfl fun b hb => absurd hb (Option.not_mem_none b)
    | some b => simp [checkClamp_eq_ok_iff]
  constructor
  · rintro ⟨table, built⟩
    obtain ⟨few, width, clamp, -⟩ := Tabulation.table_eq_ok built
    refine ⟨?_, few, width, range.1 clamp⟩
    by_contra! small
    rw [Tabulation.table, dif_pos small] at built
    cases built
  · rintro ⟨two, few, width, clamp⟩
    refine ⟨_, Tabulation.table_of_check two ?_ curve⟩
    rw [Tabulation.check, if_neg few.not_gt, (checkLength_eq_ok_iff _ _).2 width, range.2 clamp]
    rfl

/-- The sample that belongs to an entry of the table, guarded and clamped as the probe does. -/
def LookupTable.sampleAt (table : LookupTable) (probe : Probe) (i : Nat) : Sample :=
  probe.take (table.abscissa i.toUInt64)

/-- `table` holds the samples at its own abscissas: it is made of finite entries, each the sample
made single, or zero for a sample that is lost, and every lost sample is counted once. -/
structure LookupTable.Holds (table : LookupTable) (probe : Probe) : Prop where
  finite : ∀ v ∈ table.values, v.isFinite
  kept : ∀ i < table.size, (table.sampleAt probe i).isLost = false →
    ∃ v, table.values[i]? = some v ∧ v = toSingle (table.sampleAt probe i).y ∧
      singleRat v = nearestIn .binary32 (toRat (table.sampleAt probe i).y)
  lost : ∀ i < table.size, (table.sampleAt probe i).isLost → table.values[i]? = some 0.0
  total_eq : table.tally.total = table.size
  invalid_eq :
    table.tally.invalid = (List.range table.size).countP fun i => (table.sampleAt probe i).isLost

section
variable {plan : Tabulation} {curve : Float → Float} {table : LookupTable}

theorem size_of_table (built : plan.table curve = .ok table) : table.size = plan.size.toNat := by
  obtain ⟨-, -, -, -, values, -⟩ := Tabulation.table_eq_ok built
  simp [LookupTable.size, values]

/-- What is sampled for a table are the abscissas that the table itself gives. -/
theorem samples_eq_sampleAt (built : plan.table curve = .ok table) :
    plan.samples curve = (List.range table.size).map (table.sampleAt (plan.probe curve)) := by
  obtain ⟨-, -, -, width, -, -⟩ := Tabulation.table_eq_ok built
  unfold Tabulation.samples LookupTable.sampleAt LookupTable.abscissa
  rw [size_of_table built, width]
  rfl

theorem getElem?_values (built : plan.table curve = .ok table) {i : Nat} (hi : i < table.size) :
    table.values[i]? = some (table.sampleAt (plan.probe curve) i).entry := by
  obtain ⟨-, -, -, -, values, -⟩ := Tabulation.table_eq_ok built
  rw [values, samples_eq_sampleAt built]
  simp [hi]

/-- Every table holds its samples. -/
theorem holds_of_table (built : plan.table curve = .ok table) :
    table.Holds (plan.probe curve) where
  finite := (LookupTable.isBuilt built).entries
  kept i hi h := by
    obtain ⟨single, value⟩ := Sample.entry_of_not_isLost h
    exact ⟨_, getElem?_values built hi, single, value⟩
  lost i hi h := by rw [getElem?_values built hi, Sample.entry_of_isLost h]
  total_eq := by
    obtain ⟨-, -, -, -, -, tally⟩ := Tabulation.table_eq_ok built
    rw [tally, size_of_table built]
    exact plan.length_samples curve
  invalid_eq := by
    obtain ⟨-, -, -, -, -, tally⟩ := Tabulation.table_eq_ok built
    have counted : (tableTally (plan.samples curve)).invalid =
        (plan.samples curve).countP (·.isLost) := (Sample.countP_isLost _).symm
    rw [tally, counted, samples_eq_sampleAt built, List.countP_map]
    rfl

end

/-- A tabulation is accepted exactly if it asks for 2 to `maxGridSize` entries, a width that is
finite and positive, and a valid range or none. Then every curve has a table of the size asked for,
which holds the samples at its own abscissas. Taking the samples one by one and counting on the way
comes to the same entries and the same tally. -/
theorem table_holds_samples (plan : Tabulation) (curve : Float → Float) :
    ((∃ table, plan.table curve = .ok table) ↔
      2 ≤ plan.size.toNat ∧ plan.size.toNat ≤ maxGridSize ∧ IsLength plan.width ∧
        ∀ b ∈ plan.clamp, b.isValid) ∧
    ∀ table, plan.table curve = .ok table →
      table.size = plan.size.toNat ∧ table.Holds (plan.probe curve) ∧
        Checked.entries plan curve = .ok (table.values.toList, table.tally) := by
  refine ⟨plan.exists_table_iff curve, fun table built => ?_⟩
  refine ⟨size_of_table built, holds_of_table built, ?_⟩
  rw [Checked.entries_eq, built]
  rfl

def threeEntries : Tabulation := { size := 3, width := 2.0, clamp := none, guard := none }

/-- A curve with a pole at 0, whose value at 1 is too large for single precision. -/
def hugePole : Float → Float :=
  (Formula.ofSource "100000000000000000000000000000000000000000*(x+1)/x").eval

/-- The sample at 0 is not finite, the one at 1 is finite and has no entry either. -/
theorem table_holds_samples_pole : ∃ table, threeEntries.table hugePole = .ok table ∧
    table.size = 3 ∧ table.Holds (threeEntries.probe hugePole) ∧
      Checked.entries threeEntries hugePole = .ok (table.values.toList, table.tally) ∧
      table.tally.invalid = 2 := by
  obtain ⟨accepted, holds⟩ := table_holds_samples threeEntries hugePole
  have width : IsLength threeEntries.width := by decide +kernel
  obtain ⟨table, built⟩ := accepted.2
    ⟨by decide, by decide, width, fun b hb => absurd hb (Option.not_mem_none b)⟩
  obtain ⟨size, held, counted⟩ := holds table built
  have two : (threeEntries.table hugePole).map (·.tally.invalid) = .ok 2 := by decide +kernel
  rw [built] at two
  exact ⟨table, built, size, held, counted, Except.ok.inj two⟩

end Curves
