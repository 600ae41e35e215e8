import Mathlib.Data.List.Chain
import Curves.Sampling.Drawing

/-!
# Runs of valid samples

The valid samples among marks are split into runs, and a run ends exactly at a jump or an invalid
sample. Everything follows from what reading a first part of the marks leaves behind: some finished
runs, and the run that is still open.
-/

namespace Curves

@[grind] def Mark.isCut : Mark → Bool
  | .taken s => !s.isValid
  | .jump => true

def validSamples (ms : List Mark) : List Sample := (takenSamples ms).filter (·.isValid)

def closed (current : List Sample) : List (List Sample) :=
  if current.isEmpty then [] else [current.reverse]

section Runs
variable {current : List Sample} {m : Mark} {ms : List Mark} {s u v : Sample}

@[simp] theorem takenSamples_append (ms ns : List Mark) :
    takenSamples (ms ++ ns) = takenSamples ms ++ takenSamples ns := by
  simp [takenSamples]

@[simp] theorem takenSamples_cons_taken : takenSamples (.taken s :: ms) = s :: takenSamples ms := by
  simp [takenSamples]

@[simp] theorem takenSamples_map_taken (samples : List Sample) :
    takenSamples (samples.map .taken) = samples := by
  simp [takenSamples]

@[simp, grind =] theorem validSamples_nil : validSamples [] = [] := rfl

@[grind =] theorem validSamples_cons_taken (hs : s.isValid) :
    validSamples (.taken s :: ms) = s :: validSamples ms := by
  simp [validSamples, hs]

@[grind =] theorem validSamples_cons_cut (hm : m.isCut) :
    validSamples (m :: ms) = validSamples ms := by
  cases m <;> simp_all [validSamples, takenSamples, Mark.isCut]

/-- Closing a run loses nothing. -/
@[simp, grind =] theorem flatten_closed (current : List Sample) :
    (closed current).flatten = current.reverse := by
  cases current <;> simp [closed]

theorem nil_notMem_closed (current : List Sample) : [] ∉ closed current := by
  cases current <;> simp [closed]

@[simp, grind =] theorem runsFrom_nil (current : List Sample) :
    runsFrom current [] = closed current := rfl

@[grind =] theorem runsFrom_cons_taken (hs : s.isValid) :
    runsFrom current (.taken s :: ms) = runsFrom (s :: current) ms := by
  simp [runsFrom, hs]

@[grind =] theorem runsFrom_cons_cut (hm : m.isCut) :
    runsFrom current (m :: ms) = closed current ++ runs ms := by
  cases m <;> cases current <;> simp_all [runsFrom, closed, runs, Mark.isCut]

/-- A mark ends a run or continues it. -/
theorem Mark.cut_or_valid (m : Mark) : m.isCut ∨ ∃ s, m = .taken s ∧ s.isValid := by
  cases m <;> simp [isCut]

/-- Reading a first part of the marks leaves finished runs and an open one, in which its valid
samples are in order. -/
theorem runsFrom_append (current : List Sample) (ms : List Mark) : ∃ done left,
    (∀ ns, runsFrom current (ms ++ ns) = done ++ runsFrom left ns) ∧ [] ∉ done ∧
      done.flatten ++ left.reverse = current.reverse ++ validSamples ms := by
  induction ms generalizing current with
  | nil => exact ⟨[], current, by simp⟩
  | cons m ms ih =>
    obtain hm | ⟨s, rfl, hs⟩ := m.cut_or_valid
    · obtain ⟨done, left, rest, nonempty, same⟩ := ih []
      refine ⟨closed current ++ done, left, fun ns => ?_, ?_, ?_⟩
      · rw [List.cons_append, runsFrom_cons_cut hm, runs, rest, List.append_assoc]
      · grind [nil_notMem_closed]
      · grind
    · obtain ⟨done, left, rest, nonempty, same⟩ := ih (s :: current)
      exact ⟨done, left, by grind, nonempty, by grind⟩

/-- Splitting into runs loses, duplicates and reorders nothing. -/
theorem flatten_runs (ms : List Mark) : (runs ms).flatten = validSamples ms := by
  obtain ⟨done, left, rest, -, same⟩ := runsFrom_append [] ms
  have all := rest []
  rw [List.append_nil] at all
  simpa [runs, all] using same

/-- No run is empty. -/
theorem nil_notMem_runs (ms : List Mark) : [] ∉ runs ms := by
  obtain ⟨done, left, rest, nonempty, -⟩ := runsFrom_append [] ms
  have all := rest []
  rw [List.append_nil] at all
  simp [runs, all, nonempty, nil_notMem_closed]

/-! ## Cuts -/

/-- An open run is the beginning of the next run. -/
theorem runsFrom_open (hne : current ≠ []) (ms : List Mark) :
    ∃ more others, runsFrom current ms = (current.reverse ++ more) :: others := by
  induction ms generalizing current with
  | nil => exact ⟨[], [], by simp [closed, hne]⟩
  | cons m ms ih =>
    obtain hm | ⟨s, rfl, hs⟩ := m.cut_or_valid
    · exact ⟨[], runs ms, by simp [runsFrom_cons_cut hm, closed, hne]⟩
    · obtain ⟨more, others, h⟩ := ih (List.cons_ne_nil s current)
      exact ⟨s :: more, others, by grind⟩

/-- Cuts do not open runs. -/
theorem runs_append_of_cuts (hms : ∀ m ∈ ms, m.isCut) (ns : List Mark) :
    runs (ms ++ ns) = runs ns := by
  induction ms with
  | nil => rfl
  | cons m ms ih => grind [runs, closed]

/-- A first part of the runs ends before a given run or after it. -/
theorem flatten_length_le_of_append_eq {α : Type} {before after done rest : List (List α)}
    {run : List α} (h : before ++ after = done ++ run :: rest) :
    before.flatten.length ≤ done.flatten.length ∨
      done.flatten.length + run.length ≤ before.flatten.length := by
  obtain ⟨more, rfl, -⟩ | ⟨more, rfl, split⟩ := List.append_eq_append_iff.1 h
  · left
    simp
  · cases more with
    | nil => simp
    | cons first more =>
      obtain ⟨rfl, -⟩ := List.cons.inj split
      right
      simp

/-- Between two valid samples with no other between them, one run ends and the next begins exactly
if there is a mark between them. -/
theorem ends_between_iff {before between after : List Mark} (hu : u.isValid) (hv : v.isValid)
    (cuts : ∀ m ∈ between, m.isCut) :
    (∃ first second, runs (before ++ .taken u :: (between ++ .taken v :: after)) = first ++ second ∧
      first.flatten = validSamples before ++ [u]) ↔ between ≠ [] := by
  obtain ⟨done, left, rest, -, same⟩ := runsFrom_append [] before
  rw [List.reverse_nil, List.nil_append] at same
  rw [runs, rest, runsFrom_cons_taken hu, ← same]
  cases between with
  | nil =>
    -- both samples are in one run, so no first part of the runs ends between them
    obtain ⟨more, others, together⟩ := runsFrom_open (List.cons_ne_nil v (u :: left)) after
    rw [List.nil_append, runsFrom_cons_taken hv, together]
    simp only [ne_eq, not_true_eq_false, iff_false]
    rintro ⟨first, second, split, ends⟩
    have lengths := congrArg List.length ends
    have := flatten_length_le_of_append_eq split.symm
    simp at lengths this
    omega
  | cons m between =>
    refine iff_of_true ⟨done ++ closed (u :: left), runs (.taken v :: after), ?_, ?_⟩ (by simp)
    · rw [List.cons_append, runsFrom_cons_cut (cuts m (by simp)), runs_append_of_cuts,
        List.append_assoc]
      exact fun n hn => cuts n (List.mem_cons_of_mem m hn)
    · simp

end Runs

/-! ## Neighbours in runs -/

/-- Whether `R` holds between two marks if they are valid samples. -/
def Linked (R : Sample → Sample → Prop) (m n : Mark) : Prop :=
  ∀ u v, m = .taken u → n = .taken v → u.isValid → v.isValid → R u v

section Neighbours
variable {R : Sample → Sample → Prop} {m n : Mark} {ms : List Mark}

theorem linked_taken {u v : Sample} :
    Linked R (.taken u) (.taken v) ↔ (u.isValid → v.isValid → R u v) :=
  ⟨fun h => h u v rfl rfl, by rintro h _ _ ⟨⟩ ⟨⟩; exact h⟩

theorem linked_of_cut_left (hm : m.isCut) : Linked R m n := by
  rintro u v rfl - hu
  simp [Mark.isCut, hu] at hm

theorem linked_of_cut_right (hn : n.isCut) : Linked R m n := by
  rintro u v - rfl - hv
  simp [Mark.isCut, hv] at hn

theorem isChain_linked_cons_cut (hm : m.isCut) :
    (m :: ms).IsChain (Linked R) ↔ ms.IsChain (Linked R) := by
  simp [List.isChain_cons, linked_of_cut_left hm]

theorem isChain_linked_append_cut (ns : List Mark) (hm : m.isCut) :
    (ns ++ m :: ms).IsChain (Linked R) ↔ ns.IsChain (Linked R) ∧ ms.IsChain (Linked R) := by
  simp [List.isChain_append, isChain_linked_cons_cut hm, linked_of_cut_right hm]

theorem isChain_linked_map_taken {samples : List Sample} (valid : ∀ s ∈ samples, s.isValid) :
    (samples.map Mark.taken).IsChain (Linked R) ↔ samples.IsChain R := by
  induction samples with
  | nil => simp
  | cons u samples ih =>
    have hu : u.isValid := valid u (by simp)
    have later := ih fun s hs => valid s (List.mem_cons_of_mem u hs)
    cases samples with
    | nil => simp
    | cons v samples =>
      have hv : v.isValid := valid v (by simp)
      simp_all [linked_taken]

/-- A relation holds along all runs exactly if it holds between samples that are linked. -/
theorem runsFrom_isChain_iff (current : List Sample) (valid : ∀ s ∈ current, s.isValid) :
    (∀ run ∈ runsFrom current ms, run.IsChain R) ↔
      (current.reverse.map Mark.taken ++ ms).IsChain (Linked R) := by
  have closed_iff : ∀ {current : List Sample}, (∀ s ∈ current, s.isValid) →
      ((∀ run ∈ closed current, run.IsChain R) ↔
        (current.reverse.map Mark.taken).IsChain (Linked R)) := by
    intro current valid
    rw [isChain_linked_map_taken (by simpa using valid)]
    cases current <;> simp [closed]
  induction ms generalizing current with
  | nil => simpa using closed_iff valid
  | cons m ms ih =>
    obtain hm | ⟨s, rfl, hs⟩ := m.cut_or_valid
    · have later := ih [] (by simp)
      simp only [List.reverse_nil, List.map_nil, List.nil_append] at later
      rw [isChain_linked_append_cut _ hm, runsFrom_cons_cut hm, runs]
      simp only [List.mem_append, or_imp, forall_and]
      exact and_congr (closed_iff valid) later
    · have longer := ih (s :: current) (by simpa using ⟨hs, valid⟩)
      rw [runsFrom_cons_taken hs]
      simpa using longer

/-- Neighbours in runs are the valid samples between which there is no mark. -/
theorem runs_isChain_iff : (∀ run ∈ runs ms, run.IsChain R) ↔ ms.IsChain (Linked R) := by
  exact runsFrom_isChain_iff [] (by simp)

end Neighbours

/-! ## Runs without cuts -/

/-- Samples without a cut are one run. -/
theorem runsFrom_map_taken {current samples : List Sample} (valid : ∀ s ∈ samples, s.isValid) :
    runsFrom current (samples.map Mark.taken) = closed (samples.reverse ++ current) := by
  induction samples generalizing current with
  | nil => rfl
  | cons s samples ih => grind

/-- Valid samples without a mark between them are one run. -/
theorem runs_map_taken {samples : List Sample} (hne : samples ≠ [])
    (valid : ∀ s ∈ samples, s.isValid) : runs (samples.map Mark.taken) = [samples] := by
  rw [runs, runsFrom_map_taken valid]
  simp [closed, hne]

end Curves
