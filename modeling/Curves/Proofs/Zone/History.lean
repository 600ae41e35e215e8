import Mathlib
import Curves.Zone

/-!
# Histories of zones

A zone is the outcome of its visits. Somebody is in it if the last of their visits since it was
cleared was an entering. A visit other than a clearing reports a change exactly if it makes the
difference between a zone that is empty and one that is occupied, so the changes since the zone was
cleared alternate, and the last of them tells which of the two it is.

Main statements:

* `change_visit`: what a visit reports, by what is in the zone before and after it;
* `reflects_history`: who is in a zone and what it has reported, after any visits.
-/

namespace Curves.Zone

/-- What can be done to a zone. -/
inductive Visit (κ : Type) where
  | enter (k : κ)
  | leave (k : κ)
  | clear
  deriving DecidableEq, Repr

section
variable {κ : Type} [DecidableEq κ]

/-- Whether it is `k` who enters or leaves. -/
def Visit.isBy (k : κ) : Visit κ → Bool
  | enter l => l = k
  | leave l => l = k
  | clear => false

/-! ## What visits do -/

/-- The zone after a visit and the change that is reported, which is none for a clearing. -/
def visit (zone : Zone κ) : Visit κ → Zone κ × Change
  | .enter k => zone.enter k
  | .leave k => zone.leave k
  | .clear => (zone.clear, .unchanged)

def after (zone : Zone κ) (visits : List (Visit κ)) : Zone κ :=
  visits.foldl (fun zone v => (zone.visit v).1) zone

/-- The visits, each with the change that it reports. -/
def trace (zone : Zone κ) : List (Visit κ) → List (Visit κ × Change)
  | [] => []
  | v :: visits => (v, (zone.visit v).2) :: trace (zone.visit v).1 visits

section
variable (zone : Zone κ) (visits : List (Visit κ)) (v : Visit κ) (k : κ)

@[simp] theorem after_nil : zone.after [] = zone := rfl

@[simp] theorem after_concat :
    zone.after (visits ++ [v]) = ((zone.after visits).visit v).1 := by
  simp [after]

@[simp] theorem trace_concat :
    zone.trace (visits ++ [v]) = zone.trace visits ++ [(v, ((zone.after visits).visit v).2)] := by
  induction visits generalizing zone with
  | nil => rfl
  | cons w visits ih => simp [trace, ih, after]

theorem isOccupied_enter : (zone.enter k).1.isOccupied := by
  unfold enter
  split
  · rename_i inside
    simp [isOccupied, isEmpty, List.ne_nil_of_mem inside]
  · rfl

/-- A visit that is not a clearing reports whether it made the zone occupied or empty. -/
theorem change_visit (hv : v ≠ .clear) : (zone.visit v).2 =
    if (zone.visit v).1.isOccupied = zone.isOccupied then .unchanged
    else if zone.isOccupied then .emptied else .filled := by
  cases v with
  | clear => exact absurd rfl hv
  | enter k =>
    by_cases inside : k ∈ zone.occupants
    · simp [visit, enter, inside]
    · have occupied := zone.isOccupied_enter k
      simp only [visit, occupied]
      cases empty : zone.isEmpty <;> simp [enter, inside, isOccupied, empty]
  | leave k =>
    by_cases inside : k ∈ zone.occupants
    · have occupied : zone.isOccupied := by
        simp [isOccupied, isEmpty, List.ne_nil_of_mem inside]
      simp only [visit, occupied]
      simp only [leave, if_pos inside, isOccupied]
      split <;> simp [*]
    · simp [visit, leave, inside]

end

/-! ## Histories -/

def sinceClear (visits : List (Visit κ)) : List (Visit κ) := visits.rtakeWhile (· ≠ .clear)

/-- Whether the last visit of `k` since the zone was last cleared was an entering. -/
def EnteredLast (visits : List (Visit κ)) (k : κ) : Prop :=
  ((sinceClear visits).filter (·.isBy k)).getLast? = some (.enter k)

/-- The changes that a new zone has reported since it was last cleared. -/
def changesSinceClear (visits : List (Visit κ)) : List Change :=
  ((((mk [] List.nodup_nil).trace visits).rtakeWhile (·.1 ≠ .clear)).map (·.2)).filter
    (· ≠ .unchanged)

/-- `n` changes, alternately filling and emptying. -/
def alternation (n : Nat) : List Change :=
  (List.range n).map fun i => if i % 2 = 0 then .filled else .emptied

/-- A zone is what its visits say. -/
structure Reflects (zone : Zone κ) (visits : List (Visit κ)) : Prop where
  contains_iff : ∀ k, zone.contains k ↔ EnteredLast visits k
  size_eq : (zone.size : ℕ∞) = {k | EnteredLast visits k}.encard
  alternates : ∃ n, changesSinceClear visits = alternation n
  isOccupied_iff : zone.isOccupied ↔ (changesSinceClear visits).getLast? = some .filled

section
variable (visits : List (Visit κ)) (v : Visit κ) (k : κ)

theorem sinceClear_concat :
    sinceClear (visits ++ [v]) = if v = .clear then [] else sinceClear visits ++ [v] := by
  simp only [sinceClear, List.rtakeWhile_concat, decide_eq_true_eq]
  split <;> simp_all

theorem enteredLast_concat :
    EnteredLast (visits ++ [v]) k ↔
      v = .enter k ∨ v ≠ .leave k ∧ v ≠ .clear ∧ EnteredLast visits k := by
  unfold EnteredLast
  rw [sinceClear_concat]
  cases v with
  | clear => simp
  | enter l => by_cases h : l = k <;> simp [Visit.isBy, List.filter_append, h]
  | leave l => by_cases h : l = k <;> simp [Visit.isBy, List.filter_append, h]

/-- After a visit `k` is there if it entered, or if it was there and has neither left nor been
cleared away. -/
theorem contains_visit (zone : Zone κ) : (zone.visit v).1.contains k ↔
    v = .enter k ∨ v ≠ .leave k ∧ v ≠ .clear ∧ zone.contains k := by
  cases v with
  | clear => simp [visit]
  | enter l => simp [visit, contains_enter, @eq_comm κ k l]
  | leave l => simp [visit, contains_leave, @eq_comm κ k l]

/-- Those are in the zone who entered last. -/
theorem contains_after : (({} : Zone κ).after visits).contains k ↔ EnteredLast visits k := by
  induction visits using List.reverseRecOn with
  | nil => exact iff_of_false Bool.false_ne_true (by simp [EnteredLast, sinceClear])
  | append_singleton visits v ih =>
    rw [after_concat, contains_visit, enteredLast_concat, ih]

/-- The size is the number of occupants. -/
theorem size_eq_encard (zone : Zone κ) : (zone.size : ℕ∞) = {k | zone.contains k}.encard := by
  have occupants : {k | zone.contains k} = (zone.occupants.toFinset : Set κ) := by
    ext k
    simp [contains]
  rw [occupants, Set.encard_coe_eq_coe_finsetCard, List.toFinset_card_of_nodup zone.nodup]
  rfl

theorem changesSinceClear_concat (hv : v ≠ .clear) : changesSinceClear (visits ++ [v]) =
    changesSinceClear visits ++
      [((({} : Zone κ).after visits).visit v).2].filter (· ≠ .unchanged) := by
  simp [changesSinceClear, hv]

theorem changesSinceClear_clear : changesSinceClear (visits ++ [.clear]) = [] := by
  simp [changesSinceClear]

end

theorem alternation_succ (n : Nat) :
    alternation (n + 1) = alternation n ++ [if n % 2 = 0 then .filled else .emptied] := by
  simp [alternation, List.range_succ]

/-- Alternating changes end with a filling exactly if their number is odd. -/
theorem getLast?_alternation (n : Nat) :
    (alternation n).getLast? = some .filled ↔ n % 2 = 1 := by
  cases n with
  | zero => simp [alternation]
  | succ n =>
    rw [alternation_succ, List.getLast?_concat]
    split <;> simp <;> omega

/-- The changes since the zone was last cleared alternate, and as many of them as are reported say
whether it is occupied. -/
theorem exists_alternation (visits : List (Visit κ)) : ∃ n,
    changesSinceClear visits = alternation n ∧
      ((({} : Zone κ).after visits).isOccupied ↔ n % 2 = 1) := by
  induction visits using List.reverseRecOn with
  | nil => exact ⟨0, rfl, iff_of_false Bool.false_ne_true (by decide)⟩
  | append_singleton visits v ih =>
    obtain ⟨n, changes, occupied⟩ := ih
    by_cases hv : v = .clear
    · subst hv
      rw [after_concat]
      exact ⟨0, changesSinceClear_clear visits, iff_of_false Bool.false_ne_true (by decide)⟩
    · rw [changesSinceClear_concat visits v hv, change_visit _ v hv, changes, after_concat]
      generalize ({} : Zone κ).after visits = zone at occupied
      split
      · exact ⟨n, by simp, by rwa [‹(zone.visit v).1.isOccupied = _›]⟩
      · refine ⟨n + 1, ?_, ?_⟩
        · rw [alternation_succ]
          grind
        · grind

/-- After any visits to a new zone, those are in it whose last visit since it was cleared was an
entering, and the changes reported since then alternate, the last of them telling whether the zone
is occupied. -/
theorem reflects_history (visits : List (Visit κ)) :
    (({} : Zone κ).after visits).Reflects visits where
  contains_iff := contains_after visits
  size_eq := by simp only [size_eq_encard, contains_after]
  alternates := (exists_alternation visits).imp fun _ h => h.1
  isOccupied_iff := by
    obtain ⟨n, changes, occupied⟩ := exists_alternation visits
    rw [occupied, changes, getLast?_alternation]

example : changesSinceClear [.enter 1, .clear, .enter 2, .enter 3, .leave 2, .leave 2, .leave 3] =
    [.filled, .emptied] := by
  decide

end

end Curves.Zone
