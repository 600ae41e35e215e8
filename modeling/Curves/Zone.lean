import Curves.Event

/-!
# Zones

Who is in a zone. Entering and leaving tell whether the zone became occupied or empty by it.
-/

namespace Curves

/-- The occupants of a zone, each of them once. -/
structure Zone (κ : Type) [DecidableEq κ] where
  occupants : List κ := []
  nodup : occupants.Nodup := by simp

/-- What a visit changed about a zone. -/
inductive Change where
  /-- The zone was empty and is no longer. -/
  | filled
  /-- The zone became empty. -/
  | emptied
  | unchanged
  deriving DecidableEq, Repr

namespace Change

def events : Change → List Event
  | .filled => [{ level := .debug, message := "occupied", fields := [] }]
  | .emptied => [{ level := .debug, message := "emptied", fields := [] }]
  | .unchanged => []

end Change

namespace Zone

variable {κ : Type} [DecidableEq κ]

def contains (zone : Zone κ) (k : κ) : Bool := decide (k ∈ zone.occupants)

def size (zone : Zone κ) : Nat := zone.occupants.length

def isEmpty (zone : Zone κ) : Bool := zone.occupants.isEmpty

def isOccupied (zone : Zone κ) : Bool := !zone.isEmpty

/-- Lets `k` enter; entering twice changes nothing. -/
def enter (zone : Zone κ) (k : κ) : Zone κ × Change :=
  if h : k ∈ zone.occupants then (zone, .unchanged)
  else
    (⟨k :: zone.occupants, List.nodup_cons.2 ⟨h, zone.nodup⟩⟩,
      if zone.isEmpty then .filled else .unchanged)

/-- Lets `k` leave; leaving without being there changes nothing. -/
def leave (zone : Zone κ) (k : κ) : Zone κ × Change :=
  if k ∈ zone.occupants then
    let rest : Zone κ := ⟨zone.occupants.erase k, zone.nodup.erase k⟩
    (rest, if rest.isEmpty then .emptied else .unchanged)
  else (zone, .unchanged)

/-- Forgets all occupants without a change being reported. -/
def clear (_ : Zone κ) : Zone κ := {}

@[simp] theorem contains_clear (zone : Zone κ) (k : κ) : zone.clear.contains k = false := rfl

/-- Whoever enters is there, and nobody else comes or goes. -/
theorem contains_enter (zone : Zone κ) (k l : κ) :
    (zone.enter k).1.contains l = (decide (l = k) || zone.contains l) := by
  by_cases h : k ∈ zone.occupants
  · by_cases hl : l = k <;> simp_all [enter, contains]
  · simp [enter, contains, h]

/-- Whoever leaves is gone, and nobody else comes or goes. -/
theorem contains_leave (zone : Zone κ) (k l : κ) :
    (zone.leave k).1.contains l = (!decide (l = k) && zone.contains l) := by
  by_cases h : k ∈ zone.occupants
  · simp [leave, contains, h, zone.nodup.mem_erase_iff]
  · by_cases hl : l = k <;> simp_all [leave, contains]

end Zone

end Curves
