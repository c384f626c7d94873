/-
  The audit of control capacity, after `poiex_runtime/action_capacity.py`: for each action, whether
  its image rank grows with the scale inside the scales that were tested.

  1. A series that exists has passed `__post_init__` (`ActionCapacitySeries.create`): its fields say
     what the checks say.

  2. `auditActionCapacity` — sorted by action id, each series is growing, flat or not monotone.
-/
import PoiexGoc.Lib.PyValue

namespace PoiexGoc

open Py

structure ActionCapacitySeries where
  actionId : String
  scales : List Int
  imageRanks : List Int
  nonempty : scales ≠ []
  sameLength : scales.length = imageRanks.length
  positive : ∀ scale ∈ scales, 0 < scale
  nonnegative : ∀ rank ∈ imageRanks, 0 ≤ rank
  increasing : ∀ p ∈ scales.zip scales.tail, p.1 < p.2

namespace ActionCapacitySeries

/-- The constructor, with the checks of `__post_init__`. -/
def create (actionId : String) (scales imageRanks : List Int) :
    Except PyError ActionCapacitySeries :=
  if hshape : scales = [] ∨ scales.length ≠ imageRanks.length then
    .error (.valueError "scales and image_ranks must be nonempty and equal length")
  else if hscale : ∃ scale ∈ scales, scale ≤ 0 then .error (.valueError "scales must be positive")
  else if hrank : ∃ rank ∈ imageRanks, rank < 0 then
    .error (.valueError "image ranks cannot be negative")
  else if hstep : ∃ p ∈ scales.zip scales.tail, p.1 ≥ p.2 then
    .error (.valueError "scales must be strictly increasing")
  else
    .ok
      { actionId, scales, imageRanks
        nonempty := (not_or.mp hshape).1
        sameLength := not_not.mp (not_or.mp hshape).2
        positive := fun scale hmem => not_le.mp fun hle => hscale ⟨scale, hmem, hle⟩
        nonnegative := fun rank hmem => not_lt.mp fun hlt => hrank ⟨rank, hmem, hlt⟩
        increasing := fun p hmem => not_le.mp fun hle => hstep ⟨p, hmem, hle⟩ }

theorem imageRanks_ne_nil (item : ActionCapacitySeries) : item.imageRanks ≠ [] := by
  intro hnil
  have hlength := item.sameLength
  rw [hnil, List.length_nil, List.length_eq_zero_iff] at hlength
  exact item.nonempty hlength

/-- No rank is below the one before. -/
def monotone (item : ActionCapacitySeries) : Bool :=
  (item.imageRanks.zip item.imageRanks.tail).all fun p => p.1 ≤ p.2

/-- The last rank is above the first. -/
def grows (item : ActionCapacitySeries) : Bool :=
  item.imageRanks.getLast item.imageRanks_ne_nil > item.imageRanks.head item.imageRanks_ne_nil

end ActionCapacitySeries

structure ActionCapacityAudit where
  distinctActionCount : Nat
  growingDirectionCountInTestedEnvelope : Nat
  growingActions : List String
  boundedOrFlatActions : List String
  nonmonotoneActions : List String
  unboundedCapacityClaimed : Bool
  negativeSeal : String
  additionalNegativeSeals : List String
  deriving DecidableEq

namespace ActionCapacity

/-- The lists the loop appends to. -/
structure Sorting where
  growing : List String := []
  flat : List String := []
  nonmonotone : List String := []

/-- One turn of the loop. -/
def Sorting.add (lists : Sorting) (item : ActionCapacitySeries) : Sorting :=
  if ¬ item.monotone then { lists with nonmonotone := lists.nonmonotone ++ [item.actionId] }
  else if item.grows then { lists with growing := lists.growing ++ [item.actionId] }
  else { lists with flat := lists.flat ++ [item.actionId] }

/-- `audit_action_capacity`. -/
def auditActionCapacity (items : List ActionCapacitySeries) :
    Except PyError ActionCapacityAudit :=
  let ids := items.map ActionCapacitySeries.actionId
  if ids.toFinset.card ≠ ids.length then .error (.valueError "duplicate action_id")
  else
    let lists := (items.insertionSort fun a b => a.actionId ≤ b.actionId).foldl Sorting.add {}
    .ok
      { distinctActionCount := items.length
        growingDirectionCountInTestedEnvelope := lists.growing.length
        growingActions := lists.growing
        boundedOrFlatActions := lists.flat
        nonmonotoneActions := lists.nonmonotone
        unboundedCapacityClaimed := false
        negativeSeal := "DISTINCT_ACTION_CLASSES != MULTIPLE_GROWING_CONTROL_DIRECTIONS"
        additionalNegativeSeals := ["FINITE_ENVELOPE_GROWTH != UNBOUNDED_CAPACITY",
          "LARGE_STATE_SPACE != LARGE_EFFECTIVE_CONTROL_CAPACITY"] }

end ActionCapacity

end PoiexGoc
