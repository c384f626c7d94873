/-
  The audit of hidden aliases behind coarse states, after
  `poiex_runtime/future_state_sufficiency.py`.

  Kernels and residual coordinates are mappings from texts to texts; `str` of a text is the text.
  Both are read through sorted keys and lookups only, so a mapping stands without an order.  The
  dicts of the loops are lists of entries in the order of their creation.

  1. The kernel key of a state is its kernel, item by item in order: equal keys are equal mappings
     (`kernelKey_eq_iff`).

  2. `minimalResidualCoordinates` tries the coordinates one at a time.

  3. `auditFutureStateSufficiency` audits the members of each coarse state by themselves
     (`auditClass`).
-/
import Mathlib.Data.Prod.Lex
import PoiexGoc.Lib.Grouping
import PoiexGoc.Lib.PyRepr
import PoiexGoc.Runtime.Models

namespace PoiexGoc

open Py

/-- `sorted(d.items())`. -/
def sortedItems (d : Dict String) : List (String × String) :=
  d.liftOn (fun items => (items.entries.map fun e => (e.1, e.2)).insertionSort
      fun a b => toLex a ≤ toLex b) fun items items' hperm => by
    have hpair : Function.Injective fun e : Sigma fun _ : String => String => (e.1, e.2) := by
      rintro ⟨k, v⟩ ⟨k', v'⟩ heq
      obtain ⟨rfl, rfl⟩ := Prod.mk.inj heq
      rfl
    refine Reordering.insertionSort_eq_of_perm (hperm.map _) ?_
    exact ((List.NodupKeys.nodup items.nodupKeys).map hpair).map toLex.injective

theorem mem_sortedItems {d : Dict String} {k v : String} :
    (k, v) ∈ sortedItems d ↔ d.lookup k = some v := by
  induction d using Finmap.induction_on with
  | H items =>
    show (k, v) ∈ List.insertionSort _ _ ↔ items.lookup k = some v
    rw [List.mem_insertionSort, List.mem_map, ← Option.mem_def, AList.mem_lookup_iff]
    constructor
    · rintro ⟨⟨k', v'⟩, hmem, heq⟩
      obtain ⟨rfl, rfl⟩ := Prod.mk.inj heq
      exact hmem
    · intro hmem
      exact ⟨⟨k, v⟩, hmem, rfl⟩

/-- The sorted items are the mapping. -/
theorem sortedItems_injective : Function.Injective sortedItems := by
  intro d d' heq
  apply Finmap.ext_lookup
  intro k
  ext v
  rw [← mem_sortedItems, ← mem_sortedItems, heq]

structure UnderlyingOperationalState where
  stateId : String
  coarseState : String
  presentOutput : String
  continuationKernel : Dict String
  residualCoordinates : Dict String := ∅

namespace UnderlyingOperationalState

def kernelKey (state : UnderlyingOperationalState) : List (String × String) :=
  sortedItems state.continuationKernel

theorem kernelKey_eq_iff {s t : UnderlyingOperationalState} :
    s.kernelKey = t.kernelKey ↔ s.continuationKernel = t.continuationKernel :=
  sortedItems_injective.eq_iff

end UnderlyingOperationalState

structure CoarseStateAudit where
  coarseState : String
  memberStateIds : List String
  presentOutputs : List String
  distinctKernelCount : Nat
  status : String
  rivalKernelGroups : List (List String)
  minimalResidualCoordinates : List String
  deriving DecidableEq

structure FutureStateSufficiencyResult where
  classes : List CoarseStateAudit
  unsafeClassCount : Nat
  safeClassCount : Nat
  globalFutureExactnessClaimed : Bool
  negativeSeal : String
  additionalNegativeSeals : List String
  deriving DecidableEq

namespace FutureStateSufficiency

open UnderlyingOperationalState

/-- The kernels seen with each value of one coordinate; nothing when a state lacks it. -/
def coordinateGroups (key : String) (states : List UnderlyingOperationalState) :
    Option (List (String × Finset (List (String × String)))) :=
  states.foldlM (fun groups state =>
    (state.residualCoordinates.lookup key).map fun value =>
      Grouping.setdefault value ∅ (insert state.kernelKey) groups) []

/-- Every state has the coordinate, and each of its values goes with one kernel. -/
def sufficientCoordinate (states : List UnderlyingOperationalState) (key : String) : Bool :=
  match coordinateGroups key states with
  | none => false
  | some groups => groups.all fun g => decide (g.2.card = 1)

/-- `_minimal_residual_coordinates`. -/
def minimalResidualCoordinates (states : List UnderlyingOperationalState) : List String :=
  if (states.map kernelKey).toFinset.card ≤ 1 then []
  else
    let keys := states.flatMap fun state => sorted state.residualCoordinates.keys
    (sorted keys.toFinset).filter (sufficientCoordinate states)

/-- The key of a group of members, as `repr` sees it: a tuple of pairs. -/
def kernelPyKey (key : List (String × String)) : PyKey :=
  .tuple (key.map fun item => .tuple [.str item.1, .str item.2])

/-- The audit of one coarse state. -/
def auditClass [UnicodeTables] (coarseState : String)
    (membersRaw : List UnderlyingOperationalState) : CoarseStateAudit :=
  let members := membersRaw.insertionSort fun a b => a.stateId ≤ b.stateId
  let kernels := Grouping.group kernelKey stateId members
  let rivalGroups := (kernels.insertionSort fun a b =>
    pyRepr (kernelPyKey a.1) ≤ pyRepr (kernelPyKey b.1)).map fun g => g.2.insertionSort (· ≤ ·)
  { coarseState
    memberStateIds := members.map stateId
    presentOutputs := sorted (members.map presentOutput).toFinset
    distinctKernelCount := kernels.length
    status := if kernels.length ≤ 1 then "SAFE_FOR_DECLARED_KERNEL" else "STATE_ALIAS_UNSAFE"
    rivalKernelGroups := rivalGroups
    minimalResidualCoordinates := minimalResidualCoordinates members }

/-- `audit_future_state_sufficiency`.  No two entries of `grouped` have the same coarse state, so
    sorting its items compares coarse states only. -/
def auditFutureStateSufficiency [UnicodeTables] (states : List UnderlyingOperationalState) :
    Except PyError FutureStateSufficiencyResult :=
  let ids := states.map stateId
  if ids.toFinset.card ≠ ids.length then .error (.valueError "duplicate state_id")
  else
    let grouped := Grouping.group coarseState id states
    let audits := (grouped.insertionSort fun a b => a.1 ≤ b.1).map fun g => auditClass g.1 g.2
    let unsafeCount := audits.countP fun audit => audit.status = "STATE_ALIAS_UNSAFE"
    .ok
      { classes := audits
        unsafeClassCount := unsafeCount
        safeClassCount := audits.length - unsafeCount
        globalFutureExactnessClaimed := false
        negativeSeal := "PRESENT_EQUIVALENCE != FUTURE_ACTION_KERNEL_EQUIVALENCE"
        additionalNegativeSeals := ["FINITE_NO_COLLISION != FUTURE_EXACTNESS",
          "SAME_COMMON_FACTOR != SAME_FUTURE_KERNEL",
          "CENSORED_H != NEVER_EVENT",
          "SAFE_FOR_DECLARED_KERNEL != GLOBAL_FUTURE_EXACTNESS"] }

end FutureStateSufficiency

end PoiexGoc
