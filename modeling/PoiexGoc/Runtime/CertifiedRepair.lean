/-
  Certified pruning of repair branches, after `poiex_runtime/certified_repair.py`.

  Fractions are rational numbers.  A candidate carries the positivity its constructor checks; the
  weights are a mapping in its iteration order.  The loops keep the source's order, since the
  loads and the uncovered obligations are reported in order.
-/
import Mathlib.Algebra.Order.Ring.Rat
import Mathlib.Data.List.AList
import PoiexGoc.Runtime.Models

namespace PoiexGoc

open Py

structure RepairObligation where
  obligationId : String
  necessary : Bool := true

structure RepairCandidate where
  candidateId : String
  covers : List String
  cost : ℚ
  cost_pos : 0 < cost

/-- `RepairCandidate(...)`, with the check of `__post_init__`. -/
def RepairCandidate.create (candidateId : String) (covers : List String) (cost : ℚ := 1) :
    Except PyError RepairCandidate :=
  if h : cost ≤ 0 then .error (.valueError "repair candidate cost must be positive")
  else .ok { candidateId, covers, cost, cost_pos := not_le.mp h }

structure CandidateDualLoad where
  candidateId : String
  load : ℚ
  capacity : ℚ
  valid : Bool
  deriving DecidableEq

structure CertifiedRepairDecision where
  branchId : String
  verdict : String
  lowerBound : ℚ
  remainingBudget : ℚ
  candidateLoads : List CandidateDualLoad
  uncoveredNecessaryObligations : List String
  reasons : List String
  negativeSeals : List String
  replayable : Bool
  heuristicScore : Option PyFloat
  deriving DecidableEq

/-- A mapping from obligation ids to weights. -/
abbrev ObligationWeights := AList fun _ : String => ℚ

namespace CertifiedRepair

/-- `{item.obligation_id: item for item in obligation_list}`. -/
def obligationMap (obligations : List RepairObligation) : Dict RepairObligation :=
  obligations.foldl (fun m item => m.insert item.obligationId item) ∅

/-- One weight of the mapping: an error, or an entry of the normalized weights. -/
def normalizeWeight (obligations : Dict RepairObligation) (st : Dict ℚ × List String)
    (entry : Sigma fun _ : String => ℚ) : Dict ℚ × List String :=
  match obligations.lookup entry.1 with
  | none => (st.1, st.2 ++ ["UNKNOWN_OBLIGATION_WEIGHT:" ++ entry.1])
  | some obligation =>
    if entry.2 < 0 then (st.1, st.2 ++ ["NEGATIVE_OBLIGATION_WEIGHT:" ++ entry.1])
    else if 0 < entry.2 ∧ obligation.necessary = false then
      (st.1, st.2 ++ ["NONNECESSARY_OBLIGATION_WEIGHTED:" ++ entry.1])
    else (st.1.insert entry.1 entry.2, st.2)

/-- `normalized.setdefault(obligation_id, Fraction(0, 1))`. -/
def setDefault (normalized : Dict ℚ) (obligationId : String) : Dict ℚ :=
  if obligationId ∈ normalized then normalized else normalized.insert obligationId 0

/-- `_normalize_weights`. -/
def normalizeWeights (obligations : Dict RepairObligation) (obligationWeights : ObligationWeights) :
    Dict ℚ × List String :=
  let st := obligationWeights.entries.foldl (normalizeWeight obligations) (∅, [])
  ((sorted obligations.keys).foldl setDefault st.1, st.2)

/-- The ids a candidate covers that are no obligation's, over all candidates. -/
def unknownCoverIds (obligations : Dict RepairObligation) (candidates : List RepairCandidate) :
    List String :=
  sorted ((candidates.flatMap RepairCandidate.covers).filter (· ∉ obligations)).toFinset

def necessaryIds (obligations : List RepairObligation) : Finset String :=
  ((obligations.filter RepairObligation.necessary).map RepairObligation.obligationId).toFinset

def coveredIds (necessary : Finset String) (candidates : List RepairCandidate) : Finset String :=
  ((candidates.flatMap RepairCandidate.covers).filter (· ∈ necessary)).toFinset

/-- `weights.get(obligation_id, Fraction(0, 1))`. -/
def weightOf (weights : Dict ℚ) (obligationId : String) : ℚ := (weights.lookup obligationId).getD 0

def dualLoad (weights : Dict ℚ) (candidate : RepairCandidate) : CandidateDualLoad :=
  let load := (candidate.covers.map (weightOf weights)).sum
  { candidateId := candidate.candidateId, load, capacity := candidate.cost
    valid := load ≤ candidate.cost }

/-- The candidates by id. -/
def byId (candidates : List RepairCandidate) : List RepairCandidate :=
  candidates.insertionSort fun a b => a.candidateId ≤ b.candidateId

def loadErrors (loads : List CandidateDualLoad) : List String :=
  (loads.filter fun load => load.valid = false).map fun load =>
    "DUAL_LOAD_EXCEEDS_CANDIDATE_COST:" ++ load.candidateId

/-- `weights[item]`. -/
def weightItem (weights : Dict ℚ) (obligationId : String) : Except PyError ℚ :=
  match weights.lookup obligationId with
  | some weight => .ok weight
  | none => .error (.keyError obligationId)

def negativeSeals : List String :=
  ["HEURISTIC_BAD_SCORE != CERTIFIED_INFEASIBLE_BRANCH",
   "LOCAL_REPAIR_CHEAPNESS != GLOBAL_REPAIR_FEASIBILITY",
   "DUAL_LOWER_BOUND != EXACT_MINIMUM_REPAIR_COST"]

/-- The verdict, its reasons and whether it is replayable. -/
def adjudicate (errors uncovered : List String) (lowerBound budget : ℚ) :
    String × List String × Bool :=
  if errors ≠ [] then ("INVALID_CERTIFICATE", sorted errors.toFinset, false)
  else if uncovered ≠ [] then
    ("CERTIFIED_PRUNE",
      uncovered.map fun item => "NO_ADMISSIBLE_REPAIR_FOR_NECESSARY_OBLIGATION:" ++ item, true)
  else if budget < lowerBound then
    ("CERTIFIED_PRUNE", ["VERIFIED_DUAL_LOWER_BOUND_EXCEEDS_REMAINING_BUDGET"], true)
  else ("KEEP_SEARCH", ["NO_CERTIFIED_INFEASIBILITY"], true)

/-- The inputs the source refuses. -/
def checkInputs (obligations : List RepairObligation) (candidates : List RepairCandidate)
    (remainingBudget : ℚ) : Except PyError Unit :=
  if remainingBudget < 0 then .error (.valueError "remaining budget cannot be negative")
  else if (obligationMap obligations).keys.card ≠ obligations.length then
    .error (.valueError "duplicate obligation_id")
  else if (candidates.map RepairCandidate.candidateId).toFinset.card ≠ candidates.length then
    .error (.valueError "duplicate candidate_id")
  else .ok ()

/-- The weights the certificate is checked with. -/
def dualWeights (obligations : List RepairObligation) (obligationWeights : ObligationWeights) :
    Dict ℚ :=
  (normalizeWeights (obligationMap obligations) obligationWeights).1

def candidateLoads (obligations : List RepairObligation) (candidates : List RepairCandidate)
    (obligationWeights : ObligationWeights) : List CandidateDualLoad :=
  (byId candidates).map (dualLoad (dualWeights obligations obligationWeights))

/-- Everything that is wrong with the certificate. -/
def certificateErrors (obligations : List RepairObligation) (candidates : List RepairCandidate)
    (obligationWeights : ObligationWeights) : List String :=
  (normalizeWeights (obligationMap obligations) obligationWeights).2 ++
  (unknownCoverIds (obligationMap obligations) candidates).map (fun item =>
    "CANDIDATE_COVERS_UNKNOWN_OBLIGATION:" ++ item) ++
  loadErrors (candidateLoads obligations candidates obligationWeights)

def uncoveredIds (obligations : List RepairObligation) (candidates : List RepairCandidate) :
    List String :=
  sorted (necessaryIds obligations \ coveredIds (necessaryIds obligations) candidates)

def certifyRepairBranch (branchId : String) (obligations : List RepairObligation)
    (candidates : List RepairCandidate) (obligationWeights : ObligationWeights)
    (remainingBudget : ℚ) (heuristicScore : Option PyFloat := none) :
    Except PyError CertifiedRepairDecision := do
  checkInputs obligations candidates remainingBudget
  let weights := dualWeights obligations obligationWeights
  let necessaryWeights ← (sorted (necessaryIds obligations)).mapM (weightItem weights)
  let lowerBound := necessaryWeights.sum
  let uncovered := uncoveredIds obligations candidates
  let (verdict, reasons, replayable) := adjudicate
    (certificateErrors obligations candidates obligationWeights) uncovered lowerBound
    remainingBudget
  return {
    branchId, verdict, lowerBound, remainingBudget
    candidateLoads := candidateLoads obligations candidates obligationWeights
    uncoveredNecessaryObligations := uncovered, reasons, negativeSeals, replayable
    heuristicScore }

end CertifiedRepair

end PoiexGoc
