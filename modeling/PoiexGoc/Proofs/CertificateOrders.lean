/-
  A certificate in ANY ORDER.

  Obligations, candidates, coverings and weights come as sequences, but the decision depends on what
  they hold only.

  1. With distinct ids the map of obligations and the normalized weights are the same maps in every
     order: both are given by what they find under an id (`obligationMap_eq_of_perm`,
     `dualWeights_eq_of_perm`).

  2. The necessary, covered and unknown ids are sets, hence sorted alike; the loads are sums over the
     coverings, listed by distinct candidate ids (`candidateLoads_eq_of_reordered`).

  3. The error list is the same up to order, and the verdict reads it as a set
     (`adjudicate_eq_of_perm`).  The inputs are refused alike, so a call has the same outcome in
     every order (`certificate_replays_in_any_order`).
-/
import PoiexGoc.Lib.Reordering
import PoiexGoc.Proofs.RepairCertificates

namespace PoiexGoc

open Py Reordering

/-- The same candidate, with its coverings in another order. -/
structure RepairCandidate.Relists (c c' : RepairCandidate) : Prop where
  candidateId : c.candidateId = c'.candidateId
  covers : c.covers.Perm c'.covers
  cost : c.cost = c'.cost

namespace CertifiedRepair

section Orders

variable {obligations obligations' : List RepairObligation}
  {candidates candidates' : List RepairCandidate}
  {obligationWeights obligationWeights' : ObligationWeights}

/-! ## The maps -/

/-- With distinct ids the order of the obligations does not matter to their map. -/
theorem obligationMap_eq_of_perm (hobligations : obligations.Perm obligations')
    (hids : (obligations.map RepairObligation.obligationId).Nodup) :
    obligationMap obligations = obligationMap obligations' := by
  have hids' : (obligations'.map RepairObligation.obligationId).Nodup :=
    (hobligations.map _).nodup_iff.mp hids
  apply Finmap.ext_lookup
  intro id
  apply Option.ext
  intro obligation
  rw [lookup_obligationMap_iff hids, lookup_obligationMap_iff hids', hobligations.mem_iff]

/-- The loops over the weights end with the same weights in every order. -/
theorem dualWeights_eq_of_perm (hmap : obligationMap obligations = obligationMap obligations')
    (hweights : obligationWeights.entries.Perm obligationWeights'.entries) :
    dualWeights obligations obligationWeights = dualWeights obligations' obligationWeights' := by
  apply Finmap.ext_lookup
  intro id
  unfold dualWeights
  rw [lookup_normalizeWeights, lookup_normalizeWeights, hmap, acceptedWeight, acceptedWeight,
    AList.perm_lookup hweights]

/-- The entries are reported in their order. -/
theorem weightErrors_perm (known : Dict RepairObligation)
    (hweights : obligationWeights.entries.Perm obligationWeights'.entries) :
    (normalizeWeights known obligationWeights).2.Perm
      (normalizeWeights known obligationWeights').2 := by
  unfold normalizeWeights
  rw [foldl_normalizeWeight_errors, foldl_normalizeWeight_errors]
  exact (hweights.filterMap (weightError known)).append_left []

/-! ## The sets -/

theorem necessaryIds_eq_of_perm (hobligations : obligations.Perm obligations') :
    necessaryIds obligations = necessaryIds obligations' :=
  List.toFinset_eq_of_perm _ _
    ((hobligations.filter _).map RepairObligation.obligationId)

/-- Everything that is covered, with repetitions. -/
theorem flatMap_covers_perm
    (hcandidates : Reordered RepairCandidate.Relists candidates candidates') :
    (candidates.flatMap RepairCandidate.covers).Perm
      (candidates'.flatMap RepairCandidate.covers) :=
  hcandidates.flatMap_perm (fun _ _ h => h.covers)

theorem unknownCoverIds_eq_of_reordered (known : Dict RepairObligation)
    (hcandidates : Reordered RepairCandidate.Relists candidates candidates') :
    unknownCoverIds known candidates = unknownCoverIds known candidates' := by
  unfold unknownCoverIds
  rw [List.toFinset_eq_of_perm _ _ ((flatMap_covers_perm hcandidates).filter _)]

theorem coveredIds_eq_of_reordered (necessary : Finset String)
    (hcandidates : Reordered RepairCandidate.Relists candidates candidates') :
    coveredIds necessary candidates = coveredIds necessary candidates' :=
  List.toFinset_eq_of_perm _ _ ((flatMap_covers_perm hcandidates).filter _)

theorem uncoveredIds_eq_of_reordered (hobligations : obligations.Perm obligations')
    (hcandidates : Reordered RepairCandidate.Relists candidates candidates') :
    uncoveredIds obligations candidates = uncoveredIds obligations' candidates' := by
  unfold uncoveredIds
  rw [necessaryIds_eq_of_perm hobligations, coveredIds_eq_of_reordered _ hcandidates]

/-! ## The loads -/

/-- A load is a sum: the order of the coverings does not matter. -/
theorem dualLoad_eq_of_relists (weights : Dict ℚ) {c c' : RepairCandidate} (h : c.Relists c') :
    dualLoad weights c = dualLoad weights c' := by
  have hload : (c.covers.map (weightOf weights)).sum = (c'.covers.map (weightOf weights)).sum :=
    (h.covers.map _).sum_eq
  unfold dualLoad
  rw [hload, h.candidateId, h.cost]

/-- Sorting the candidates sorts their loads. -/
theorem map_byId (weights : Dict ℚ) (candidates : List RepairCandidate) :
    (byId candidates).map (dualLoad weights) =
      (candidates.map (dualLoad weights)).insertionSort
        fun a b => a.candidateId ≤ b.candidateId :=
  List.map_insertionSort _ _ (dualLoad weights) candidates (fun _ _ _ _ => Iff.rfl)

theorem candidateLoads_eq_of_reordered
    (hweights : dualWeights obligations obligationWeights =
      dualWeights obligations' obligationWeights')
    (hcandidates : Reordered RepairCandidate.Relists candidates candidates')
    (hids : (candidates.map RepairCandidate.candidateId).Nodup) :
    candidateLoads obligations candidates obligationWeights =
      candidateLoads obligations' candidates' obligationWeights' := by
  unfold candidateLoads
  rw [hweights, map_byId, map_byId]
  have hloads := hcandidates.map_perm
    (fun _ _ h => dualLoad_eq_of_relists (dualWeights obligations' obligationWeights') h)
  refine insertionSort_eq_of_perm hloads ?_
  rw [List.map_map]
  exact hids

/-! ## The verdict -/

/-- The verdict and its reasons read the errors as a set. -/
theorem adjudicate_eq_of_perm {errors errors' : List String} (herrors : errors.Perm errors')
    (uncovered : List String) (lowerBound budget : ℚ) :
    adjudicate errors uncovered lowerBound budget =
      adjudicate errors' uncovered lowerBound budget := by
  have hempty : errors = [] ↔ errors' = [] := by
    constructor
    · rintro rfl
      exact herrors.nil_eq.symm
    · rintro rfl
      exact herrors.eq_nil
  unfold adjudicate
  rw [List.toFinset_eq_of_perm _ _ herrors]
  by_cases hnil : errors = []
  · rw [if_neg (not_not.mpr hnil), if_neg (not_not.mpr (hempty.mp hnil))]
  · rw [if_pos hnil, if_pos (mt hempty.mpr hnil)]

/-- The inputs are refused in all orders or in none, with the same message. -/
theorem checkInputs_eq_of_reordered (hobligations : obligations.Perm obligations')
    (hcandidates : Reordered RepairCandidate.Relists candidates candidates')
    (remainingBudget : ℚ) :
    checkInputs obligations candidates remainingBudget =
      checkInputs obligations' candidates' remainingBudget := by
  have hids : (candidates.map RepairCandidate.candidateId).Perm
      (candidates'.map RepairCandidate.candidateId) :=
    hcandidates.map_perm (fun _ _ h => h.candidateId)
  have hlength : candidates.length = candidates'.length := by
    have := hids.length_eq
    rwa [List.length_map, List.length_map] at this
  unfold checkInputs
  rw [keys_obligationMap, keys_obligationMap, hobligations.length_eq, hlength,
    List.toFinset_eq_of_perm _ _ (hobligations.map RepairObligation.obligationId),
    List.toFinset_eq_of_perm _ _ hids]

/-- On admitted inputs the whole decision is the same. -/
theorem decided_eq_of_reordered {remainingBudget : ℚ}
    (hadmitted : Admitted obligations candidates remainingBudget)
    (hobligations : obligations.Perm obligations')
    (hcandidates : Reordered RepairCandidate.Relists candidates candidates')
    (hweights : obligationWeights.entries.Perm obligationWeights'.entries) (branchId : String)
    (heuristicScore : Option PyFloat) :
    decided branchId obligations candidates obligationWeights remainingBudget heuristicScore =
      decided branchId obligations' candidates' obligationWeights' remainingBudget
        heuristicScore := by
  have hmap := obligationMap_eq_of_perm hobligations hadmitted.obligationIds
  have hdual := dualWeights_eq_of_perm hmap hweights
  have hloads := candidateLoads_eq_of_reordered hdual hcandidates hadmitted.candidateIds
  have hbound : necessaryWeight obligations obligationWeights =
      necessaryWeight obligations' obligationWeights' := by
    unfold necessaryWeight
    rw [necessaryIds_eq_of_perm hobligations, hdual]
  have herrors : (certificateErrors obligations candidates obligationWeights).Perm
      (certificateErrors obligations' candidates' obligationWeights') := by
    unfold certificateErrors
    rw [hmap, hloads, unknownCoverIds_eq_of_reordered _ hcandidates]
    exact ((weightErrors_perm _ hweights).append_right _).append_right _
  have huncovered := uncoveredIds_eq_of_reordered hobligations hcandidates
  have hverdict := adjudicate_eq_of_perm herrors (uncoveredIds obligations' candidates')
    (necessaryWeight obligations' obligationWeights') remainingBudget
  unfold decided
  dsimp only
  rw [hbound, hloads, huncovered, hverdict]

end Orders

/-- A certificate replays identically however its parts are listed: with the obligations, the
    candidates, the coverings of each candidate and the weights in any other order, the call has the
    same outcome, and if it raises, it raises a ValueError. -/
theorem certificate_replays_in_any_order (branchId : String)
    {obligations obligations' : List RepairObligation}
    {candidates candidates' : List RepairCandidate}
    {obligationWeights obligationWeights' : ObligationWeights}
    (hobligations : obligations.Perm obligations')
    (hcandidates : Reordered RepairCandidate.Relists candidates candidates')
    (hweights : obligationWeights.entries.Perm obligationWeights'.entries)
    (remainingBudget : ℚ) (heuristicScore : Option PyFloat) :
    certifyRepairBranch branchId obligations candidates obligationWeights remainingBudget
        heuristicScore =
      certifyRepairBranch branchId obligations' candidates' obligationWeights' remainingBudget
        heuristicScore ∧
    ∀ e, certifyRepairBranch branchId obligations candidates obligationWeights remainingBudget
        heuristicScore = .error e → ∃ message, e = .valueError message := by
  have hchecks := checkInputs_eq_of_reordered hobligations hcandidates remainingBudget
  rw [certifyRepairBranch_eq, certifyRepairBranch_eq, ← hchecks]
  cases hchecked : checkInputs obligations candidates remainingBudget with
  | error e =>
    refine ⟨rfl, fun e' he' => ?_⟩
    rw [← Except.error.inj he']
    exact valueError_of_checkInputs hchecked
  | ok _ =>
    have hadmitted := checkInputs_eq_ok.mp hchecked
    refine ⟨?_, fun e' he' => by cases he'⟩
    show Except.ok _ = Except.ok _
    rw [decided_eq_of_reordered hadmitted hobligations hcandidates hweights]

/-- Two pumps and two repairs, everything listed backwards, the coverings of the first repair too. -/
theorem pumps_replay_backwards :
    let repair : RepairCandidate := ⟨"replace-seal", ["pump-A", "pump-B"], 2, by decide⟩
    let repair' : RepairCandidate := ⟨"replace-seal", ["pump-B", "pump-A"], 2, by decide⟩
    let valve : RepairCandidate := ⟨"replace-valve", ["pump-B"], 1, by decide⟩
    certifyRepairBranch "branch-1" [⟨"pump-A", true⟩, ⟨"pump-B", true⟩] [repair, valve]
        (AList.insert "pump-A" (3 / 2) (AList.insert "pump-B" (1 / 2) ∅)) 1 =
      certifyRepairBranch "branch-1" [⟨"pump-B", true⟩, ⟨"pump-A", true⟩] [valve, repair']
        (AList.insert "pump-B" (1 / 2) (AList.insert "pump-A" (3 / 2) ∅)) 1 := by
  intro repair repair' valve
  have hcandidates : Reordered RepairCandidate.Relists [repair, valve] [valve, repair'] := by
    refine ⟨[valve, repair], List.Perm.swap _ _ _, .cons ?_ (.cons ?_ .nil)⟩
    · exact ⟨rfl, List.Perm.refl _, rfl⟩
    · exact ⟨rfl, List.Perm.swap _ _ _, rfl⟩
  have hweights : (AList.insert "pump-A" (3 / 2 : ℚ)
      (AList.insert "pump-B" (1 / 2) (∅ : ObligationWeights))).entries.Perm
      (AList.insert "pump-B" (1 / 2) (AList.insert "pump-A" (3 / 2) ∅)).entries :=
    AList.insert_insert_of_ne _ (by decide)
  exact (certificate_replays_in_any_order "branch-1" (List.Perm.swap _ _ _) hcandidates hweights 1
    none).1

end CertifiedRepair

end PoiexGoc
