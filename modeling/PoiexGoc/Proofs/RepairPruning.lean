/-
  Certified pruning is SOUND.

  1. The certificate's weights are never negative: a negative weight is reported and dropped
     (`weightOf_nonneg`).

  2. Without a load error every candidate's load, repeated coverings included, is within its cost
     (`loadErrors_eq_nil_iff`), so the weights are a feasible dual of the covering problem and
     `Covering.weight_le_cost` bounds every covering selection from below.

  3. The reported lower bound is the weight of the necessary obligations (`necessaryWeight_eq`), and
     a prune is one of two verdicts: the bound exceeds the budget, or some necessary obligation is
     covered by no candidate at all.
-/
import PoiexGoc.Lib.Covering
import PoiexGoc.Proofs.RepairCertificates

namespace PoiexGoc

open Py

namespace CertifiedRepair

/-! ## Loads and the lower bound -/

/-- What a candidate covers, with repetitions. -/
def coverings (c : RepairCandidate) : Multiset String := c.covers

theorem weightOf_nonneg (obligations : List RepairObligation)
    (obligationWeights : ObligationWeights) (id : String) :
    0 ≤ weightOf (dualWeights obligations obligationWeights) id := by
  rw [weightOf_dualWeights]
  exact acceptedWeight_nonneg _ obligationWeights id

/-- No load error means that every candidate's load is within its cost. -/
theorem loadErrors_eq_nil_iff {weights : Dict ℚ} {candidates : List RepairCandidate} :
    loadErrors ((byId candidates).map (dualLoad weights)) = [] ↔
      ∀ c ∈ candidates, Covering.load coverings (weightOf weights) c ≤ c.cost := by
  rw [loadErrors, List.map_eq_nil_iff, List.filter_eq_nil_iff]
  constructor
  · intro hall c hc
    have hmem : dualLoad weights c ∈ (byId candidates).map (dualLoad weights) :=
      List.mem_map_of_mem ((List.mem_insertionSort _).mpr hc)
    have hvalid : (dualLoad weights c).valid ≠ false :=
      fun hinvalid => hall _ hmem (decide_eq_true hinvalid)
    have hload : (c.covers.map (weightOf weights)).sum ≤ c.cost :=
      of_decide_eq_true ((Bool.not_eq_false _).mp hvalid)
    exact hload
  · intro hall load hload
    obtain ⟨c, hc, rfl⟩ := List.mem_map.mp hload
    have hfits : (dualLoad weights c).valid = true :=
      decide_eq_true (hall c ((List.mem_insertionSort _).mp hc))
    rw [hfits]
    decide

/-- The lower bound, as a sum over the set of necessary ids. -/
theorem necessaryWeight_eq (obligations : List RepairObligation)
    (obligationWeights : ObligationWeights) :
    necessaryWeight obligations obligationWeights =
      ((necessaryIds obligations).val.map
        (weightOf (dualWeights obligations obligationWeights))).sum := by
  rw [necessaryWeight, ← coe_sorted, Multiset.map_coe, Multiset.sum_coe]

/-! ## The verdict -/

/-- An obligation that no candidate covers is among the uncovered ones, and conversely. -/
theorem mem_uncoveredIds {obligations : List RepairObligation} {candidates : List RepairCandidate}
    {id : String} :
    id ∈ uncoveredIds obligations candidates ↔
      id ∈ necessaryIds obligations ∧ ∀ c ∈ candidates, id ∉ coverings c := by
  rw [uncoveredIds, mem_sorted, Finset.mem_sdiff, coveredIds, List.mem_toFinset, List.mem_filter,
    List.mem_flatMap]
  constructor
  · rintro ⟨hnecessary, hnot⟩
    exact ⟨hnecessary, fun c hc hid => hnot ⟨⟨c, hc, hid⟩, decide_eq_true hnecessary⟩⟩
  · rintro ⟨hnecessary, hnone⟩
    exact ⟨hnecessary, fun ⟨⟨c, hc, hid⟩, _⟩ => hnone c hc hid⟩

/-- A selection that covers the necessary obligations covers their ids. -/
theorem covers_necessaryIds {obligations : List RepairObligation}
    {selection : Multiset RepairCandidate}
    (hcovers : ∀ o ∈ obligations, o.necessary = true → ∃ c ∈ selection, o.obligationId ∈ c.covers) :
    Covering.Covers coverings selection (necessaryIds obligations) := by
  intro id hid
  obtain ⟨o, hmem, hnecessary, rfl⟩ := mem_necessaryIds.mp hid
  obtain ⟨c, hc, hcover⟩ := hcovers o hmem hnecessary
  exact ⟨c, hc, hcover⟩

/-- Pruning is sound.  On a decision that was returned, for every selection of candidates (with
    repetitions) that together covers all necessary obligations: unless the certificate was found
    invalid, the reported lower bound is at most the cost of the selection; and when the branch was
    pruned, the selection costs more than the remaining budget. -/
theorem certified_prune_is_sound {branchId : String} {obligations : List RepairObligation}
    {candidates : List RepairCandidate} {obligationWeights : ObligationWeights}
    {remainingBudget : ℚ} {heuristicScore : Option PyFloat} {decision : CertifiedRepairDecision}
    (hreturned : certifyRepairBranch branchId obligations candidates obligationWeights
      remainingBudget heuristicScore = .ok decision)
    {selection : Multiset RepairCandidate} (hselection : ∀ c ∈ selection, c ∈ candidates)
    (hcovers : ∀ o ∈ obligations, o.necessary = true →
      ∃ c ∈ selection, o.obligationId ∈ c.covers) :
    (decision.verdict ≠ "INVALID_CERTIFICATE" →
      decision.lowerBound ≤ (selection.map RepairCandidate.cost).sum) ∧
    (decision.verdict = "CERTIFIED_PRUNE" →
      remainingBudget < (selection.map RepairCandidate.cost).sum) := by
  obtain ⟨-, rfl⟩ := certifyRepairBranch_eq_ok hreturned
  have hcovers := covers_necessaryIds hcovers
  -- weak duality, for a certificate without errors
  have hbound : certificateErrors obligations candidates obligationWeights = [] →
      necessaryWeight obligations obligationWeights ≤
        (selection.map RepairCandidate.cost).sum := by
    intro hnil
    have hloads := loadErrors_eq_nil_iff.mp (List.append_eq_nil_iff.mp hnil).2
    rw [necessaryWeight_eq]
    exact Covering.weight_le_cost coverings (weightOf_nonneg obligations obligationWeights)
      (fun c hc => hloads c (hselection c hc)) hcovers
  refine ⟨fun hverdict => hbound ?_, fun hverdict => ?_⟩
  · by_contra hne
    exact hverdict (adjudicate_invalid_iff.mpr hne)
  obtain ⟨hnil, huncovered | hexceeds⟩ := adjudicate_prune_iff.mp hverdict
  · -- an obligation without any candidate: no selection covers it
    obtain ⟨id, hid⟩ := List.exists_mem_of_ne_nil _ huncovered
    obtain ⟨hnecessary, hnone⟩ := mem_uncoveredIds.mp hid
    exact absurd hcovers (Covering.not_covers_of_uncovered coverings hnecessary hnone hselection)
  · exact lt_of_lt_of_le hexceeds (hbound hnil)

/-- One pump, weighted 3/2, and one repair of cost 3 that names it twice: with a budget of 1 the
    branch is pruned, and the repair indeed costs more. -/
theorem prune_of_a_pump_is_sound :
    let repair : RepairCandidate := ⟨"replace-seal", ["pump-A", "pump-A"], 3, by decide⟩
    ∃ decision, certifyRepairBranch "branch-1" [⟨"pump-A", true⟩] [repair]
        (AList.insert "pump-A" (3 / 2) ∅) 1 = .ok decision ∧
      1 < (Multiset.map RepairCandidate.cost {repair}).sum := by
  intro repair
  have hpruned : (certifyRepairBranch "branch-1" [⟨"pump-A", true⟩] [repair]
      (AList.insert "pump-A" (3 / 2) ∅) 1).map CertifiedRepairDecision.verdict =
        .ok "CERTIFIED_PRUNE" := by decide +kernel
  cases hreturned : certifyRepairBranch "branch-1" [⟨"pump-A", true⟩] [repair]
      (AList.insert "pump-A" (3 / 2) ∅) 1 with
  | error e =>
    rw [hreturned] at hpruned
    cases hpruned
  | ok decision =>
    rw [hreturned] at hpruned
    refine ⟨decision, rfl, (certified_prune_is_sound hreturned ?_ ?_).2 (Except.ok.inj hpruned)⟩
    · intro c hc
      rw [Multiset.mem_singleton.mp hc]
      exact List.mem_singleton_self _
    · intro o ho _
      rw [List.mem_singleton.mp ho]
      exact ⟨repair, Multiset.mem_singleton_self _, List.mem_cons_self⟩

end CertifiedRepair

end PoiexGoc
