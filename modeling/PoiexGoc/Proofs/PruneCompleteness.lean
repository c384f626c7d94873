/-
  Which branches SOME certificate prunes.

  1. A fractional repair takes an amount of each candidate such that every necessary obligation is
     covered at least once in total.  It is a fractional cover of the necessary ids, and feasible
     weights bound its cost (`pruned_exceeds`).

  2. Conversely, when every fractional repair is dearer than the budget, duality gives feasible
     weights that exceed it (`Covering.exists_weights_of_dear`), and the mapping of these weights is
     a certificate the code accepts and prunes with (`weightsMapping`, `pruned_of_dear`).

  3. So the certificates decide the linear relaxation exactly, and nothing more: a branch that only
     has fractional repairs within its budget is kept whatever the certificate
     (`prunable_iff_fractional_repairs_exceed_budget`).

  4. A certificate that prunes a branch prunes every part of it: fewer candidates, more obligations,
     or less budget (`parts_of_a_pruned_branch_are_pruned`).  The added obligations have no weight in
     it, so neither a load nor the bound changes.
-/
import PoiexGoc.Lib.LinearDuality
import PoiexGoc.Proofs.CertificateVerdicts

namespace PoiexGoc

open Py

namespace CertifiedRepair

/-- Every id a candidate covers is an obligation's. -/
def KnownCovers (obligations : List RepairObligation) (candidates : List RepairCandidate) : Prop :=
  ∀ c ∈ candidates, ∀ id ∈ c.covers, ∃ o ∈ obligations, o.obligationId = id

/-- An amount of each candidate that covers every necessary obligation; an obligation listed twice is
    covered twice, as the loads count it. -/
structure FractionalRepair (obligations : List RepairObligation)
    (candidates : List RepairCandidate) (amount : RepairCandidate → ℚ) : Prop where
  nonneg : ∀ c ∈ candidates, 0 ≤ amount c
  repaired : ∀ o ∈ obligations, o.necessary = true →
    1 ≤ (candidates.map fun c => amount c * (c.covers.count o.obligationId : ℕ)).sum

def fractionalCost (candidates : List RepairCandidate) (amount : RepairCandidate → ℚ) : ℚ :=
  (candidates.map fun c => amount c * c.cost).sum

section Duality

variable {obligations : List RepairObligation} {candidates : List RepairCandidate}
  {obligationWeights : ObligationWeights} {remainingBudget : ℚ}

open Classical in
/-- Over distinct candidates the sums of a list are sums over a set. -/
theorem sum_candidates (hids : (candidates.map RepairCandidate.candidateId).Nodup)
    (f : RepairCandidate → ℚ) :
    (candidates.map f).sum = ∑ c ∈ candidates.toFinset, f c :=
  (List.sum_toFinset f hids.of_map).symm

theorem count_coverings (c : RepairCandidate) (id : String) :
    (coverings c).count id = c.covers.count id := Multiset.coe_count id c.covers

open Classical in
/-- A fractional repair is a fractional cover of the necessary ids. -/
theorem fractionalRepair_iff (hids : (candidates.map RepairCandidate.candidateId).Nodup)
    {amount : RepairCandidate → ℚ} :
    FractionalRepair obligations candidates amount ↔
      Covering.FractionalCover coverings candidates.toFinset (necessaryIds obligations) amount := by
  constructor
  · rintro ⟨hnonneg, hrepaired⟩
    refine ⟨fun c hc => hnonneg c (List.mem_toFinset.mp hc), fun id hid => ?_⟩
    obtain ⟨o, ho, hnecessary, rfl⟩ := mem_necessaryIds.mp hid
    have hsum := hrepaired o ho hnecessary
    rw [sum_candidates hids] at hsum
    simpa only [count_coverings] using hsum
  · rintro ⟨hnonneg, hcovered⟩
    refine ⟨fun c hc => hnonneg c (List.mem_toFinset.mpr hc), fun o ho hnecessary => ?_⟩
    have hsum := hcovered _ (mem_necessaryIds.mpr ⟨o, ho, hnecessary, rfl⟩)
    rw [sum_candidates hids]
    simpa only [count_coverings] using hsum

/-! ## A pruned branch has no repair within its budget -/

/-- A prune, in terms of the error list, the uncovered ids and the lower bound. -/
theorem decided_prune_iff {branchId : String} {heuristicScore : Option PyFloat} :
    (decided branchId obligations candidates obligationWeights remainingBudget
      heuristicScore).verdict = "CERTIFIED_PRUNE" ↔
    certificateErrors obligations candidates obligationWeights = [] ∧
      (uncoveredIds obligations candidates ≠ [] ∨
        remainingBudget < necessaryWeight obligations obligationWeights) :=
  adjudicate_prune_iff

theorem pruned_exceeds (hadmitted : Admitted obligations candidates remainingBudget)
    (herrors : certificateErrors obligations candidates obligationWeights = [])
    (hprunable : uncoveredIds obligations candidates ≠ [] ∨
      remainingBudget < necessaryWeight obligations obligationWeights)
    {amount : RepairCandidate → ℚ} (hrepair : FractionalRepair obligations candidates amount) :
    remainingBudget < fractionalCost candidates amount := by
  rcases hprunable with huncovered | hexceeds
  · -- an obligation no candidate covers is not covered by any amount of them
    obtain ⟨id, hid⟩ := List.exists_mem_of_ne_nil _ huncovered
    obtain ⟨hnecessary, hnone⟩ := mem_uncoveredIds.mp hid
    obtain ⟨o, ho, hflag, rfl⟩ := mem_necessaryIds.mp hnecessary
    have hzero : (candidates.map fun c => amount c * (c.covers.count o.obligationId : ℕ)).sum = 0 := by
      refine List.sum_eq_zero fun x hx => ?_
      obtain ⟨c, hc, rfl⟩ := List.mem_map.mp hx
      rw [List.count_eq_zero.mpr (hnone c hc), Nat.cast_zero, mul_zero]
    have hone := hrepair.repaired o ho hflag
    rw [hzero] at hone
    exact absurd hone (by decide +kernel)
  · classical
    have hloads := loadErrors_eq_nil_iff.mp (List.append_eq_nil_iff.mp herrors).2
    have hbound := Covering.weight_le_fractional_cost coverings
      (weightOf_nonneg obligations obligationWeights)
      (fun c hc => hloads c (List.mem_toFinset.mp hc))
      ((fractionalRepair_iff hadmitted.candidateIds).mp hrepair)
    rw [fractionalCost, sum_candidates hadmitted.candidateIds]
    refine hexceeds.trans_le (le_trans (le_of_eq ?_) hbound)
    rw [necessaryWeight_eq]
    rfl

/-! ## A branch without a repair within its budget is pruned -/

/-- The mapping that weights the ids of a set. -/
def weightsMapping (ids : Finset String) (weight : String → ℚ) : ObligationWeights where
  entries := (sorted ids).map fun id => ⟨id, weight id⟩
  nodupKeys := by
    rw [List.NodupKeys, List.keys, List.map_map]
    show ((sorted ids).map id).Nodup
    rw [List.map_id]
    exact (sorted_pairwise ids).imp fun h => ne_of_lt h

theorem lookup_weightsMapping (ids : Finset String) (weight : String → ℚ) (id : String) :
    (weightsMapping ids weight).lookup id = if id ∈ ids then some (weight id) else none := by
  by_cases hid : id ∈ ids
  · rw [if_pos hid]
    exact AList.mem_lookup_iff.mpr (List.mem_map.mpr ⟨id, mem_sorted.mpr hid, rfl⟩)
  · rw [if_neg hid, AList.lookup_eq_none]
    intro hmem
    obtain ⟨⟨id', w⟩, hentry, rfl⟩ := List.mem_map.mp (AList.mem_keys.mp hmem)
    obtain ⟨id'', hsorted, heq⟩ := List.mem_map.mp hentry
    cases heq
    exact hid (mem_sorted.mp hsorted)

/-- The mapping gives each id its weight, for weights that vanish outside the set. -/
theorem givenWeight_weightsMapping {ids : Finset String} {weight : String → ℚ}
    (hzero : ∀ id, id ∉ ids → weight id = 0) : givenWeight (weightsMapping ids weight) = weight := by
  funext id
  rw [givenWeight, lookup_weightsMapping]
  split
  · rfl
  · rename_i hid
    exact (hzero id hid).symm

/-- Feasible weights of the necessary ids are a certificate without an error. -/
theorem feasible_weightsMapping (hknown : KnownCovers obligations candidates)
    (hids : (obligations.map RepairObligation.obligationId).Nodup) {weight : String → ℚ}
    (hnonneg : ∀ id, 0 ≤ weight id)
    (hzero : ∀ id, id ∉ necessaryIds obligations → weight id = 0)
    (hfits : ∀ c ∈ candidates, Covering.load coverings weight c ≤ c.cost) :
    ¬ Infeasible obligations candidates (weightsMapping (necessaryIds obligations) weight)
      (listedLoad (weightsMapping (necessaryIds obligations) weight)) := by
  have hgiven := givenWeight_weightsMapping hzero
  intro hinfeasible
  cases hinfeasible with
  | @unknown id hid hunknown =>
    have hsome := AList.lookup_isSome.mpr hid
    rw [lookup_weightsMapping] at hsome
    split at hsome
    · rename_i hnecessary
      obtain ⟨o, ho, -, hoid⟩ := mem_necessaryIds.mp hnecessary
      exact hunknown o ho hoid
    · cases hsome
  | @negative id hnegative =>
    rw [hgiven] at hnegative
    exact absurd (hnonneg id) (not_le.mpr hnegative)
  | @nonnecessary o ho hnot hpositive =>
    rw [hgiven] at hpositive
    have hoid : o.obligationId ∉ necessaryIds obligations := by
      intro hmem
      obtain ⟨o', ho', hflag, heq⟩ := mem_necessaryIds.mp hmem
      rw [List.inj_on_of_nodup_map hids ho' ho heq, hnot] at hflag
      cases hflag
    rw [hzero _ hoid] at hpositive
    exact lt_irrefl _ hpositive
  | @unknownCover c hc id hid hunknown =>
    obtain ⟨o, ho, hoid⟩ := hknown c hc id hid
    exact hunknown o ho hoid
  | @overloaded c hc hload =>
    rw [listedLoad, hgiven] at hload
    exact absurd (hfits c hc) (not_le.mpr hload)

/-- Where every fractional repair is dearer than the budget, some certificate prunes. -/
theorem pruned_of_dear (hadmitted : Admitted obligations candidates remainingBudget)
    (hknown : KnownCovers obligations candidates)
    (hdear : ∀ amount, FractionalRepair obligations candidates amount →
      remainingBudget < fractionalCost candidates amount)
    (branchId : String) (heuristicScore : Option PyFloat) :
    ∃ weights, (decided branchId obligations candidates weights remainingBudget
      heuristicScore).verdict = "CERTIFIED_PRUNE" := by
  classical
  obtain ⟨weight, hnonneg, hzero, hfits, hexceeds⟩ :=
    Covering.exists_weights_of_dear coverings candidates.toFinset (necessaryIds obligations)
      (fun c _ => c.cost_pos.le) hadmitted.budget fun amount hcover => by
        have hcost := hdear amount ((fractionalRepair_iff hadmitted.candidateIds).mpr hcover)
        rwa [fractionalCost, sum_candidates hadmitted.candidateIds] at hcost
  have hfeasible := feasible_weightsMapping hknown hadmitted.obligationIds hnonneg hzero
    fun c hc => hfits c (List.mem_toFinset.mpr hc)
  have hnil := (certificateErrors_eq_nil_iff hadmitted.obligationIds).mpr hfeasible
  refine ⟨weightsMapping (necessaryIds obligations) weight, decided_prune_iff.mpr ⟨hnil, Or.inr ?_⟩⟩
  rw [necessaryWeight_eq, (weightsAccepted_of_nil hnil).weightOf_eq, givenWeight_weightsMapping hzero]
  exact hexceeds

/-- Which branches are prunable.  Some weights make the code prune a branch exactly when it accepts
    the branch at all (a budget that is not negative, distinct ids, known coverings) and every
    fractional repair of the necessary obligations costs more than the remaining budget. -/
theorem prunable_iff_fractional_repairs_exceed_budget (branchId : String)
    (obligations : List RepairObligation) (candidates : List RepairCandidate)
    (remainingBudget : ℚ) (heuristicScore : Option PyFloat) :
    (∃ obligationWeights decision, certifyRepairBranch branchId obligations candidates
        obligationWeights remainingBudget heuristicScore = .ok decision ∧
      decision.verdict = "CERTIFIED_PRUNE") ↔
    Admitted obligations candidates remainingBudget ∧ KnownCovers obligations candidates ∧
      ∀ amount, FractionalRepair obligations candidates amount →
        remainingBudget < fractionalCost candidates amount := by
  constructor
  · rintro ⟨weights, decision, hreturned, hverdict⟩
    obtain ⟨hadmitted, rfl⟩ := certifyRepairBranch_eq_ok hreturned
    obtain ⟨herrors, hprunable⟩ := decided_prune_iff.mp hverdict
    refine ⟨hadmitted, fun c hc id hid => ?_, fun amount => pruned_exceeds hadmitted herrors hprunable⟩
    have hfeasible := (certificateErrors_eq_nil_iff hadmitted.obligationIds).mp herrors
    by_contra hunknown
    exact hfeasible (.unknownCover hc hid fun o ho hoid => hunknown ⟨o, ho, hoid⟩)
  · rintro ⟨hadmitted, hknown, hdear⟩
    obtain ⟨weights, hverdict⟩ := pruned_of_dear hadmitted hknown hdear branchId heuristicScore
    exact ⟨weights, _, certifyRepairBranch_of_admitted hadmitted branchId weights heuristicScore,
      hverdict⟩

end Duality

/-! ## Parts of a pruned branch -/

section Parts

variable {obligations obligations' : List RepairObligation}
  {candidates part : List RepairCandidate} {obligationWeights : ObligationWeights}

/-- Of two obligations under one id, with distinct ids, one is the other. -/
theorem mem_of_same_id (hmore : obligations ⊆ obligations')
    (hids : (obligations'.map RepairObligation.obligationId).Nodup) {o o' : RepairObligation}
    (ho : o ∈ obligations) (ho' : o' ∈ obligations') (hsame : o.obligationId = o'.obligationId) :
    o' ∈ obligations :=
  List.inj_on_of_nodup_map hids (hmore ho) ho' hsame ▸ ho

/-- Fewer candidates and more obligations leave a certificate feasible: of an added obligation it
    has no weight. -/
theorem Infeasible.of_subset {load : RepairCandidate → ℚ} (hpart : part ⊆ candidates)
    (hmore : obligations ⊆ obligations')
    (hids : (obligations'.map RepairObligation.obligationId).Nodup)
    (h : Infeasible obligations' part obligationWeights load) :
    Infeasible obligations candidates obligationWeights load := by
  cases h with
  | unknown hid hunknown => exact .unknown hid fun o ho => hunknown o (hmore ho)
  | negative hnegative => exact .negative hnegative
  | @nonnecessary o ho hnot hpositive =>
    by_cases hold : ∃ o' ∈ obligations, o'.obligationId = o.obligationId
    · obtain ⟨o', ho', hsame⟩ := hold
      exact .nonnecessary (mem_of_same_id hmore hids ho' ho hsame) hnot hpositive
    · -- a weight for an added obligation is a weight for an unknown one
      have hid : o.obligationId ∈ obligationWeights := by
        by_contra hnone
        rw [givenWeight, AList.lookup_eq_none.mpr hnone] at hpositive
        exact absurd hpositive (lt_irrefl _)
      exact .unknown hid fun o' ho' hsame => hold ⟨o', ho', hsame⟩
  | unknownCover hc hid hunknown =>
    exact .unknownCover (hpart hc) hid fun o ho => hunknown o (hmore ho)
  | overloaded hc hload => exact .overloaded (hpart hc) hload

/-- The added obligations add nothing to the bound of a certificate that is feasible without
    them. -/
theorem necessaryWeight_of_subset (hmore : obligations ⊆ obligations')
    (hids : (obligations'.map RepairObligation.obligationId).Nodup)
    (haccepted : WeightsAccepted (obligationMap obligations) obligationWeights)
    (haccepted' : WeightsAccepted (obligationMap obligations') obligationWeights) :
    necessaryWeight obligations' obligationWeights =
      necessaryWeight obligations obligationWeights := by
  rw [necessaryWeight_eq, necessaryWeight_eq, haccepted.weightOf_eq, haccepted'.weightOf_eq]
  show ∑ id ∈ necessaryIds obligations', _ = ∑ id ∈ necessaryIds obligations, _
  refine (Finset.sum_subset ?_ ?_).symm
  · intro id hid
    obtain ⟨o, ho, hflag, rfl⟩ := mem_necessaryIds.mp hid
    exact mem_necessaryIds.mpr ⟨o, hmore ho, hflag, rfl⟩
  · intro id hid hadded
    obtain ⟨o, ho, hflag, rfl⟩ := mem_necessaryIds.mp hid
    have hunknown : o.obligationId ∉ obligationMap obligations := by
      refine not_mem_obligationMap.mpr fun o' ho' hsame => hadded ?_
      exact mem_necessaryIds.mpr ⟨o, mem_of_same_id hmore hids ho' ho hsame, hflag, rfl⟩
    have hnone : o.obligationId ∉ obligationWeights := fun hid => hunknown (haccepted.known hid)
    rw [givenWeight, AList.lookup_eq_none.mpr hnone]
    rfl

/-- A certificate that prunes a branch prunes each part of it, with the same lower bound: the branch
    with some of its candidates only, with further obligations of their own ids, and with no more
    than its budget. -/
theorem parts_of_a_pruned_branch_are_pruned {branchId : String} {remainingBudget : ℚ}
    {heuristicScore : Option PyFloat} {decision : CertifiedRepairDecision}
    (hreturned : certifyRepairBranch branchId obligations candidates obligationWeights
      remainingBudget heuristicScore = .ok decision)
    (hpruned : decision.verdict = "CERTIFIED_PRUNE") (hpart : part ⊆ candidates)
    (hids : (part.map RepairCandidate.candidateId).Nodup) (hmore : obligations ⊆ obligations')
    (hobligations : (obligations'.map RepairObligation.obligationId).Nodup)
    {budget : ℚ} (hnonneg : 0 ≤ budget) (hbudget : budget ≤ remainingBudget)
    (partId : String) (score : Option PyFloat) :
    ∃ decision', certifyRepairBranch partId obligations' part obligationWeights budget score =
        .ok decision' ∧
      decision'.verdict = "CERTIFIED_PRUNE" ∧ decision'.lowerBound = decision.lowerBound := by
  obtain ⟨hadmitted, rfl⟩ := certifyRepairBranch_eq_ok hreturned
  have hadmitted' : Admitted obligations' part budget := ⟨hnonneg, hobligations, hids⟩
  obtain ⟨hfeasible, hprunable⟩ := (decided_exact hadmitted branchId heuristicScore).prune.mp hpruned
  have hfeasible' : ¬ Infeasible obligations' part obligationWeights
      (listedLoad obligationWeights) :=
    fun h => hfeasible (h.of_subset hpart hmore hobligations)
  have haccepted := weightsAccepted_of_nil
    ((certificateErrors_eq_nil_iff hadmitted.obligationIds).mpr hfeasible)
  have haccepted' := weightsAccepted_of_nil
    ((certificateErrors_eq_nil_iff hobligations).mpr hfeasible')
  have hbound := necessaryWeight_of_subset hmore hobligations haccepted haccepted'
  refine ⟨_, certifyRepairBranch_of_admitted hadmitted' partId obligationWeights score, ?_, hbound⟩
  refine (decided_exact hadmitted' partId score).prune.mpr ⟨hfeasible', ?_⟩
  rcases hprunable with ⟨o, ho, hflag, hnone⟩ | hexceeds
  · exact Or.inl ⟨o, hmore ho, hflag, fun c hc => hnone c (hpart hc)⟩
  · refine Or.inr (hbudget.trans_lt ?_)
    rw [← necessaryWeight_eq_given hobligations haccepted', hbound,
      necessaryWeight_eq_given hadmitted.obligationIds haccepted]
    exact hexceeds

/-- A pump that two repairs cover, weighted 2 over a budget of 1: with one of the repairs only, a
    valve besides the pump, and half the budget, the branch is pruned as well. -/
theorem prune_of_a_pump_prunes_its_parts :
    let patch : RepairCandidate := ⟨"patch-seal", ["pump-A"], 2, by decide⟩
    let weights : ObligationWeights := AList.insert "pump-A" 2 ∅
    ∃ decision, certifyRepairBranch "branch-1a" [⟨"valve-B", true⟩, ⟨"pump-A", true⟩] [patch] weights
        (1 / 2) = .ok decision ∧ decision.verdict = "CERTIFIED_PRUNE" ∧ decision.lowerBound = 2 := by
  intro patch weights
  let renewal : RepairCandidate := ⟨"replace-seal", ["pump-A"], 3, by decide⟩
  have hadmitted : Admitted [⟨"pump-A", true⟩] [renewal, patch] 1 :=
    ⟨by decide, by decide, by decide⟩
  have hreturned := certifyRepairBranch_of_admitted hadmitted "branch-1" weights none
  have hpruned : (decided "branch-1" [⟨"pump-A", true⟩] [renewal, patch] weights 1 none).verdict =
      "CERTIFIED_PRUNE" := by decide +kernel
  have hbound : (decided "branch-1" [⟨"pump-A", true⟩] [renewal, patch] weights 1 none).lowerBound =
      2 := by decide +kernel
  rw [← hbound]
  exact parts_of_a_pruned_branch_are_pruned hreturned hpruned (List.subset_cons_self _ _)
    (by decide) (List.subset_cons_self _ _) (by decide) (by decide +kernel) (by decide +kernel)
    "branch-1a" none

end Parts

end CertifiedRepair

end PoiexGoc
