/-
  When the verdict on a certificate is EXACT.

  `certify_repair_branch` documents its condition as `sum(weight[o] for o covered by e) <= cost[e]`
  for every candidate `e`.  The loop adds over the tuple `covers`, which nothing keeps from naming
  an obligation twice, so a repeated obligation is weighed twice.

  1. The three parts of the error list are empty exactly when nothing is wrong with the weights, the
     coverings and the loads (`certificateErrors_eq_nil_iff`); the loads are the LISTED ones.

  2. A listed load is at least the documented one, so a certificate that violates the documented
     condition is found invalid (`Infeasible.listed`).

  3. The verdict is the documented one exactly when the certificate is infeasible anyway or every
     candidate's cost carries even the repetitions (`verdict_exact_iff`); otherwise a feasible
     certificate is rejected (`repeated_cover_rejects_a_feasible_certificate`).
-/
import PoiexGoc.Proofs.RepairPruning

namespace PoiexGoc

open Py

namespace CertifiedRepair

/-! ## The documented condition -/

/-- The weight the mapping gives to an id, zero without an entry. -/
def givenWeight (obligationWeights : ObligationWeights) (id : String) : ℚ :=
  (obligationWeights.lookup id).getD 0

/-- The weights of the obligations covered by a candidate, each counted once. -/
def documentedLoad (obligationWeights : ObligationWeights) (c : RepairCandidate) : ℚ :=
  ∑ id ∈ c.covers.toFinset, givenWeight obligationWeights id

/-- The weights of what a candidate lists, as often as it lists it. -/
def listedLoad (obligationWeights : ObligationWeights) (c : RepairCandidate) : ℚ :=
  (c.covers.map (givenWeight obligationWeights)).sum

/-- The five ways in which a certificate is no feasible dual, for a notion of load. -/
inductive Infeasible (obligations : List RepairObligation) (candidates : List RepairCandidate)
    (obligationWeights : ObligationWeights) (load : RepairCandidate → ℚ) : Prop
  | unknown {id : String} (hid : id ∈ obligationWeights)
      (hunknown : ∀ o ∈ obligations, o.obligationId ≠ id)
  | negative {id : String} (hnegative : givenWeight obligationWeights id < 0)
  | nonnecessary {o : RepairObligation} (ho : o ∈ obligations) (hnot : o.necessary = false)
      (hpositive : 0 < givenWeight obligationWeights o.obligationId)
  | unknownCover {c : RepairCandidate} (hc : c ∈ candidates) {id : String} (hid : id ∈ c.covers)
      (hunknown : ∀ o ∈ obligations, o.obligationId ≠ id)
  | overloaded {c : RepairCandidate} (hc : c ∈ candidates) (hload : c.cost < load c)

/-- Some necessary obligation is covered by no candidate, or the necessary obligations together weigh
    more than the budget. -/
def Prunable (obligations : List RepairObligation) (candidates : List RepairCandidate)
    (obligationWeights : ObligationWeights) (remainingBudget : ℚ) : Prop :=
  (∃ o ∈ obligations, o.necessary = true ∧ ∀ c ∈ candidates, o.obligationId ∉ c.covers) ∨
  remainingBudget < ((obligations.filter RepairObligation.necessary).map fun o =>
    givenWeight obligationWeights o.obligationId).sum

/-- The verdict that a notion of load calls for. -/
structure ExactVerdict (obligations : List RepairObligation) (candidates : List RepairCandidate)
    (obligationWeights : ObligationWeights) (remainingBudget : ℚ) (load : RepairCandidate → ℚ)
    (verdict : String) : Prop where
  invalid : verdict = "INVALID_CERTIFICATE" ↔
    Infeasible obligations candidates obligationWeights load
  prune : verdict = "CERTIFIED_PRUNE" ↔
    ¬ Infeasible obligations candidates obligationWeights load ∧
      Prunable obligations candidates obligationWeights remainingBudget
  keep : verdict = "KEEP_SEARCH" ↔
    ¬ Infeasible obligations candidates obligationWeights load ∧
      ¬ Prunable obligations candidates obligationWeights remainingBudget

section Errors

variable {obligations : List RepairObligation} {candidates : List RepairCandidate}
  {obligationWeights : ObligationWeights}

/-! ## The error list -/

/-- Every entry of the mapping is without an error. -/
def WeightsAccepted (known : Dict RepairObligation) (obligationWeights : ObligationWeights) : Prop :=
  ∀ id weight, obligationWeights.lookup id = some weight → weightError known ⟨id, weight⟩ = none

theorem weightErrors_eq_nil_iff {known : Dict RepairObligation} :
    (normalizeWeights known obligationWeights).2 = [] ↔
      WeightsAccepted known obligationWeights := by
  unfold normalizeWeights
  rw [foldl_normalizeWeight_errors, List.nil_append, List.filterMap_eq_nil_iff]
  constructor
  · intro hall id weight hweight
    exact hall _ (List.of_mem_dlookup hweight)
  · rintro hall ⟨id, weight⟩ hentry
    exact hall id weight (List.mem_dlookup obligationWeights.nodupKeys hentry)

/-- Without errors every id counts with the weight it is given. -/
theorem WeightsAccepted.acceptedWeight_eq {known : Dict RepairObligation}
    (h : WeightsAccepted known obligationWeights) (id : String) :
    acceptedWeight known obligationWeights id = givenWeight obligationWeights id := by
  unfold acceptedWeight givenWeight
  cases hweight : obligationWeights.lookup id with
  | none => rfl
  | some weight => rw [Option.bind_some, kept, if_pos (h id weight hweight)]

theorem WeightsAccepted.weightOf_eq
    (h : WeightsAccepted (obligationMap obligations) obligationWeights) :
    weightOf (dualWeights obligations obligationWeights) = givenWeight obligationWeights := by
  funext id
  rw [weightOf_dualWeights, h.acceptedWeight_eq]

theorem WeightsAccepted.known {known : Dict RepairObligation}
    (h : WeightsAccepted known obligationWeights) {id : String} (hid : id ∈ obligationWeights) :
    id ∈ known := by
  obtain ⟨weight, hweight⟩ := Option.isSome_iff_exists.mp (AList.lookup_isSome.mpr hid)
  obtain ⟨o, hlookup, -⟩ := weightError_eq_none.mp (h id weight hweight)
  exact Finmap.mem_of_lookup_eq_some hlookup

theorem WeightsAccepted.nonneg {known : Dict RepairObligation}
    (h : WeightsAccepted known obligationWeights) (id : String) :
    0 ≤ givenWeight obligationWeights id := by
  rw [← h.acceptedWeight_eq]
  exact acceptedWeight_nonneg known obligationWeights id

/-- An obligation that is not necessary has no weight. -/
theorem WeightsAccepted.nonnecessary
    (h : WeightsAccepted (obligationMap obligations) obligationWeights)
    (hids : (obligations.map RepairObligation.obligationId).Nodup) {o : RepairObligation}
    (ho : o ∈ obligations) (hnot : o.necessary = false) :
    givenWeight obligationWeights o.obligationId ≤ 0 := by
  unfold givenWeight
  cases hweight : obligationWeights.lookup o.obligationId with
  | none => exact le_refl 0
  | some weight =>
    obtain ⟨o', hlookup, -, hzero⟩ := weightError_eq_none.mp (h _ weight hweight)
    have hfound := (lookup_obligationMap_iff hids).mpr ⟨ho, rfl⟩
    have hsame : o = o' := Option.some.inj (hfound.symm.trans hlookup)
    exact hzero (hsame ▸ hnot)

/-- No covering is reported when candidates cover obligations only. -/
theorem unknownCoverIds_eq_nil_iff {known : Dict RepairObligation} :
    unknownCoverIds known candidates = [] ↔ ∀ c ∈ candidates, ∀ id ∈ c.covers, id ∈ known := by
  rw [unknownCoverIds, List.eq_nil_iff_forall_not_mem]
  constructor
  · intro hnone c hc id hid
    by_contra hunknown
    apply hnone id
    rw [mem_sorted, List.mem_toFinset, List.mem_filter, List.mem_flatMap]
    exact ⟨⟨c, hc, hid⟩, decide_eq_true hunknown⟩
  · intro hall id hid
    rw [mem_sorted, List.mem_toFinset, List.mem_filter, List.mem_flatMap] at hid
    obtain ⟨⟨c, hc, hcover⟩, hunknown⟩ := hid
    exact of_decide_eq_true hunknown (hall c hc id hcover)

theorem not_mem_obligationMap {id : String} :
    id ∉ obligationMap obligations ↔ ∀ o ∈ obligations, o.obligationId ≠ id := by
  rw [mem_obligationMap, List.mem_map]
  constructor
  · exact fun hnot o ho hoid => hnot ⟨o, ho, hoid⟩
  · rintro hnot ⟨o, ho, hoid⟩
    exact hnot o ho hoid

/-- An entry with an error makes the certificate infeasible, whatever a load is. -/
theorem Infeasible.of_weightError (hids : (obligations.map RepairObligation.obligationId).Nodup)
    {load : RepairCandidate → ℚ} {id : String} {weight : ℚ}
    (hweight : obligationWeights.lookup id = some weight)
    (herror : weightError (obligationMap obligations) ⟨id, weight⟩ ≠ none) :
    Infeasible obligations candidates obligationWeights load := by
  have hgiven : givenWeight obligationWeights id = weight := by
    rw [givenWeight, hweight, Option.getD_some]
  by_contra hfeasible
  apply herror
  rw [weightError_eq_none]
  cases hlookup : (obligationMap obligations).lookup id with
  | none =>
    have hunknown := not_mem_obligationMap.mp (Finmap.lookup_eq_none.mp hlookup)
    have hid : id ∈ obligationWeights := AList.lookup_isSome.mp (by rw [hweight]; rfl)
    exact absurd (Infeasible.unknown hid hunknown) hfeasible
  | some o =>
    obtain ⟨ho, rfl⟩ := (lookup_obligationMap_iff hids).mp hlookup
    refine ⟨o, rfl, ?_, fun hnot => ?_⟩
    · by_contra hneg
      exact hfeasible (.negative (by rw [hgiven]; exact not_le.mp hneg))
    · by_contra hpos
      exact hfeasible (.nonnecessary ho hnot (by rw [hgiven]; exact not_le.mp hpos))

/-- The error list is empty exactly when the certificate is feasible for the loads as listed. -/
theorem certificateErrors_eq_nil_iff
    (hids : (obligations.map RepairObligation.obligationId).Nodup) :
    certificateErrors obligations candidates obligationWeights = [] ↔
      ¬ Infeasible obligations candidates obligationWeights (listedLoad obligationWeights) := by
  unfold certificateErrors
  rw [List.append_eq_nil_iff, List.append_eq_nil_iff, weightErrors_eq_nil_iff,
    List.map_eq_nil_iff, unknownCoverIds_eq_nil_iff, candidateLoads, loadErrors_eq_nil_iff]
  -- the loads agree once no weight is reported
  have hloads : WeightsAccepted (obligationMap obligations) obligationWeights → ∀ c,
      Covering.load coverings (weightOf (dualWeights obligations obligationWeights)) c =
        listedLoad obligationWeights c := by
    intro haccepted c
    rw [haccepted.weightOf_eq]
    rfl
  constructor
  · rintro ⟨⟨haccepted, hcovers⟩, hfits⟩ hinfeasible
    cases hinfeasible with
    | unknown hid hunknown => exact not_mem_obligationMap.mpr hunknown (haccepted.known hid)
    | @negative id hnegative => exact absurd (haccepted.nonneg id) (not_le.mpr hnegative)
    | nonnecessary ho hnot hpositive =>
      exact absurd (haccepted.nonnecessary hids ho hnot) (not_le.mpr hpositive)
    | @unknownCover c hc id hid hunknown =>
      exact not_mem_obligationMap.mpr hunknown (hcovers c hc id hid)
    | @overloaded c hc hload =>
      have hfit := hfits c hc
      rw [hloads haccepted] at hfit
      exact absurd hfit (not_le.mpr hload)
  · intro hfeasible
    have haccepted : WeightsAccepted (obligationMap obligations) obligationWeights := by
      intro id weight hweight
      by_contra herror
      exact hfeasible (Infeasible.of_weightError hids hweight herror)
    refine ⟨⟨haccepted, ?_⟩, ?_⟩
    · intro c hc id hid
      by_contra hunknown
      exact hfeasible (.unknownCover hc hid (not_mem_obligationMap.mp hunknown))
    · intro c hc
      rw [hloads haccepted]
      by_contra hload
      exact hfeasible (.overloaded hc (not_le.mp hload))

/-- Without an error, no weight is reported. -/
theorem weightsAccepted_of_nil
    (hnil : certificateErrors obligations candidates obligationWeights = []) :
    WeightsAccepted (obligationMap obligations) obligationWeights :=
  weightErrors_eq_nil_iff.mp (List.append_eq_nil_iff.mp (List.append_eq_nil_iff.mp hnil).1).1

/-! ## Loads with and without repetitions -/

/-- A certificate stays infeasible for another load, if its overloaded candidates make it so. -/
theorem Infeasible.of_overloaded {load load' : RepairCandidate → ℚ}
    (h : Infeasible obligations candidates obligationWeights load)
    (hover : ∀ c ∈ candidates, c.cost < load c →
      Infeasible obligations candidates obligationWeights load') :
    Infeasible obligations candidates obligationWeights load' := by
  cases h with
  | unknown hid hunknown => exact .unknown hid hunknown
  | negative hnegative => exact .negative hnegative
  | nonnecessary ho hnot hpositive => exact .nonnecessary ho hnot hpositive
  | unknownCover hc hid hunknown => exact .unknownCover hc hid hunknown
  | overloaded hc hload => exact hover _ hc hload

/-- Without negative weights the listed load is at least the documented one. -/
theorem documentedLoad_le_listedLoad (hnonneg : ∀ id, 0 ≤ givenWeight obligationWeights id)
    (c : RepairCandidate) :
    documentedLoad obligationWeights c ≤ listedLoad obligationWeights c :=
  Covering.sum_distinct_le_load coverings hnonneg c

/-- What violates the documented condition violates the condition on the listed loads. -/
theorem Infeasible.listed
    (h : Infeasible obligations candidates obligationWeights (documentedLoad obligationWeights)) :
    Infeasible obligations candidates obligationWeights (listedLoad obligationWeights) := by
  refine h.of_overloaded (fun c hc hload => ?_)
  by_cases hnonneg : ∀ id, 0 ≤ givenWeight obligationWeights id
  · exact .overloaded hc (hload.trans_le (documentedLoad_le_listedLoad hnonneg c))
  · obtain ⟨id, hid⟩ := not_forall.mp hnonneg
    exact .negative (not_le.mp hid)

/-! ## The verdict on the loads as listed -/

theorem uncoveredIds_ne_nil_iff :
    uncoveredIds obligations candidates ≠ [] ↔
      ∃ o ∈ obligations, o.necessary = true ∧ ∀ c ∈ candidates, o.obligationId ∉ c.covers := by
  constructor
  · intro hne
    obtain ⟨id, hid⟩ := List.exists_mem_of_ne_nil _ hne
    obtain ⟨hnecessary, hnone⟩ := mem_uncoveredIds.mp hid
    obtain ⟨o, ho, hflag, rfl⟩ := mem_necessaryIds.mp hnecessary
    exact ⟨o, ho, hflag, hnone⟩
  · rintro ⟨o, ho, hflag, hnone⟩
    exact List.ne_nil_of_mem
      (mem_uncoveredIds.mpr ⟨mem_necessaryIds.mpr ⟨o, ho, hflag, rfl⟩, hnone⟩)

/-- With distinct ids and no reported weight, the lower bound adds up the given weights of the
    necessary obligations. -/
theorem necessaryWeight_eq_given
    (hids : (obligations.map RepairObligation.obligationId).Nodup)
    (haccepted : WeightsAccepted (obligationMap obligations) obligationWeights) :
    necessaryWeight obligations obligationWeights =
      ((obligations.filter RepairObligation.necessary).map fun o =>
        givenWeight obligationWeights o.obligationId).sum := by
  have hnodup : ((obligations.filter RepairObligation.necessary).map
      RepairObligation.obligationId).Nodup :=
    hids.sublist (List.filter_sublist.map _)
  rw [necessaryWeight_eq, haccepted.weightOf_eq, necessaryIds, List.toFinset_val, hnodup.dedup,
    Multiset.map_coe, Multiset.sum_coe, List.map_map]
  rfl

/-- The verdict is exact for the loads as listed. -/
theorem decided_exact {remainingBudget : ℚ}
    (hadmitted : Admitted obligations candidates remainingBudget) (branchId : String)
    (heuristicScore : Option PyFloat) :
    ExactVerdict obligations candidates obligationWeights remainingBudget
      (listedLoad obligationWeights)
      (decided branchId obligations candidates obligationWeights remainingBudget
        heuristicScore).verdict := by
  have hids := hadmitted.obligationIds
  have herrors : certificateErrors obligations candidates obligationWeights = [] ↔ _ :=
    certificateErrors_eq_nil_iff hids
  have hprunable : certificateErrors obligations candidates obligationWeights = [] →
      ((uncoveredIds obligations candidates ≠ [] ∨
        remainingBudget < necessaryWeight obligations obligationWeights) ↔
        Prunable obligations candidates obligationWeights remainingBudget) := by
    intro hnil
    rw [uncoveredIds_ne_nil_iff, necessaryWeight_eq_given hids (weightsAccepted_of_nil hnil)]
    exact Iff.rfl
  refine ⟨?_, ?_, ?_⟩
  · exact adjudicate_invalid_iff.trans (herrors.not.trans not_not)
  · refine adjudicate_prune_iff.trans ⟨?_, ?_⟩
    · rintro ⟨hnil, hpruned⟩
      exact ⟨herrors.mp hnil, (hprunable hnil).mp hpruned⟩
    · rintro ⟨hfeasible, hpruned⟩
      have hnil := herrors.mpr hfeasible
      exact ⟨hnil, (hprunable hnil).mpr hpruned⟩
  · refine adjudicate_keep_iff.trans ⟨?_, ?_⟩
    · rintro ⟨hnil, hkept⟩
      exact ⟨herrors.mp hnil, fun hpruned => hkept ((hprunable hnil).mpr hpruned)⟩
    · rintro ⟨hfeasible, hkept⟩
      have hnil := herrors.mpr hfeasible
      exact ⟨hnil, fun hpruned => hkept ((hprunable hnil).mp hpruned)⟩

end Errors

/-! ## The documented verdict -/

/-- On a decision that was returned, the verdict is the documented one if and only if the certificate
    violates the documented condition anyway, or every candidate's cost carries the weights of its
    coverings as often as they are listed. -/
theorem verdict_exact_iff {branchId : String} {obligations : List RepairObligation}
    {candidates : List RepairCandidate} {obligationWeights : ObligationWeights}
    {remainingBudget : ℚ} {heuristicScore : Option PyFloat} {decision : CertifiedRepairDecision}
    (hreturned : certifyRepairBranch branchId obligations candidates obligationWeights
      remainingBudget heuristicScore = .ok decision) :
    ExactVerdict obligations candidates obligationWeights remainingBudget
        (documentedLoad obligationWeights) decision.verdict ↔
      (Infeasible obligations candidates obligationWeights (documentedLoad obligationWeights) ∨
        ∀ c ∈ candidates, listedLoad obligationWeights c ≤ c.cost) := by
  obtain ⟨hadmitted, rfl⟩ := certifyRepairBranch_eq_ok hreturned
  have hlisted : ExactVerdict obligations candidates obligationWeights remainingBudget
      (listedLoad obligationWeights) _ := decided_exact hadmitted branchId heuristicScore
  constructor
  · intro hdocumented
    by_contra hneither
    rw [not_or, not_forall] at hneither
    obtain ⟨hfeasible, c, hover⟩ := hneither
    rw [Classical.not_imp, not_le] at hover
    have hrejected := hlisted.invalid.mpr (.overloaded hover.1 hover.2)
    exact hfeasible (hdocumented.invalid.mp hrejected)
  · intro hcondition
    have hsame : Infeasible obligations candidates obligationWeights (listedLoad obligationWeights) ↔
        Infeasible obligations candidates obligationWeights (documentedLoad obligationWeights) := by
      refine ⟨fun h => ?_, Infeasible.listed⟩
      rcases hcondition with hinfeasible | hfits
      · exact hinfeasible
      · exact h.of_overloaded (fun c hc hload => absurd (hfits c hc) (not_le.mpr hload))
    refine ⟨?_, ?_, ?_⟩
    · rw [← hsame]
      exact hlisted.invalid
    · rw [← hsame]
      exact hlisted.prune
    · rw [← hsame]
      exact hlisted.keep

/-- One pump, weighted 3/2, and one repair of cost 3 that names it twice: the cost carries both, and
    the verdict is the documented one. -/
theorem verdict_on_a_pump_is_exact :
    let repair : RepairCandidate := ⟨"replace-seal", ["pump-A", "pump-A"], 3, by decide⟩
    let weights : ObligationWeights := AList.insert "pump-A" (3 / 2) ∅
    ∃ decision, certifyRepairBranch "branch-1" [⟨"pump-A", true⟩] [repair] weights 1 =
        .ok decision ∧
      ExactVerdict [⟨"pump-A", true⟩] [repair] weights 1 (documentedLoad weights)
        decision.verdict := by
  intro repair weights
  have hadmitted : Admitted [⟨"pump-A", true⟩] [repair] 1 := ⟨by decide, by decide, by decide⟩
  have hreturned := certifyRepairBranch_of_admitted hadmitted "branch-1" weights none
  refine ⟨_, hreturned, (verdict_exact_iff hreturned).mpr (Or.inr ?_)⟩
  intro c hc
  rw [List.mem_singleton.mp hc]
  decide +kernel

/-- The same pump, weighted 2/3, a repair of cost 1 that names it twice, and a budget of 1/2.  The
    weight is within the cost and above the budget, so the documented verdict is to prune; the code
    adds the weight twice and finds the certificate invalid. -/
theorem repeated_cover_rejects_a_feasible_certificate :
    let repair : RepairCandidate := ⟨"replace-seal", ["pump-A", "pump-A"], 1, by decide⟩
    let weights : ObligationWeights := AList.insert "pump-A" (2 / 3) ∅
    ∃ decision, certifyRepairBranch "branch-1" [⟨"pump-A", true⟩] [repair] weights (1 / 2) =
        .ok decision ∧
      decision.verdict = "INVALID_CERTIFICATE" ∧
      ¬ Infeasible [⟨"pump-A", true⟩] [repair] weights (documentedLoad weights) ∧
      Prunable [⟨"pump-A", true⟩] [repair] weights (1 / 2) ∧
      ¬ ExactVerdict [⟨"pump-A", true⟩] [repair] weights (1 / 2) (documentedLoad weights)
        decision.verdict := by
  intro repair weights
  have hadmitted : Admitted [⟨"pump-A", true⟩] [repair] (1 / 2) :=
    ⟨by decide +kernel, by decide, by decide⟩
  have hreturned := certifyRepairBranch_of_admitted hadmitted "branch-1" weights none
  have hrejected : (decided "branch-1" [⟨"pump-A", true⟩] [repair] weights (1 / 2) none).verdict =
      "INVALID_CERTIFICATE" := by decide +kernel
  have hother : ∀ id, id ≠ "pump-A" → givenWeight weights id = 0 := by
    intro id hne
    rw [givenWeight, AList.lookup_insert_ne hne]
    rfl
  have hpump : givenWeight weights "pump-A" = 2 / 3 := by decide +kernel
  have hfeasible : ¬ Infeasible [⟨"pump-A", true⟩] [repair] weights (documentedLoad weights) := by
    intro hinfeasible
    cases hinfeasible with
    | @unknown id hid hunknown =>
      have hne : "pump-A" ≠ id := hunknown _ (List.mem_singleton_self _)
      rcases (AList.mem_insert _).mp hid with heq | hempty
      · exact hne heq.symm
      · exact AList.notMem_empty id hempty
    | @negative id hnegative =>
      by_cases heq : id = "pump-A"
      · subst heq
        rw [hpump] at hnegative
        exact absurd hnegative (by decide +kernel)
      · rw [hother id heq] at hnegative
        exact lt_irrefl _ hnegative
    | nonnecessary ho hnot _ =>
      rw [List.mem_singleton.mp ho] at hnot
      cases hnot
    | @unknownCover c hc id hid hunknown =>
      rw [List.mem_singleton.mp hc] at hid
      have hpumpId : id = "pump-A" := by simpa [repair] using hid
      exact hunknown _ (List.mem_singleton_self _) hpumpId.symm
    | overloaded hc hload =>
      rw [List.mem_singleton.mp hc] at hload
      exact absurd hload (by decide +kernel)
  refine ⟨_, hreturned, hrejected, hfeasible, Or.inr (by decide +kernel), fun hexact => ?_⟩
  exact hfeasible (hexact.invalid.mp hrejected)

end CertifiedRepair

end PoiexGoc
