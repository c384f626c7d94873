/-
  What a repair certificate is CHECKED WITH.

  1. `checkInputs` passes the inputs with a nonnegative budget and distinct ids, and nothing else
     (`checkInputs_eq_ok`).  With distinct ids the map of obligations holds each obligation under
     its id (`lookup_obligationMap_iff`).

  2. The loop over the weights keeps the entries without an error and reports the others in their
     order (`foldl_normalizeWeight_errors`, `lookup_foldl_normalizeWeight`); the loop over the
     obligations then adds the weight zero where none was kept.  Together an obligation is weighted
     with its accepted weight, whatever order the loops run in (`lookup_normalizeWeights`).

  3. So none of the lookups of the lower bound raises, and a call that passes `checkInputs` returns
     a decision (`certifyRepairBranch_eq`).
-/
import PoiexGoc.Runtime.CertifiedRepair

namespace PoiexGoc

open Py

namespace CertifiedRepair

/-! ## The inputs that are not refused -/

/-- A budget that is not negative, and no id twice. -/
structure Admitted (obligations : List RepairObligation) (candidates : List RepairCandidate)
    (remainingBudget : ℚ) : Prop where
  budget : 0 ≤ remainingBudget
  obligationIds : (obligations.map RepairObligation.obligationId).Nodup
  candidateIds : (candidates.map RepairCandidate.candidateId).Nodup

/-- The map after one more obligation. -/
theorem obligationMap_append (obligations : List RepairObligation) (item : RepairObligation) :
    obligationMap (obligations ++ [item]) =
      (obligationMap obligations).insert item.obligationId item := by
  rw [obligationMap, List.foldl_append]
  rfl

@[simp] theorem mem_obligationMap {obligations : List RepairObligation} {id : String} :
    id ∈ obligationMap obligations ↔ id ∈ obligations.map RepairObligation.obligationId := by
  induction obligations using List.reverseRecOn with
  | nil => simp [obligationMap, Finmap.notMem_empty]
  | append_singleton obligations item ih =>
    rw [obligationMap_append, Finmap.mem_insert, ih, List.map_append, List.mem_append,
      List.map_singleton, List.mem_singleton]
    exact or_comm

theorem keys_obligationMap (obligations : List RepairObligation) :
    (obligationMap obligations).keys =
      (obligations.map RepairObligation.obligationId).toFinset := by
  ext id
  rw [Finmap.mem_keys, mem_obligationMap, List.mem_toFinset]

/-- `checkInputs` passes the admitted inputs, and no others. -/
theorem checkInputs_eq_ok {obligations : List RepairObligation}
    {candidates : List RepairCandidate} {remainingBudget : ℚ} :
    checkInputs obligations candidates remainingBudget = .ok () ↔
      Admitted obligations candidates remainingBudget := by
  have hobligations : (obligationMap obligations).keys.card = obligations.length ↔
      (obligations.map RepairObligation.obligationId).Nodup := by
    rw [keys_obligationMap, ← card_toFinset_eq_length_iff, List.length_map]
  have hcandidates : (candidates.map RepairCandidate.candidateId).toFinset.card =
      candidates.length ↔ (candidates.map RepairCandidate.candidateId).Nodup := by
    rw [← card_toFinset_eq_length_iff, List.length_map]
  unfold checkInputs
  constructor
  · intro h
    split at h
    · cases h
    · rename_i hbudget
      split at h
      · cases h
      · rename_i hids
        split at h
        · cases h
        · rename_i hcands
          exact ⟨not_lt.mp hbudget, hobligations.mp (not_not.mp hids),
            hcandidates.mp (not_not.mp hcands)⟩
  · intro h
    rw [if_neg (not_lt.mpr h.budget), if_neg (not_not.mpr (hobligations.mpr h.obligationIds)),
      if_neg (not_not.mpr (hcandidates.mpr h.candidateIds))]

/-- Inputs are refused with a ValueError only. -/
theorem valueError_of_checkInputs {obligations : List RepairObligation}
    {candidates : List RepairCandidate} {remainingBudget : ℚ} {e : PyError}
    (h : checkInputs obligations candidates remainingBudget = .error e) :
    ∃ message, e = .valueError message := by
  unfold checkInputs at h
  split at h
  · exact ⟨_, (Except.error.inj h).symm⟩
  · split at h
    · exact ⟨_, (Except.error.inj h).symm⟩
    · split at h
      · exact ⟨_, (Except.error.inj h).symm⟩
      · cases h

/-- With distinct ids the map holds the obligations, each under its id. -/
theorem lookup_obligationMap_iff {obligations : List RepairObligation}
    (hids : (obligations.map RepairObligation.obligationId).Nodup) {id : String}
    {obligation : RepairObligation} :
    (obligationMap obligations).lookup id = some obligation ↔
      obligation ∈ obligations ∧ obligation.obligationId = id := by
  induction obligations using List.reverseRecOn with
  | nil => simp [obligationMap]
  | append_singleton obligations item ih =>
    rw [List.map_append, List.map_singleton, List.nodup_append] at hids
    obtain ⟨hrest, -, hfresh⟩ := hids
    have hne : ∀ o ∈ obligations, o.obligationId ≠ item.obligationId := by
      intro o ho
      exact hfresh _ (List.mem_map_of_mem ho) _ (List.mem_singleton_self _)
    rw [obligationMap_append, List.mem_append, List.mem_singleton]
    by_cases heq : id = item.obligationId
    · subst heq
      rw [Finmap.lookup_insert]
      constructor
      · intro h
        have hitem : item = obligation := Option.some.inj h
        exact ⟨Or.inr hitem.symm, congrArg RepairObligation.obligationId hitem.symm⟩
      · rintro ⟨hold | rfl, hid⟩
        · exact absurd hid (hne _ hold)
        · rfl
    · rw [Finmap.lookup_insert_of_ne _ heq, ih hrest]
      constructor
      · exact fun h => ⟨Or.inl h.1, h.2⟩
      · rintro ⟨hold | rfl, hid⟩
        · exact ⟨hold, hid⟩
        · exact absurd hid.symm heq

/-! ## The normalized weights -/

/-- What a weight of the mapping is reported as, if it is not kept. -/
def weightError (obligations : Dict RepairObligation) (entry : Sigma fun _ : String => ℚ) :
    Option String :=
  match obligations.lookup entry.1 with
  | none => some ("UNKNOWN_OBLIGATION_WEIGHT:" ++ entry.1)
  | some obligation =>
    if entry.2 < 0 then some ("NEGATIVE_OBLIGATION_WEIGHT:" ++ entry.1)
    else if 0 < entry.2 ∧ obligation.necessary = false then
      some ("NONNECESSARY_OBLIGATION_WEIGHTED:" ++ entry.1)
    else none

/-- An iteration of the loop reports the entry or keeps it. -/
theorem normalizeWeight_eq (obligations : Dict RepairObligation) (st : Dict ℚ × List String)
    (entry : Sigma fun _ : String => ℚ) :
    normalizeWeight obligations st entry =
      match weightError obligations entry with
      | some error => (st.1, st.2 ++ [error])
      | none => (st.1.insert entry.1 entry.2, st.2) := by
  unfold normalizeWeight weightError
  cases obligations.lookup entry.1 with
  | none => rfl
  | some obligation =>
    dsimp only
    by_cases hneg : entry.2 < 0
    · rw [if_pos hneg, if_pos hneg]
    · rw [if_neg hneg, if_neg hneg]
      by_cases hweighted : 0 < entry.2 ∧ obligation.necessary = false
      · rw [if_pos hweighted, if_pos hweighted]
      · rw [if_neg hweighted, if_neg hweighted]

/-- An entry without an error names an obligation, with a weight that is not negative, and zero
    unless the obligation is necessary. -/
theorem weightError_eq_none {obligations : Dict RepairObligation}
    {entry : Sigma fun _ : String => ℚ} :
    weightError obligations entry = none ↔
      ∃ obligation, obligations.lookup entry.1 = some obligation ∧ 0 ≤ entry.2 ∧
        (obligation.necessary = false → entry.2 ≤ 0) := by
  unfold weightError
  cases hlookup : obligations.lookup entry.1 with
  | none => simp
  | some obligation =>
    by_cases hneg : entry.2 < 0
    · simp [hneg]
    · have hnonneg : 0 ≤ entry.2 := not_lt.mp hneg
      by_cases hpos : 0 < entry.2
      · have hnot : ¬ entry.2 ≤ 0 := not_le.mpr hpos
        simp [hneg, hpos, hnonneg, hnot]
      · simp [hneg, hpos, hnonneg, not_lt.mp hpos]

/-- The loop reports the entries that have an error, in their order. -/
theorem foldl_normalizeWeight_errors (obligations : Dict RepairObligation)
    (entries : List (Sigma fun _ : String => ℚ)) (st : Dict ℚ × List String) :
    (entries.foldl (normalizeWeight obligations) st).2 =
      st.2 ++ entries.filterMap (weightError obligations) := by
  induction entries generalizing st with
  | nil => rw [List.foldl_nil, List.filterMap_nil, List.append_nil]
  | cons entry entries ih =>
    rw [List.foldl_cons, ih, normalizeWeight_eq]
    cases herror : weightError obligations entry with
    | none => rw [List.filterMap_cons_none herror]
    | some error =>
      rw [List.filterMap_cons_some herror, List.append_assoc, List.singleton_append]

/-- The weight of an entry, unless it is reported. -/
def kept (obligations : Dict RepairObligation) (id : String) (weight : ℚ) : Option ℚ :=
  if weightError obligations ⟨id, weight⟩ = none then some weight else none

theorem kept_eq_none_of_unknown {obligations : Dict RepairObligation} {id : String}
    (hunknown : id ∉ obligations) (weight : ℚ) : kept obligations id weight = none := by
  refine if_neg (fun hnone => ?_)
  obtain ⟨obligation, hlookup, -⟩ := weightError_eq_none.mp hnone
  exact hunknown (Finmap.mem_of_lookup_eq_some hlookup)

/-- The loop keeps the weights that have no error, over what was there before.  Induction on the
    entries; the keys are distinct, so nothing later overwrites what one of them left. -/
theorem lookup_foldl_normalizeWeight (obligations : Dict RepairObligation)
    {entries : List (Sigma fun _ : String => ℚ)} (hkeys : entries.NodupKeys)
    (st : Dict ℚ × List String) (id : String) :
    (entries.foldl (normalizeWeight obligations) st).1.lookup id =
      ((entries.dlookup id).bind (kept obligations id)).or (st.1.lookup id) := by
  induction entries generalizing st with
  | nil => rfl
  | cons entry entries ih =>
    rw [List.nodupKeys_cons] at hkeys
    rw [List.foldl_cons, ih hkeys.2]
    obtain ⟨key, weight⟩ := entry
    by_cases heq : id = key
    · subst heq
      have hlater : entries.dlookup id = none := List.dlookup_eq_none.mpr hkeys.1
      rw [hlater, List.dlookup_cons_eq, normalizeWeight_eq, Option.bind_some, kept]
      cases weightError obligations ⟨id, weight⟩ with
      | none => exact Finmap.lookup_insert _
      | some error => rfl
    · rw [List.dlookup_cons_ne _ _ heq, normalizeWeight_eq]
      cases weightError obligations ⟨key, weight⟩ with
      | none => rw [Finmap.lookup_insert_of_ne _ heq]
      | some error => rfl

/-- The loop over the obligations gives zero to those without a weight. -/
theorem lookup_foldl_setDefault (ids : List String) (weights : Dict ℚ) (id : String) :
    (ids.foldl setDefault weights).lookup id =
      (weights.lookup id).or (if id ∈ ids then some 0 else none) := by
  induction ids generalizing weights with
  | nil => simp
  | cons first ids ih =>
    rw [List.foldl_cons, ih, setDefault]
    by_cases hfound : first ∈ weights
    · rw [if_pos hfound]
      by_cases heq : id = first
      · subst heq
        obtain ⟨weight, hweight⟩ := Finmap.mem_iff.mp hfound
        rw [hweight, Option.some_or, Option.some_or]
      · simp [heq]
    · rw [if_neg hfound]
      by_cases heq : id = first
      · subst heq
        rw [Finmap.lookup_insert, Finmap.lookup_eq_none.mpr hfound]
        simp
      · rw [Finmap.lookup_insert_of_ne _ heq]
        simp [heq]

/-- The weight an id counts with: the one it is given, unless that is reported. -/
def acceptedWeight (obligations : Dict RepairObligation) (obligationWeights : ObligationWeights)
    (id : String) : ℚ :=
  ((obligationWeights.lookup id).bind (kept obligations id)).getD 0

theorem acceptedWeight_of_unknown {obligations : Dict RepairObligation} {id : String}
    (hunknown : id ∉ obligations) (obligationWeights : ObligationWeights) :
    acceptedWeight obligations obligationWeights id = 0 := by
  unfold acceptedWeight
  cases obligationWeights.lookup id with
  | none => rfl
  | some weight => rw [Option.bind_some, kept_eq_none_of_unknown hunknown, Option.getD_none]

/-- An obligation has its accepted weight; nothing else has a weight. -/
theorem lookup_normalizeWeights (obligations : Dict RepairObligation)
    (obligationWeights : ObligationWeights) (id : String) :
    (normalizeWeights obligations obligationWeights).1.lookup id =
      if id ∈ obligations then some (acceptedWeight obligations obligationWeights id)
      else none := by
  have hmem : id ∈ sorted obligations.keys ↔ id ∈ obligations := by
    rw [mem_sorted, Finmap.mem_keys]
  have hkept : (obligationWeights.entries.foldl (normalizeWeight obligations) (∅, [])).1.lookup id =
      (obligationWeights.lookup id).bind (kept obligations id) := by
    rw [lookup_foldl_normalizeWeight _ obligationWeights.nodupKeys, Finmap.lookup_empty,
      Option.or_none]
    rfl
  unfold normalizeWeights
  rw [lookup_foldl_setDefault, hkept]
  by_cases hknown : id ∈ obligations
  · rw [if_pos (hmem.mpr hknown), if_pos hknown]
    unfold acceptedWeight
    cases (obligationWeights.lookup id).bind (kept obligations id) with
    | none => rfl
    | some weight => rfl
  · rw [if_neg (mt hmem.mp hknown), if_neg hknown, Option.or_none]
    cases obligationWeights.lookup id with
    | none => rfl
    | some weight => exact kept_eq_none_of_unknown hknown weight

/-- In the certificate every id counts with its accepted weight. -/
theorem weightOf_dualWeights (obligations : List RepairObligation)
    (obligationWeights : ObligationWeights) (id : String) :
    weightOf (dualWeights obligations obligationWeights) id =
      acceptedWeight (obligationMap obligations) obligationWeights id := by
  unfold weightOf dualWeights
  rw [lookup_normalizeWeights]
  by_cases hknown : id ∈ obligationMap obligations
  · rw [if_pos hknown]
    rfl
  · rw [if_neg hknown, acceptedWeight_of_unknown hknown]
    rfl

/-- An accepted weight is never negative. -/
theorem acceptedWeight_nonneg (obligations : Dict RepairObligation)
    (obligationWeights : ObligationWeights) (id : String) :
    0 ≤ acceptedWeight obligations obligationWeights id := by
  unfold acceptedWeight
  cases obligationWeights.lookup id with
  | none => exact le_refl 0
  | some weight =>
    rw [Option.bind_some, kept]
    split
    · rename_i hnone
      obtain ⟨_, -, hnonneg, -⟩ := weightError_eq_none.mp hnone
      exact hnonneg
    · exact le_refl 0

/-! ## The decision -/

/-- The weight of the necessary obligations. -/
def necessaryWeight (obligations : List RepairObligation) (obligationWeights : ObligationWeights) :
    ℚ :=
  ((sorted (necessaryIds obligations)).map
    (weightOf (dualWeights obligations obligationWeights))).sum

/-- What is decided on inputs that are not refused. -/
def decided (branchId : String) (obligations : List RepairObligation)
    (candidates : List RepairCandidate) (obligationWeights : ObligationWeights)
    (remainingBudget : ℚ) (heuristicScore : Option PyFloat) : CertifiedRepairDecision :=
  let lowerBound := necessaryWeight obligations obligationWeights
  let uncovered := uncoveredIds obligations candidates
  let (verdict, reasons, replayable) := adjudicate
    (certificateErrors obligations candidates obligationWeights) uncovered lowerBound
    remainingBudget
  { branchId, verdict, lowerBound, remainingBudget
    candidateLoads := candidateLoads obligations candidates obligationWeights
    uncoveredNecessaryObligations := uncovered, reasons, negativeSeals, replayable
    heuristicScore }

theorem mem_necessaryIds {obligations : List RepairObligation} {id : String} :
    id ∈ necessaryIds obligations ↔
      ∃ o ∈ obligations, o.necessary = true ∧ o.obligationId = id := by
  rw [necessaryIds, List.mem_toFinset, List.mem_map]
  constructor
  · rintro ⟨o, ho, hoid⟩
    obtain ⟨hmem, hnecessary⟩ := List.mem_filter.mp ho
    exact ⟨o, hmem, hnecessary, hoid⟩
  · rintro ⟨o, hmem, hnecessary, hoid⟩
    exact ⟨o, List.mem_filter.mpr ⟨hmem, hnecessary⟩, hoid⟩

/-- None of the lookups of the lower bound raises: every necessary obligation has a weight. -/
theorem mapM_weightItem (obligations : List RepairObligation)
    (obligationWeights : ObligationWeights) :
    (sorted (necessaryIds obligations)).mapM (weightItem (dualWeights obligations obligationWeights))
      = .ok ((sorted (necessaryIds obligations)).map
          (weightOf (dualWeights obligations obligationWeights))) := by
  have hitem : ∀ id ∈ sorted (necessaryIds obligations),
      weightItem (dualWeights obligations obligationWeights) id =
        .ok (weightOf (dualWeights obligations obligationWeights) id) := by
    intro id hid
    obtain ⟨o, ho, -, hoid⟩ := mem_necessaryIds.mp (mem_sorted.mp hid)
    have hknown : id ∈ obligationMap obligations :=
      mem_obligationMap.mpr (List.mem_map.mpr ⟨o, ho, hoid⟩)
    have hweight := lookup_normalizeWeights (obligationMap obligations) obligationWeights id
    rw [if_pos hknown] at hweight
    unfold weightItem weightOf dualWeights
    rw [hweight]
    rfl
  revert hitem
  generalize sorted (necessaryIds obligations) = ids
  intro hitem
  induction ids with
  | nil => rfl
  | cons id ids ih =>
    rw [List.mapM_cons, hitem id List.mem_cons_self,
      ih (fun id' hid' => hitem id' (List.mem_cons_of_mem _ hid'))]
    rfl

/-- The certificate is invalid when some error was found. -/
theorem adjudicate_invalid_iff {errors uncovered : List String} {lowerBound budget : ℚ} :
    (adjudicate errors uncovered lowerBound budget).1 = "INVALID_CERTIFICATE" ↔ errors ≠ [] := by
  unfold adjudicate
  split_ifs <;> simp_all

/-- Without errors the branch is pruned for an uncovered obligation, or a bound above the budget. -/
theorem adjudicate_prune_iff {errors uncovered : List String} {lowerBound budget : ℚ} :
    (adjudicate errors uncovered lowerBound budget).1 = "CERTIFIED_PRUNE" ↔
      errors = [] ∧ (uncovered ≠ [] ∨ budget < lowerBound) := by
  unfold adjudicate
  split_ifs <;> simp_all

/-- In all other cases the search goes on. -/
theorem adjudicate_keep_iff {errors uncovered : List String} {lowerBound budget : ℚ} :
    (adjudicate errors uncovered lowerBound budget).1 = "KEEP_SEARCH" ↔
      errors = [] ∧ ¬ (uncovered ≠ [] ∨ budget < lowerBound) := by
  unfold adjudicate
  split_ifs <;> simp_all

/-- A call refuses its inputs or decides. -/
theorem certifyRepairBranch_eq (branchId : String) (obligations : List RepairObligation)
    (candidates : List RepairCandidate) (obligationWeights : ObligationWeights)
    (remainingBudget : ℚ) (heuristicScore : Option PyFloat) :
    certifyRepairBranch branchId obligations candidates obligationWeights remainingBudget
        heuristicScore =
      (checkInputs obligations candidates remainingBudget).map fun _ =>
        decided branchId obligations candidates obligationWeights remainingBudget
          heuristicScore := by
  unfold certifyRepairBranch
  cases checkInputs obligations candidates remainingBudget with
  | error e => rfl
  | ok _ =>
    show (sorted (necessaryIds obligations)).mapM
      (weightItem (dualWeights obligations obligationWeights)) >>= _ = _
    rw [mapM_weightItem]
    rfl

theorem certifyRepairBranch_of_admitted {obligations : List RepairObligation}
    {candidates : List RepairCandidate} {remainingBudget : ℚ}
    (hadmitted : Admitted obligations candidates remainingBudget) (branchId : String)
    (obligationWeights : ObligationWeights) (heuristicScore : Option PyFloat) :
    certifyRepairBranch branchId obligations candidates obligationWeights remainingBudget
        heuristicScore =
      .ok (decided branchId obligations candidates obligationWeights remainingBudget
        heuristicScore) := by
  rw [certifyRepairBranch_eq, checkInputs_eq_ok.mpr hadmitted]
  rfl

/-- A decision that was returned was made on admitted inputs. -/
theorem certifyRepairBranch_eq_ok {branchId : String} {obligations : List RepairObligation}
    {candidates : List RepairCandidate} {obligationWeights : ObligationWeights}
    {remainingBudget : ℚ} {heuristicScore : Option PyFloat} {decision : CertifiedRepairDecision}
    (hreturned : certifyRepairBranch branchId obligations candidates obligationWeights
      remainingBudget heuristicScore = .ok decision) :
    Admitted obligations candidates remainingBudget ∧
      decision = decided branchId obligations candidates obligationWeights remainingBudget
        heuristicScore := by
  rw [certifyRepairBranch_eq] at hreturned
  cases hchecked : checkInputs obligations candidates remainingBudget with
  | error e =>
    rw [hchecked] at hreturned
    cases hreturned
  | ok _ =>
    rw [hchecked] at hreturned
    exact ⟨checkInputs_eq_ok.mp hchecked, (Except.ok.inj hreturned).symm⟩

end CertifiedRepair

end PoiexGoc
