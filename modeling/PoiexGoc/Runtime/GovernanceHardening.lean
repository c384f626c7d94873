/-
  The audits of governed decisions, after `poiex_runtime/governance_hardening.py`.

  1. `GovernedBinding` and `audit_binding_validity` — an artifact is valid for the binding whose hash
     it carries.

  2. `audit_memory_readback` — per base state, whether memory and kernel both varied.

  3. `audit_observer_nonmint` — the progress a step may claim.

  4. `audit_stage_input_freshness` and `audit_open_world_reopening` — what a stage may consume, and
     what a new world does to a registry.

  5. `run_hardening_demo_case` — each audit on a case of its own.

  Sets are `Finset String`, tuples of texts are lists.
-/
import PoiexGoc.Lib.Grouping
import PoiexGoc.Lib.PyValue

namespace PoiexGoc

open Py

structure GovernedBinding where
  authorityRoot : String
  scope : Finset String
  targetHash : String
  policyEpoch : Int
  bindingHash : String
  deriving DecidableEq

/-- What `GovernedBinding.create` hashes. -/
def GovernedBinding.payload (authorityRoot : String) (scope : Finset String) (targetHash : String)
    (policyEpoch : Int) : PyDict :=
  [("authority_root", .str authorityRoot), ("scope", .set scope),
   ("target_hash", .str targetHash), ("policy_epoch", .int policyEpoch)]

def GovernedBinding.create [PyRuntime] (authorityRoot : String) (scope : Finset String)
    (targetHash : String) (policyEpoch : Int) : Except PyError GovernedBinding := do
  let bindingHash ←
    canonicalHash (GovernedBinding.payload authorityRoot scope targetHash policyEpoch)
  return { authorityRoot, scope, targetHash, policyEpoch, bindingHash }

structure BindingValidityReport where
  artifactId : String
  status : String
  legacyArtifactValidForFinalDisposition : Bool
  reasons : List String
  currentBindingHash : String
  artifactBindingHash : String
  deriving DecidableEq

def auditBindingValidity (artifactId artifactBindingHash : String)
    (currentBinding : GovernedBinding) : BindingValidityReport :=
  if artifactBindingHash = currentBinding.bindingHash then
    { artifactId
      status := "VALID_FOR_CURRENT_BINDING"
      legacyArtifactValidForFinalDisposition := true
      reasons := ["BINDING_MATCH"]
      currentBindingHash := currentBinding.bindingHash
      artifactBindingHash }
  else
    { artifactId
      status := "INVALIDATE_AND_RECOMPUTE"
      legacyArtifactValidForFinalDisposition := false
      reasons := ["SEMANTIC_BINDING_CHANGED", "LEGACY_ARTIFACT_INVALID_FOR_FINAL_DISPOSITION",
        "RECOMPUTATION_REQUIRED"]
      currentBindingHash := currentBinding.bindingHash
      artifactBindingHash }

/-- What `create` returns carries its arguments and their hash. -/
theorem GovernedBinding.create_eq_ok [PyRuntime] {authorityRoot : String} {scope : Finset String}
    {targetHash : String} {policyEpoch : Int} {binding : GovernedBinding} :
    GovernedBinding.create authorityRoot scope targetHash policyEpoch = .ok binding ↔
      ∃ h, canonicalHash (GovernedBinding.payload authorityRoot scope targetHash policyEpoch) =
        .ok h ∧ binding = ⟨authorityRoot, scope, targetHash, policyEpoch, h⟩ := by
  rw [GovernedBinding.create, bind_eq_ok]
  refine exists_congr fun h => and_congr_right fun _ => ?_
  exact ⟨fun hbinding => (Except.ok.inj hbinding).symm, fun hbinding => congrArg _ hbinding.symm⟩

/-- A binding can be created exactly when its epoch can be written: the rest of its payload is texts
    and a set of texts. -/
theorem GovernedBinding.create_isOk [PyRuntime] (authorityRoot : String) (scope : Finset String)
    (targetHash : String) (policyEpoch : Int) :
    (∃ binding, GovernedBinding.create authorityRoot scope targetHash policyEpoch = .ok binding) ↔
      WithinDigits maxStrDigits policyEpoch := by
  have hhash : (∃ h, canonicalHash (GovernedBinding.payload authorityRoot scope targetHash
      policyEpoch) = .ok h) ↔ WithinDigits maxStrDigits policyEpoch := by
    rw [canonicalHash_isOk_iff]
    simp only [GovernedBinding.payload, List.forall_mem_cons, serializable_str, serializable_int,
      serializable_set, List.not_mem_nil, false_implies, implies_true, true_and, and_true]
  rw [← hhash]
  constructor
  · rintro ⟨binding, hbinding⟩
    obtain ⟨h, hh, -⟩ := GovernedBinding.create_eq_ok.mp hbinding
    exact ⟨h, hh⟩
  · rintro ⟨h, hh⟩
    exact ⟨_, GovernedBinding.create_eq_ok.mpr ⟨h, hh, rfl⟩⟩

/-- The audit accepts an artifact exactly when it carries the current binding's hash. -/
theorem auditBindingValidity_accepts (artifactId artifactBindingHash : String)
    (currentBinding : GovernedBinding) :
    (auditBindingValidity artifactId artifactBindingHash
        currentBinding).legacyArtifactValidForFinalDisposition =
      decide (artifactBindingHash = currentBinding.bindingHash) := by
  by_cases hmatch : artifactBindingHash = currentBinding.bindingHash
  · rw [auditBindingValidity, if_pos hmatch, decide_eq_true hmatch]
  · rw [auditBindingValidity, if_neg hmatch, decide_eq_false hmatch]

/-- The status says in words what the flag says. -/
theorem auditBindingValidity_status (artifactId artifactBindingHash : String)
    (currentBinding : GovernedBinding) :
    (auditBindingValidity artifactId artifactBindingHash currentBinding).status =
        "VALID_FOR_CURRENT_BINDING" ↔
      (auditBindingValidity artifactId artifactBindingHash
        currentBinding).legacyArtifactValidForFinalDisposition = true := by
  rw [auditBindingValidity_accepts]
  by_cases hmatch : artifactBindingHash = currentBinding.bindingHash
  · rw [auditBindingValidity, if_pos hmatch, decide_eq_true hmatch]
    exact iff_of_true rfl rfl
  · rw [auditBindingValidity, if_neg hmatch, decide_eq_false hmatch]
    refine iff_of_false ?_ Bool.false_ne_true
    show ¬ "INVALIDATE_AND_RECOMPUTE" = "VALID_FOR_CURRENT_BINDING"
    decide

/-! ## Memory readback -/

structure MemoryReadbackWitness where
  baseState : String
  memoryState : String
  futureKernel : List String
  deriving DecidableEq

structure MemoryReadbackReport where
  status : String
  loadBearingReadbackObserved : Bool
  testedBaseStates : List String
  splitBaseStates : List String
  claimCeiling : String := "DECLARED_MATCHED_STATE_KERNEL_ONLY"
  deriving DecidableEq

/-- The base states whose group has two memory states and two kernels. -/
def splitStates (grouped : List (String × List MemoryReadbackWitness)) : List String :=
  (grouped.filter fun e =>
    decide (2 ≤ (e.2.map MemoryReadbackWitness.memoryState).toFinset.card) &&
      decide (2 ≤ (e.2.map MemoryReadbackWitness.futureKernel).toFinset.card)).map Prod.fst

def auditMemoryReadback (witnesses : List MemoryReadbackWitness) :
    Except PyError MemoryReadbackReport :=
  if witnesses = [] then
    .error (.valueError "at least one memory readback witness is required")
  else
    let grouped := Grouping.group MemoryReadbackWitness.baseState id witnesses
    if splitStates grouped ≠ [] then
      .ok
        { status := "LOAD_BEARING_READBACK_OBSERVED"
          loadBearingReadbackObserved := true
          testedBaseStates := (grouped.map Prod.fst).insertionSort (· ≤ ·)
          splitBaseStates := (splitStates grouped).insertionSort (· ≤ ·) }
    else
      .ok
        { status := "READBACK_NOT_DEMONSTRATED"
          loadBearingReadbackObserved := false
          testedBaseStates := (grouped.map Prod.fst).insertionSort (· ≤ ·)
          splitBaseStates := [] }

/-! ## Observers -/

structure ObserverTransition where
  beforeSystemStateHash : String
  afterSystemStateHash : String
  beforeEvidenceRoots : Finset String
  afterEvidenceRoots : Finset String
  beforeObserverConfigHash : String
  afterObserverConfigHash : String
  claimedProgressUnits : Int
  deriving DecidableEq

structure ObserverNonmintReport where
  status : String
  admissibleProgressUnits : Int
  systemStateChanged : Bool
  evidenceRootsChanged : Bool
  observerConfigChanged : Bool
  reasons : List String
  deriving DecidableEq

def auditObserverNonmint (transition : ObserverTransition) :
    Except PyError ObserverNonmintReport :=
  if transition.claimedProgressUnits < 0 then
    .error (.valueError "claimed_progress_units must be nonnegative")
  else
    let stateChanged := decide (transition.beforeSystemStateHash ≠ transition.afterSystemStateHash)
    let rootsChanged := decide (transition.beforeEvidenceRoots ≠ transition.afterEvidenceRoots)
    let configChanged :=
      decide (transition.beforeObserverConfigHash ≠ transition.afterObserverConfigHash)
    if 0 < transition.claimedProgressUnits ∧ stateChanged = false ∧ rootsChanged = false ∧
        configChanged = true then
      .ok
        { status := "NONMINT_VIOLATION"
          admissibleProgressUnits := 0
          systemStateChanged := false
          evidenceRootsChanged := false
          observerConfigChanged := true
          reasons := ["PURE_OBSERVER_REPARAMETERIZATION",
            "OBSERVER_CONFIG_CHANGE_CANNOT_MINT_PROGRESS"] }
    else
      .ok
        { status := "PROGRESS_REQUIRES_DOWNSTREAM_ADJUDICATION"
          admissibleProgressUnits := transition.claimedProgressUnits
          systemStateChanged := stateChanged
          evidenceRootsChanged := rootsChanged
          observerConfigChanged := configChanged
          reasons := ["NONMINT_GATE_NOT_VIOLATED"] }

/-! ## Stages -/

structure StageFreshnessReport where
  status : String
  stageInputAdmissible : Bool
  expectedPostStageHash : String
  consumedInputHash : String
  verifiedNoninterferenceCertificate : Bool
  reasons : List String
  deriving DecidableEq

def auditStageInputFreshness (expectedPostStageHash consumedInputHash : String)
    (verifiedNoninterferenceCertificate : Bool := false) : StageFreshnessReport :=
  if consumedInputHash = expectedPostStageHash then
    { status := "RECEIPTED_POST_STAGE_INPUT"
      stageInputAdmissible := true
      expectedPostStageHash
      consumedInputHash
      verifiedNoninterferenceCertificate
      reasons := ["STAGE_INPUT_MATCH"] }
  else if verifiedNoninterferenceCertificate = true then
    { status := "ADMIT_WITH_VERIFIED_NONINTERFERENCE"
      stageInputAdmissible := true
      expectedPostStageHash
      consumedInputHash
      verifiedNoninterferenceCertificate := true
      reasons := ["STAGE_INPUT_DIFFERS", "VERIFIED_NONINTERFERENCE_CERTIFICATE"] }
  else
    { status := "STALE_STAGE_INPUT_BLOCK"
      stageInputAdmissible := false
      expectedPostStageHash
      consumedInputHash
      verifiedNoninterferenceCertificate := false
      reasons := ["STAGE_INPUT_DIFFERS_FROM_RECEIPTED_PREDECESSOR_OUTPUT",
        "NONINTERFERENCE_NOT_CERTIFIED"] }

/-- A stage is admitted on its predecessor's output, or on a certificate. -/
theorem auditStageInputFreshness_admits (expectedPostStageHash consumedInputHash : String)
    (verified : Bool) :
    (auditStageInputFreshness expectedPostStageHash consumedInputHash
        verified).stageInputAdmissible = true ↔
      consumedInputHash = expectedPostStageHash ∨ verified = true := by
  by_cases hmatch : consumedInputHash = expectedPostStageHash
  · rw [auditStageInputFreshness, if_pos hmatch]
    exact iff_of_true rfl (.inl hmatch)
  · rw [auditStageInputFreshness, if_neg hmatch]
    cases verified with
    | true => exact iff_of_true rfl (.inr rfl)
    | false => exact iff_of_false Bool.false_ne_true (not_or.mpr ⟨hmatch, Bool.false_ne_true⟩)

/-! ## Registries -/

/-- The pair certificates are a mapping: no id stands twice in it. -/
structure RegistryCoverageCertificate where
  certificateId : String
  registeredWorlds : Finset String
  localPairCertificates : List (String × Finset String)
  localPairCertificates_nodup : (localPairCertificates.map Prod.fst).Nodup

structure RegistryReopeningReport where
  globalStatus : String
  newAdmissibleWorld : String
  locallyPreservedCertificates : List String
  locallyInvalidatedCertificates : List String
  reasons : List String
  deriving DecidableEq

def auditOpenWorldReopening (certificate : RegistryCoverageCertificate)
    (newAdmissibleWorld : String) : RegistryReopeningReport :=
  let preserved := (certificate.localPairCertificates.map Prod.fst).insertionSort (· ≤ ·)
  if newAdmissibleWorld ∈ certificate.registeredWorlds then
    { globalStatus := "NO_NEW_WORLD"
      newAdmissibleWorld
      locallyPreservedCertificates := preserved
      locallyInvalidatedCertificates := []
      reasons := ["WORLD_ALREADY_REGISTERED"] }
  else
    { globalStatus := "GLOBAL_REGISTRY_REOPENED"
      newAdmissibleWorld
      locallyPreservedCertificates := preserved
      locallyInvalidatedCertificates := []
      reasons := ["NEW_ADMISSIBLE_RIVAL", "REGISTERED_COVERAGE_NOT_REALITY_CLOSURE",
        "LOCAL_CERTIFICATES_PRESERVED_WITHIN_DECLARED_SCOPE"] }

/-- A registry is reopened by the worlds it does not have, and by no world are its pair certificates
    touched. -/
theorem auditOpenWorldReopening_preserves (certificate : RegistryCoverageCertificate)
    (world : String) :
    let report := auditOpenWorldReopening certificate world
    (report.globalStatus = "GLOBAL_REGISTRY_REOPENED" ↔ world ∉ certificate.registeredWorlds) ∧
      report.locallyPreservedCertificates =
        sorted (certificate.localPairCertificates.map Prod.fst).toFinset ∧
      report.locallyInvalidatedCertificates = [] := by
  have hsorted := insertionSort_eq_sorted certificate.localPairCertificates_nodup
  by_cases hknown : world ∈ certificate.registeredWorlds
  · rw [auditOpenWorldReopening, if_pos hknown]
    refine ⟨iff_of_false ?_ (not_not.mpr hknown), hsorted, rfl⟩
    show ¬ "NO_NEW_WORLD" = "GLOBAL_REGISTRY_REOPENED"
    decide
  · rw [auditOpenWorldReopening, if_neg hknown]
    exact ⟨iff_of_true rfl hknown, hsorted, rfl⟩

/-! ## The demo cases -/

def hardeningDemoCases : Finset String :=
  {"binding_change", "write_only_memory", "stale_stage_input", "observer_reparameterization",
    "new_rival"}

/-- What every answer starts with. -/
def hardeningBase (case : String) : PyDict :=
  [("schema", .str "GOC_CROSS_LANE_HARDENING_V0_10"),
   ("truth_ceiling", .str "SYNTHETIC_RECEIVER_NATIVE_ONLY"), ("case", .str case),
   ("method_transfer_not_evidence_transfer", .bool true)]

/-- `list(reasons)`. -/
def textList (texts : List String) : PyValue := .list (texts.map .str)

def runHardeningDemoCase [PyRuntime] (case : String) : Except PyError PyDict := do
  if case ∉ hardeningDemoCases then
    throw (.valueError ("unsupported hardening case: " ++ case))
  let base := hardeningBase case
  if case = "binding_change" then
    let old ← GovernedBinding.create "plant-owner-root" {"issue_synthetic_work_order"} "pump-A-v3" 7
    let current ← GovernedBinding.create "plant-owner-root"
      {"issue_synthetic_work_order", "inspect"} "pump-A-v3" 7
    let report := auditBindingValidity "receipt-pre-binding-change" old.bindingHash current
    return base ++
      [("status", .str report.status),
       ("artifact_valid", .bool report.legacyArtifactValidForFinalDisposition),
       ("reasons", textList report.reasons)]
  else if case = "write_only_memory" then
    let report ← auditMemoryReadback
      [{ baseState := "same-current", memoryState := "history-A"
         futureKernel := ["ALLOW", "BLOCK"] },
       { baseState := "same-current", memoryState := "history-B"
         futureKernel := ["ALLOW", "BLOCK"] }]
    return base ++
      [("status", .str report.status),
       ("load_bearing_readback_observed", .bool report.loadBearingReadbackObserved),
       ("claim_ceiling", .str report.claimCeiling)]
  else if case = "stale_stage_input" then
    let report := auditStageInputFreshness "post-gate-state" "original-plan-state" false
    return base ++
      [("status", .str report.status),
       ("stage_input_admissible", .bool report.stageInputAdmissible),
       ("reasons", textList report.reasons)]
  else if case = "observer_reparameterization" then
    let report ← auditObserverNonmint
      { beforeSystemStateHash := "system-state-A"
        afterSystemStateHash := "system-state-A"
        beforeEvidenceRoots := {"root-1"}
        afterEvidenceRoots := {"root-1"}
        beforeObserverConfigHash := "threshold-0.70"
        afterObserverConfigHash := "threshold-0.80"
        claimedProgressUnits := 1 }
    return base ++
      [("status", .str report.status),
       ("admissible_progress_units", .int report.admissibleProgressUnits),
       ("reasons", textList report.reasons)]
  else
    let certificate : RegistryCoverageCertificate :=
      { certificateId := "registry-v1"
        registeredWorlds := {"W-A", "W-B"}
        localPairCertificates := [("pair-A-B", {"W-A", "W-B"})]
        localPairCertificates_nodup := List.nodup_singleton _ }
    let report := auditOpenWorldReopening certificate "W-X"
    return base ++
      [("status", .str report.globalStatus),
       ("locally_preserved_certificates", textList report.locallyPreservedCertificates),
       ("locally_invalidated_certificates", textList report.locallyInvalidatedCertificates),
       ("reasons", textList report.reasons)]

end PoiexGoc
