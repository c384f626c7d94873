/-
  What the hardening endpoint answers: each of its cases is an instance of what one audit refuses.

  1. `binding_change_refused`, `same_kernels_refused`, `stale_input_refused`,
     `reparameterization_refused`, `new_world_refused` — what each audit refuses, for every input of
     the kind; the first one unless SHA-256 collides.

  2. `runHardening_refuses` — so no case the endpoint takes raises, and each is answered with its
     refusal.
-/
import PoiexGoc.Proofs.HashedFields
import PoiexGoc.Proofs.MemoryReadback
import PoiexGoc.Runtime.ControlService

namespace PoiexGoc

open Py

namespace ControlService

/-- The status a case is refused with. -/
def HardeningCase.refusal : HardeningCase → String
  | bindingChange => "INVALIDATE_AND_RECOMPUTE"
  | writeOnlyMemory => "READBACK_NOT_DEMONSTRATED"
  | staleStageInput => "STALE_STAGE_INPUT_BLOCK"
  | observerReparameterization => "NONMINT_VIOLATION"
  | newRival => "GLOBAL_REGISTRY_REOPENED"

/-! ## What the audits refuse -/

/-- Memory is not shown to be read where each base state shows one kernel. -/
theorem same_kernels_refused {witnesses : List MemoryReadbackWitness} (hne : witnesses ≠ [])
    (hkernel : ∀ v ∈ witnesses, ∀ w ∈ witnesses, v.baseState = w.baseState →
      v.futureKernel = w.futureKernel) :
    ∃ report, auditMemoryReadback witnesses = .ok report ∧
      report.status = "READBACK_NOT_DEMONSTRATED" := by
  refine ⟨_, MemoryReadback.auditMemoryReadback_eq hne,
    (MemoryReadback.reportOf_status _ _).2.mpr ?_⟩
  refine Finset.eq_empty_of_forall_notMem fun base hbase => ?_
  obtain ⟨v, hv, w, hw, hvbase, hwbase, -, hdiffer⟩ := MemoryReadback.mem_splitSet.mp hbase
  exact hdiffer (hkernel v hv w hw (hvbase.trans hwbase.symm))

/-- A stage is not admitted on another input than its predecessor's output without a
    certificate. -/
theorem stale_input_refused {expectedPostStageHash consumedInputHash : String}
    (hstale : consumedInputHash ≠ expectedPostStageHash) :
    (auditStageInputFreshness expectedPostStageHash consumedInputHash).status =
      "STALE_STAGE_INPUT_BLOCK" := by
  rw [auditStageInputFreshness, if_neg hstale, if_neg Bool.false_ne_true]

/-- Progress is not minted by a change of the observer alone. -/
theorem reparameterization_refused (transition : ObserverTransition)
    (hclaim : 0 < transition.claimedProgressUnits)
    (hstate : transition.beforeSystemStateHash = transition.afterSystemStateHash)
    (hroots : transition.beforeEvidenceRoots = transition.afterEvidenceRoots)
    (hconfig : transition.beforeObserverConfigHash ≠ transition.afterObserverConfigHash) :
    ∃ report, auditObserverNonmint transition = .ok report ∧
      report.status = "NONMINT_VIOLATION" := by
  rw [auditObserverNonmint, if_neg (not_lt.mpr hclaim.le)]
  simp only
  rw [if_pos ⟨hclaim, decide_eq_false (not_not_intro hstate), decide_eq_false (not_not_intro hroots),
    decide_eq_true hconfig⟩]
  exact ⟨_, rfl, rfl⟩

/-- A registry is not closed against a world it does not have. -/
theorem new_world_refused (certificate : RegistryCoverageCertificate) {world : String}
    (hnew : world ∉ certificate.registeredWorlds) :
    (auditOpenWorldReopening certificate world).globalStatus = "GLOBAL_REGISTRY_REOPENED" :=
  (auditOpenWorldReopening_preserves certificate world).1.mpr hnew

variable [PyRuntime]

/-- The scope of the binding grows, and nothing else changes: its hash changes as well. -/
theorem binding_change_refused {old current : GovernedBinding} {root targetHash : String}
    {scope scope' : Finset String} {epoch : Int} (artifactId : String) (hne : scope ≠ scope')
    (hfree : CollisionFree (GovernedBinding.payload root scope targetHash epoch)
      (GovernedBinding.payload root scope' targetHash epoch))
    (hold : GovernedBinding.create root scope targetHash epoch = .ok old)
    (hcurrent : GovernedBinding.create root scope' targetHash epoch = .ok current) :
    (auditBindingValidity artifactId old.bindingHash current).status =
      "INVALIDATE_AND_RECOMPUTE" := by
  have hrefused : ¬ old.bindingHash = current.bindingHash := by
    intro hsame
    have haccepts := (binding_audit_accepts_iff hfree hold hcurrent artifactId).mp (by
      rw [auditBindingValidity_accepts, decide_eq_true hsame])
    exact hne haccepts.2.1
  rw [auditBindingValidity, if_neg hrefused]

/-! ## The demo cases -/

/-- A case whose answer carries the status of its audit is refused when the audit refuses. -/
theorem runHardening_of_status {case : HardeningCase} {status : String}
    (hstatus : status = case.refusal)
    (hanswer : ∃ fields, runHardeningDemoCase case.value =
      .ok (hardeningBase case.value ++ ("status", .str status) :: fields)) :
    ∃ fields, runHardening case =
      .ok (hardeningBase case.value ++ ("status", .str case.refusal) :: fields) := by
  obtain ⟨fields, hanswer⟩ := hanswer
  rw [runHardening, hanswer, hstatus]
  exact ⟨fields, rfl⟩

/-- No case the endpoint takes raises, and each is answered with its refusal. -/
theorem runHardening_refuses (case : HardeningCase)
    (hfree : CollisionFree
      (GovernedBinding.payload "plant-owner-root" {"issue_synthetic_work_order"} "pump-A-v3" 7)
      (GovernedBinding.payload "plant-owner-root" {"issue_synthetic_work_order", "inspect"}
        "pump-A-v3" 7)) :
    ∃ fields, runHardening case =
      .ok (hardeningBase case.value ++ ("status", .str case.refusal) :: fields) := by
  cases case with
  | bindingChange =>
    have hepoch : WithinDigits maxStrDigits 7 := by decide
    obtain ⟨old, hold⟩ := (GovernedBinding.create_isOk "plant-owner-root"
      {"issue_synthetic_work_order"} "pump-A-v3" 7).mpr hepoch
    obtain ⟨current, hcurrent⟩ := (GovernedBinding.create_isOk "plant-owner-root"
      {"issue_synthetic_work_order", "inspect"} "pump-A-v3" 7).mpr hepoch
    refine runHardening_of_status (binding_change_refused "receipt-pre-binding-change" (by decide)
      hfree hold hcurrent) ?_
    show ∃ _, runHardeningDemoCase "binding_change" = _
    rw [runHardeningDemoCase, if_neg (by decide), if_pos rfl, hold, hcurrent]
    exact ⟨_, rfl⟩
  | writeOnlyMemory =>
    have hkernels : ∀ v ∈ [MemoryReadbackWitness.mk "same-current" "history-A" ["ALLOW", "BLOCK"],
        ⟨"same-current", "history-B", ["ALLOW", "BLOCK"]⟩], v.futureKernel = ["ALLOW", "BLOCK"] := by
      simp only [List.forall_mem_cons, List.not_mem_nil, false_implies, implies_true, and_self]
    obtain ⟨report, hreport, hstatus⟩ := same_kernels_refused (List.cons_ne_nil _ _)
      fun v hv w hw _ => (hkernels v hv).trans (hkernels w hw).symm
    refine runHardening_of_status hstatus ?_
    show ∃ _, runHardeningDemoCase "write_only_memory" = _
    rw [runHardeningDemoCase, if_neg (by decide), if_neg (by decide), if_pos rfl, hreport]
    exact ⟨_, rfl⟩
  | staleStageInput =>
    refine runHardening_of_status (stale_input_refused (show "original-plan-state" ≠
      "post-gate-state" by decide)) ?_
    show ∃ _, runHardeningDemoCase "stale_stage_input" = _
    rw [runHardeningDemoCase, if_neg (by decide), if_neg (by decide), if_neg (by decide), if_pos rfl]
    exact ⟨_, rfl⟩
  | observerReparameterization =>
    obtain ⟨report, hreport, hstatus⟩ := reparameterization_refused
      ⟨"system-state-A", "system-state-A", {"root-1"}, {"root-1"}, "threshold-0.70",
        "threshold-0.80", 1⟩ one_pos rfl rfl (by decide)
    refine runHardening_of_status hstatus ?_
    show ∃ _, runHardeningDemoCase "observer_reparameterization" = _
    rw [runHardeningDemoCase, if_neg (by decide), if_neg (by decide), if_neg (by decide),
      if_neg (by decide), if_pos rfl, hreport]
    exact ⟨_, rfl⟩
  | newRival =>
    refine runHardening_of_status (new_world_refused ⟨"registry-v1", {"W-A", "W-B"},
      [("pair-A-B", {"W-A", "W-B"})], List.nodup_singleton _⟩ (show "W-X" ∉ _ by decide)) ?_
    show ∃ _, runHardeningDemoCase "new_rival" = _
    rw [runHardeningDemoCase, if_neg (by decide), if_neg (by decide), if_neg (by decide),
      if_neg (by decide), if_neg (by decide)]
    exact ⟨_, rfl⟩

end ControlService

end PoiexGoc
