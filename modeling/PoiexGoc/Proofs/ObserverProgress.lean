/-
  PROGRESS of reruns: what the observer gate lets through.

  A rerun leaves the state and the evidence roots as they are (`Rerun`).  The gate looks at one step
  at a time:

  1. `auditObserverNonmint_rerun` — one step: a changed configuration is admitted with no progress, a
     kept one with whatever the step claims.

  2. `rerun_mints_nothing_iff` — a whole run, by induction: nothing is minted exactly when the steps
     that keep the configuration claim nothing.
-/
import Mathlib.Algebra.BigOperators.Group.List.Basic
import Mathlib.Algebra.Order.Ring.Int
import Mathlib.Data.List.Chain
import PoiexGoc.Runtime.GovernanceHardening

namespace PoiexGoc

open Py

namespace ObserverProgress

/-- The second transition starts where the first one ended. -/
def Continues (first second : ObserverTransition) : Prop :=
  second.beforeSystemStateHash = first.afterSystemStateHash ∧
    second.beforeEvidenceRoots = first.afterEvidenceRoots ∧
    second.beforeObserverConfigHash = first.afterObserverConfigHash

/-- A step that changes at most the observer's configuration. -/
structure RerunStep (step : ObserverTransition) : Prop where
  state : step.beforeSystemStateHash = step.afterSystemStateHash
  roots : step.beforeEvidenceRoots = step.afterEvidenceRoots
  claim : 0 ≤ step.claimedProgressUnits

/-- A sequence of such steps, each from where the one before it ended. -/
structure Rerun (steps : List ObserverTransition) : Prop where
  continues : steps.IsChain Continues
  steps : ∀ step ∈ steps, RerunStep step

/-- What the step mints. -/
def minted (step : ObserverTransition) : Int :=
  if step.beforeObserverConfigHash = step.afterObserverConfigHash then step.claimedProgressUnits
  else 0

/-- One step: the gate closes on a changed configuration only. -/
theorem auditObserverNonmint_rerun {step : ObserverTransition} (hstep : RerunStep step) :
    ∃ report, auditObserverNonmint step = .ok report ∧
      report.admissibleProgressUnits = minted step := by
  obtain ⟨hstate, hroots, hclaim⟩ := hstep
  rw [auditObserverNonmint, if_neg (not_lt.mpr hclaim), minted]
  simp only [hstate, hroots, ne_eq, not_true_eq_false, decide_false, true_and]
  by_cases hconfig : step.beforeObserverConfigHash = step.afterObserverConfigHash
  · have hopen : ¬ (0 < step.claimedProgressUnits ∧
        decide (¬ step.beforeObserverConfigHash = step.afterObserverConfigHash) = true) :=
      fun h => of_decide_eq_true h.2 hconfig
    rw [if_pos hconfig, if_neg hopen]
    exact ⟨_, rfl, rfl⟩
  · rw [if_neg hconfig]
    by_cases hzero : 0 < step.claimedProgressUnits
    · rw [if_pos ⟨hzero, decide_eq_true hconfig⟩]
      exact ⟨_, rfl, rfl⟩
    · -- a claim of nothing passes the gate, and mints nothing
      rw [if_neg fun h => hzero h.1]
      exact ⟨_, rfl, show step.claimedProgressUnits = 0 by omega⟩

/-- The reports of a run, step by step. -/
theorem mapM_auditObserverNonmint {steps : List ObserverTransition}
    (hsteps : ∀ step ∈ steps, RerunStep step) :
    ∃ reports, steps.mapM auditObserverNonmint = .ok reports ∧
      reports.map ObserverNonmintReport.admissibleProgressUnits = steps.map minted := by
  induction steps with
  | nil => exact ⟨[], rfl, rfl⟩
  | cons step steps ih =>
    obtain ⟨hstep, hrest⟩ := List.forall_mem_cons.mp hsteps
    obtain ⟨report, hreport, hunits⟩ := auditObserverNonmint_rerun hstep
    obtain ⟨reports, hreports, hall⟩ := ih hrest
    refine ⟨report :: reports, ?_, ?_⟩
    · rw [List.mapM_cons, hreport, ok_bind, hreports]
      rfl
    · rw [List.map_cons, List.map_cons, hunits, hall]

theorem minted_nonneg {step : ObserverTransition} (hstep : RerunStep step) : 0 ≤ minted step := by
  rw [minted]
  split
  · exact hstep.claim
  · exact le_refl 0

/-- Nothing is minted by a run when nothing is minted by any of its steps. -/
theorem sum_minted_eq_zero_iff {steps : List ObserverTransition}
    (hsteps : ∀ step ∈ steps, RerunStep step) :
    0 ≤ (steps.map minted).sum ∧
      ((steps.map minted).sum = 0 ↔ ∀ step ∈ steps, minted step = 0) := by
  induction steps with
  | nil => exact ⟨le_refl 0, iff_of_true rfl fun _ h => absurd h List.not_mem_nil⟩
  | cons step steps ih =>
    obtain ⟨hstep, hrest⟩ := List.forall_mem_cons.mp hsteps
    obtain ⟨hsum, hzero⟩ := ih hrest
    have hhead := minted_nonneg hstep
    rw [List.map_cons, List.sum_cons, List.forall_mem_cons, ← hzero]
    constructor
    · omega
    · constructor
      · intro htotal
        constructor
        · omega
        · omega
      · rintro ⟨hstepzero, hrestzero⟩
        omega

theorem minted_eq_zero_iff {step : ObserverTransition} :
    minted step = 0 ↔
      (step.beforeObserverConfigHash = step.afterObserverConfigHash →
        step.claimedProgressUnits = 0) := by
  rw [minted]
  split
  · rename_i hconfig
    exact ⟨fun h _ => h, fun h => h hconfig⟩
  · rename_i hconfig
    exact iff_of_true rfl fun h => absurd h hconfig

/-- A rerun mints nothing exactly when its steps that keep the observer's configuration claim
    nothing. -/
theorem rerun_mints_nothing_iff {steps : List ObserverTransition} (hrerun : Rerun steps) :
    ∃ reports, steps.mapM auditObserverNonmint = .ok reports ∧
      ((reports.map ObserverNonmintReport.admissibleProgressUnits).sum = 0 ↔
        ∀ step ∈ steps, step.beforeObserverConfigHash = step.afterObserverConfigHash →
          step.claimedProgressUnits = 0) := by
  obtain ⟨reports, hreports, hunits⟩ := mapM_auditObserverNonmint hrerun.steps
  refine ⟨reports, hreports, ?_⟩
  rw [hunits, (sum_minted_eq_zero_iff hrerun.steps).2]
  simp only [minted_eq_zero_iff]

/-- A step of an observer whose threshold goes from one value to another. -/
def thresholdStep (before after : String) (claimed : Int) : ObserverTransition :=
  { beforeSystemStateHash := "state-A"
    afterSystemStateHash := "state-A"
    beforeEvidenceRoots := {"root-1"}
    afterEvidenceRoots := {"root-1"}
    beforeObserverConfigHash := before
    afterObserverConfigHash := after
    claimedProgressUnits := claimed }

theorem rerun_thresholdSteps {first second third : String} {claimed claimed' : Int}
    (hclaim : 0 ≤ claimed) (hclaim' : 0 ≤ claimed') :
    Rerun [thresholdStep first second claimed, thresholdStep second third claimed'] := by
  refine ⟨List.isChain_pair.mpr ⟨rfl, rfl, rfl⟩, ?_⟩
  intro step hstep
  rcases List.mem_cons.mp hstep with rfl | hstep
  · exact ⟨rfl, rfl, hclaim⟩
  · rw [List.mem_singleton.mp hstep]
    exact ⟨rfl, rfl, hclaim'⟩

/-- A rerun under another threshold, and back. -/
theorem threshold_there_and_back :
    ∃ reports, [thresholdStep "threshold-0.7" "threshold-0.8" 1,
        thresholdStep "threshold-0.8" "threshold-0.7" 2].mapM auditObserverNonmint = .ok reports ∧
      ((reports.map ObserverNonmintReport.admissibleProgressUnits).sum = 0 ↔
        ∀ step ∈ [thresholdStep "threshold-0.7" "threshold-0.8" 1,
            thresholdStep "threshold-0.8" "threshold-0.7" 2],
          step.beforeObserverConfigHash = step.afterObserverConfigHash →
            step.claimedProgressUnits = 0) :=
  rerun_mints_nothing_iff (rerun_thresholdSteps (by decide) (by decide))

/-- The threshold is changed for nothing, and then kept for a unit. -/
theorem kept_threshold_mints_progress :
    ¬ ∀ steps : List ObserverTransition, Rerun steps →
      ∃ reports, steps.mapM auditObserverNonmint = .ok reports ∧
        (reports.map ObserverNonmintReport.admissibleProgressUnits).sum = 0 := by
  intro hclaim
  have hrerun : Rerun [thresholdStep "threshold-0.7" "threshold-0.8" 0,
      thresholdStep "threshold-0.8" "threshold-0.8" 1] :=
    rerun_thresholdSteps (by decide) (by decide)
  obtain ⟨reports, hreports, hzero⟩ := hclaim _ hrerun
  have hone : ([thresholdStep "threshold-0.7" "threshold-0.8" 0,
      thresholdStep "threshold-0.8" "threshold-0.8" 1].mapM auditObserverNonmint).map
      (fun reports => (reports.map ObserverNonmintReport.admissibleProgressUnits).sum) =
        .ok 1 := by decide +kernel
  rw [hreports] at hone
  have htotal : (reports.map ObserverNonmintReport.admissibleProgressUnits).sum = 1 :=
    Except.ok.inj hone
  omega

end ObserverProgress

end PoiexGoc
