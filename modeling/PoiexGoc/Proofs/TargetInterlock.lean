/-
  THE TARGET INTERLOCK: what stands behind the target hash that an execution compares.

  The gates compare the intent's target hash with the stored one and read the allowed actions
  beside it; that the stored hash is the hash of the stored fields is left to the store.  A document
  store re-hashes what it decodes (`targetFromDoc_selfConsistent`), the local store answers what it
  holds.  So the interlock rests on a self-consistent target on every document store, and on a local
  one exactly as far as its targets are (`interlock_self_consistent_iff`).
-/
import PoiexGoc.Proofs.DocumentCodecs
import PoiexGoc.Proofs.SanctionedRequests
import PoiexGoc.Proofs.StandingReceipts

namespace PoiexGoc

open Py Effect

section Interlock

variable [PyRuntime]

/-- What a document store finds under a target id is self-consistent. -/
theorem FirestoreStore.target_selfConsistent {fs : FirestoreStore} {c : FirestoreClient}
    {targetId : String} {target : MaterialTarget}
    (htarget : (fs.view c).target targetId = .ok (some target)) : target.SelfConsistent := by
  replace htarget : fs.getDecoded "targets" targetId targetFromDoc c = .ok (some target) := htarget
  unfold FirestoreStore.getDecoded at htarget
  obtain ⟨found, -, hdecoded⟩ := bind_eq_ok.mp htarget
  cases found with
  | none => cases hdecoded
  | some data =>
    obtain ⟨decoded, hdata, hsome⟩ := map_eq_ok hdecoded
    rw [← Option.some.inj hsome]
    exact targetFromDoc_selfConsistent hdata

/-- The store re-hashes the targets it reads, or holds none under this id with another hash. -/
def Backend.TargetSound : Backend → String → Prop
  | .firestore _ _, _ => True
  | .memory s, targetId => ∀ target, s.targets.lookup targetId = some target → target.SelfConsistent

theorem Backend.TargetSound.selfConsistent {s : Backend} {targetId : String}
    (hsound : s.TargetSound targetId) {target : MaterialTarget}
    (htarget : s.view.target targetId = .ok (some target)) : target.SelfConsistent := by
  cases s with
  | memory s => exact hsound target (Except.ok.inj htarget)
  | firestore fs c => exact FirestoreStore.target_selfConsistent htarget

/-- An ALLOW is about a self-consistent target exactly when the store re-hashes it, or holds a
    self-consistent one, or the request is refused for another reason. -/
theorem interlock_self_consistent_iff (s : Backend) (cp : ControlPlane) (fuel : Nat) (draw : Draw)
    (identity : IdentityContext) (leaseId : String) (intent : ActionIntent) :
    (∀ receipt,
      ((cp.execute fuel draw identity leaseId intent).run Backend.handle s).1 = .ok receipt →
      receipt.decision = "ALLOW" → ∃ target, s.view.target intent.targetId = .ok (some target) ∧
        target.SelfConsistent) ↔
    s.TargetSound intent.targetId ∨
      ¬ (Serializable (.dict intent.parameters) ∧ ∃ agent evidenceId evidence lease target,
        ControlPlane.Sanctioned s.view cp fuel draw.now identity leaseId intent agent evidenceId
          evidence lease target) := by
  rw [← ControlPlane.execute_allows_iff backend_implements]
  constructor
  · intro hinterlock
    by_cases hallows : ∃ receipt, ((cp.execute fuel draw identity leaseId intent).run
        Backend.handle s).1 = .ok receipt ∧ receipt.decision = "ALLOW"
    · obtain ⟨receipt, hrun, hallow⟩ := hallows
      obtain ⟨target, htarget, hself⟩ := hinterlock receipt hrun hallow
      refine Or.inl ?_
      cases s with
      | firestore fs c => trivial
      | memory s =>
        intro stored hstored
        have heq : some target = some stored := (Except.ok.inj htarget).symm.trans hstored
        rw [← Option.some.inj heq]
        exact hself
    · exact Or.inr hallows
  · rintro (hsound | hrefused) receipt hrun hallow
    · obtain ⟨-, agent, evidenceId, evidence, lease, target, hsanctioned⟩ :=
        (ControlPlane.execute_allows_iff backend_implements cp fuel draw identity leaseId intent
          s).mp ⟨receipt, hrun, hallow⟩
      exact ⟨target, hsanctioned.targeted, hsound.selfConsistent hsanctioned.targeted⟩
    · exact absurd ⟨receipt, hrun, hallow⟩ hrefused

end Interlock

namespace CloudDemo

/-- The pump as registered for inspections only, with the hash of these fields. -/
def inspectedTarget : MaterialTarget :=
  { missionTarget with
    allowedActions := {"inspect_synthetic_work_order"}
    targetHash := "66cc02c625684a8e1e1c069af3aee55598bedac2cd15ec3d6aca847821b3db29" }

/-- The same record with its allowed actions widened, under the old hash. -/
def widenedTarget : MaterialTarget :=
  { inspectedTarget with allowedActions := {"inspect_synthetic_work_order", action} }

def inspectedIntent : ActionIntent := { missionIntent with targetHash := inspectedTarget.targetHash }

end CloudDemo

open CloudDemo in
/-- Widening the allowed actions of a stored target makes a local store allow the action.  A document
    store that holds the widened record raises. -/
theorem widened_target_is_allowed :
    let memory := (runCommands Backend.handle 3 missionCalls (.memory {})).2
    let firestore := (runCommands Backend.handle 3 missionCalls
      (.firestore ⟨"poiex_goc_v0_1", by decide⟩ {})).2
    let decide (s : Backend) := ((controlPlane.execute 3 missionDraw (identity "s1") "lease-001"
      inspectedIntent).run Backend.handle s).1.map ExecutionReceipt.decision
    inspectedTarget.SelfConsistent ∧ ¬ widenedTarget.SelfConsistent ∧
    decide (Backend.handle (.putTarget inspectedTarget) memory).2 = .ok "BLOCK" ∧
    decide (Backend.handle (.putTarget widenedTarget) memory).2 = .ok "ALLOW" ∧
    (Backend.handle (.putTarget widenedTarget) memory).2.view.target inspectedIntent.targetId =
      .ok (some widenedTarget) ∧
    ∃ e, decide (Backend.handle (.putTarget widenedTarget) firestore).2 = .error e := by
  refine ⟨by decide +kernel, by decide +kernel, by decide +kernel, by decide +kernel,
    by decide +kernel, .valueError "stored MaterialTarget hash does not match its canonical fields",
    ?_⟩
  decide +kernel

end PoiexGoc
