/-
  LEASE WINDOWS: when a lease behind an ALLOW is in force.

  A lease carries both ends of its window.  The gates compare the clock with its end and with its
  revocation, the provenance verifier compares it with both ends of every record of the chain, and
  nothing compares it with the start of the lease: `lease_in_force_iff`.
-/
import PoiexGoc.Proofs.Mediation
import PoiexGoc.Proofs.StandingReceipts

namespace PoiexGoc

open Py Effect

/-- The clock is inside the window of the lease, and the lease is not revoked by then. -/
structure AuthorityLease.InForce (lease : AuthorityLease) (now : DateTime) : Prop where
  issued : lease.issuedAt ≤ now
  unexpired : now < lease.expiresAt
  unrevoked : ¬ revokedBy lease.revokedAt now

theorem AuthorityLease.inForce_iff {lease : AuthorityLease} {now : DateTime} :
    lease.InForce now ↔
      lease.issuedAt ≤ now ∧ now < lease.expiresAt ∧ ¬ revokedBy lease.revokedAt now := by
  constructor
  · rintro ⟨hissued, hunexpired, hunrevoked⟩
    exact ⟨hissued, hunexpired, hunrevoked⟩
  · rintro ⟨hissued, hunexpired, hunrevoked⟩
    exact ⟨hissued, hunexpired, hunrevoked⟩

instance (lease : AuthorityLease) (now : DateTime) : Decidable (lease.InForce now) :=
  decidable_of_iff _ AuthorityLease.inForce_iff.symm

namespace ControlPlane

variable {v : StoreView} {cp : ControlPlane} {fuel : Nat} {now : DateTime}
  {identity : IdentityContext} {leaseId : String} {intent : ActionIntent} {report : GateReport}
  {agent : AgentRecord} {evidenceId : String} {evidence : EvidenceItem} {lease : AuthorityLease}
  {target : MaterialTarget}

/-- The gates leave open the start of the window only. -/
theorem Admitted.inForce_iff (hadmitted : Admitted v cp fuel now identity leaseId intent report
    agent evidenceId evidence lease target) : lease.InForce now ↔ lease.issuedAt ≤ now := by
  constructor
  · intro hforce
    exact hforce.issued
  · intro hissued
    exact ⟨hissued, hadmitted.unexpired, hadmitted.unrevoked⟩

end ControlPlane

section Windows

variable [PyRuntime]

/-- Authority current at both ends.  Whatever is stored and whatever the clock shows: the lease of
    an ALLOW is in force exactly when it has been issued by then.  Every provenance record behind
    it has been, where provenance is required. -/
theorem lease_in_force_iff (s : Backend) (cp : ControlPlane) (fuel : Nat) (draw : Draw)
    (identity : IdentityContext) (leaseId : String) (intent : ActionIntent)
    (receipt : ExecutionReceipt)
    (hrun : ((cp.execute fuel draw identity leaseId intent).run Backend.handle s).1 = .ok receipt)
    (hallow : receipt.decision = "ALLOW") :
    ∃ lease, s.view.lease leaseId = .ok (some lease) ∧
      (lease.InForce draw.now ↔ lease.issuedAt ≤ draw.now) ∧
      (cp.requireAuthorityProvenance = true → ∃ chain,
        LegitimateChain s.view.provenanceRecord lease draw.now cp.trustedAuthorityRoots chain ∧
        ∀ e ∈ chain, e.2.issuedAt ≤ draw.now) := by
  obtain ⟨report, agent, evidenceId, evidence, lease, target, resultHash, hadmitted, -⟩ :=
    ControlPlane.execute_allow backend_implements (Prod.ext hrun rfl) hallow
  refine ⟨lease, hadmitted.leased, hadmitted.inForce_iff, ?_⟩
  intro hprov
  obtain ⟨chain, hchain⟩ := hadmitted.legitimateChain hprov
  exact ⟨chain, hchain, fun e he => (hchain.valid e he).1⟩

end Windows

namespace CloudDemo

/-- The demo's lease, issued ten minutes after the mission. -/
def postdatedLease : AuthorityLease :=
  { lease missionTime with issuedAt := missionTime.addSeconds 600 }

/-- The mission, with the postdated lease in the place of its own. -/
def postdatedCalls : List Command := missionCalls ++ [.operation (.putLease postdatedLease)]

end CloudDemo

open CloudDemo in
/-- A lease that is issued only later is accepted, provenance and all. -/
theorem postdated_lease_is_accepted :
    let s := (runCommands Backend.handle 3 postdatedCalls (.memory {})).2
    ((controlPlane.execute 3 missionDraw (identity "s1") "lease-001" missionIntent).run
      Backend.handle s).1.map ExecutionReceipt.decision = .ok "ALLOW" ∧
    s.view.lease "lease-001" = .ok (some postdatedLease) ∧
    ¬ postdatedLease.InForce missionDraw.now := by
  decide +kernel

open CloudDemo in
/-- The demo's own lease is in force. -/
theorem mission_lease_in_force :
    ∃ lease, (runCommands Backend.handle 3 missionCalls (.memory {})).2.view.lease "lease-001" =
      .ok (some lease) ∧ lease.InForce missionDraw.now := by
  have hdecision : ((controlPlane.execute 3 missionDraw (identity "s1") "lease-001"
      missionIntent).run Backend.handle
        (runCommands Backend.handle 3 missionCalls (.memory {})).2).1.map
          ExecutionReceipt.decision = .ok "ALLOW" := by decide +kernel
  obtain ⟨receipt, hreceipt, hallow⟩ := map_eq_ok hdecision
  obtain ⟨found, hfound, hforce, -⟩ := lease_in_force_iff
    (runCommands Backend.handle 3 missionCalls (.memory {})).2 controlPlane 3 missionDraw
    (identity "s1") "lease-001" missionIntent receipt hreceipt hallow
  refine ⟨found, hfound, hforce.mpr ?_⟩
  have hlease : (runCommands Backend.handle 3 missionCalls (.memory {})).2.view.lease "lease-001" =
      .ok (some (lease missionTime)) := by decide +kernel
  rw [← Option.some.inj (Except.ok.inj (hlease.symm.trans hfound))]
  decide

end PoiexGoc
