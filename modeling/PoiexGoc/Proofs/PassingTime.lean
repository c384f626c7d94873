/-
  PASSING TIME: what a later clock does to a request, over one store content.

  1. `Sanctioned.between` — a request sanctioned at two times is sanctioned in between.  Each record
     is valid from one time on until another, and the chain is the same at both ends since the
     parent pointers are (`ParentChain.RootPath.unique`).

  2. `gates_later` — a later run of the gates reads the same records, so it reports again every
     reason but one: only `AUTHORITY_PROVENANCE_NOT_YET_VALID` can go away with time.

  3. `lost_authority_never_returns` — the two for `execute`: the times at which it allows are an
     interval, and what has expired or was revoked stays blocked.
-/
import PoiexGoc.Proofs.SanctionedRequests
import PoiexGoc.Proofs.StandingReceipts

namespace PoiexGoc

open Py Effect ParentChain

theorem revokedBy_later {revokedAt : Option DateTime} {now later : DateTime} (hle : now ≤ later)
    (hrevoked : revokedBy revokedAt now) : revokedBy revokedAt later := by
  obtain ⟨t, ht, hnow⟩ := hrevoked
  exact ⟨t, ht, DateTime.le_trans hnow hle⟩

/-! ## Between two times -/

section Between

variable {t₁ t₂ t₃ : DateTime} (h₁₂ : t₁ ≤ t₂) (h₂₃ : t₂ ≤ t₃)

include h₁₂ h₂₃

theorem AuthorityProvenanceRecord.ValidAt.between {record : AuthorityProvenanceRecord}
    (h₁ : record.ValidAt t₁) (h₃ : record.ValidAt t₃) : record.ValidAt t₂ := by
  constructor
  · exact DateTime.le_trans h₁.1 h₁₂
  · intro hrevoked
    exact h₃.2 (revokedBy_later h₂₃ hrevoked)

/-- The chain at the later time is the one at the earlier time. -/
theorem LegitimateChain.between {records : String → Option AuthorityProvenanceRecord}
    {lease : AuthorityLease} {roots : Finset String}
    {chain chain' : List (String × AuthorityProvenanceRecord)}
    (h₁ : LegitimateChain records lease t₁ roots chain)
    (h₃ : LegitimateChain records lease t₃ roots chain') :
    LegitimateChain records lease t₂ roots chain := by
  have hsame : chain' = chain := by
    obtain ⟨id, hid, hpath⟩ := h₁.rootPath
    obtain ⟨id', hid', hpath'⟩ := h₃.rootPath
    rw [← Option.some.inj (hid.symm.trans hid')] at hpath'
    exact hpath'.unique hpath
  rw [hsame] at h₃
  exact { h₁ with valid := fun e he => (h₁.valid e he).between h₁₂ h₂₃ (h₃.valid e he) }

theorem ControlPlane.Sanctioned.between {v : StoreView} {cp : ControlPlane} {fuel : Nat}
    {identity : IdentityContext} {leaseId : String} {intent : ActionIntent}
    {agent agent' : AgentRecord} {evidenceId evidenceId' : String}
    {evidence evidence' : EvidenceItem} {lease lease' : AuthorityLease}
    {target target' : MaterialTarget}
    (h₁ : Sanctioned v cp fuel t₁ identity leaseId intent agent evidenceId evidence lease target)
    (h₃ : Sanctioned v cp fuel t₃ identity leaseId intent agent' evidenceId' evidence' lease'
      target') :
    Sanctioned v cp fuel t₂ identity leaseId intent agent evidenceId evidence lease target := by
  have hlease : lease' = lease :=
    Option.some.inj (Except.ok.inj (h₃.leased.symm.trans h₁.leased))
  subst hlease
  have hunrevoked : ¬ revokedBy lease'.revokedAt t₂ := by
    intro hrevoked
    exact h₃.unrevoked (revokedBy_later h₂₃ hrevoked)
  have hunexpired : t₂ < lease'.expiresAt := Int.lt_of_le_of_lt h₂₃ h₃.unexpired
  refine { h₁ with unrevoked := hunrevoked, unexpired := hunexpired, delegated := ?_ }
  intro hprov
  obtain ⟨chain, hchain, hlength⟩ := h₁.delegated hprov
  obtain ⟨chain', hchain', -⟩ := h₃.delegated hprov
  exact ⟨chain, hchain.between h₁₂ h₂₃ hchain', hlength⟩

end Between

/-! ## At a later time -/

section Later

variable {now later : DateTime} (hle : now ≤ later) {reason : String}
  (hreason : reason ≠ "AUTHORITY_PROVENANCE_NOT_YET_VALID")

include hle

theorem leaseReasons_later {identity : IdentityContext} {intent : ActionIntent}
    {agent : AgentRecord} {lease : AuthorityLease}
    (hmem : reason ∈ ControlPlane.leaseReasons identity intent agent lease now) :
    reason ∈ ControlPlane.leaseReasons identity intent agent lease later := by
  have hexpired : lease.expiresAt ≤ now → lease.expiresAt ≤ later :=
    fun hexpired => DateTime.le_trans hexpired hle
  have hrevoked : revokedBy lease.revokedAt now → revokedBy lease.revokedAt later :=
    revokedBy_later hle
  simp only [ControlPlane.leaseReasons, List.mem_append, mem_reasonIf] at hmem ⊢
  rcases hmem with (((hagent | hscope) | ⟨hat, hname⟩) | ⟨hat, hname⟩) | hepoch
  · exact Or.inl (Or.inl (Or.inl (Or.inl hagent)))
  · exact Or.inl (Or.inl (Or.inl (Or.inr hscope)))
  · exact Or.inl (Or.inl (Or.inr ⟨hrevoked hat, hname⟩))
  · exact Or.inl (Or.inr ⟨hexpired hat, hname⟩)
  · exact Or.inr hepoch

include hreason

theorem timeReasons_later {record : AuthorityProvenanceRecord}
    (hmem : reason ∈ timeReasons now record) : reason ∈ timeReasons later record := by
  simp only [timeReasons, List.mem_append, mem_reasonIf] at hmem ⊢
  rcases hmem with ⟨-, hname⟩ | ⟨hrevoked, hname⟩
  · exact absurd hname hreason
  · exact Or.inr ⟨revokedBy_later hle hrevoked, hname⟩

/-- Only the time check of an iteration looks at the clock. -/
theorem stepReasons_later {lease : AuthorityLease} {roots : Finset String} {first : Bool}
    {child : Option AuthorityProvenanceRecord} {record : AuthorityProvenanceRecord}
    (hmem : reason ∈ stepReasons lease now roots first child record) :
    reason ∈ stepReasons lease later roots first child record := by
  unfold stepReasons recordReasons at hmem ⊢
  rw [List.append_assoc, List.append_assoc, List.mem_append] at hmem ⊢
  exact hmem.imp_left (timeReasons_later hle hreason)

/-- Induction on the path. -/
theorem pathReasons_later {lease : AuthorityLease} {roots : Finset String}
    {path : List (String × AuthorityProvenanceRecord)} {first : Bool}
    {child : Option AuthorityProvenanceRecord}
    (hmem : reason ∈ pathReasons lease now roots first child path) :
    reason ∈ pathReasons lease later roots first child path := by
  induction path generalizing first child with
  | nil => exact hmem
  | cons e path ih =>
    rw [pathReasons, List.mem_append] at hmem ⊢
    exact hmem.imp (stepReasons_later hle hreason) ih

/-- The verifier follows the same pointers at a later time. -/
theorem verify_later {v : StoreView} {lease : AuthorityLease} {roots : Finset String} {fuel : Nat}
    {result : AuthorityProvenanceResult}
    (hverify : verifyAuthorityProvenance v.provenance fuel lease now roots = .ok result) :
    ∃ result', verifyAuthorityProvenance v.provenance fuel lease later roots = .ok result' ∧
      (reason ∈ result.reasons → reason ∈ result'.reasons) := by
  cases hid : truthy lease.provenanceId with
  | none =>
    rw [verifyAuthorityProvenance_of_missing hid] at hverify ⊢
    exact ⟨result, hverify, id⟩
  | some id =>
    obtain ⟨path, ending, hchase, hread, rfl⟩ :=
      chase_of_verify StoreView.provenanceRecord_of_ok hid hverify
    refine ⟨_, verify_of_chase StoreView.provenanceRecord_of_ok hid hchase hread, ?_⟩
    rw [mem_chaseResult, mem_chaseResult]
    exact Or.imp_left (pathReasons_later hle hreason)

theorem leaseAnswer_later {v : StoreView} {cp : ControlPlane} {fuel : Nat}
    {identity : IdentityContext} {intent : ActionIntent} {agent : AgentRecord}
    {found : Option AuthorityLease} {reasons : List String}
    (hanswer : ControlPlane.leaseAnswer v cp fuel now identity intent agent found = .ok reasons) :
    ∃ reasons', ControlPlane.leaseAnswer v cp fuel later identity intent agent found =
      .ok reasons' ∧ (reason ∈ reasons → reason ∈ reasons') := by
  cases found with
  | none => exact ⟨reasons, hanswer, id⟩
  | some lease =>
    rw [ControlPlane.leaseAnswer] at hanswer ⊢
    by_cases hprov : cp.requireAuthorityProvenance = true
    · rw [if_pos hprov] at hanswer ⊢
      obtain ⟨result, hverify, hreasons⟩ := bind_eq_ok.mp hanswer
      obtain ⟨result', hverify', hkeep⟩ := verify_later hle hreason hverify
      refine ⟨_, bind_eq_ok.mpr ⟨result', hverify', rfl⟩, ?_⟩
      rw [← Except.ok.inj hreasons, List.mem_append, List.mem_append]
      exact Or.imp (leaseReasons_later hle) hkeep
    · rw [if_neg hprov] at hanswer ⊢
      refine ⟨_, rfl, ?_⟩
      rw [← Except.ok.inj hanswer]
      exact leaseReasons_later hle

/-- A reason of the gates is reported again at a later time. -/
theorem gates_later [PyRuntime] {v : StoreView} {cp : ControlPlane} {fuel : Nat}
    {identity : IdentityContext} {leaseId : String} {intent : ActionIntent}
    {report : ControlPlane.GateReport}
    (heval : (ControlPlane.gates cp fuel now identity leaseId intent).eval v.answers = .ok report)
    (hmem : reason ∈ report.reasons) :
    ∃ report', (ControlPlane.gates cp fuel later identity leaseId intent).eval v.answers =
      .ok report' ∧ reason ∈ report'.reasons := by
  obtain ⟨found, hagent⟩ : ∃ found, v.agent identity.agentId = .ok found := by
    unfold ControlPlane.gates at heval
    rw [Prog.eval_bind] at heval
    obtain ⟨found, hfound, -⟩ := bind_eq_ok.mp heval
    exact ⟨found, hfound⟩
  by_cases hidentity : ControlPlane.identityReasons identity found intent = []
  · obtain ⟨-, hknown, -⟩ := ControlPlane.identityReasons_eq_nil.mp hidentity
    obtain ⟨agent, rfl⟩ := Option.ne_none_iff_exists'.mp hknown
    obtain ⟨evidence, lease, authorityReasons, hevidence, hlease, hauthority, htarget, -,
      hreasons⟩ := ControlPlane.report_of_agent hagent hidentity heval
    obtain ⟨later', hlater, hkeep⟩ := leaseAnswer_later hle hreason hauthority
    rw [ControlPlane.gates_eval_of_agent hagent hidentity, ControlPlane.materialGates_eval]
    simp only [hevidence, hlease, hlater, htarget, ok_bind]
    refine ⟨_, rfl, ?_⟩
    rw [hreasons] at hmem
    simp only [List.mem_append] at hmem ⊢
    exact hmem.imp_left (Or.imp_right hkeep)
  · rw [ControlPlane.gates_eval_of_identity hagent hidentity] at heval ⊢
    exact ⟨report, heval, hmem⟩

end Later

/-! ## The times at which an execution allows -/

section Executions

variable [PyRuntime]

/-- The execution with this draw returns ALLOW. -/
def Backend.Allows (s : Backend) (cp : ControlPlane) (fuel : Nat) (draw : Draw)
    (identity : IdentityContext) (leaseId : String) (intent : ActionIntent) : Prop :=
  ∃ receipt, ((cp.execute fuel draw identity leaseId intent).run Backend.handle s).1 = .ok receipt ∧
    receipt.decision = "ALLOW"

/-- What is lost for good. -/
def AuthorityLost (reasons : List String) : Prop :=
  "AUTHORITY_EXPIRED" ∈ reasons ∨ "AUTHORITY_REVOKED" ∈ reasons ∨
    "AUTHORITY_PROVENANCE_REVOKED" ∈ reasons

/-- A receipt with a reason other than the one of an ALLOW reports what the gates found. -/
theorem report_of_receipt {s : Backend} {cp : ControlPlane} {fuel : Nat} {draw : Draw}
    {identity : IdentityContext} {leaseId : String} {intent : ActionIntent}
    {receipt : ExecutionReceipt}
    (hrun : ((cp.execute fuel draw identity leaseId intent).run Backend.handle s).1 = .ok receipt)
    {reason : String} (hmem : reason ∈ receipt.reasons)
    (hreason : reason ≠ "ALL_MATERIAL_GATES_PASS") :
    ∃ report, (ControlPlane.gates cp fuel draw.now identity leaseId intent).eval s.view.answers =
      .ok report ∧ reason ∈ report.reasons := by
  rcases ControlPlane.execute_cases backend_implements cp fuel draw identity leaseId intent s with
    ⟨e, hraise⟩ | ⟨report, heval, -, hblock⟩ | ⟨report, target, resultHash, -, -, -, -, hallow⟩
  · rw [hraise] at hrun
    cases hrun
  · rw [hblock] at hrun
    rw [← Except.ok.inj hrun] at hmem
    exact ⟨report, heval, hmem⟩
  · rw [hallow] at hrun
    rw [← Except.ok.inj hrun] at hmem
    exact absurd (List.mem_singleton.mp hmem) hreason

/-- Such a reason blocks at every later time. -/
theorem execute_blocks_later {s : Backend} {cp : ControlPlane} {fuel : Nat} {draw draw' : Draw}
    {identity : IdentityContext} {leaseId : String} {intent : ActionIntent}
    {receipt : ExecutionReceipt}
    (hrun : ((cp.execute fuel draw identity leaseId intent).run Backend.handle s).1 = .ok receipt)
    {reason : String} (hmem : reason ∈ receipt.reasons)
    (hgates : reason ≠ "ALL_MATERIAL_GATES_PASS")
    (hvalid : reason ≠ "AUTHORITY_PROVENANCE_NOT_YET_VALID") (hle : draw.now ≤ draw'.now) :
    ∃ receipt', ((cp.execute fuel draw' identity leaseId intent).run Backend.handle s).1 =
      .ok receipt' ∧ receipt'.decision = "BLOCK" ∧ reason ∈ receipt'.reasons := by
  obtain ⟨report, heval, hreport⟩ := report_of_receipt hrun hmem hgates
  obtain ⟨report', heval', hreport'⟩ := gates_later hle hvalid heval hreport
  have hblock : report'.target = none ∨ report'.reasons ≠ [] := Or.inr (List.ne_nil_of_mem hreport')
  have hsettle := ControlPlane.settle_run_block backend_implements hblock draw' identity leaseId
    intent s
  rw [ControlPlane.execute_run backend_implements, heval']
  exact ⟨_, congrArg Prod.fst hsettle, rfl, hreport'⟩

/-- Authority lost by the passing of time never returns: over one store content, the times at which
    an execution allows are an interval, and what has expired or was revoked stays blocked. -/
theorem lost_authority_never_returns (s : Backend) (cp : ControlPlane) (fuel : Nat)
    (identity : IdentityContext) (leaseId : String) (intent : ActionIntent) :
    (∀ draw₁ draw₂ draw₃ : Draw, draw₁.now ≤ draw₂.now → draw₂.now ≤ draw₃.now →
      s.Allows cp fuel draw₁ identity leaseId intent →
      s.Allows cp fuel draw₃ identity leaseId intent →
      s.Allows cp fuel draw₂ identity leaseId intent) ∧
    (∀ (draw : Draw) (receipt : ExecutionReceipt),
      ((cp.execute fuel draw identity leaseId intent).run Backend.handle s).1 = .ok receipt →
      AuthorityLost receipt.reasons → ∀ draw' : Draw, draw.now ≤ draw'.now →
      ∃ receipt', ((cp.execute fuel draw' identity leaseId intent).run Backend.handle s).1 =
        .ok receipt' ∧ receipt'.decision = "BLOCK") := by
  constructor
  · intro draw₁ draw₂ draw₃ h₁₂ h₂₃ hallows₁ hallows₃
    unfold Backend.Allows at hallows₁ hallows₃ ⊢
    rw [ControlPlane.execute_allows_iff backend_implements] at hallows₁ hallows₃ ⊢
    obtain ⟨hpar, agent, evidenceId, evidence, lease, target, h₁⟩ := hallows₁
    obtain ⟨-, agent', evidenceId', evidence', lease', target', h₃⟩ := hallows₃
    exact ⟨hpar, agent, evidenceId, evidence, lease, target, h₁.between h₁₂ h₂₃ h₃⟩
  · intro draw receipt hrun hlost draw' hle
    have hblocks : ∀ reason ∈ receipt.reasons, reason ≠ "ALL_MATERIAL_GATES_PASS" →
        reason ≠ "AUTHORITY_PROVENANCE_NOT_YET_VALID" →
        ∃ receipt', ((cp.execute fuel draw' identity leaseId intent).run Backend.handle s).1 =
          .ok receipt' ∧ receipt'.decision = "BLOCK" := by
      intro reason hmem hgates hvalid
      obtain ⟨receipt', hrun', hblock, -⟩ := execute_blocks_later hrun hmem hgates hvalid hle
      exact ⟨receipt', hrun', hblock⟩
    rcases hlost with hmem | hmem | hmem
    · exact hblocks _ hmem (by decide) (by decide)
    · exact hblocks _ hmem (by decide) (by decide)
    · exact hblocks _ hmem (by decide) (by decide)

end Executions

open CloudDemo in
/-- The mission's lease expires after twenty minutes: an hour later it blocks. -/
theorem mission_blocks_after_expiry :
    let s := (runCommands Backend.handle 3 missionCalls (.memory {})).2
    ∃ receipt, ((controlPlane.execute 3 { missionDraw with now := missionTime.addSeconds 3600 }
      (identity "s1") "lease-001" missionIntent).run Backend.handle s).1 = .ok receipt ∧
      receipt.decision = "BLOCK" := by
  intro s
  have hreasons : ((controlPlane.execute 3 { missionDraw with now := missionTime.addSeconds 1200 }
      (identity "s1") "lease-001" missionIntent).run Backend.handle s).1.map
        ExecutionReceipt.reasons = .ok ["AUTHORITY_EXPIRED"] := by decide +kernel
  obtain ⟨receipt, hrun, hlist⟩ := map_eq_ok hreasons
  refine (lost_authority_never_returns s controlPlane 3 (identity "s1") "lease-001"
    missionIntent).2 _ receipt hrun (Or.inl ?_) _ (by decide)
  rw [hlist]
  exact List.mem_cons_self

end PoiexGoc
