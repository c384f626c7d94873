/-
  What a request of the demo service can RELY on while others run beside it.

  All requests seed the same documents, and none of them is ever taken away or put back in another
  shape:

  1. `ServedOp` — what a request calls: it puts records of the seeded shapes, and receipts and
     actions under its own ids.

  2. `ServedFact` — what is known once a request has seeded, executed and stored its receipt.  An
     operation of any request keeps every fact that is not about its own receipt or action
     (`ServedFact.holds_handle`).
-/
import PoiexGoc.Proofs.Rejections

namespace PoiexGoc

open Py Effect

namespace CloudDemo

/-! ## The operations and the facts -/

/-- The agent observes nothing but on the seeded evidence. -/
def ObservesSeeded (a : AgentRecord) : Prop :=
  ∀ capability id, a.observedCapabilities.lookup capability = some id → id = "ev-runtime-001"

/-- The lease names the seeded delegation. -/
def NamesSeeded (l : AuthorityLease) : Prop := l.provenanceId = some "prov-child"

/-- What a request with this draw calls, given the target all requests seed. -/
def ServedOp (seededTarget : MaterialTarget) (draw : Draw) : StoreOp → Prop
  | .putAgent a => ObservesSeeded a
  | .putLease l => NamesSeeded l
  | .putAuthorityProvenance record =>
    ∃ now, record = provenanceRoot now ∨ record = provenanceChild now
  | .putEvidence evidence => Supports evidence agent.agentId action
  | .putTarget target => target = seededTarget
  | .putReceipt receipt => receipt.receiptId = draw.receiptId
  | .executeSyntheticAction runId _ => runId = draw.runId
  | _ => True

theorem ServedOp.of_isRead {seededTarget : MaterialTarget} {draw : Draw} {o : StoreOp}
    (ho : o.IsRead) : ServedOp seededTarget draw o := by
  cases o with
  | getAgent | getLease | getAuthorityProvenance | getEvidence | getTarget | getReceipt
  | hasSyntheticAction => trivial
  | _ => exact ho.elim

/-- Something a request knows of the store. -/
inductive ServedFact where
  | seededAgent
  | seededEvidence
  | seededTarget
  | seededRoot
  | seededChild
  | seededLease
  | stored (receipt : ExecutionReceipt)
  | acted (runId resultHash : String)

namespace ServedFact

def holds (target : MaterialTarget) : ServedFact → StoreView → Prop
  | seededAgent, v => ∃ a, v.agent agent.agentId = .ok (some a) ∧ ObservesSeeded a
  | seededEvidence, v => ∃ e, v.evidence "ev-runtime-001" = .ok (some e) ∧
    Supports e agent.agentId action
  | seededTarget, v => v.target targetId = .ok (some target)
  | seededRoot, v => ∃ now, v.provenance "prov-root" = .ok (some (provenanceRoot now))
  | seededChild, v => ∃ now, v.provenance "prov-child" = .ok (some (provenanceChild now))
  | seededLease, v => ∃ l, v.lease "lease-001" = .ok (some l) ∧ NamesSeeded l
  | stored receipt, v => v.receipt receipt.receiptId = .ok (some receipt)
  | acted runId resultHash, v => v.action runId resultHash = .ok true

/-- A fact about the seeded documents. -/
def IsSeeded : ServedFact → Prop
  | stored _ | acted _ _ => False
  | _ => True

/-- No receipt and no action of the draw. -/
def Apart (draw : Draw) : ServedFact → Prop
  | stored receipt => receipt.receiptId ≠ draw.receiptId
  | acted runId _ => runId ≠ draw.runId
  | _ => True

/-- The receipts and the actions are those of the draw. -/
def Owned (draw : Draw) : ServedFact → Prop
  | stored receipt => receipt.receiptId = draw.receiptId
  | acted runId _ => runId = draw.runId
  | _ => True

theorem IsSeeded.apart {k : ServedFact} (hk : k.IsSeeded) (draw : Draw) : k.Apart draw := by
  cases k with
  | stored | acted => exact hk.elim
  | _ => trivial

theorem IsSeeded.owned {k : ServedFact} (hk : k.IsSeeded) (draw : Draw) : k.Owned draw := by
  cases k with
  | stored | acted => exact hk.elim
  | _ => trivial

theorem Owned.apart {draw draw' : Draw} {k : ServedFact} (hk : k.Owned draw)
    (hreceipt : draw.receiptId ≠ draw'.receiptId) (hrun : draw.runId ≠ draw'.runId) :
    k.Apart draw' := by
  cases k with
  | stored receipt =>
    rintro heq
    exact hreceipt (hk.symm.trans heq)
  | acted runId resultHash =>
    rintro heq
    exact hrun (hk.symm.trans heq)
  | _ => trivial

variable [PyRuntime] {target : MaterialTarget} {draw : Draw}

/-- A request takes no fact away that is not about its own receipt or action.  By the operation: it
    changes the answers to one kind of record, and at one id. -/
theorem holds_handle {o : StoreOp} (ho : ServedOp target draw o) {k : ServedFact}
    (hk : k.Apart draw) {v : StoreView} (hv : k.holds target v) :
    k.holds target (StoreView.handle o v).2 := by
  cases o with
  | putAgent new =>
    cases k with
    | seededAgent =>
      obtain ⟨a, ha, hobserves⟩ := hv
      rcases update_eq_cases v.agent new.agentId new agent.agentId with ⟨-, hself⟩ | hother
      · exact ⟨new, hself, ho⟩
      · exact ⟨a, hother.trans ha, hobserves⟩
    | _ => exact hv
  | putLease new =>
    cases k with
    | seededLease =>
      obtain ⟨l, hl, hnames⟩ := hv
      rcases update_eq_cases v.lease new.leaseId new "lease-001" with ⟨-, hself⟩ | hother
      · exact ⟨new, hself, ho⟩
      · exact ⟨l, hother.trans hl, hnames⟩
    | _ => exact hv
  | putAuthorityProvenance new =>
    obtain ⟨now, hshape⟩ := ho
    cases k with
    | seededRoot =>
      obtain ⟨before, hbefore⟩ := hv
      rcases update_eq_cases v.provenance new.provenanceId new "prov-root" with
        ⟨hid, hself⟩ | hother
      · rcases hshape with rfl | rfl
        · exact ⟨now, hself⟩
        · exact absurd hid (by decide : "prov-root" ≠ "prov-child")
      · exact ⟨before, hother.trans hbefore⟩
    | seededChild =>
      obtain ⟨before, hbefore⟩ := hv
      rcases update_eq_cases v.provenance new.provenanceId new "prov-child" with
        ⟨hid, hself⟩ | hother
      · rcases hshape with rfl | rfl
        · exact absurd hid (by decide : "prov-child" ≠ "prov-root")
        · exact ⟨now, hself⟩
      · exact ⟨before, hother.trans hbefore⟩
    | _ => exact hv
  | putEvidence new =>
    cases k with
    | seededEvidence =>
      obtain ⟨e, he, hsupports⟩ := hv
      rcases update_eq_cases v.evidence new.evidenceId new "ev-runtime-001" with
        ⟨-, hself⟩ | hother
      · exact ⟨new, hself, ho⟩
      · exact ⟨e, hother.trans he, hsupports⟩
    | _ => exact hv
  | putTarget new =>
    cases k with
    | seededTarget =>
      rcases update_eq_cases v.target new.targetId new targetId with ⟨-, hself⟩ | hother
      · exact hself.trans (by rw [ho])
      · exact hother.trans hv
    | _ => exact hv
  | putReceipt new =>
    cases k with
    | stored receipt =>
      have hne : receipt.receiptId ≠ new.receiptId := by
        rw [ho]
        exact hk
      exact (Function.update_of_ne hne _ _).trans hv
    | _ => exact hv
  | executeSyntheticAction runId payload =>
    simp only [StoreView.handle]
    cases canonicalHash (syntheticResult runId payload) with
    | error e => exact hv
    | ok resultHash =>
      cases k with
      | acted run hash =>
        have hne : run ≠ runId := by
          rw [ho]
          exact hk
        exact (congrFun (Function.update_of_ne hne _ _) hash).trans hv
      | _ => exact hv
  | _ => exact hv

end ServedFact

/-- The seeded documents, the one that is put last first. -/
abbrev seededFacts : List ServedFact :=
  [.seededLease, .seededChild, .seededRoot, .seededTarget, .seededEvidence, .seededAgent]

theorem isSeeded_of_mem : ∀ k ∈ seededFacts, k.IsSeeded := by
  simp [ServedFact.IsSeeded]

/-- All of them are there. -/
abbrev Seeded (target : MaterialTarget) : StoreView → Prop :=
  Knows (ServedFact.holds target) seededFacts

end CloudDemo

end PoiexGoc
