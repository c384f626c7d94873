/-
  The storage contract of the control plane and the local store, after `poiex_runtime/store.py`.

  `RuntimeStore` is the effect signature of the contract: the control plane is a program over it
  (`StoreM`), so the same program runs against every implementation, and an interleaving of
  several clients interleaves exactly these operations.

  `MemoryStore` keeps one finite map per kind of record.  Records are VALUES: the Python maps hold
  references, so the model is of callers that leave a record as it is once they have put it or got
  it.  The runtime itself writes into what it has got and puts it back next: a promotion and the
  demo's epoch advance into the agent, the demo's revocation into the lease.  That is a put of a new
  value for a caller that runs alone and puts no record object twice; another caller may see the
  change before the put.
-/
import PoiexGoc.Lib.Effect
import PoiexGoc.Runtime.Models

namespace PoiexGoc

open Py Effect

/-- The operations of `RuntimeStore`. -/
inductive StoreOp where
  | putAgent (agent : AgentRecord)
  | getAgent (agentId : String)
  | putLease (lease : AuthorityLease)
  | getLease (leaseId : String)
  | putAuthorityProvenance (record : AuthorityProvenanceRecord)
  | getAuthorityProvenance (provenanceId : String)
  | putEvidence (evidence : EvidenceItem)
  | getEvidence (evidenceId : String)
  | putTarget (target : MaterialTarget)
  | getTarget (targetId : String)
  | putReceipt (receipt : ExecutionReceipt)
  | getReceipt (receiptId : String)
  | executeSyntheticAction (runId : String) (payload : PyDict)
  | hasSyntheticAction (runId expectedHash : String)

/-- What each operation returns. -/
@[reducible] def StoreOp.Result : StoreOp → Type
  | putAgent _ | putLease _ | putAuthorityProvenance _ | putEvidence _ | putTarget _
  | putReceipt _ => Unit
  | getAgent _ => Option AgentRecord
  | getLease _ => Option AuthorityLease
  | getAuthorityProvenance _ => Option AuthorityProvenanceRecord
  | getEvidence _ => Option EvidenceItem
  | getTarget _ => Option MaterialTarget
  | getReceipt _ => Option ExecutionReceipt
  | executeSyntheticAction _ _ => String
  | hasSyntheticAction _ _ => Bool

abbrev RuntimeStore : Signature := ⟨StoreOp, StoreOp.Result⟩

/-- A program over the storage contract that may raise. -/
abbrev StoreM (α : Type) := Prog RuntimeStore PyError α

/-! ## The operations as programs: `store.get_agent(...)` and so on -/

namespace store

abbrev call (o : StoreOp) : StoreM o.Result := @Prog.perform RuntimeStore PyError o

abbrev putAgent (agent : AgentRecord) : StoreM Unit := call (.putAgent agent)

abbrev getAgent (agentId : String) : StoreM (Option AgentRecord) := call (.getAgent agentId)

abbrev putLease (lease : AuthorityLease) : StoreM Unit := call (.putLease lease)

abbrev getLease (leaseId : String) : StoreM (Option AuthorityLease) := call (.getLease leaseId)

abbrev putAuthorityProvenance (record : AuthorityProvenanceRecord) : StoreM Unit :=
  call (.putAuthorityProvenance record)

abbrev getAuthorityProvenance (provenanceId : String) :
    StoreM (Option AuthorityProvenanceRecord) :=
  call (.getAuthorityProvenance provenanceId)

abbrev putEvidence (evidence : EvidenceItem) : StoreM Unit := call (.putEvidence evidence)

abbrev getEvidence (evidenceId : String) : StoreM (Option EvidenceItem) :=
  call (.getEvidence evidenceId)

abbrev putTarget (target : MaterialTarget) : StoreM Unit := call (.putTarget target)

abbrev getTarget (targetId : String) : StoreM (Option MaterialTarget) := call (.getTarget targetId)

abbrev putReceipt (receipt : ExecutionReceipt) : StoreM Unit := call (.putReceipt receipt)

abbrev getReceipt (receiptId : String) : StoreM (Option ExecutionReceipt) :=
  call (.getReceipt receiptId)

abbrev executeSyntheticAction (runId : String) (payload : PyDict) : StoreM String :=
  call (.executeSyntheticAction runId payload)

abbrev hasSyntheticAction (runId expectedHash : String) : StoreM Bool :=
  call (.hasSyntheticAction runId expectedHash)

/-- A computation that touches no store. -/
abbrev lift {α : Type} (r : Except PyError α) : StoreM α := Prog.done r

end store

/-- The result dict of a synthetic action. -/
def syntheticResult (runId : String) (payload : PyDict) : PyDict :=
  [("run_id", .str runId), ("synthetic", .bool true), ("reversible", .bool true),
   ("payload", .dict payload)]

structure MemoryStore where
  agents : Dict AgentRecord := ∅
  leases : Dict AuthorityLease := ∅
  authorityProvenance : Dict AuthorityProvenanceRecord := ∅
  evidence : Dict EvidenceItem := ∅
  targets : Dict MaterialTarget := ∅
  receipts : Dict ExecutionReceipt := ∅
  syntheticActions : Dict PyDict := ∅
  syntheticMutationCount : Nat := 0

namespace MemoryStore

section Methods

variable [PyRuntime]

/-- `execute_synthetic_action`: the hash is computed first, so nothing is stored when the payload
    has no canonical text. -/
def executeSyntheticAction (s : MemoryStore) (runId : String) (payload : PyDict) :
    Except PyError String × MemoryStore :=
  let result := syntheticResult runId payload
  match canonicalHash result with
  | .error e => (.error e, s)
  | .ok resultHash =>
    (.ok resultHash,
      { s with
        syntheticActions := s.syntheticActions.insert runId result
        syntheticMutationCount := s.syntheticMutationCount + 1 })

def hasSyntheticAction (s : MemoryStore) (runId expectedHash : String) : Except PyError Bool :=
  match s.syntheticActions.lookup runId with
  | none => .ok false
  | some result => (canonicalHash result).map fun computed => computed == expectedHash

/-- The methods of `MemoryStore`, as a handler of the storage contract. -/
def handle : Handler RuntimeStore PyError MemoryStore
  | .putAgent agent, s => (.ok (), { s with agents := s.agents.insert agent.agentId agent })
  | .getAgent agentId, s => (.ok (s.agents.lookup agentId), s)
  | .putLease lease, s => (.ok (), { s with leases := s.leases.insert lease.leaseId lease })
  | .getLease leaseId, s => (.ok (s.leases.lookup leaseId), s)
  | .putAuthorityProvenance record, s =>
    (.ok (), { s with
      authorityProvenance := s.authorityProvenance.insert record.provenanceId record })
  | .getAuthorityProvenance provenanceId, s =>
    (.ok (s.authorityProvenance.lookup provenanceId), s)
  | .putEvidence evidence, s =>
    (.ok (), { s with evidence := s.evidence.insert evidence.evidenceId evidence })
  | .getEvidence evidenceId, s => (.ok (s.evidence.lookup evidenceId), s)
  | .putTarget target, s => (.ok (), { s with targets := s.targets.insert target.targetId target })
  | .getTarget targetId, s => (.ok (s.targets.lookup targetId), s)
  | .putReceipt receipt, s =>
    (.ok (), { s with receipts := s.receipts.insert receipt.receiptId receipt })
  | .getReceipt receiptId, s => (.ok (s.receipts.lookup receiptId), s)
  | .executeSyntheticAction runId payload, s => s.executeSyntheticAction runId payload
  | .hasSyntheticAction runId expectedHash, s => (s.hasSyntheticAction runId expectedHash, s)

end Methods

end MemoryStore

end PoiexGoc
