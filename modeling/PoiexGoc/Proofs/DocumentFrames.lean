/-
  FRAMES of the document store: each operation is about one document.

  1. `opKey` is the document an operation reads or writes, `written` what it writes there, if
     anything.  What is written never depends on what is stored: the adapter overwrites whole
     documents (`handle_state`).

  2. What an operation answers depends on its own document only (`handle_answer`), so two clients
     that agree on a set of documents answer alike there and stay in agreement (`AgreeOn.own`),
     and an operation elsewhere does not disturb the agreement (`AgreeOn.other`).

  These are the facts an interleaving of several clients rests on; no transaction spans two
  operations.
-/
import PoiexGoc.Proofs.ControlPlaneCalls
import PoiexGoc.Proofs.StoreRefinement

namespace PoiexGoc

open Py Effect

/-- The kind and the id of the document an operation is about. -/
def StoreOp.docName : StoreOp → String × String
  | .putAgent agent => ("agents", agent.agentId)
  | .getAgent agentId => ("agents", agentId)
  | .putLease lease => ("leases", lease.leaseId)
  | .getLease leaseId => ("leases", leaseId)
  | .putAuthorityProvenance record => ("authority_provenance", record.provenanceId)
  | .getAuthorityProvenance provenanceId => ("authority_provenance", provenanceId)
  | .putEvidence evidence => ("evidence", evidence.evidenceId)
  | .getEvidence evidenceId => ("evidence", evidenceId)
  | .putTarget target => ("targets", target.targetId)
  | .getTarget targetId => ("targets", targetId)
  | .putReceipt receipt => ("receipts", receipt.receiptId)
  | .getReceipt receiptId => ("receipts", receiptId)
  | .executeSyntheticAction runId _ => ("synthetic_actions", runId)
  | .hasSyntheticAction runId _ => ("synthetic_actions", runId)

/-- The collections of the registry; receipts and actions are kept in two others. -/
def registryKinds : List String := ["agents", "leases", "authority_provenance", "evidence", "targets"]

theorem StoreOp.IsRegistryRead.docName_mem {o : StoreOp} (ho : o.IsRegistryRead) :
    o.docName.1 ∈ registryKinds := by
  cases o with
  | getAgent | getLease | getAuthorityProvenance | getEvidence | getTarget =>
    simp only [StoreOp.docName]
    decide
  | _ => exact ho.elim

theorem StoreOp.IsRegistryPut.docName_mem {o : StoreOp} (ho : o.IsRegistryPut) :
    o.docName.1 ∈ registryKinds := by
  cases o with
  | putAgent | putLease | putAuthorityProvenance | putEvidence | putTarget =>
    simp only [StoreOp.docName]
    decide
  | _ => exact ho.elim

theorem ne_of_mem_registryKinds {kind kind' : String} (hkind : kind ∈ registryKinds)
    (hother : kind' ∉ registryKinds) : kind' ≠ kind := by
  rintro rfl
  exact hother hkind

namespace FirestoreStore

/-- The document an operation is about. -/
def opKey (fs : FirestoreStore) (o : StoreOp) : String × String :=
  fs.docKey o.docName.1 o.docName.2

theorem opKey_inj (fs : FirestoreStore) {o o' : StoreOp} :
    fs.opKey o = fs.opKey o' ↔ o.docName = o'.docName := by
  rw [opKey, opKey, docKey_inj, Prod.ext_iff]

/-- The client after an optional write. -/
def write (c : FirestoreClient) (key : String × String) : Option PyDict → FirestoreClient
  | none => c
  | some payload => { c with docs := c.docs.insert key (.dict payload) }

theorem lookup_write_self (c : FirestoreClient) (key : String × String) (payload : PyDict) :
    (write c key (some payload)).docs.lookup key = some (.dict payload) :=
  Finmap.lookup_insert _

theorem lookup_write_of_ne {c : FirestoreClient} {key key' : String × String} (hne : key' ≠ key)
    (payload : Option PyDict) : (write c key payload).docs.lookup key' = c.docs.lookup key' := by
  cases payload with
  | none => rfl
  | some payload => exact Finmap.lookup_insert_of_ne _ hne

section Writes

variable [PyRuntime]

/-- What an operation writes into its document. -/
def written : StoreOp → Option PyDict
  | .putAgent agent => some (agentToDoc agent)
  | .putLease lease => some (leaseToDoc lease)
  | .putAuthorityProvenance record => some (provenanceToDoc record)
  | .putEvidence evidence => some (evidenceToDoc evidence)
  | .putTarget target => some (targetToDoc target)
  | .putReceipt receipt => some (receiptToDoc receipt)
  | .executeSyntheticAction runId payload =>
    match canonicalHash (syntheticResult runId payload) with
    | .error _ => none
    | .ok resultHash => some (storedAction runId payload resultHash)
  | _ => none

theorem written_of_isRead {o : StoreOp} (ho : o.IsRead) : written o = none := by
  cases o with
  | getAgent | getLease | getAuthorityProvenance | getEvidence | getTarget | getReceipt
  | hasSyntheticAction => rfl
  | _ => exact ho.elim

/-- An operation overwrites its own document, or nothing. -/
theorem handle_state (fs : FirestoreStore) (o : StoreOp) (c : FirestoreClient) :
    (fs.handle o c).2 = write c (fs.opKey o) (written o) := by
  cases o with
  | executeSyntheticAction runId payload =>
    simp only [handle, executeSyntheticAction, written]
    cases canonicalHash (syntheticResult runId payload) with
    | error e => rfl
    | ok resultHash => rfl
  | _ => rfl

/-- Documents other than its own are left alone by an operation. -/
theorem lookup_handle_of_ne (fs : FirestoreStore) {o : StoreOp} {key : String × String}
    (hne : key ≠ fs.opKey o) (c : FirestoreClient) :
    (fs.handle o c).2.docs.lookup key = c.docs.lookup key := by
  rw [handle_state]
  exact lookup_write_of_ne hne _

/-- What an operation answers depends on its own document only. -/
theorem handle_answer (fs : FirestoreStore) {o : StoreOp} {c c' : FirestoreClient}
    (hdoc : c.docs.lookup (fs.opKey o) = c'.docs.lookup (fs.opKey o)) :
    (fs.handle o c).1 = (fs.handle o c').1 := by
  have hget : ∀ kind docId, c.docs.lookup (fs.docKey kind docId) =
      c'.docs.lookup (fs.docKey kind docId) → fs.get kind docId c = fs.get kind docId c' := by
    intro kind docId heq
    rw [get, get, heq]
  have hdecoded : ∀ {α : Type} kind docId (fromDoc : PyValue → Except PyError α),
      c.docs.lookup (fs.docKey kind docId) = c'.docs.lookup (fs.docKey kind docId) →
      fs.getDecoded kind docId fromDoc c = fs.getDecoded kind docId fromDoc c' := by
    intro α kind docId fromDoc heq
    rw [getDecoded, hget kind docId heq, getDecoded]
  cases o with
  | executeSyntheticAction runId payload =>
    simp only [handle, executeSyntheticAction]
    cases canonicalHash (syntheticResult runId payload) with
    | error e => rfl
    | ok resultHash => rfl
  | hasSyntheticAction runId expectedHash =>
    show fs.hasSyntheticAction runId expectedHash c = fs.hasSyntheticAction runId expectedHash c'
    rw [hasSyntheticAction, hget "synthetic_actions" runId hdoc, hasSyntheticAction]
  | getAgent | getLease | getAuthorityProvenance | getEvidence | getTarget | getReceipt =>
    exact hdecoded _ _ _ hdoc
  | _ => rfl

/-- An operation that writes nothing, or another document, does not change what is answered. -/
theorem handle_answer_keep (fs : FirestoreStore) {o o' : StoreOp}
    (ho : written o = none ∨ fs.opKey o' ≠ fs.opKey o) (c : FirestoreClient) :
    (fs.handle o' (fs.handle o c).2).1 = (fs.handle o' c).1 := by
  rcases ho with hnone | hne
  · rw [handle_state, hnone]
    rfl
  · exact fs.handle_answer (fs.lookup_handle_of_ne hne c)

end Writes

/-! ## Agreement on a set of documents -/

/-- The two clients hold the same documents under the keys of `K`. -/
def AgreeOn (K : String × String → Prop) (c c' : FirestoreClient) : Prop :=
  ∀ key, K key → c.docs.lookup key = c'.docs.lookup key

variable {fs : FirestoreStore} {K : String × String → Prop} {c c' : FirestoreClient}

theorem AgreeOn.refl (K : String × String → Prop) (c : FirestoreClient) : AgreeOn K c c :=
  fun _ _ => rfl

/-- The same write keeps two clients in agreement. -/
theorem AgreeOn.write (hagree : AgreeOn K c c') (key : String × String)
    (payload : Option PyDict) : AgreeOn K (write c key payload) (write c' key payload) := by
  intro key' hkey'
  cases payload with
  | none => exact hagree key' hkey'
  | some payload =>
    by_cases heq : key' = key
    · subst heq
      exact (lookup_write_self c key' payload).trans (lookup_write_self c' key' payload).symm
    · rw [lookup_write_of_ne heq, lookup_write_of_ne heq]
      exact hagree key' hkey'

variable [PyRuntime]

/-- An operation on a document the clients agree on answers alike and keeps them in agreement. -/
theorem AgreeOn.own (hagree : AgreeOn K c c') {o : StoreOp} (ho : K (fs.opKey o)) :
    (fs.handle o c).1 = (fs.handle o c').1 ∧ AgreeOn K (fs.handle o c).2 (fs.handle o c').2 := by
  refine ⟨fs.handle_answer (hagree _ ho), ?_⟩
  rw [handle_state, handle_state]
  exact hagree.write _ _

/-- An operation that writes nothing, or elsewhere, keeps a client in agreement. -/
theorem AgreeOn.other (hagree : AgreeOn K c c') {o : StoreOp}
    (ho : written o = none ∨ ¬ K (fs.opKey o)) : AgreeOn K (fs.handle o c).2 c' := by
  intro key hkey
  rcases ho with hnone | hout
  · rw [handle_state, hnone]
    exact hagree key hkey
  · have hne : key ≠ fs.opKey o := by
      rintro rfl
      exact hout hkey
    rw [fs.lookup_handle_of_ne hne]
    exact hagree key hkey

end FirestoreStore

end PoiexGoc
