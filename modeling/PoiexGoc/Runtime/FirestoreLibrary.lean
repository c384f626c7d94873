/-
  The Firestore adapter over a client LIBRARY.

  `google-cloud-firestore` is not in the repository, and it refuses what it cannot store or address:
  an array directly inside an array, an integer of more than 64 bits, a document beyond its size, an
  id with a slash.  Here the library is a parameter (`Library`), and so is what it takes
  (`Library.Limits`).  What the adapter relies on are named assumptions (`Library.Keeps`): a
  document within the limits is the one found under its key from then on, and a `get` changes
  nothing.  Of a call beyond the limits nothing is assumed.

  `FirestoreStore.handleOver` is the adapter of `Runtime.FirestoreStore`, method by method, over any
  library; over the map that takes everything (`FirestoreClient.library`) it is
  `FirestoreStore.handle`.
-/
import PoiexGoc.Runtime.FirestoreStore

namespace PoiexGoc

open Py Effect

/-- What the adapter calls: `client.collection(c).document(id).set(payload)` and `.get()`, whose
    snapshot has a document or none. -/
structure Library (σ : Type) where
  set : String × String → PyDict → σ → Except PyError Unit × σ
  get : String × String → σ → Except PyError (Option PyValue) × σ

/-- What a library takes: the keys it can address, and the documents it stores under them. -/
structure Library.Limits where
  addresses : String × String → Prop
  accepts : String × String → PyDict → Prop

/-- The assumptions on a library that holds the documents `docs`. -/
structure Library.Keeps {σ : Type} (lib : Library σ) (docs : σ → FirestoreClient)
    (limits : Limits) : Prop where
  set_stores : ∀ key payload s, limits.accepts key payload →
    (lib.set key payload s).1 = .ok () ∧
      docs (lib.set key payload s).2 = { docs := (docs s).docs.insert key (.dict payload) }
  get_finds : ∀ key s, limits.addresses key →
    (lib.get key s).1 = .ok ((docs s).docs.lookup key) ∧ docs (lib.get key s).2 = docs s
  -- what is there was put there under its key
  held_addressed : ∀ key s, (docs s).docs.lookup key ≠ none → limits.addresses key

/-- The library that takes every document under every key. -/
def FirestoreClient.library : Library FirestoreClient where
  set key payload c := (.ok (), { c with docs := c.docs.insert key (.dict payload) })
  get key c := (.ok (c.docs.lookup key), c)

def FirestoreClient.unlimited : Library.Limits := ⟨fun _ => True, fun _ _ => True⟩

theorem FirestoreClient.library_keeps :
    FirestoreClient.library.Keeps id FirestoreClient.unlimited where
  set_stores _ _ _ _ := ⟨rfl, rfl⟩
  get_finds _ _ _ := ⟨rfl, rfl⟩
  held_addressed _ _ _ := trivial

namespace FirestoreStore

variable {σ : Type}

/-- `_put`. -/
def putOver (fs : FirestoreStore) (lib : Library σ) (kind docId : String) (payload : PyDict)
    (s : σ) : Except PyError Unit × σ :=
  lib.set (fs.docKey kind docId) payload s

/-- `_get`. -/
def getOver (fs : FirestoreStore) (lib : Library σ) (kind docId : String) (s : σ) :
    Except PyError (Option PyDict) × σ :=
  let (snapshot, s') := lib.get (fs.docKey kind docId) s
  (do
    match ← snapshot with
    | none => return none
    | some data => (requireMapping data kind).map some, s')

/-- The decoder of the kind on what is there. -/
def decodeFound {α : Type} (fromDoc : PyValue → Except PyError α) :
    Option PyDict → Except PyError (Option α)
  | none => .ok none
  | some data => (fromDoc (.dict data)).map some

/-- `_get`, then the decoder of the kind. -/
def getDecodedOver {α : Type} (fs : FirestoreStore) (lib : Library σ) (kind docId : String)
    (fromDoc : PyValue → Except PyError α) (s : σ) : Except PyError (Option α) × σ :=
  let (found, s') := fs.getOver lib kind docId s
  (found >>= decodeFound fromDoc, s')

theorem getDecoded_eq {α : Type} (fs : FirestoreStore) (kind docId : String)
    (fromDoc : PyValue → Except PyError α) (c : FirestoreClient) :
    fs.getDecoded kind docId fromDoc c = fs.get kind docId c >>= decodeFound fromDoc := by
  refine congrArg (bind (fs.get kind docId c)) (funext fun found => ?_)
  cases found with
  | none => rfl
  | some data => rfl

variable [PyRuntime]

/-- `execute_synthetic_action`: the hash is computed before the one write. -/
def executeSyntheticActionOver (fs : FirestoreStore) (lib : Library σ) (runId : String)
    (payload : PyDict) (s : σ) : Except PyError String × σ :=
  match canonicalHash (syntheticResult runId payload) with
  | .error e => (.error e, s)
  | .ok resultHash =>
    let (stored, s') :=
      fs.putOver lib "synthetic_actions" runId (storedAction runId payload resultHash) s
    (stored.map fun _ => resultHash, s')

/-- What is there has the hash, recomputed and as it is stored. -/
def confirms (expectedHash : String) : Option PyDict → Except PyError Bool
  | none => .ok false
  | some data => do
    let computed ← canonicalHash (rebuiltResult data)
    return computed == expectedHash &&
      (match itemD data "result_hash" .none with
        | .str stored => expectedHash == stored
        | _ => false)

def hasSyntheticActionOver (fs : FirestoreStore) (lib : Library σ) (runId expectedHash : String)
    (s : σ) : Except PyError Bool × σ :=
  let (found, s') := fs.getOver lib "synthetic_actions" runId s
  (found >>= confirms expectedHash, s')

theorem hasSyntheticAction_eq (fs : FirestoreStore) (runId expectedHash : String)
    (c : FirestoreClient) : fs.hasSyntheticAction runId expectedHash c =
      fs.get "synthetic_actions" runId c >>= confirms expectedHash := by
  refine congrArg (bind (fs.get "synthetic_actions" runId c)) (funext fun found => ?_)
  cases found with
  | none => rfl
  | some data => rfl

/-- The methods of `FirestoreStore` over the library. -/
def handleOver (fs : FirestoreStore) (lib : Library σ) : Handler RuntimeStore PyError σ
  | .putAgent agent, s => fs.putOver lib "agents" agent.agentId (agentToDoc agent) s
  | .getAgent agentId, s => fs.getDecodedOver lib "agents" agentId agentFromDoc s
  | .putLease lease, s => fs.putOver lib "leases" lease.leaseId (leaseToDoc lease) s
  | .getLease leaseId, s => fs.getDecodedOver lib "leases" leaseId leaseFromDoc s
  | .putAuthorityProvenance record, s =>
    fs.putOver lib "authority_provenance" record.provenanceId (provenanceToDoc record) s
  | .getAuthorityProvenance provenanceId, s =>
    fs.getDecodedOver lib "authority_provenance" provenanceId provenanceFromDoc s
  | .putEvidence evidence, s =>
    fs.putOver lib "evidence" evidence.evidenceId (evidenceToDoc evidence) s
  | .getEvidence evidenceId, s => fs.getDecodedOver lib "evidence" evidenceId evidenceFromDoc s
  | .putTarget target, s => fs.putOver lib "targets" target.targetId (targetToDoc target) s
  | .getTarget targetId, s => fs.getDecodedOver lib "targets" targetId targetFromDoc s
  | .putReceipt receipt, s => fs.putOver lib "receipts" receipt.receiptId (receiptToDoc receipt) s
  | .getReceipt receiptId, s => fs.getDecodedOver lib "receipts" receiptId receiptFromDoc s
  | .executeSyntheticAction runId payload, s => fs.executeSyntheticActionOver lib runId payload s
  | .hasSyntheticAction runId expectedHash, s => fs.hasSyntheticActionOver lib runId expectedHash s

/-- Over the library that accepts everything, the adapter is `handle`. -/
theorem handleOver_library (fs : FirestoreStore) :
    fs.handleOver FirestoreClient.library = fs.handle := by
  funext o c
  cases o with
  | getAgent | getLease | getAuthorityProvenance | getEvidence | getTarget | getReceipt =>
    exact Prod.ext (fs.getDecoded_eq _ _ _ c).symm rfl
  | hasSyntheticAction runId expectedHash =>
    exact Prod.ext (fs.hasSyntheticAction_eq runId expectedHash c).symm rfl
  | executeSyntheticAction runId payload =>
    simp only [handleOver, handle, executeSyntheticActionOver, executeSyntheticAction]
    cases canonicalHash (syntheticResult runId payload) with
    | error e => rfl
    | ok resultHash => rfl
  | _ => rfl

end FirestoreStore

end PoiexGoc
