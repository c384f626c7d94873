/-
  The Firestore adapter, after `poiex_runtime/firestore_store.py`.

  The client is outside the repository.  `FirestoreClient` is the documents it holds: `set` replaces
  the one under a collection and an id, `get` returns the last one set, or reports that none exists,
  and one operation of the adapter is one `get` or one `set`.  That every id is addressed and every
  document accepted, and that no call fails, are ASSUMPTIONS on the client here, not its documented
  behaviour; `Runtime.FirestoreLibrary` takes the client as a parameter without them.

  A document is whatever Python value the client returns; the adapter's own are dicts.  Decoders
  follow the source field by field, with its defaults and coercions.  Where the record type has no
  room for what Python would carry along (a set element or a map value that is no string, an
  optional id that is neither a string nor None), the decoder raises.
-/
import PoiexGoc.Runtime.Store

namespace PoiexGoc

open Py Effect

/-! ## Reading a document -/

def requireMapping (data : PyValue) (objectType : String) : Except PyError PyDict :=
  match data with
  | .dict entries => .ok entries
  | _ => .error (.valueError ("invalid " ++ objectType ++ " document"))

def requireDatetime (value : PyValue) (field : String) : Except PyError DateTime :=
  match value with
  | .datetime d => .ok d
  | _ => .error (.valueError (field ++ " must be datetime"))

/-- `data[field]`. -/
def item (data : PyDict) (field : String) : Except PyError PyValue :=
  match data.lookup field with
  | some v => .ok v
  | none => .error (.keyError field)

/-- `data.get(field, default)`. -/
def itemD (data : PyDict) (field : String) (default : PyValue) : PyValue :=
  (data.lookup field).getD default

/-- `str(data[field])`. -/
def strItem [PyRuntime] (data : PyDict) (field : String) : Except PyError String :=
  item data field >>= pyStr

/-- `_require_datetime(data[field], field=field)`. -/
def datetimeItem (data : PyDict) (field : String) : Except PyError DateTime := do
  requireDatetime (← item data field) field

/-- `revoked = data.get(field)`, checked to be a datetime unless it is None. -/
def optionalDatetimeItem (data : PyDict) (field : String) : Except PyError (Option DateTime) :=
  match itemD data field .none with
  | .none => .ok none
  | v => (requireDatetime v field).map some

/-- `data.get(field)` of an optional string. -/
def optionalStrItem (data : PyDict) (field : String) : Except PyError (Option String) :=
  match itemD data field .none with
  | .none => .ok none
  | .str s => .ok (some s)
  | _ => .error (.typeError (field ++ " is neither a string nor None"))

def strElement : PyValue → Except PyError String
  | .str s => .ok s
  | _ => .error (.typeError "element is not a string")

/-- `list(data.get(field, []))` of strings: what iterating over the value yields. -/
def strListItem (data : PyDict) (field : String) : Except PyError (List String) :=
  match itemD data field (.list []) with
  | .list elems => elems.mapM strElement
  | .set elems => .ok (sorted elems)
  | .str s => .ok (s.toList.map Char.toString)
  | .dict entries => .ok (entries.map Prod.fst)
  | _ => .error (.typeError "object is not iterable")

/-- `set(data.get(field, []))`. -/
def strSetItem (data : PyDict) (field : String) : Except PyError (Finset String) :=
  (strListItem data field).map List.toFinset

def strEntry (entry : String × PyValue) : Except PyError (Sigma fun _ : String => String) :=
  (strElement entry.2).map fun s => ⟨entry.1, s⟩

/-- `dict(data.get(field, {}))` of strings. -/
def strMapItem (data : PyDict) (field : String) : Except PyError (Dict String) :=
  match itemD data field (.dict []) with
  | .dict entries => (entries.mapM strEntry).map List.toFinmap
  | _ => .error (.typeError "object is not a mapping")

/-! ## Writing a document -/

def schemaVersion : Int := 2

/-- `sorted(s)` as an array value. -/
def sortedArray (s : Finset String) : PyValue := .list ((sorted s).map PyValue.str)

def strArray (l : List String) : PyValue := .list (l.map PyValue.str)

/-- A map of strings as a document field, its keys in order (documents do not order them). -/
def strMap (m : Dict String) : PyValue :=
  .dict ((sorted m.keys).filterMap fun key => (m.lookup key).map fun s => (key, .str s))

def optionalStr : Option String → PyValue
  | none => .none
  | some s => .str s

def optionalDatetime : Option DateTime → PyValue
  | none => .none
  | some d => .datetime d

def agentToDoc (agent : AgentRecord) : PyDict :=
  [("schema_version", .int schemaVersion), ("object_type", .str "AgentRecord"),
   ("agent_id", .str agent.agentId), ("role", .str agent.role),
   ("declared_capabilities", sortedArray agent.declaredCapabilities),
   ("observed_capabilities", strMap agent.observedCapabilities),
   ("inferred_capabilities", sortedArray agent.inferredCapabilities),
   ("status", .str agent.status), ("current_epoch", .int agent.currentEpoch)]

def leaseToDoc (lease : AuthorityLease) : PyDict :=
  [("schema_version", .int schemaVersion), ("object_type", .str "AuthorityLease"),
   ("lease_id", .str lease.leaseId), ("agent_id", .str lease.agentId),
   ("scope", sortedArray lease.scope), ("epoch", .int lease.epoch),
   ("issued_at", .datetime lease.issuedAt), ("expires_at", .datetime lease.expiresAt),
   ("revoked_at", optionalDatetime lease.revokedAt), ("issuer", .str lease.issuer),
   ("provenance_id", optionalStr lease.provenanceId)]

def provenanceToDoc (record : AuthorityProvenanceRecord) : PyDict :=
  [("schema_version", .int schemaVersion), ("object_type", .str "AuthorityProvenanceRecord"),
   ("provenance_id", .str record.provenanceId), ("subject_id", .str record.subjectId),
   ("issuer_id", .str record.issuerId), ("scope", sortedArray record.scope),
   ("epoch", .int record.epoch), ("issued_at", .datetime record.issuedAt),
   ("revoked_at", optionalDatetime record.revokedAt),
   ("parent_provenance_id", optionalStr record.parentProvenanceId)]

def evidenceToDoc (evidence : EvidenceItem) : PyDict :=
  [("schema_version", .int schemaVersion), ("object_type", .str "EvidenceItem"),
   ("evidence_id", .str evidence.evidenceId), ("subject_id", .str evidence.subjectId),
   ("claim", .str evidence.claim), ("source_type", .str evidence.sourceType.value),
   ("observed_at", .datetime evidence.observedAt), ("payload_hash", .str evidence.payloadHash),
   ("trace_id", .str evidence.traceId)]

def targetToDoc (target : MaterialTarget) : PyDict :=
  [("schema_version", .int schemaVersion), ("object_type", .str "MaterialTarget"),
   ("target_id", .str target.targetId), ("target_type", .str target.targetType),
   ("canonical_ref", .str target.canonicalRef), ("version", .int target.version),
   ("allowed_actions", sortedArray target.allowedActions),
   ("target_hash", .str target.targetHash)]

def receiptToDoc (receipt : ExecutionReceipt) : PyDict :=
  [("schema_version", .int schemaVersion), ("object_type", .str "ExecutionReceipt"),
   ("receipt_id", .str receipt.receiptId), ("run_id", .str receipt.runId),
   ("agent_id", .str receipt.agentId), ("session_id", .str receipt.sessionId),
   ("lease_id", optionalStr receipt.leaseId),
   ("registry_evidence_refs", strArray receipt.registryEvidenceRefs),
   ("target_id", optionalStr receipt.targetId), ("target_hash", optionalStr receipt.targetHash),
   ("intent_id", .str receipt.intentId), ("intent_hash", .str receipt.intentHash),
   ("executor_result_hash", optionalStr receipt.executorResultHash),
   ("decision", .str receipt.decision), ("reasons", strArray receipt.reasons),
   ("created_at", .datetime receipt.createdAt), ("trace_id", .str receipt.traceId)]

/-! ## Decoding the six record types -/

section Codecs

variable [PyRuntime]

def agentFromDoc (data : PyValue) : Except PyError AgentRecord := do
  let data ← requireMapping data "AgentRecord"
  let agentId ← strItem data "agent_id"
  let role ← strItem data "role"
  let declaredCapabilities ← strSetItem data "declared_capabilities"
  let observedCapabilities ← strMapItem data "observed_capabilities"
  let inferredCapabilities ← strSetItem data "inferred_capabilities"
  let status ← pyStr (itemD data "status" (.str "ACTIVE"))
  let currentEpoch ← pyInt (itemD data "current_epoch" (.int 1))
  return {
    agentId, role, declaredCapabilities, observedCapabilities, inferredCapabilities, status
    currentEpoch }

def leaseFromDoc (data : PyValue) : Except PyError AuthorityLease := do
  let data ← requireMapping data "AuthorityLease"
  let revokedAt ← optionalDatetimeItem data "revoked_at"
  let leaseId ← strItem data "lease_id"
  let agentId ← strItem data "agent_id"
  let scope ← strSetItem data "scope"
  let epoch ← pyInt (← item data "epoch")
  let issuedAt ← datetimeItem data "issued_at"
  let expiresAt ← datetimeItem data "expires_at"
  let issuer ← strItem data "issuer"
  let provenanceId ← optionalStrItem data "provenance_id"
  return {
    leaseId, agentId, scope, epoch, issuedAt, expiresAt, revokedAt, issuer, provenanceId }

def provenanceFromDoc (data : PyValue) : Except PyError AuthorityProvenanceRecord := do
  let data ← requireMapping data "AuthorityProvenanceRecord"
  let revokedAt ← optionalDatetimeItem data "revoked_at"
  let provenanceId ← strItem data "provenance_id"
  let subjectId ← strItem data "subject_id"
  let issuerId ← strItem data "issuer_id"
  let scope ← strSetItem data "scope"
  let epoch ← pyInt (← item data "epoch")
  let issuedAt ← datetimeItem data "issued_at"
  let parentProvenanceId ← optionalStrItem data "parent_provenance_id"
  return {
    provenanceId, subjectId, issuerId, scope, epoch, issuedAt, revokedAt, parentProvenanceId }

def evidenceFromDoc (data : PyValue) : Except PyError EvidenceItem := do
  let data ← requireMapping data "EvidenceItem"
  let evidenceId ← strItem data "evidence_id"
  let subjectId ← strItem data "subject_id"
  let claim ← strItem data "claim"
  let sourceType ← EvidenceSourceType.ofValue (← strItem data "source_type")
  let observedAt ← datetimeItem data "observed_at"
  let payloadHash ← strItem data "payload_hash"
  let traceId ← strItem data "trace_id"
  return { evidenceId, subjectId, claim, sourceType, observedAt, payloadHash, traceId }

/-- The decoder's own check: a target whose stored hash is not the hash of its fields raises. -/
def requireSelfConsistent (target : MaterialTarget) : Except PyError MaterialTarget := do
  let computed ← target.computeHash
  if computed ≠ target.targetHash then
    throw (.valueError "stored MaterialTarget hash does not match its canonical fields")
  return target

def targetFromDoc (data : PyValue) : Except PyError MaterialTarget := do
  let data ← requireMapping data "MaterialTarget"
  let targetId ← strItem data "target_id"
  let targetType ← strItem data "target_type"
  let canonicalRef ← strItem data "canonical_ref"
  let version ← pyInt (← item data "version")
  let allowedActions ← strSetItem data "allowed_actions"
  let targetHash ← strItem data "target_hash"
  requireSelfConsistent { targetId, targetType, canonicalRef, version, allowedActions, targetHash }

def receiptFromDoc (data : PyValue) : Except PyError ExecutionReceipt := do
  let data ← requireMapping data "ExecutionReceipt"
  let receiptId ← strItem data "receipt_id"
  let runId ← strItem data "run_id"
  let agentId ← strItem data "agent_id"
  let sessionId ← strItem data "session_id"
  let leaseId ← optionalStrItem data "lease_id"
  let registryEvidenceRefs ← strListItem data "registry_evidence_refs"
  let targetId ← optionalStrItem data "target_id"
  let targetHash ← optionalStrItem data "target_hash"
  let intentId ← strItem data "intent_id"
  let intentHash ← strItem data "intent_hash"
  let executorResultHash ← optionalStrItem data "executor_result_hash"
  let decision ← strItem data "decision"
  let reasons ← strListItem data "reasons"
  let createdAt ← datetimeItem data "created_at"
  let traceId ← strItem data "trace_id"
  return {
    receiptId, runId, agentId, sessionId, leaseId, registryEvidenceRefs, targetId, targetHash
    intentId, intentHash, executorResultHash, decision, reasons, createdAt, traceId }

end Codecs

/-! ## The store -/

/-- The documents the client holds, by collection and id. -/
structure FirestoreClient where
  docs : Finmap fun _ : String × String => PyValue := ∅

/-- A store bound to a namespace; a value exists only for a namespace the constructor accepts. -/
structure FirestoreStore where
  collectionPrefix : String
  valid : collectionPrefix ≠ "" ∧ '/' ∉ collectionPrefix.toList

/-- `FirestoreStore(client, namespace=...)`. -/
def FirestoreStore.create (collectionPrefix : String) : Except PyError FirestoreStore :=
  if h : collectionPrefix ≠ "" ∧ '/' ∉ collectionPrefix.toList then .ok ⟨collectionPrefix, h⟩
  else .error (.valueError "namespace must be a non-empty collection prefix")

namespace FirestoreStore

/-- The document a kind and an id name. -/
def docKey (fs : FirestoreStore) (kind docId : String) : String × String :=
  (fs.collectionPrefix ++ "_" ++ kind, docId)

/-- `_put`. -/
def put (fs : FirestoreStore) (kind docId : String) (payload : PyDict) (c : FirestoreClient) :
    Except PyError Unit × FirestoreClient :=
  (.ok (), { c with docs := c.docs.insert (fs.docKey kind docId) (.dict payload) })

/-- `_get`. -/
def get (fs : FirestoreStore) (kind docId : String) (c : FirestoreClient) :
    Except PyError (Option PyDict) :=
  match c.docs.lookup (fs.docKey kind docId) with
  | none => .ok none
  | some data => (requireMapping data kind).map some

/-- `_get`, then the decoder of the kind on what is there. -/
def getDecoded {α : Type} (fs : FirestoreStore) (kind docId : String)
    (fromDoc : PyValue → Except PyError α) (c : FirestoreClient) : Except PyError (Option α) := do
  match ← fs.get kind docId c with
  | none => return none
  | some data => (fromDoc (.dict data)).map some

variable [PyRuntime]

def storedAction (runId : String) (payload : PyDict) (resultHash : String) : PyDict :=
  [("schema_version", .int schemaVersion), ("object_type", .str "SyntheticActionResult")] ++
    syntheticResult runId payload ++ [("result_hash", .str resultHash)]

/-- `execute_synthetic_action`: the hash is computed before the one write. -/
def executeSyntheticAction (fs : FirestoreStore) (runId : String) (payload : PyDict)
    (c : FirestoreClient) : Except PyError String × FirestoreClient :=
  match canonicalHash (syntheticResult runId payload) with
  | .error e => (.error e, c)
  | .ok resultHash =>
    (.ok resultHash,
      (fs.put "synthetic_actions" runId (storedAction runId payload resultHash) c).2)

/-- The result dict `has_synthetic_action` rebuilds from a document. -/
def rebuiltResult (data : PyDict) : PyDict :=
  [("run_id", itemD data "run_id" .none), ("synthetic", itemD data "synthetic" .none),
   ("reversible", itemD data "reversible" .none), ("payload", itemD data "payload" .none)]

def hasSyntheticAction (fs : FirestoreStore) (runId expectedHash : String)
    (c : FirestoreClient) : Except PyError Bool := do
  match ← fs.get "synthetic_actions" runId c with
  | none => return false
  | some data =>
    let computed ← canonicalHash (rebuiltResult data)
    return computed == expectedHash &&
      (match itemD data "result_hash" .none with
        | .str stored => expectedHash == stored
        | _ => false)

/-- The methods of `FirestoreStore`, as a handler of the storage contract. -/
def handle (fs : FirestoreStore) : Handler RuntimeStore PyError FirestoreClient
  | .putAgent agent, c => fs.put "agents" agent.agentId (agentToDoc agent) c
  | .getAgent agentId, c => (fs.getDecoded "agents" agentId agentFromDoc c, c)
  | .putLease lease, c => fs.put "leases" lease.leaseId (leaseToDoc lease) c
  | .getLease leaseId, c => (fs.getDecoded "leases" leaseId leaseFromDoc c, c)
  | .putAuthorityProvenance record, c =>
    fs.put "authority_provenance" record.provenanceId (provenanceToDoc record) c
  | .getAuthorityProvenance provenanceId, c =>
    (fs.getDecoded "authority_provenance" provenanceId provenanceFromDoc c, c)
  | .putEvidence evidence, c => fs.put "evidence" evidence.evidenceId (evidenceToDoc evidence) c
  | .getEvidence evidenceId, c => (fs.getDecoded "evidence" evidenceId evidenceFromDoc c, c)
  | .putTarget target, c => fs.put "targets" target.targetId (targetToDoc target) c
  | .getTarget targetId, c => (fs.getDecoded "targets" targetId targetFromDoc c, c)
  | .putReceipt receipt, c => fs.put "receipts" receipt.receiptId (receiptToDoc receipt) c
  | .getReceipt receiptId, c => (fs.getDecoded "receipts" receiptId receiptFromDoc c, c)
  | .executeSyntheticAction runId payload, c => fs.executeSyntheticAction runId payload c
  | .hasSyntheticAction runId expectedHash, c => (fs.hasSyntheticAction runId expectedHash c, c)

end FirestoreStore

end PoiexGoc
