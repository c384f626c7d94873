/-
  The records of the governed runtime, after `poiex_runtime/models.py` and the record of
  `poiex_runtime/authority_provenance.py`.

  Records are values: the Python dataclasses are mutable, but the runtime only ever changes a
  record it has read and then puts back.  Sets of strings are `Finset String`, dicts with string
  keys are finite maps, and `parameters` is a dict of arbitrary Python values.
-/
import PoiexGoc.Lib.PyValue

namespace PoiexGoc

open Py

/-- A Python `Dict[str, V]`. -/
abbrev Dict (V : Type) := Finmap fun _ : String => V

/-- `s if s else None` for an optional string: Python's truth of it. -/
def truthy (s : Option String) : Option String := s.filter (· ≠ "")

theorem truthy_eq_some {s : Option String} {x : String} :
    truthy s = some x ↔ s = some x ∧ x ≠ "" := by
  rw [truthy, Option.filter_eq_some_iff, decide_eq_true_iff]

theorem truthy_some {x : String} (hx : x ≠ "") : truthy (some x) = some x :=
  truthy_eq_some.mpr ⟨rfl, hx⟩

inductive EvidenceSourceType where
  | runtimeObservation
  | selfDeclaration
  | ownerAssertion
  | inferred
  deriving DecidableEq, Repr

namespace EvidenceSourceType

def value : EvidenceSourceType → String
  | runtimeObservation => "RUNTIME_OBSERVATION"
  | selfDeclaration => "SELF_DECLARATION"
  | ownerAssertion => "OWNER_ASSERTION"
  | inferred => "INFERRED"

/-- `EvidenceSourceType(text)`. -/
def ofValue (text : String) : Except PyError EvidenceSourceType :=
  if text = "RUNTIME_OBSERVATION" then .ok runtimeObservation
  else if text = "SELF_DECLARATION" then .ok selfDeclaration
  else if text = "OWNER_ASSERTION" then .ok ownerAssertion
  else if text = "INFERRED" then .ok inferred
  else .error (.valueError ("'" ++ text ++ "' is not a valid EvidenceSourceType"))

/-- An enumeration member is recovered from its value. -/
@[simp] theorem ofValue_value (t : EvidenceSourceType) : ofValue t.value = .ok t := by
  cases t <;> decide

end EvidenceSourceType

structure AgentRecord where
  agentId : String
  role : String
  declaredCapabilities : Finset String := ∅
  observedCapabilities : Dict String := ∅
  inferredCapabilities : Finset String := ∅
  status : String := "ACTIVE"
  currentEpoch : Int := 1
  deriving DecidableEq

structure IdentityContext where
  agentId : String
  sessionId : String
  authenticated : Bool
  deriving DecidableEq

structure AuthorityLease where
  leaseId : String
  agentId : String
  scope : Finset String
  epoch : Int
  issuedAt : DateTime
  expiresAt : DateTime
  revokedAt : Option DateTime
  issuer : String
  provenanceId : Option String := none
  deriving DecidableEq

/-- One delegation edge: `subjectId` receives authority from `issuerId`; the parent record gave
    the issuer the authority being delegated. -/
structure AuthorityProvenanceRecord where
  provenanceId : String
  subjectId : String
  issuerId : String
  scope : Finset String
  epoch : Int
  issuedAt : DateTime
  revokedAt : Option DateTime
  parentProvenanceId : Option String
  deriving DecidableEq

structure EvidenceItem where
  evidenceId : String
  subjectId : String
  claim : String
  sourceType : EvidenceSourceType
  observedAt : DateTime
  payloadHash : String
  traceId : String
  deriving DecidableEq

structure MaterialTarget where
  targetId : String
  targetType : String
  canonicalRef : String
  version : Int
  allowedActions : Finset String
  targetHash : String
  deriving DecidableEq

structure ActionIntent where
  intentId : String
  agentId : String
  actionType : String
  targetId : String
  targetHash : String
  parameters : PyDict
  requestedAt : DateTime
  intentHash : String

structure ExecutionReceipt where
  receiptId : String
  runId : String
  agentId : String
  sessionId : String
  leaseId : Option String
  registryEvidenceRefs : List String
  targetId : Option String
  targetHash : Option String
  intentId : String
  intentHash : String
  executorResultHash : Option String
  decision : String
  reasons : List String
  createdAt : DateTime
  traceId : String
  deriving DecidableEq

structure ReplayManifest where
  runId : String
  receiptId : String
  reconstructionStatus : String
  mismatches : List String
  traceId : String
  deriving DecidableEq

/-! ## The constructors that hash -/

section Hashing

variable [PyRuntime]

/-- What `EvidenceItem.runtime_observation` hashes. -/
def EvidenceItem.observationPayload (subjectId claim : String) (observedAt : DateTime)
    (traceId : String) : PyDict :=
  [("subject_id", .str subjectId), ("claim", .str claim), ("observed_at", .datetime observedAt),
   ("trace_id", .str traceId),
   ("source_type", .str EvidenceSourceType.runtimeObservation.value)]

def EvidenceItem.runtimeObservation (evidenceId subjectId claim : String) (observedAt : DateTime)
    (traceId : String) : Except PyError EvidenceItem := do
  let payloadHash ←
    canonicalHash (EvidenceItem.observationPayload subjectId claim observedAt traceId)
  return {
    evidenceId, subjectId, claim, observedAt, payloadHash, traceId
    sourceType := .runtimeObservation }

/-- The fields `compute_hash` covers: everything but the stored hash. -/
def MaterialTarget.canonicalFields (t : MaterialTarget) : PyDict :=
  [("target_id", .str t.targetId), ("target_type", .str t.targetType),
   ("canonical_ref", .str t.canonicalRef), ("version", .int t.version),
   ("allowed_actions", .set t.allowedActions)]

def MaterialTarget.computeHash (t : MaterialTarget) : Except PyError String :=
  canonicalHash t.canonicalFields

def MaterialTarget.create (targetId targetType canonicalRef : String) (version : Int)
    (allowedActions : Finset String) : Except PyError MaterialTarget := do
  let obj : MaterialTarget :=
    { targetId, targetType, canonicalRef, version, allowedActions, targetHash := "" }
  let targetHash ← obj.computeHash
  return { obj with targetHash }

/-- The stored hash of the target is the hash of its other fields. -/
def MaterialTarget.SelfConsistent (t : MaterialTarget) : Prop := t.computeHash = .ok t.targetHash

instance (t : MaterialTarget) : Decidable t.SelfConsistent :=
  inferInstanceAs (Decidable (_ = _))

/-- What `ActionIntent.create` hashes. -/
def ActionIntent.payload (intentId agentId actionType targetId targetHash : String)
    (parameters : PyDict) (requestedAt : DateTime) : PyDict :=
  [("intent_id", .str intentId), ("agent_id", .str agentId), ("action_type", .str actionType),
   ("target_id", .str targetId), ("target_hash", .str targetHash),
   ("parameters", .dict parameters), ("requested_at", .datetime requestedAt)]

def ActionIntent.create (intentId agentId actionType targetId targetHash : String)
    (parameters : PyDict) (requestedAt : DateTime) : Except PyError ActionIntent := do
  let intentHash ← canonicalHash
    (ActionIntent.payload intentId agentId actionType targetId targetHash parameters requestedAt)
  return { intentId, agentId, actionType, targetId, targetHash, parameters, requestedAt, intentHash }

/-! ## When a record has a hash -/

/-- A target has a hash exactly when its version can be written: the other canonical fields are
    texts and a set of texts. -/
theorem MaterialTarget.computeHash_isOk {t : MaterialTarget} :
    (∃ h, t.computeHash = .ok h) ↔ WithinDigits maxStrDigits t.version := by
  rw [MaterialTarget.computeHash, canonicalHash_isOk_iff]
  simp only [MaterialTarget.canonicalFields, List.forall_mem_cons, serializable_str,
    serializable_int, serializable_set, List.not_mem_nil, false_implies, implies_true, true_and,
    and_true]

theorem EvidenceItem.runtimeObservation_isOk (evidenceId subjectId claim : String)
    (observedAt : DateTime) (traceId : String) :
    ∃ h, EvidenceItem.runtimeObservation evidenceId subjectId claim observedAt traceId =
      .ok ⟨evidenceId, subjectId, claim, .runtimeObservation, observedAt, h, traceId⟩ := by
  obtain ⟨h, hh⟩ : ∃ h, canonicalHash
      (EvidenceItem.observationPayload subjectId claim observedAt traceId) = .ok h := by
    apply canonicalHash_isOk
    simp only [EvidenceItem.observationPayload, List.forall_mem_cons, serializable_str,
      serializable_datetime, List.not_mem_nil, false_implies, implies_true, and_self]
  exact ⟨h, by rw [EvidenceItem.runtimeObservation, hh]; rfl⟩

/-- A target made by `create` carries the hash of its fields. -/
theorem MaterialTarget.create_isOk {version : Int} (hversion : WithinDigits maxStrDigits version)
    (targetId targetType canonicalRef : String) (allowedActions : Finset String) :
    ∃ h, MaterialTarget.create targetId targetType canonicalRef version allowedActions =
        .ok ⟨targetId, targetType, canonicalRef, version, allowedActions, h⟩ ∧
      MaterialTarget.SelfConsistent
        ⟨targetId, targetType, canonicalRef, version, allowedActions, h⟩ := by
  obtain ⟨h, hh⟩ := (MaterialTarget.computeHash_isOk (t :=
    ⟨targetId, targetType, canonicalRef, version, allowedActions, ""⟩)).mpr hversion
  refine ⟨h, ?_, hh⟩
  rw [MaterialTarget.create]
  show (MaterialTarget.computeHash _ >>= _) = _
  rw [hh]
  rfl

/-- An intent can be created exactly when its parameters have a canonical text. -/
theorem ActionIntent.create_isOk {parameters : PyDict} (hpar : Serializable (.dict parameters))
    (intentId agentId actionType targetId targetHash : String) (requestedAt : DateTime) :
    ∃ h, ActionIntent.create intentId agentId actionType targetId targetHash parameters
        requestedAt =
      .ok ⟨intentId, agentId, actionType, targetId, targetHash, parameters, requestedAt, h⟩ := by
  obtain ⟨h, hh⟩ : ∃ h, canonicalHash (ActionIntent.payload intentId agentId actionType targetId
      targetHash parameters requestedAt) = .ok h := by
    apply canonicalHash_isOk
    simp only [ActionIntent.payload, List.forall_mem_cons, serializable_str,
      serializable_datetime, hpar, List.not_mem_nil, false_implies, implies_true, and_self]
  exact ⟨h, by rw [ActionIntent.create, hh]; rfl⟩

/-- Parameters without a canonical text raise. -/
theorem ActionIntent.create_raises {parameters : PyDict}
    (hpar : ¬ Serializable (.dict parameters)) (intentId agentId actionType targetId
    targetHash : String) (requestedAt : DateTime) :
    ∃ e, ActionIntent.create intentId agentId actionType targetId targetHash parameters
      requestedAt = .error e := by
  cases hhash : canonicalHash (ActionIntent.payload intentId agentId actionType targetId targetHash
      parameters requestedAt) with
  | error e => exact ⟨e, by rw [ActionIntent.create, hhash]; rfl⟩
  | ok h =>
    have hmember : ("parameters", PyValue.dict parameters) ∈ ActionIntent.payload intentId agentId
        actionType targetId targetHash parameters requestedAt := by
      simp only [ActionIntent.payload, List.mem_cons, true_or, or_true]
    exact absurd (canonicalHash_isOk_iff.mp ⟨h, hhash⟩ _ hmember) hpar

/-- When their types are known, they raise for an integer that cannot be written. -/
theorem ActionIntent.create_raises_digits {parameters : PyDict}
    (hknown : IsKnown (.dict parameters)) (hpar : ¬ Serializable (.dict parameters))
    (intentId agentId actionType targetId targetHash : String) (requestedAt : DateTime) :
    ActionIntent.create intentId agentId actionType targetId targetHash parameters requestedAt =
      .error (.valueError tooManyDigits) := by
  have hpayload : IsKnown (.dict (ActionIntent.payload intentId agentId actionType targetId
      targetHash parameters requestedAt)) := by
    refine .dict ?_
    simp only [ActionIntent.payload, List.forall_mem_cons]
    exact ⟨.str _, .str _, .str _, .str _, .str _, hknown, .datetime _,
      fun _ he => absurd he List.not_mem_nil⟩
  have hnone : ¬ Serializable (.dict (ActionIntent.payload intentId agentId actionType targetId
      targetHash parameters requestedAt)) := by
    intro hall
    have hmember : ("parameters", PyValue.dict parameters) ∈ ActionIntent.payload intentId agentId
        actionType targetId targetHash parameters requestedAt := by
      simp only [ActionIntent.payload, List.mem_cons, true_or, or_true]
    exact hpar (serializable_dict.mp hall _ hmember)
  rw [ActionIntent.create, canonicalHash, jsonDumps_of_not_serializable hpayload hnone]
  rfl

end Hashing

end PoiexGoc
