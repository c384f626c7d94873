/-
  The HTTP service, after `control_service/main.py`.

  A request reaches an endpoint once its body has the declared form; the structures carry that form
  as fields.  The parameters of a proposal come from a JSON text, so they can be written as one.
  A ValueError or a RuntimeError of the endpoint becomes a 400 with its message, any other
  exception is left to the framework.
-/
import PoiexGoc.Runtime.CloudDemo
import PoiexGoc.Runtime.GovernanceHardening
import PoiexGoc.Runtime.RuntimeFactory

namespace PoiexGoc

open Py Effect

namespace ControlService

/-- The cases `DemoRequest.case` is declared with. -/
inductive DemoCase where
  | allow
  | revokedAuthority
  | targetSubstitution
  | policyEpochStale
  deriving DecidableEq

def DemoCase.value : DemoCase → String
  | allow => "allow"
  | revokedAuthority => "revoked_authority"
  | targetSubstitution => "target_substitution"
  | policyEpochStale => "policy_epoch_stale"

theorem DemoCase.value_mem (case : DemoCase) : case.value ∈ CloudDemo.allowedCases := by
  cases case with
  | _ => decide

structure ProposalPayload where
  actionType : String
  targetId : String
  parameters : PyDict := []
  rationale : String := ""
  actionType_length : actionType.length ≤ 96
  targetId_length : targetId.length ≤ 128
  rationale_length : rationale.length ≤ 1000
  parameters_json : Serializable (.dict parameters)

structure DemoRequest where
  case : DemoCase
  scenarioId : String
  proposal : Option ProposalPayload := none
  scenarioId_length : 1 ≤ scenarioId.length ∧ scenarioId.length ≤ 64

/-- The `PlannerProposal` made of a payload. -/
def ProposalPayload.plannerProposal (payload : ProposalPayload) : PlannerProposal where
  actionType := payload.actionType
  targetId := payload.targetId
  parameters := payload.parameters
  rationale := payload.rationale

/-- The cases `HardeningRequest.case` is declared with. -/
inductive HardeningCase where
  | bindingChange
  | writeOnlyMemory
  | staleStageInput
  | observerReparameterization
  | newRival
  deriving DecidableEq

def HardeningCase.value : HardeningCase → String
  | bindingChange => "binding_change"
  | writeOnlyMemory => "write_only_memory"
  | staleStageInput => "stale_stage_input"
  | observerReparameterization => "observer_reparameterization"
  | newRival => "new_rival"

theorem HardeningCase.value_mem (case : HardeningCase) : case.value ∈ hardeningDemoCases := by
  cases case with
  | _ => decide

inductive HardeningResponse where
  | ok (result : PyDict)
  | badRequest (detail : String)
  | unhandled (e : PyError)

/-- What the service answers. -/
inductive Response where
  | ok (result : CloudDemo.DemoResult)
  | badRequest (detail : String)
  | unhandled (e : PyError)

/-- The `except` clause of the endpoint. -/
def Response.ofOutcome : Except PyError CloudDemo.DemoResult → Response
  | .ok result => .ok result
  | .error (.valueError message) => .badRequest message
  | .error (.runtimeError message) => .badRequest message
  | .error e => .unhandled e

/-- A process that serves: its environment, and what `build_store_from_env` needs besides. -/
structure Process where
  env : Env
  lower : String → String
  installed : Bool

/-- The store `build_store_from_env()` makes in the process. -/
def Process.store (process : Process) : Except PyError (Selection (Database × FirestoreStore)) :=
  buildStoreFromEnv process.lower process.env
    (FirestoreStore.fromDefaultCredentials process.installed)

variable [PyRuntime]

/-- The run of the demo a request asks for. -/
def DemoRequest.program (request : DemoRequest) (fuel : Nat) (ids : CloudDemo.FreshIds)
    (now : DateTime) : StoreM CloudDemo.DemoResult :=
  CloudDemo.runDemoCase fuel ids request.case.value now request.scenarioId
    (request.proposal.map ProposalPayload.plannerProposal)

/-- `run_demo`, as a client of the process's Firestore store.  A local store is made for the one
    request and gone with it. -/
def runDemo (process : Process) (fuel : Nat) (ids : CloudDemo.FreshIds) (now : DateTime)
    (request : DemoRequest) : StoreM Response :=
  match process.store with
  | .error e => pure (.ofOutcome (.error e))
  | .ok .memory => pure (.ofOutcome ((request.program fuel ids now).run MemoryStore.handle {}).1)
  | .ok (.firestore _) => do
    let outcome ← (request.program fuel ids now).attempt
    pure (.ofOutcome outcome)

/-- `run_hardening`: here the `except` clause names the ValueError only. -/
def runHardening (case : HardeningCase) : HardeningResponse :=
  match runHardeningDemoCase case.value with
  | .ok result => .ok result
  | .error (.valueError message) => .badRequest message
  | .error e => .unhandled e

end ControlService

end PoiexGoc
