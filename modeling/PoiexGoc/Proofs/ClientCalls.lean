/-
  The CLIENTS of a store: a caller with a sequence of calls, the orchestrator with one proposal, and
  the demo service with one request.

  Each is a program over the storage contract, so any number of them, of any kinds, can be
  interleaved.  None of them stores a receipt or an action except through `execute`
  (`Client.Governed`), and all of them put only targets that a document store can decode.
-/
import PoiexGoc.Proofs.AuditLedger
import PoiexGoc.Proofs.RequestCalls
import PoiexGoc.Proofs.StorageChoice

namespace PoiexGoc

open Py Effect

inductive Client where
  | session (fuel : Nat) (cmds : List Command)
  | proposal (cp : ControlPlane) (fuel : Nat) (draw : Draw) (identity : IdentityContext)
      (leaseId : String) (plan : PlannerProposal) (authorizedTargetId intentId : String)
      (requestedAt : DateTime)
  | request (demo : DemoRun)

namespace Client

/-- What each client returns. -/
@[reducible] def Result : Client → Type
  | session _ _ => List Reply
  | proposal _ _ _ _ _ _ _ _ _ => GovernedOutcome
  | request _ => CloudDemo.DemoResult

/-- The `uuid4` values a client draws. -/
def hexes : Client → List String
  | session _ cmds => cmds.flatMap Command.hexes
  | proposal _ _ draw _ _ _ _ _ _ => [draw.runHex, draw.receiptHex, draw.traceHex]
  | request demo => [demo.ids.runHex, demo.ids.receiptHex, demo.ids.traceHex]

variable [PyRuntime]

def program : (client : Client) → StoreM client.Result
  | session fuel cmds => PoiexGoc.session fuel cmds
  | proposal cp fuel draw identity leaseId plan authorizedTargetId intentId requestedAt =>
    executeProposal cp fuel draw identity leaseId plan authorizedTargetId intentId requestedAt
  | request demo => demo.program

end Client

variable [PyRuntime]

/-- The operations a caller makes directly: registry puts a document store takes, and reads. -/
def Command.Direct : Command → Prop
  | .operation o => (o.IsRegistryPut ∧ o.Storable) ∨ o.IsRead
  | _ => True

theorem Command.Direct.storable {cmd : Command} (hcmd : cmd.Direct) : cmd.Storable := by
  cases cmd with
  | operation o => exact hcmd.elim And.right StoreOp.IsRead.storable
  | _ => trivial

namespace Client

/-- The sessions make such calls only. -/
def Direct : Client → Prop
  | session _ cmds => ∀ cmd ∈ cmds, cmd.Direct
  | _ => True

theorem program_storable {client : Client} (hclient : client.Direct) :
    client.program.Issues StoreOp.Storable := by
  cases client with
  | session fuel cmds =>
    exact session_issues fun cmd hcmd => cmd.program_issues fuel (hclient cmd hcmd).storable
  | proposal cp fuel draw identity leaseId plan authorizedTargetId intentId requestedAt =>
    exact (CloudDemo.executeProposal_issues cp fuel draw identity leaseId plan
      authorizedTargetId intentId requestedAt).mono fun _ ho => RequestOp.storable (Or.inr ho)
  | request demo => exact demo.program_issues.mono fun _ => RequestOp.storable

end Client

end PoiexGoc
