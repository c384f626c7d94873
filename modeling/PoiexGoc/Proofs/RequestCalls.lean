/-
  Which operations a demo REQUEST calls.

  1. `program_issues` — its seeding, the operations of its one `execute` call, and reads.

  2. `program_meets` — the receipt it replays is the one it has just stored, so of receipts and
     actions it reads its own only (`ReadsOwn`).  This relies on the stored receipt being one of
     the request's run (`ReceiptOfRun`), because the replay takes the run from what it reads.
-/
import PoiexGoc.Proofs.DemoMission

namespace PoiexGoc

open Py Effect

/-- The arguments and the drawn ids of one run of the demo with the default proposal. -/
structure DemoRun where
  fuel : Nat
  ids : CloudDemo.FreshIds
  case : String
  now : DateTime
  scenarioId : String

/-- The draw of the request's `execute` call. -/
def DemoRun.draw (request : DemoRun) : Draw := request.ids.drawAt request.now

/-- Receipts and actions are read under the ids of the draw. -/
def ReadsOwn (draw : Draw) : StoreOp → Prop
  | .getReceipt id => id = draw.receiptId
  | .hasSyntheticAction id _ => id = draw.runId
  | _ => True

theorem ReadsOwn.of_execute {draw : Draw} {o : StoreOp} (ho : ControlPlane.ExecuteOp draw o) :
    ReadsOwn draw o := by
  cases o with
  | getReceipt | hasSyntheticAction => exact ho.elim
  | _ => trivial

theorem ReadsOwn.of_replay {draw : Draw} {o : StoreOp}
    (ho : ControlPlane.ReplayOp draw.receiptId draw.runId o) : ReadsOwn draw o := by
  cases o with
  | getReceipt | hasSyntheticAction => exact ho
  | _ => trivial

/-- The ids of a draw do not depend on its clock. -/
theorem ReadsOwn.drawAt {ids : CloudDemo.FreshIds} {now : DateTime} (now' : DateTime) {o : StoreOp}
    (ho : ReadsOwn (ids.drawAt now) o) : ReadsOwn (ids.drawAt now') o := by
  cases o with
  | getReceipt | hasSyntheticAction => exact ho
  | _ => trivial

section Operations

variable [PyRuntime]

def DemoRun.program (request : DemoRun) : StoreM CloudDemo.DemoResult :=
  CloudDemo.runDemoCase request.fuel request.ids request.case request.now request.scenarioId none

/-! ## The operations of a request -/

/-- What the governed part of a request can call: its execution, and reads. -/
def GovernOp (draw : Draw) (o : StoreOp) : Prop := ControlPlane.ExecuteOp draw o ∨ o.IsRead

/-- What a request can call: its seeding, and then its proposal. -/
def RequestOp (draw : Draw) (o : StoreOp) : Prop := CloudDemo.IsSeeding o ∨ GovernOp draw o

theorem RequestOp.storable {draw : Draw} {o : StoreOp} (ho : RequestOp draw o) : o.Storable := by
  rcases ho with hseeding | hexecute | hread
  · exact hseeding.storable
  · exact hexecute.storable
  · exact hread.storable

omit [PyRuntime] in
theorem GovernOp.drawAt {ids : CloudDemo.FreshIds} {now : DateTime} (now' : DateTime) {o : StoreOp}
    (ho : GovernOp (ids.drawAt now) o) : GovernOp (ids.drawAt now') o := by
  rcases ho with hexecute | hread
  · refine Or.inl ?_
    cases o with
    | putReceipt | executeSyntheticAction => exact hexecute
    | _ => exact hexecute
  · exact Or.inr hread

theorem ReadsOwn.of_seeding {draw : Draw} {o : StoreOp} (ho : CloudDemo.IsSeeding o) :
    ReadsOwn draw o := by
  cases o with
  | getReceipt | hasSyntheticAction =>
    rcases ho with hread | hput
    · exact hread.elim
    · exact hput.elim
  | _ => trivial

namespace CloudDemo

theorem executeProposal_issues (cp : ControlPlane) (fuel : Nat) (draw : Draw)
    (identity : IdentityContext) (leaseId : String) (proposal : PlannerProposal)
    (authorizedTargetId intentId : String) (requestedAt : DateTime) :
    (executeProposal cp fuel draw identity leaseId proposal authorizedTargetId intentId
      requestedAt).Issues (GovernOp draw) := by
  unfold executeProposal
  refine Prog.issues_bind (store.call_issues _ (Or.inr trivial)) fun found => ?_
  cases found with
  | none => trivial
  | some target =>
    refine Prog.issues_bind (store.lift_issues _ _) fun intent => ?_
    refine Prog.issues_bind ((ControlPlane.execute_issues cp fuel draw identity leaseId
      intent).mono fun _ => Or.inl) fun receipt => ?_
    exact Prog.issues_bind ((ControlPlane.replay_issues receipt.receiptId).mono
      fun _ => Or.inr) fun _ => trivial

/-- The replay of a request is the replay of the receipt it has just stored. -/
theorem executeProposal_meets (cp : ControlPlane) (fuel : Nat) (draw : Draw)
    (identity : IdentityContext) (leaseId : String) (proposal : PlannerProposal)
    (authorizedTargetId intentId : String) (requestedAt : DateTime) :
    (executeProposal cp fuel draw identity leaseId proposal authorizedTargetId intentId
      requestedAt).Meets (ControlPlane.ReceiptOfRun draw.receiptId draw.runId) (ReadsOwn draw)
      fun _ => True := by
  unfold executeProposal
  refine Prog.meets_bind (store.call_meets _ trivial) (fun found _ => ?_) fun _ _ => trivial
  cases found with
  | none => trivial
  | some target =>
    refine Prog.meets_bind (store.lift_meets _ _ _) (fun intent _ => ?_) fun _ _ => trivial
    refine Prog.meets_bind ((ControlPlane.execute_meets _ cp fuel draw identity leaseId
      intent).mono (fun _ => ReadsOwn.of_execute) fun _ hr => hr) (fun receipt hreceipt => ?_)
      fun _ _ => trivial
    rw [hreceipt receipt rfl]
    exact Prog.meets_bind ((ControlPlane.replay_meets draw.receiptId draw.runId).mono
      (fun _ => ReadsOwn.of_replay) fun _ hr => hr) (fun _ _ => trivial) fun _ _ => trivial

theorem governProposal_issues (fuel : Nat) (ids : FreshIds) (case scenarioId : String)
    (ctx : DemoContext) (proposal : PlannerProposal) :
    (governProposal fuel ids case scenarioId ctx proposal).Issues
      (GovernOp (ids.drawAt ctx.now)) := by
  refine Prog.issues_tryCatch (Prog.issues_bind
    (executeProposal_issues _ _ _ _ _ _ _ _ _) fun _ => trivial) fun e => ?_
  cases e with
  | _ => trivial

theorem governProposal_meets (fuel : Nat) (ids : FreshIds) (case scenarioId : String)
    (ctx : DemoContext) (proposal : PlannerProposal) :
    (governProposal fuel ids case scenarioId ctx proposal).Meets
      (ControlPlane.ReceiptOfRun (ids.drawAt ctx.now).receiptId (ids.drawAt ctx.now).runId)
      (ReadsOwn (ids.drawAt ctx.now)) fun _ => True := by
  have hguarded : Prog.Meets
      (ControlPlane.ReceiptOfRun (ids.drawAt ctx.now).receiptId (ids.drawAt ctx.now).runId)
      (ReadsOwn (ids.drawAt ctx.now)) (fun _ => True)
      (executeProposal ctx.controlPlane fuel (ids.drawAt ctx.now) ctx.identity ctx.leaseId proposal
        ctx.authorizedTargetId ("intent-" ++ scenarioId ++ "-" ++ case) ctx.now >>=
          fun outcome => pure (governedResult case scenarioId ctx proposal outcome)) :=
    Prog.meets_bind (executeProposal_meets _ _ _ _ _ _ _ _ _) (fun _ _ => trivial)
      fun _ _ => trivial
  refine Prog.meets_tryCatch hguarded (fun _ _ => trivial) fun e _ => ?_
  cases e with
  | _ => trivial

end CloudDemo

/-- A request is refused before its first call, or it prepares its mission and then governs its
    proposal. -/
theorem DemoRun.program_cases {target : MaterialTarget} (hall : CloudDemo.SeededByAll target)
    (request : DemoRun) :
    (∃ e, request.program = Prog.done (.error e)) ∨
      ∃ evidence, CloudDemo.Seeds evidence target ∧
        request.program =
          (CloudDemo.prepare request.now request.scenarioId request.case evidence target >>=
            fun ctx => CloudDemo.governProposal request.fuel request.ids request.case
              request.scenarioId ctx
              (CloudDemo.effectiveProposal request.case request.scenarioId none)) := by
  by_cases hvalid : request.case ∈ CloudDemo.allowedCases ∧
      CloudDemo.matchesScenario request.scenarioId = true
  · obtain ⟨evidence, hseeds, hboot⟩ := hall.boots request.now request.scenarioId hvalid.2
    exact Or.inr ⟨evidence, hseeds,
      CloudDemo.runDemoCase_of_seed hvalid.1 hvalid.2 hboot request.fuel request.ids none⟩
  · exact Or.inl (CloudDemo.runDemoCase_refused hvalid request.fuel request.ids request.now none)

theorem DemoRun.program_issues (request : DemoRun) :
    request.program.Issues (RequestOp request.draw) := by
  obtain ⟨target, hall⟩ := CloudDemo.exists_seededByAll
  rcases request.program_cases hall with ⟨e, heq⟩ | ⟨evidence, hseeds, heq⟩
  · rw [heq]
    trivial
  · rw [heq]
    refine Prog.issues_bind ((CloudDemo.prepare_issues hseeds request.now request.scenarioId
      request.case).mono fun _ => Or.inl) fun ctx => ?_
    exact (CloudDemo.governProposal_issues _ _ _ _ ctx _).mono
      fun _ ho => Or.inr (GovernOp.drawAt request.now ho)

/-- As long as the stored receipt of the draw is one of its run, the request reads no receipt and
    no action but its own. -/
theorem DemoRun.program_meets (request : DemoRun) :
    request.program.Meets (ControlPlane.ReceiptOfRun request.draw.receiptId request.draw.runId)
      (ReadsOwn request.draw) fun _ => True := by
  obtain ⟨target, hall⟩ := CloudDemo.exists_seededByAll
  rcases request.program_cases hall with ⟨e, heq⟩ | ⟨evidence, hseeds, heq⟩
  · rw [heq]
    trivial
  · rw [heq]
    refine Prog.meets_bind (((CloudDemo.prepare_issues hseeds request.now request.scenarioId
      request.case).mono fun _ => ReadsOwn.of_seeding).meets _) (fun ctx _ => ?_)
      fun _ _ => trivial
    exact (CloudDemo.governProposal_meets _ _ _ _ ctx _).mono
      (fun _ => ReadsOwn.drawAt request.now) fun _ hr => hr

end Operations

end PoiexGoc
