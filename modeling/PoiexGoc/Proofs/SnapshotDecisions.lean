/-
  An execution decides on a SNAPSHOT of the store, whatever happens meanwhile.

  `execute` reads the registry record by record, so under concurrency no single state of the store
  need be what it has seen.

  1. `execute_once_each` — it makes at most one call about each document, its own writes included.

  2. `executions_decide_on_snapshots` — so its result is the one it has alone on a store whose
     documents are all from states of the store during the call, each perhaps from another one.  An
     ALLOW is therefore sanctioned by records that were all stored at some time during the call.
     Nothing is asked of the other clients.
-/
import PoiexGoc.Lib.Snapshot
import PoiexGoc.Proofs.NoEscalation
import PoiexGoc.Proofs.SanctionedRequests
import PoiexGoc.Proofs.SerializableWrites

namespace PoiexGoc

open Py Effect

/-! ## Views put together -/

/-- Every document of the view is that of the view it is taken from. -/
def StoreView.mix (source : String × String → StoreView) : StoreView where
  agent id := (source ("agents", id)).agent id
  lease id := (source ("leases", id)).lease id
  provenance id := (source ("authority_provenance", id)).provenance id
  evidence id := (source ("evidence", id)).evidence id
  target id := (source ("targets", id)).target id
  receipt id := (source ("receipts", id)).receipt id
  action runId expected := (source ("synthetic_actions", runId)).action runId expected

theorem StoreView.mixes [PyRuntime] :
    @Mixes RuntimeStore PyError StoreView (String × String) StoreView.answers StoreOp.docName
      StoreView.mix := by
  intro source o
  cases o with
  | executeSyntheticAction runId payload =>
    simp only [StoreView.answers, StoreView.handle]
    cases canonicalHash (syntheticResult runId payload) with
    | error e => rfl
    | ok resultHash => rfl
  | _ => rfl

/-! ## One execution -/

namespace ControlPlane

/-- The two writes are about documents of two kinds. -/
theorem settle_once (doc : String × String) (draw : Draw) (identity : IdentityContext)
    (leaseId : String) (intent : ActionIntent) (report : GateReport) :
    (settle draw identity leaseId intent report).Once (StoreOp.About doc) := by
  have hreceipt : ∀ record : ExecutionReceipt,
      (receipt record).Once (StoreOp.About doc) ∧
        (receipt record).Issues (StoreOp.OfKinds ["receipts"]) :=
    fun record => ⟨Prog.once_bind_left (call_once doc _) fun _ => trivial,
      Prog.issues_bind (call_kinds "receipts" rfl (by decide)) fun _ => trivial⟩
  unfold settle
  split
  · exact once_bind_kinds doc ["synthetic_actions"] ["receipts"] (by decide)
      (call_kinds "synthetic_actions" rfl (by decide)) (call_once doc _)
      (fun _ => (hreceipt _).2) fun _ => (hreceipt _).1
  · exact (hreceipt _).1

/-- An execution makes at most one call about each document. -/
theorem execute_once_each (doc : String × String) (cp : ControlPlane) (fuel : Nat) (draw : Draw)
    (identity : IdentityContext) (leaseId : String) (intent : ActionIntent) :
    (execute cp fuel draw identity leaseId intent).Once (StoreOp.About doc) := by
  by_cases hdoc : doc.1 ∈ registryKinds
  · exact execute_once doc hdoc cp fuel draw identity leaseId intent
  · -- the gates look at the registry only
    refine Prog.once_bind_right ((gates_issues cp fuel draw.now identity leaseId intent).mono ?_)
      fun report => settle_once doc draw identity leaseId intent report
    intro o ho habout
    rw [← habout] at hdoc
    exact hdoc ho.docName_mem

variable [PyRuntime]

/-- What a write is answered does not depend on the store. -/
theorem settle_eval (draw : Draw) (identity : IdentityContext) (leaseId : String)
    (intent : ActionIntent) (report : GateReport) (v : StoreView) :
    (settle draw identity leaseId intent report).eval v.answers =
      ((settle draw identity leaseId intent report).run StoreView.handle v).1 := by
  unfold settle
  split
  · rename_i target _ _
    rw [Prog.eval_bind, Prog.run_bind]
    simp only [Prog.perform, Prog.eval, Prog.run, StoreView.answers, StoreView.handle]
    cases canonicalHash (syntheticResult draw.runId (actionPayload identity intent target)) with
    | error e => rfl
    | ok resultHash => rfl
  · rfl

/-- So the answers of a view decide a run on it. -/
theorem execute_eval (cp : ControlPlane) (fuel : Nat) (draw : Draw) (identity : IdentityContext)
    (leaseId : String) (intent : ActionIntent) (v : StoreView) :
    (execute cp fuel draw identity leaseId intent).eval v.answers =
      ((execute cp fuel draw identity leaseId intent).run StoreView.handle v).1 := by
  rw [execute_run storeView_implements, id]
  unfold execute
  rw [Prog.eval_bind]
  cases (gates cp fuel draw.now identity leaseId intent).eval v.answers with
  | error e => rfl
  | ok report => exact settle_eval draw identity leaseId intent report v

end ControlPlane

/-! ## Every interleaving -/

section Interleavings

variable [PyRuntime] {σ ι : Type} {α : ι → Type} [DecidableEq ι]
  {h : Handler RuntimeStore PyError σ} {view : σ → StoreView}

/-- Every execution decides on a snapshot.  One execution among any other clients, which may do
    anything to the store at any time: its result is the one it has alone on a store each of whose
    documents is as some state of the store had it during the call.  So if it returns ALLOW, the
    request is sanctioned by records that were each stored at some time during the call. -/
theorem executions_decide_on_snapshots (himp : Implements h view) (call : ExecuteCall)
    (clients : (i : ι) → StoreM (α i)) (s : σ) (sched : List (Option ι))
    {r : Except PyError ExecutionReceipt}
    (hdone : (Pool.runSchedule h sched (executionAmong call clients s)).outcome none = some r) :
    ∃ source : String × String → StoreView,
      (∀ doc, ∃ t, Pool.Passes h sched (executionAmong call clients s) t ∧ source doc = view t) ∧
      r = (call.program.run StoreView.handle (StoreView.mix source)).1 ∧
      ((∃ receipt, r = .ok receipt ∧ receipt.decision = "ALLOW") →
        ∃ agent evidenceId evidence lease target,
          ControlPlane.Sanctioned (StoreView.mix source) call.cp call.fuel call.draw.now
            call.identity call.leaseId call.intent agent evidenceId evidence lease target) := by
  have hview : ∀ (o : StoreOp) (t : σ), ControlPlane.ExecuteOp call.draw o →
      (h o t).1 = (view t).answers o := fun o t ho => (himp.refines o t ho.storable).1
  have hissues : ((executionAmong call clients s).threads none).Issues
      (ControlPlane.ExecuteOp call.draw) := ControlPlane.execute_issues _ _ _ _ _ _
  have honce : ∀ doc, ((executionAmong call clients s).threads none).Once
      fun o : StoreOp => o.docName = doc :=
    fun doc => ControlPlane.execute_once_each doc call.cp call.fuel call.draw call.identity
      call.leaseId call.intent
  obtain ⟨source, hsource, hr⟩ := Pool.exists_snapshot StoreView.mixes hview hissues honce hdone
  have hsolo : r = (call.program.run StoreView.handle (StoreView.mix source)).1 :=
    hr.trans (ControlPlane.execute_eval _ _ _ _ _ _ _)
  refine ⟨source, hsource, hsolo, fun hallow => ?_⟩
  rw [hsolo] at hallow
  exact ((ControlPlane.execute_allows_iff storeView_implements call.cp call.fuel call.draw
    call.identity call.leaseId call.intent (StoreView.mix source)).mp hallow).2

end Interleavings

/-- An execution whose lease is revoked right after it was read is allowed all the same: what it has
    seen sanctions it. -/
theorem overtaken_execution_decides_on_a_snapshot :
    let pool := executionAmong seededCall (fun _ : Unit => store.putLease revokedLease) seededClient
    let sched := [none, none, none, some (), none, none, none, none, none]
    ∃ source : String × String → StoreView,
      (∀ doc, ∃ t, Pool.Passes demoStore.handle sched pool t ∧ source doc = demoStore.view t) ∧
      ∃ agent evidenceId evidence lease target,
        ControlPlane.Sanctioned (StoreView.mix source) seededCall.cp seededCall.fuel
          seededCall.draw.now seededCall.identity seededCall.leaseId seededCall.intent agent
          evidenceId evidence lease target := by
  intro pool sched
  have hallowed : ((Pool.runSchedule demoStore.handle sched pool).outcome none).map
      (fun r => r.map ExecutionReceipt.decision) = some (.ok "ALLOW") := by decide +kernel
  obtain ⟨r, hdone, hr⟩ := Option.map_eq_some_iff.mp hallowed
  cases r with
  | error e => cases hr
  | ok receipt =>
    obtain ⟨source, hsource, -, hsanctioned⟩ := executions_decide_on_snapshots
      (firestoreStore_implements demoStore) seededCall (fun _ : Unit => store.putLease revokedLease)
      seededClient sched hdone
    exact ⟨source, hsource, hsanctioned ⟨receipt, rfl, Except.ok.inj hr⟩⟩

end PoiexGoc
