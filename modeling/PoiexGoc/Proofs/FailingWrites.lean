/-
  FAILING WRITES: what an execution leaves when a write of it raises.

  An execution makes one write, or two: the action and then its receipt.  They are separate, and
  nothing takes the first back when the second raises.

  1. `execute_failing` — the three ways a run goes whose `n`-th write would raise.

  2. `failed_write_leaves_its_action_only` — a failing first write leaves the store as it was; a
     failing receipt of an allowed request leaves the action of that request, and nothing else.
-/
import PoiexGoc.Proofs.Mediation
import PoiexGoc.Proofs.StandingReceipts

namespace PoiexGoc

open Py Effect

/-- The operations that write to the store. -/
def StoreOp.writes : StoreOp → Bool
  | .putAgent _ | .putLease _ | .putAuthorityProvenance _ | .putEvidence _ | .putTarget _
  | .putReceipt _ | .executeSyntheticAction _ _ => true
  | .getAgent _ | .getLease _ | .getAuthorityProvenance _ | .getEvidence _ | .getTarget _
  | .getReceipt _ | .hasSyntheticAction _ _ => false

theorem StoreOp.IsRegistryRead.writes_eq {o : StoreOp} (ho : o.IsRegistryRead) :
    o.writes = false := by
  cases o with
  | getAgent | getLease | getAuthorityProvenance | getEvidence | getTarget => rfl
  | _ => exact ho.elim

namespace ControlPlane

variable [PyRuntime] {σ : Type} {h : Handler RuntimeStore PyError σ} {view : σ → StoreView}
  {e : PyError}

/-- The put of the receipt is the write that fails. -/
theorem receipt_failing (himp : Implements h view) (record : ExecutionReceipt) (s : σ) :
    (receipt record).run (withFault StoreOp.writes e h) (some 0, s) = (.error e, (none, s)) := by
  have hput : (h (.putReceipt record) s).1 = .ok () :=
    (himp.refines (.putReceipt record) s trivial).1
  have hrun : (store.putReceipt record).run (withFault StoreOp.writes e h) (some 0, s) =
      (.error e, (none, s)) := withFault_fails (S := RuntimeStore) rfl hput
  exact Prog.run_bind_error hrun _

/-- The put of the receipt comes before it. -/
theorem receipt_passing (himp : Implements h view) (record : ExecutionReceipt) (n : Nat) (s : σ) :
    (receipt record).run (withFault StoreOp.writes e h) (some (n + 1), s) =
      (.ok record, (some n, (h (.putReceipt record) s).2)) := by
  have hput : (h (.putReceipt record) s).1 = .ok () :=
    (himp.refines (.putReceipt record) s trivial).1
  have hrun : (store.putReceipt record).run (withFault StoreOp.writes e h) (some (n + 1), s) =
      (.ok (), (some n, (h (.putReceipt record) s).2)) :=
    withFault_passes (S := RuntimeStore) (e := e) rfl hput n
  exact Prog.run_bind_ok hrun _

theorem action_failing (himp : Implements h view) {runId resultHash : String} {payload : PyDict}
    (hhash : canonicalHash (syntheticResult runId payload) = .ok resultHash) (s : σ) :
    (store.executeSyntheticAction runId payload).run (withFault StoreOp.writes e h) (some 0, s) =
      (.error e, (none, s)) :=
  withFault_fails (S := RuntimeStore) rfl ((action_answer himp runId payload s).trans hhash)

theorem action_passing (himp : Implements h view) {runId resultHash : String} {payload : PyDict}
    (hhash : canonicalHash (syntheticResult runId payload) = .ok resultHash) (n : Nat) (s : σ) :
    (store.executeSyntheticAction runId payload).run (withFault StoreOp.writes e h)
        (some (n + 1), s) =
      (.ok resultHash, (some n, (h (.executeSyntheticAction runId payload) s).2)) :=
  withFault_passes (S := RuntimeStore) (e := e) rfl
    ((action_answer himp runId payload s).trans hhash) n

/-- An action without a hash raises before its write. -/
theorem action_raising (himp : Implements h view) {runId : String} {payload : PyDict} {e' : PyError}
    (hhash : canonicalHash (syntheticResult runId payload) = .error e') (f : Option Nat) (s : σ) :
    (store.executeSyntheticAction runId payload).run (withFault StoreOp.writes e h) (f, s) =
      (.error e', (f, s)) := by
  have hraise := (action_answer himp runId payload s).trans hhash
  refine (withFault_raises (S := RuntimeStore) (e := e) hraise f).trans ?_
  rw [himp.raisesKeep _ s e' hraise]

/-- What a call leaves whose `n`-th write raised, where without the fault it would have ended as
    `done`: nothing was written, or the action of an allowed call was. -/
inductive Failed (h : Handler RuntimeStore PyError σ) (runId : String) (s : σ)
    (done : Except PyError ExecutionReceipt × σ) : Nat → σ → Prop
  | first : Failed h runId s done 0 s
  | second {receipt : ExecutionReceipt} {payload : PyDict} {resultHash : String}
    (hhash : canonicalHash (syntheticResult runId payload) = .ok resultHash)
    (hallow : receipt.decision = "ALLOW")
    (hdone : done = (.ok receipt,
      (h (.putReceipt receipt) (h (.executeSyntheticAction runId payload) s).2).2)) :
    Failed h runId s done 1 (h (.executeSyntheticAction runId payload) s).2

/-- A program under the fault meets it, or runs as without it. -/
def FailsOrRuns (h : Handler RuntimeStore PyError σ) (e : PyError) (runId : String)
    (p : StoreM ExecutionReceipt) (n : Nat) (s : σ) : Prop :=
  (∃ m, p.run (withFault StoreOp.writes e h) (some n, s) =
    ((p.run h s).1, (some m, (p.run h s).2))) ∨
  ∃ s', p.run (withFault StoreOp.writes e h) (some n, s) = (.error e, (none, s')) ∧
    Failed h runId s (p.run h s) n s'

theorem settle_failing (himp : Implements h view) (draw : Draw) (identity : IdentityContext)
    (leaseId : String) (intent : ActionIntent) (report : GateReport) (n : Nat) (s : σ) :
    FailsOrRuns h e draw.runId (settle draw identity leaseId intent report) n s := by
  unfold FailsOrRuns
  by_cases hblock : report.target = none ∨ report.reasons ≠ []
  · rw [settle_run_block himp hblock, settle_of_block hblock]
    cases n with
    | zero => exact Or.inr ⟨s, receipt_failing himp _ s, .first⟩
    | succ m => exact Or.inl ⟨m, receipt_passing himp _ m s⟩
  · rw [not_or, not_not] at hblock
    obtain ⟨target, htarget⟩ := Option.ne_none_iff_exists'.mp hblock.1
    rw [settle_run_allow himp htarget hblock.2, settle_of_allow htarget hblock.2]
    cases hhash : canonicalHash
        (syntheticResult draw.runId (actionPayload identity intent target)) with
    | error e' => exact Or.inl ⟨n, Prog.run_bind_error (action_raising himp hhash (some n) s) _⟩
    | ok resultHash =>
      cases n with
      | zero => exact Or.inr ⟨s, Prog.run_bind_error (action_failing himp hhash s) _, .first⟩
      | succ n =>
        -- the action is stored: what is left is its receipt
        rw [Prog.run_bind_ok (action_passing himp hhash n s)]
        cases n with
        | zero => exact Or.inr ⟨_, receipt_failing himp _ _, .second hhash rfl rfl⟩
        | succ m => exact Or.inl ⟨m, receipt_passing himp _ m _⟩

/-- The gates write nothing, so the fault is met by what settles their report. -/
theorem execute_failing (himp : Implements h view) (cp : ControlPlane) (fuel : Nat) (draw : Draw)
    (identity : IdentityContext) (leaseId : String) (intent : ActionIntent) (n : Nat) (s : σ) :
    FailsOrRuns h e draw.runId (execute cp fuel draw identity leaseId intent) n s := by
  have hgates : (gates cp fuel draw.now identity leaseId intent).run
      (withFault StoreOp.writes e h) (some n, s) =
      ((gates cp fuel draw.now identity leaseId intent).eval (view s).answers, (some n, s)) := by
    rw [Prog.run_withFault_of_reads ((gates_issues cp fuel draw.now identity leaseId intent).mono
      fun _ => StoreOp.IsRegistryRead.writes_eq), gates_run himp]
  have hnormal := execute_run himp cp fuel draw identity leaseId intent s
  cases heval : (gates cp fuel draw.now identity leaseId intent).eval (view s).answers with
  | error e' =>
    rw [heval] at hgates hnormal
    refine Or.inl ⟨n, ?_⟩
    rw [hnormal]
    exact Prog.run_bind_error hgates _
  | ok report =>
    rw [heval] at hgates hnormal
    have hrest : (execute cp fuel draw identity leaseId intent).run (withFault StoreOp.writes e h)
        (some n, s) =
        (settle draw identity leaseId intent report).run (withFault StoreOp.writes e h)
          (some n, s) := Prog.run_bind_ok hgates _
    unfold FailsOrRuns
    rw [hrest, hnormal]
    exact settle_failing himp draw identity leaseId intent report n s

end ControlPlane

section Faults

variable [PyRuntime]

/-- An action is stored for the run, and no stored receipt is of that run. -/
def Backend.Orphan (s : Backend) (runId : String) : Prop :=
  (s.actionDoc runId).isSome ∧
    ∀ id receipt, s.view.receipt id = .ok (some receipt) → receipt.runId ≠ runId

/-- No unreceipted mutation but the call's own.  In every store, when the `n`-th write of an
    execution raises in the place of taking effect, the execution raises the same.  It has stored no
    receipt; a failing first write leaves the store as it was, and a failing receipt of an allowed
    request leaves its action.  So an action without a receipt was one before, or is that one. -/
theorem failed_write_leaves_its_action_only (s : Backend) (cp : ControlPlane) (fuel : Nat)
    (draw : Draw) (identity : IdentityContext) (leaseId : String) (intent : ActionIntent)
    (e : PyError) (n : Nat) (answer : Except PyError ExecutionReceipt) (s' : Backend)
    (hfault : (cp.execute fuel draw identity leaseId intent).run
      (withFault StoreOp.writes e Backend.handle) (some n, s) = (answer, (none, s'))) :
    answer = .error e ∧ s'.view.receipt = s.view.receipt ∧ (n = 0 → s' = s) ∧
    (n ≠ 0 → ∃ receipt payload,
      ((cp.execute fuel draw identity leaseId intent).run Backend.handle s).1 = .ok receipt ∧
      receipt.decision = "ALLOW" ∧
      s' = (Backend.handle (.executeSyntheticAction draw.runId payload) s).2) ∧
    ∀ runId, s'.Orphan runId → s.Orphan runId ∨ (n ≠ 0 ∧ runId = draw.runId) := by
  rcases ControlPlane.execute_failing backend_implements cp fuel draw identity leaseId intent n s
    with ⟨m, hrun⟩ | ⟨left, hrun, hfailed⟩
  · -- the fault is still to come
    cases congrArg (fun r => r.2.1) (hrun.symm.trans hfault)
  · obtain ⟨hanswer, hleft⟩ := Prod.mk.inj (hfault.symm.trans hrun)
    obtain ⟨-, rfl⟩ := Prod.mk.inj hleft
    refine ⟨hanswer, ?_⟩
    cases hfailed with
    | first =>
      refine ⟨rfl, fun _ => rfl, fun hne => absurd rfl hne, ?_⟩
      intro runId horphan
      exact Or.inl horphan
    | second hhash hallow hdone =>
      rename_i receipt payload resultHash
      have hview := backend_implements.view_executed hhash s
      refine ⟨by rw [hview]; rfl, fun hzero => absurd hzero (by decide), fun _ => ?_, ?_⟩
      · exact ⟨receipt, payload, congrArg Prod.fst hdone, hallow, rfl⟩
      · rintro runId ⟨haction, hreceipts⟩
        by_cases hown : runId = draw.runId
        · exact Or.inr ⟨by decide, hown⟩
        · left
          rw [s.actionDoc_executed_of_ne payload hown] at haction
          rw [hview] at hreceipts
          exact ⟨haction, hreceipts⟩

end Faults

open CloudDemo in
/-- When the receipt of the mission's allowed execution cannot be stored, its action stays. -/
theorem failing_receipt_leaves_an_orphan :
    let s := (runCommands MemoryStore.handle 3 missionCalls {}).2
    let left := (controlPlane.execute 3 missionDraw (identity "s1") "lease-001" missionIntent).run
      (withFault StoreOp.writes (.runtimeError "unavailable") MemoryStore.handle) (some 1, s)
    s.syntheticActions.keys = ∅ ∧ left.1 = .error (.runtimeError "unavailable") ∧
    left.2.2.receipts.keys = ∅ ∧ left.2.2.syntheticActions.keys = {"run-1"} := by
  decide +kernel

open CloudDemo in
/-- When its action cannot be stored, nothing is. -/
theorem failing_action_leaves_nothing :
    let s := (runCommands Backend.handle 3 missionCalls (.memory {})).2
    let left := (controlPlane.execute 3 missionDraw (identity "s1") "lease-001" missionIntent).run
      (withFault StoreOp.writes (.runtimeError "unavailable") Backend.handle) (some 0, s)
    left.1 = .error (.runtimeError "unavailable") ∧ left.2.2 = s := by
  intro s left
  have hmet : left.2.1 = none := by decide +kernel
  obtain ⟨hanswer, -, hsame, -⟩ := failed_write_leaves_its_action_only s controlPlane 3 missionDraw
    (identity "s1") "lease-001" missionIntent (.runtimeError "unavailable") 0 left.1 left.2.2
    (Prod.ext rfl (Prod.ext hmet rfl))
  exact ⟨hanswer, hsame rfl⟩

end PoiexGoc
