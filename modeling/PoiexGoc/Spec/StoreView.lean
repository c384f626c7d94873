/-
  What a store ANSWERS: the abstract state behind the storage contract.

  A `StoreView` has one function per kind of record, from ids to what a `get` of that id answers,
  and one for `has_synthetic_action`.  An answer may be an exception: a stored document need not
  decode.  A put changes the answer at one id, and that is all the contract says about storage:
  `StoreView.handle` is the whole abstract store.

  A backend REFINES the contract when every operation answers as on its view and commutes with it
  (`Refines`), and IMPLEMENTS it when moreover reads and raising operations change nothing.
  Programs over the contract then run on the backend as they run on the view (`Refines.run`), so
  what is proved about a program on an arbitrary view holds on every backend.
-/
import PoiexGoc.Runtime.Store

namespace PoiexGoc

open Py Effect

structure StoreView where
  agent : String → Except PyError (Option AgentRecord)
  lease : String → Except PyError (Option AuthorityLease)
  provenance : String → Except PyError (Option AuthorityProvenanceRecord)
  evidence : String → Except PyError (Option EvidenceItem)
  target : String → Except PyError (Option MaterialTarget)
  receipt : String → Except PyError (Option ExecutionReceipt)
  action : String → String → Except PyError Bool

/-- An answer after a put is the put record, under its id, or the answer before. -/
theorem update_eq_cases {α : Type} (f : String → Except PyError (Option α)) (id : String)
    (record : α) (id' : String) :
    (id' = id ∧ Function.update f id (.ok (some record)) id' = .ok (some record)) ∨
      Function.update f id (.ok (some record)) id' = f id' := by
  by_cases heq : id' = id
  · subst heq
    exact Or.inl ⟨rfl, Function.update_self _ _ _⟩
  · exact Or.inr (Function.update_of_ne heq _ _)

namespace StoreView

/-- The store nothing has been put in. -/
def empty : StoreView where
  agent _ := .ok none
  lease _ := .ok none
  provenance _ := .ok none
  evidence _ := .ok none
  target _ := .ok none
  receipt _ := .ok none
  action _ _ := .ok false

def putAgent (v : StoreView) (agent : AgentRecord) : StoreView :=
  { v with agent := Function.update v.agent agent.agentId (.ok (some agent)) }

def putLease (v : StoreView) (lease : AuthorityLease) : StoreView :=
  { v with lease := Function.update v.lease lease.leaseId (.ok (some lease)) }

def putProvenance (v : StoreView) (record : AuthorityProvenanceRecord) : StoreView :=
  { v with provenance := Function.update v.provenance record.provenanceId (.ok (some record)) }

def putEvidence (v : StoreView) (evidence : EvidenceItem) : StoreView :=
  { v with evidence := Function.update v.evidence evidence.evidenceId (.ok (some evidence)) }

def putTarget (v : StoreView) (target : MaterialTarget) : StoreView :=
  { v with target := Function.update v.target target.targetId (.ok (some target)) }

def putReceipt (v : StoreView) (receipt : ExecutionReceipt) : StoreView :=
  { v with receipt := Function.update v.receipt receipt.receiptId (.ok (some receipt)) }

/-- After an action was stored under `runId`, exactly its own hash is confirmed for it. -/
def putAction (v : StoreView) (runId resultHash : String) : StoreView :=
  { v with action := Function.update v.action runId fun expected => .ok (resultHash == expected) }

theorem putAgent_self (v : StoreView) (agent : AgentRecord) :
    (v.putAgent agent).agent agent.agentId = .ok (some agent) :=
  Function.update_self _ _ _

theorem putLease_self (v : StoreView) (lease : AuthorityLease) :
    (v.putLease lease).lease lease.leaseId = .ok (some lease) :=
  Function.update_self _ _ _

theorem putEvidence_self (v : StoreView) (evidence : EvidenceItem) :
    (v.putEvidence evidence).evidence evidence.evidenceId = .ok (some evidence) :=
  Function.update_self _ _ _

theorem putTarget_self (v : StoreView) (target : MaterialTarget) :
    (v.putTarget target).target target.targetId = .ok (some target) :=
  Function.update_self _ _ _

theorem putReceipt_self (v : StoreView) (receipt : ExecutionReceipt) :
    (v.putReceipt receipt).receipt receipt.receiptId = .ok (some receipt) :=
  Function.update_self _ _ _

theorem putAction_confirms (v : StoreView) (runId resultHash : String) :
    (v.putAction runId resultHash).action runId resultHash = .ok true := by
  have haction : (v.putAction runId resultHash).action runId =
      fun expected => .ok (resultHash == expected) := Function.update_self _ _ _
  rw [haction]
  exact congrArg Except.ok (beq_self_eq_true resultHash)

/-- What is found after a put: the put record under its id, or what was found before. -/
theorem found_after_put {V : Type} {f : String → Except PyError (Option V)} {key id : String}
    {new x : V} (hid : Function.update f key (.ok (some new)) id = .ok (some x)) :
    (id = key ∧ x = new) ∨ f id = .ok (some x) := by
  by_cases heq : id = key
  · rw [heq, Function.update_self] at hid
    exact Or.inl ⟨heq, (Option.some.inj (Except.ok.inj hid)).symm⟩
  · rw [Function.update_of_ne heq] at hid
    exact Or.inr hid

/-- A put leaves a record where there was one. -/
theorem exists_after_put {V : Type} {f : String → Except PyError (Option V)} {id : String}
    (hid : ∃ x, f id = .ok (some x)) (key : String) (new : V) :
    ∃ x, Function.update f key (.ok (some new)) id = .ok (some x) := by
  by_cases heq : id = key
  · rw [heq, Function.update_self]
    exact ⟨new, rfl⟩
  · rw [Function.update_of_ne heq]
    exact hid

section Handler

variable [PyRuntime]

/-- The storage contract. -/
def handle : Handler RuntimeStore PyError StoreView
  | .putAgent agent, v => (.ok (), v.putAgent agent)
  | .getAgent agentId, v => (v.agent agentId, v)
  | .putLease lease, v => (.ok (), v.putLease lease)
  | .getLease leaseId, v => (v.lease leaseId, v)
  | .putAuthorityProvenance record, v => (.ok (), v.putProvenance record)
  | .getAuthorityProvenance provenanceId, v => (v.provenance provenanceId, v)
  | .putEvidence evidence, v => (.ok (), v.putEvidence evidence)
  | .getEvidence evidenceId, v => (v.evidence evidenceId, v)
  | .putTarget target, v => (.ok (), v.putTarget target)
  | .getTarget targetId, v => (v.target targetId, v)
  | .putReceipt receipt, v => (.ok (), v.putReceipt receipt)
  | .getReceipt receiptId, v => (v.receipt receiptId, v)
  | .executeSyntheticAction runId payload, v =>
    match canonicalHash (syntheticResult runId payload) with
    | .error e => (.error e, v)
    | .ok resultHash => (.ok resultHash, v.putAction runId resultHash)
  | .hasSyntheticAction runId expectedHash, v => (v.action runId expectedHash, v)

/-- What the reading operations answer on a view; the writing ones answer nothing of interest. -/
def answers (v : StoreView) (o : StoreOp) : Except PyError o.Result := (handle o v).1

end Handler

end StoreView

/-- The operations that leave every store alone. -/
def StoreOp.IsRead : StoreOp → Prop
  | .getAgent _ | .getLease _ | .getAuthorityProvenance _ | .getEvidence _ | .getTarget _
  | .getReceipt _ | .hasSyntheticAction _ _ => True
  | _ => False

/-- The operations every backend takes: a document store refuses to decode a target whose hash is
    not the hash of its fields, so such a target must not be put. -/
def StoreOp.Storable [PyRuntime] : StoreOp → Prop
  | .putTarget target => target.SelfConsistent
  | _ => True

section Refinement

variable [PyRuntime] {σ α : Type}

/-- Every storable operation answers as on the view, and leaves the view it leaves. -/
def Refines (h : Handler RuntimeStore PyError σ) (view : σ → StoreView) : Prop :=
  ∀ (o : StoreOp) (s : σ), o.Storable →
    (h o s).1 = (StoreView.handle o (view s)).1 ∧ view (h o s).2 = (StoreView.handle o (view s)).2

/-- Programs run on a backend as they run on its view. -/
theorem Refines.run {h : Handler RuntimeStore PyError σ} {view : σ → StoreView}
    (href : Refines h view) {p : StoreM α} (hp : p.Issues StoreOp.Storable) (s : σ) :
    (p.run h s).1 = (p.run StoreView.handle (view s)).1 ∧
      view (p.run h s).2 = (p.run StoreView.handle (view s)).2 := by
  have hstep : ∀ (o : StoreOp) (s : σ) (v : StoreView), o.Storable → view s = v →
      (h o s).1 = (StoreView.handle o v).1 ∧ view (h o s).2 = (StoreView.handle o v).2 := by
    rintro o s v ho rfl
    exact href o s ho
  exact Prog.run_simulation (R := fun s v => view s = v) hstep hp rfl

/-- A backend implements the contract: it refines it, its reads leave the store alone, and so does
    an operation that raises. -/
structure Implements (h : Handler RuntimeStore PyError σ) (view : σ → StoreView) : Prop where
  refines : Refines h view
  readsKeep : ∀ (o : StoreOp) (s : σ), o.IsRead → (h o s).2 = s
  raisesKeep : ∀ (o : StoreOp) (s : σ) (e : PyError), (h o s).1 = .error e → (h o s).2 = s

/-- The contract implements itself. -/
theorem storeView_implements : Implements StoreView.handle id where
  refines _ _ _ := ⟨rfl, rfl⟩
  readsKeep := by
    intro o v ho
    cases o with
    | getAgent | getLease | getAuthorityProvenance | getEvidence | getTarget | getReceipt
    | hasSyntheticAction => rfl
    | _ => exact ho.elim
  raisesKeep := by
    intro o v e he
    cases o with
    | executeSyntheticAction runId payload =>
      simp only [StoreView.handle] at he ⊢
      cases hhash : canonicalHash (syntheticResult runId payload) with
      | error e' => rfl
      | ok resultHash => rw [hhash] at he; cases he
    | getAgent | getLease | getAuthorityProvenance | getEvidence | getTarget | getReceipt
    | hasSyntheticAction => rfl
    | _ => cases he

theorem StoreOp.IsRead.storable {o : StoreOp} (ho : o.IsRead) : o.Storable := by
  cases o with
  | putTarget => exact ho.elim
  | _ => trivial

/-- A program that only reads is the pure function of the view's answers, on every backend. -/
theorem Implements.run_reads {h : Handler RuntimeStore PyError σ} {view : σ → StoreView}
    (himp : Implements h view) {p : StoreM α} (hp : p.Issues StoreOp.IsRead) (s : σ) :
    p.run h s = (p.eval (view s).answers, s) := by
  have hreads : ∀ o : StoreOp, o.IsRead → h o s = ((view s).answers o, s) := by
    intro o ho
    have hans := (himp.refines o s ho.storable).1
    have hstate := himp.readsKeep o s ho
    rw [← Prod.eta (h o s), hans, hstate]
    rfl
  exact Prog.run_of_reads hreads hp

/-- A read answers what the view says and leaves the store alone. -/
theorem Implements.run_read {h : Handler RuntimeStore PyError σ} {view : σ → StoreView}
    (himp : Implements h view) {o : StoreOp} (ho : o.IsRead) (s : σ) :
    (store.call o).run h s = ((view s).answers o, s) :=
  himp.run_reads ((Prog.issues_perform _ o).mpr ho) s

/-- A stored receipt is the answer at its id. -/
theorem Implements.view_putReceipt {h : Handler RuntimeStore PyError σ} {view : σ → StoreView}
    (himp : Implements h view) (receipt : ExecutionReceipt) (s : σ) :
    view (h (.putReceipt receipt) s).2 = (view s).putReceipt receipt :=
  (himp.refines (.putReceipt receipt) s trivial).2

/-- An executed action is confirmed under its hash. -/
theorem Implements.view_executed {h : Handler RuntimeStore PyError σ} {view : σ → StoreView}
    (himp : Implements h view) {runId resultHash : String} {payload : PyDict}
    (hhash : canonicalHash (syntheticResult runId payload) = .ok resultHash) (s : σ) :
    view (h (.executeSyntheticAction runId payload) s).2 =
      (view s).putAction runId resultHash := by
  rw [(himp.refines (.executeSyntheticAction runId payload) s trivial).2]
  simp only [StoreView.handle, hhash]

end Refinement

end PoiexGoc
