/-
  Both stores refine the storage contract.

  * `MemoryStore` answers from its maps, so its view is immediate.
  * `FirestoreStore` answers by decoding documents.  The codecs round trip, and documents of
    different kinds never share a key, so a put changes the answers at one id of one kind only.
    Its `has_synthetic_action` compares two hashes, the recomputed one and the stored one; they
    are equal in every document the adapter has written.

  Reads change neither store, and an operation that raises has changed nothing either
  (`Implements`).  `Backend` is either of the two, for the results that are about every store.
-/
import PoiexGoc.Proofs.DocumentCodecs
import PoiexGoc.Spec.StoreView

namespace PoiexGoc

open Py Effect

/-- Inserting a record into a map updates the answers at its id. -/
theorem lookup_insert_eq_update {V : Type} (m : Dict V) (key : String) (x : V) :
    (fun id => (.ok ((m.insert key x).lookup id) : Except PyError (Option V))) =
      Function.update (fun id => .ok (m.lookup id)) key (.ok (some x)) := by
  funext id
  by_cases hid : id = key
  · subst hid
    rw [Finmap.lookup_insert, Function.update_self]
  · rw [Finmap.lookup_insert_of_ne _ hid, Function.update_of_ne hid]

/-! ## The keys of documents -/

namespace FirestoreStore

theorem docKey_inj (fs : FirestoreStore) {kind kind' docId docId' : String} :
    fs.docKey kind docId = fs.docKey kind' docId' ↔ kind = kind' ∧ docId = docId' := by
  rw [docKey, docKey, Prod.mk.injEq, String.append_right_inj]

theorem docKey_ne_of_kind (fs : FirestoreStore) {kind kind' : String} (hkind : kind ≠ kind')
    (docId docId' : String) : fs.docKey kind docId ≠ fs.docKey kind' docId' :=
  fun h => hkind (fs.docKey_inj.mp h).1

/-- Documents other than the one written are read as before. -/
theorem get_put_of_ne (fs : FirestoreStore) {kind kind' docId docId' : String} (payload : PyDict)
    (c : FirestoreClient) (hne : fs.docKey kind' docId' ≠ fs.docKey kind docId) :
    fs.get kind' docId' (fs.put kind docId payload c).2 = fs.get kind' docId' c := by
  unfold get put
  simp only [Finmap.lookup_insert_of_ne _ hne]

theorem get_put_self (fs : FirestoreStore) (kind docId : String) (payload : PyDict)
    (c : FirestoreClient) :
    fs.get kind docId (fs.put kind docId payload c).2 = .ok (some payload) := by
  unfold get put
  simp only [Finmap.lookup_insert]
  rfl

/-- A put leaves the answers of the other kinds alone. -/
theorem getDecoded_put_of_kind {α : Type} (fs : FirestoreStore) {kind kind' : String}
    (docId docId' : String) (payload : PyDict) (fromDoc : PyValue → Except PyError α)
    (c : FirestoreClient) (hkind : kind' ≠ kind) :
    fs.getDecoded kind' docId' fromDoc (fs.put kind docId payload c).2 =
      fs.getDecoded kind' docId' fromDoc c := by
  rw [getDecoded, get_put_of_ne _ _ _ (fs.docKey_ne_of_kind hkind _ _), getDecoded]

/-- A put updates the answers of its own kind at its id, to what its document decodes to. -/
theorem getDecoded_put_answer {α : Type} (fs : FirestoreStore) (kind docId : String) {payload : PyDict}
    {fromDoc : PyValue → Except PyError α} {r : Except PyError α} (c : FirestoreClient)
    (hdoc : fromDoc (.dict payload) = r) :
    (fun id => fs.getDecoded kind id fromDoc (fs.put kind docId payload c).2) =
      Function.update (fun id => fs.getDecoded kind id fromDoc c) docId (r.map some) := by
  funext id
  by_cases hid : id = docId
  · subst hid
    rw [Function.update_self, getDecoded, get_put_self, ok_bind]
    show (fromDoc (.dict payload)).map some = _
    rw [hdoc]
  · rw [Function.update_of_ne hid, getDecoded, get_put_of_ne, getDecoded]
    exact fun h => hid (fs.docKey_inj.mp h).2

theorem getDecoded_put {α : Type} (fs : FirestoreStore) (kind docId : String) {payload : PyDict}
    {fromDoc : PyValue → Except PyError α} {x : α} (c : FirestoreClient)
    (hdoc : fromDoc (.dict payload) = .ok x) :
    (fun id => fs.getDecoded kind id fromDoc (fs.put kind docId payload c).2) =
      Function.update (fun id => fs.getDecoded kind id fromDoc c) docId (.ok (some x)) :=
  fs.getDecoded_put_answer kind docId c hdoc

end FirestoreStore

variable [PyRuntime]

/-! ## The local store -/

def MemoryStore.view (s : MemoryStore) : StoreView where
  agent agentId := .ok (s.agents.lookup agentId)
  lease leaseId := .ok (s.leases.lookup leaseId)
  provenance provenanceId := .ok (s.authorityProvenance.lookup provenanceId)
  evidence evidenceId := .ok (s.evidence.lookup evidenceId)
  target targetId := .ok (s.targets.lookup targetId)
  receipt receiptId := .ok (s.receipts.lookup receiptId)
  action runId expectedHash := s.hasSyntheticAction runId expectedHash

/-- What `has_synthetic_action` answers once an action has been stored. -/
theorem MemoryStore.hasSyntheticAction_insert (s : MemoryStore) {runId resultHash : String}
    {payload : PyDict} (hhash : canonicalHash (syntheticResult runId payload) = .ok resultHash)
    (n : Nat) :
    (MemoryStore.view { s with
      syntheticActions := s.syntheticActions.insert runId (syntheticResult runId payload)
      syntheticMutationCount := n }).action =
      Function.update s.view.action runId fun expected => .ok (resultHash == expected) := by
  funext id expected
  show MemoryStore.hasSyntheticAction _ id expected = _
  unfold MemoryStore.hasSyntheticAction
  by_cases hid : id = runId
  · subst hid
    rw [Function.update_self, Finmap.lookup_insert]
    show (canonicalHash (syntheticResult id payload)).map _ = _
    rw [hhash]
    rfl
  · rw [Function.update_of_ne hid, Finmap.lookup_insert_of_ne _ hid]
    rfl

theorem memoryStore_refines : Refines MemoryStore.handle MemoryStore.view := by
  intro o s _
  cases o with
  | putAgent agent =>
    exact ⟨rfl, congrArg (fun f => { s.view with agent := f })
      (lookup_insert_eq_update s.agents agent.agentId agent)⟩
  | putLease lease =>
    exact ⟨rfl, congrArg (fun f => { s.view with lease := f })
      (lookup_insert_eq_update s.leases lease.leaseId lease)⟩
  | putAuthorityProvenance record =>
    exact ⟨rfl, congrArg (fun f => { s.view with provenance := f })
      (lookup_insert_eq_update s.authorityProvenance record.provenanceId record)⟩
  | putEvidence evidence =>
    exact ⟨rfl, congrArg (fun f => { s.view with evidence := f })
      (lookup_insert_eq_update s.evidence evidence.evidenceId evidence)⟩
  | putTarget target =>
    exact ⟨rfl, congrArg (fun f => { s.view with target := f })
      (lookup_insert_eq_update s.targets target.targetId target)⟩
  | putReceipt receipt =>
    exact ⟨rfl, congrArg (fun f => { s.view with receipt := f })
      (lookup_insert_eq_update s.receipts receipt.receiptId receipt)⟩
  | executeSyntheticAction runId payload =>
    simp only [MemoryStore.handle, MemoryStore.executeSyntheticAction, StoreView.handle]
    cases hhash : canonicalHash (syntheticResult runId payload) with
    | error e => exact ⟨rfl, rfl⟩
    | ok resultHash =>
      exact ⟨rfl, congrArg (fun f => { s.view with action := f })
        (s.hasSyntheticAction_insert hhash _)⟩
  | getAgent | getLease | getAuthorityProvenance | getEvidence | getTarget | getReceipt
  | hasSyntheticAction => exact ⟨rfl, rfl⟩

theorem memoryStore_implements : Implements MemoryStore.handle MemoryStore.view where
  refines := memoryStore_refines
  readsKeep := by
    intro o s ho
    cases o with
    | getAgent | getLease | getAuthorityProvenance | getEvidence | getTarget | getReceipt
    | hasSyntheticAction => rfl
    | _ => exact ho.elim
  raisesKeep := by
    intro o s e he
    cases o with
    | executeSyntheticAction runId payload =>
      simp only [MemoryStore.handle, MemoryStore.executeSyntheticAction] at he ⊢
      cases hhash : canonicalHash (syntheticResult runId payload) with
      | error e' => rfl
      | ok resultHash => rw [hhash] at he; cases he
    | getAgent | getLease | getAuthorityProvenance | getEvidence | getTarget | getReceipt
    | hasSyntheticAction => rfl
    | _ => cases he

/-! ## The document store -/

namespace FirestoreStore

def view (fs : FirestoreStore) (c : FirestoreClient) : StoreView where
  agent agentId := fs.getDecoded "agents" agentId agentFromDoc c
  lease leaseId := fs.getDecoded "leases" leaseId leaseFromDoc c
  provenance provenanceId :=
    fs.getDecoded "authority_provenance" provenanceId provenanceFromDoc c
  evidence evidenceId := fs.getDecoded "evidence" evidenceId evidenceFromDoc c
  target targetId := fs.getDecoded "targets" targetId targetFromDoc c
  receipt receiptId := fs.getDecoded "receipts" receiptId receiptFromDoc c
  action runId expectedHash := fs.hasSyntheticAction runId expectedHash c

theorem hasSyntheticAction_put_of_kind (fs : FirestoreStore) {kind : String}
    (docId runId expectedHash : String) (payload : PyDict) (c : FirestoreClient)
    (hkind : "synthetic_actions" ≠ kind) :
    fs.hasSyntheticAction runId expectedHash (fs.put kind docId payload c).2 =
      fs.hasSyntheticAction runId expectedHash c := by
  rw [hasSyntheticAction, get_put_of_ne _ _ _ (fs.docKey_ne_of_kind hkind _ _),
    hasSyntheticAction]

/-- In a document the adapter has written, the recomputed hash and the stored hash are the same
    one. -/
theorem hasSyntheticAction_put (fs : FirestoreStore) {runId resultHash : String}
    {payload : PyDict} (c : FirestoreClient)
    (hhash : canonicalHash (syntheticResult runId payload) = .ok resultHash) :
    (fun id expected => fs.hasSyntheticAction id expected
        (fs.put "synthetic_actions" runId (storedAction runId payload resultHash) c).2) =
      Function.update (fs.view c).action runId fun expected => .ok (resultHash == expected) := by
  funext id expected
  by_cases hid : id = runId
  · subst hid
    have hrebuilt : rebuiltResult (storedAction id payload resultHash) =
        syntheticResult id payload := rfl
    have hstored : itemD (storedAction id payload resultHash) "result_hash" .none =
        .str resultHash := rfl
    rw [Function.update_self, hasSyntheticAction, get_put_self, ok_bind]
    simp only [hrebuilt, hhash, hstored, ok_bind]
    show Except.ok (resultHash == expected && expected == resultHash) = _
    rw [Bool.beq_comm (a := expected), Bool.and_self]
  · rw [Function.update_of_ne hid, hasSyntheticAction, get_put_of_ne]
    · rfl
    · exact fun h => hid (fs.docKey_inj.mp h).2

end FirestoreStore

/-- Case by case on the operation: the answers of its own kind change at its id (`hown`), those of
    the other kinds do not. -/
theorem firestoreStore_refines (fs : FirestoreStore) : Refines fs.handle fs.view := by
  intro o c ho
  cases o with
  | putAgent agent =>
    have hown := fs.getDecoded_put "agents" agent.agentId c (agent_roundTrip agent)
    refine ⟨rfl, ?_⟩
    simp (disch := decide) only [FirestoreStore.handle, StoreView.handle, StoreView.putAgent,
      FirestoreStore.view, FirestoreStore.getDecoded_put_of_kind,
      FirestoreStore.hasSyntheticAction_put_of_kind, hown]
  | putLease lease =>
    have hown := fs.getDecoded_put "leases" lease.leaseId c (lease_roundTrip lease)
    refine ⟨rfl, ?_⟩
    simp (disch := decide) only [FirestoreStore.handle, StoreView.handle, StoreView.putLease,
      FirestoreStore.view, FirestoreStore.getDecoded_put_of_kind,
      FirestoreStore.hasSyntheticAction_put_of_kind, hown]
  | putAuthorityProvenance record =>
    have hown := fs.getDecoded_put "authority_provenance" record.provenanceId c
      (provenance_roundTrip record)
    refine ⟨rfl, ?_⟩
    simp (disch := decide) only [FirestoreStore.handle, StoreView.handle, StoreView.putProvenance,
      FirestoreStore.view, FirestoreStore.getDecoded_put_of_kind,
      FirestoreStore.hasSyntheticAction_put_of_kind, hown]
  | putEvidence evidence =>
    have hown := fs.getDecoded_put "evidence" evidence.evidenceId c (evidence_roundTrip evidence)
    refine ⟨rfl, ?_⟩
    simp (disch := decide) only [FirestoreStore.handle, StoreView.handle, StoreView.putEvidence,
      FirestoreStore.view, FirestoreStore.getDecoded_put_of_kind,
      FirestoreStore.hasSyntheticAction_put_of_kind, hown]
  | putTarget target =>
    -- the one operation with a condition: only a self-consistent target decodes
    have hown := fs.getDecoded_put "targets" target.targetId c (target_roundTrip ho)
    refine ⟨rfl, ?_⟩
    simp (disch := decide) only [FirestoreStore.handle, StoreView.handle, StoreView.putTarget,
      FirestoreStore.view, FirestoreStore.getDecoded_put_of_kind,
      FirestoreStore.hasSyntheticAction_put_of_kind, hown]
  | putReceipt receipt =>
    have hown := fs.getDecoded_put "receipts" receipt.receiptId c (receipt_roundTrip receipt)
    refine ⟨rfl, ?_⟩
    simp (disch := decide) only [FirestoreStore.handle, StoreView.handle, StoreView.putReceipt,
      FirestoreStore.view, FirestoreStore.getDecoded_put_of_kind,
      FirestoreStore.hasSyntheticAction_put_of_kind, hown]
  | executeSyntheticAction runId payload =>
    simp only [FirestoreStore.handle, FirestoreStore.executeSyntheticAction, StoreView.handle]
    cases hhash : canonicalHash (syntheticResult runId payload) with
    | error e => exact ⟨rfl, rfl⟩
    | ok resultHash =>
      have hown := fs.hasSyntheticAction_put c hhash
      refine ⟨rfl, ?_⟩
      simp (disch := decide) only [StoreView.putAction, FirestoreStore.view,
        FirestoreStore.getDecoded_put_of_kind] at hown ⊢
      rw [hown]
  | getAgent | getLease | getAuthorityProvenance | getEvidence | getTarget | getReceipt
  | hasSyntheticAction => exact ⟨rfl, rfl⟩

theorem firestoreStore_implements (fs : FirestoreStore) : Implements fs.handle fs.view where
  refines := firestoreStore_refines fs
  readsKeep := by
    intro o c ho
    cases o with
    | getAgent | getLease | getAuthorityProvenance | getEvidence | getTarget | getReceipt
    | hasSyntheticAction => rfl
    | _ => exact ho.elim
  raisesKeep := by
    intro o c e he
    cases o with
    | executeSyntheticAction runId payload =>
      simp only [FirestoreStore.handle, FirestoreStore.executeSyntheticAction] at he ⊢
      cases hhash : canonicalHash (syntheticResult runId payload) with
      | error e' => rfl
      | ok resultHash => rw [hhash] at he; cases he
    | getAgent | getLease | getAuthorityProvenance | getEvidence | getTarget | getReceipt
    | hasSyntheticAction => rfl
    | _ => cases he

/-- A put of any target changes the answer at its id only: to the target, or to the exception its
    document raises. -/
theorem FirestoreStore.view_putTarget (fs : FirestoreStore) (target : MaterialTarget)
    (c : FirestoreClient) :
    ∃ answer, fs.view (fs.handle (.putTarget target) c).2 =
        { fs.view c with
          target := Function.update (fs.view c).target target.targetId answer } ∧
      ∀ found, answer = .ok found → found = some target := by
  have hown := fs.getDecoded_put_answer "targets" target.targetId c (targetFromDoc_targetToDoc target)
  refine ⟨(requireSelfConsistent target).map some, ?_, ?_⟩
  · simp (disch := decide) only [FirestoreStore.handle, FirestoreStore.view,
      FirestoreStore.getDecoded_put_of_kind, FirestoreStore.hasSyntheticAction_put_of_kind, hown]
  · intro found hfound
    cases hself : requireSelfConsistent target with
    | error e =>
      rw [hself] at hfound
      cases hfound
    | ok target' =>
      rw [hself] at hfound
      rw [← Except.ok.inj hfound, (requireSelfConsistent_eq_ok.mp hself).2]

/-- A store of the contract that may refuse to read back a target. -/
structure Backs {σ : Type} (h : Handler RuntimeStore PyError σ) (view : σ → StoreView) : Prop
    extends Implements h view where
  putTarget : ∀ (target : MaterialTarget) (s : σ), ∃ answer,
    view (h (.putTarget target) s).2 =
      { view s with target := Function.update (view s).target target.targetId answer } ∧
    ∀ found, answer = .ok found → found = some target

theorem memoryStore_backs : Backs MemoryStore.handle MemoryStore.view where
  toImplements := memoryStore_implements
  putTarget target s :=
    ⟨.ok (some target), congrArg (fun f => { s.view with target := f })
      (lookup_insert_eq_update s.targets target.targetId target),
      fun _ hfound => (Except.ok.inj hfound).symm⟩

/-- What an operation can do to the view: each put changes the answers at one id, and everything
    else leaves the view alone. -/
inductive Transition (v : StoreView) : StoreOp → StoreView → Prop
  | putAgent (agent : AgentRecord) : Transition v (.putAgent agent) (v.putAgent agent)
  | putLease (lease : AuthorityLease) : Transition v (.putLease lease) (v.putLease lease)
  | putProvenance (record : AuthorityProvenanceRecord) :
    Transition v (.putAuthorityProvenance record) (v.putProvenance record)
  | putEvidence (evidence : EvidenceItem) :
    Transition v (.putEvidence evidence) (v.putEvidence evidence)
  | putTarget (target : MaterialTarget) {answer : Except PyError (Option MaterialTarget)}
    (hanswer : ∀ found, answer = .ok found → found = some target) :
    Transition v (.putTarget target)
      { v with target := Function.update v.target target.targetId answer }
  | putReceipt (receipt : ExecutionReceipt) :
    Transition v (.putReceipt receipt) (v.putReceipt receipt)
  | putAction (runId : String) (payload : PyDict) {resultHash : String}
    (hhash : canonicalHash (syntheticResult runId payload) = .ok resultHash) :
    Transition v (.executeSyntheticAction runId payload) (v.putAction runId resultHash)
  | keep {o : StoreOp} (ho : o.IsRead ∨ ∃ runId payload, o = .executeSyntheticAction runId payload) :
    Transition v o v

/-- Every operation of such a store makes a transition of its view. -/
theorem Backs.transition {σ : Type} {h : Handler RuntimeStore PyError σ} {view : σ → StoreView}
    (hback : Backs h view) (o : StoreOp) (s : σ) : Transition (view s) o (view (h o s).2) := by
  cases o with
  | putTarget target =>
    obtain ⟨answer, hview, hanswer⟩ := hback.putTarget target s
    rw [hview]
    exact .putTarget target hanswer
  | executeSyntheticAction runId payload =>
    rw [(hback.refines (.executeSyntheticAction runId payload) s trivial).2]
    simp only [StoreView.handle]
    cases hhash : canonicalHash (syntheticResult runId payload) with
    | error e => exact .keep (Or.inr ⟨runId, payload, rfl⟩)
    | ok resultHash => exact .putAction runId payload hhash
  | putAgent agent =>
    rw [(hback.refines (.putAgent agent) s trivial).2]
    exact .putAgent agent
  | putLease lease =>
    rw [(hback.refines (.putLease lease) s trivial).2]
    exact .putLease lease
  | putAuthorityProvenance record =>
    rw [(hback.refines (.putAuthorityProvenance record) s trivial).2]
    exact .putProvenance record
  | putEvidence evidence =>
    rw [(hback.refines (.putEvidence evidence) s trivial).2]
    exact .putEvidence evidence
  | putReceipt receipt =>
    rw [(hback.refines (.putReceipt receipt) s trivial).2]
    exact .putReceipt receipt
  | getAgent | getLease | getAuthorityProvenance | getEvidence | getTarget | getReceipt
  | hasSyntheticAction =>
    rw [hback.readsKeep]
    · exact .keep (Or.inl trivial)
    · trivial

/-! ## Either store -/

/-- A store of either kind, with what it holds. -/
inductive Backend where
  | memory (s : MemoryStore)
  | firestore (fs : FirestoreStore) (c : FirestoreClient)

namespace Backend

def handle (o : StoreOp) : Backend → Except PyError o.Result × Backend
  | memory s => ((MemoryStore.handle o s).1, memory (MemoryStore.handle o s).2)
  | firestore fs c => ((fs.handle o c).1, firestore fs (fs.handle o c).2)

def view : Backend → StoreView
  | memory s => s.view
  | firestore fs c => fs.view c

end Backend

theorem backend_implements : Implements Backend.handle Backend.view where
  refines := by
    intro o s ho
    cases s with
    | memory s => exact memoryStore_refines o s ho
    | firestore fs c => exact firestoreStore_refines fs o c ho
  readsKeep := by
    intro o s ho
    cases s with
    | memory s => exact congrArg Backend.memory (memoryStore_implements.readsKeep o s ho)
    | firestore fs c =>
      exact congrArg (Backend.firestore fs) ((firestoreStore_implements fs).readsKeep o c ho)
  raisesKeep := by
    intro o s e he
    cases s with
    | memory s => exact congrArg Backend.memory (memoryStore_implements.raisesKeep o s e he)
    | firestore fs c =>
      exact congrArg (Backend.firestore fs) ((firestoreStore_implements fs).raisesKeep o c e he)

/-- A program runs on a backend as it runs on the store it is made of. -/
theorem backend_run_memory {α : Type} (p : StoreM α) (s : MemoryStore) :
    (p.run Backend.handle (.memory s)).1 = (p.run MemoryStore.handle s).1 ∧
      (p.run Backend.handle (.memory s)).2 = .memory (p.run MemoryStore.handle s).2 := by
  refine Prog.run_simulation (R := fun (b : Backend) (s : MemoryStore) => b = .memory s) ?_
    (Prog.issues_any p) rfl
  rintro o _ s - rfl
  exact ⟨rfl, rfl⟩

theorem backend_run_firestore {α : Type} (fs : FirestoreStore) (p : StoreM α)
    (c : FirestoreClient) :
    (p.run Backend.handle (.firestore fs c)).1 = (p.run fs.handle c).1 ∧
      (p.run Backend.handle (.firestore fs c)).2 = .firestore fs (p.run fs.handle c).2 := by
  refine Prog.run_simulation (R := fun (b : Backend) (c : FirestoreClient) => b = .firestore fs c)
    ?_ (Prog.issues_any p) rfl
  rintro o _ c - rfl
  exact ⟨rfl, rfl⟩

theorem backend_backs : Backs Backend.handle Backend.view where
  toImplements := backend_implements
  putTarget := by
    intro target s
    cases s with
    | memory s => exact memoryStore_backs.putTarget target s
    | firestore fs c => exact fs.view_putTarget target c

end PoiexGoc
