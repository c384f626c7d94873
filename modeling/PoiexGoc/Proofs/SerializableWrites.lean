/-
  One registry write among concurrent executions is SERIALIZABLE.

  An `execute` call reads the registry record by record, so a registry that changes while it reads
  may show it two versions.  With one write it cannot: the call looks at each document at most once.

  1. The gates are a sequence of reads of different kinds, and the provenance loop never looks an id
     up twice, since it keeps the ids it has visited (`walk_once`, `execute_once`).

  2. The document store is a store of cells (`firestore_cells`), the footprints of the calls and the
     one put are those of one writer among readers (`oneWriter`), so the library's serializability
     applies.
-/
import Mathlib.Data.Fintype.Option
import PoiexGoc.Lib.Serializability
import PoiexGoc.Proofs.ConcurrentExecutions
import PoiexGoc.Proofs.RevocationRaces

namespace PoiexGoc

open Py Effect FirestoreStore

/-- The operation is about a document of one of the kinds. -/
def StoreOp.OfKinds (kinds : List String) (o : StoreOp) : Prop := o.docName.1 ∈ kinds

/-- The operation is about the document. -/
def StoreOp.About (doc : String × String) (o : StoreOp) : Prop := o.docName = doc

/-- The operation looks up a provenance record that is not among the ids. -/
def StoreOp.LooksUpBeyond (visited : Finset String) (o : StoreOp) : Prop :=
  ∃ id, id ∉ visited ∧ o = .getAuthorityProvenance id

namespace ControlPlane

variable (doc : String × String)

/-- Of two parts about different kinds of documents one is not about the given document. -/
theorem disjoint_kinds {kinds kinds' : List String} (hkinds : ∀ kind ∈ kinds, kind ∉ kinds') :
    (∀ o : StoreOp, o.OfKinds kinds → ¬ o.About doc) ∨
      ∀ o : StoreOp, o.OfKinds kinds' → ¬ o.About doc := by
  by_cases hdoc : doc.1 ∈ kinds
  · refine Or.inr fun o ho heq => hkinds _ hdoc ?_
    rw [← heq]
    exact ho
  · refine Or.inl fun o ho heq => hdoc ?_
    rw [← heq]
    exact ho

/-! ## The provenance loop -/

/-- The loop looks up ids it has not visited only.  Induction on the fuel. -/
theorem walk_unvisited (lease : AuthorityLease) (now : DateTime) (roots : Finset String)
    (fuel : Nat) (st : WalkState) :
    (walk (fun id => store.getAuthorityProvenance id) lease now roots fuel st).Issues
      (StoreOp.LooksUpBeyond st.visited) := by
  induction fuel generalizing st with
  | zero => trivial
  | succ fuel ih =>
    rw [walk]
    by_cases hvis : st.currentId ∈ st.visited
    · rw [if_pos hvis]
      trivial
    · rw [if_neg hvis]
      refine Prog.issues_bind (store.call_issues _ ⟨_, hvis, rfl⟩) fun record => ?_
      cases record with
      | none => trivial
      | some record =>
        cases hparent : record.parentProvenanceId with
        | none =>
          simp only [hparent]
          trivial
        | some parent =>
          simp only [hparent]
          refine (ih _).mono ?_
          rintro o ⟨id, hid, rfl⟩
          exact ⟨id, fun hmem => hid (Finset.mem_insert_of_mem hmem), rfl⟩

/-- So it looks at each document at most once. -/
theorem walk_once (lease : AuthorityLease) (now : DateTime) (roots : Finset String) (fuel : Nat)
    (st : WalkState) :
    (walk (fun id => store.getAuthorityProvenance id) lease now roots fuel st).Once
      (StoreOp.About doc) := by
  induction fuel generalizing st with
  | zero => trivial
  | succ fuel ih =>
    rw [walk]
    by_cases hvis : st.currentId ∈ st.visited
    · rw [if_pos hvis]
      trivial
    · rw [if_neg hvis]
      by_cases hhere : (StoreOp.getAuthorityProvenance st.currentId).About doc
      · -- this document: the rest of the loop has its id among the visited ones
        refine Prog.once_bind_left (@Prog.once_perform RuntimeStore PyError _ _) fun record => ?_
        cases record with
        | none => trivial
        | some record =>
          cases hparent : record.parentProvenanceId with
          | none =>
            simp only [hparent]
            trivial
          | some parent =>
            simp only [hparent]
            refine (walk_unvisited lease now roots fuel _).mono ?_
            rintro o ⟨id, hid, rfl⟩ heq
            have hid' : id = st.currentId := congrArg Prod.snd (heq.trans hhere.symm)
            exact hid (hid' ▸ Finset.mem_insert_self _ _)
      · refine Prog.once_bind_right (store.call_issues _ hhere) fun record => ?_
        cases record with
        | none => trivial
        | some record =>
          cases hparent : record.parentProvenanceId with
          | none =>
            simp only [hparent]
            trivial
          | some parent =>
            simp only [hparent]
            exact ih _

/-! ## The gates -/

theorem readEvidence_kinds (evidenceId : Option String) :
    (readEvidence evidenceId).Issues (StoreOp.OfKinds ["evidence"]) := by
  cases evidenceId with
  | none => trivial
  | some evidenceId => exact store.call_issues _ (List.mem_singleton_self _)

theorem readEvidence_once (evidenceId : Option String) :
    (readEvidence evidenceId).Once (StoreOp.About doc) := by
  cases evidenceId with
  | none => trivial
  | some evidenceId => exact @Prog.once_perform RuntimeStore PyError _ _

theorem readProvenance_kinds (fuel : Nat) (lease : AuthorityLease) (now : DateTime)
    (roots : Finset String) :
    (readProvenance fuel lease now roots).Issues (StoreOp.OfKinds ["authority_provenance"]) := by
  unfold readProvenance verifyAuthorityProvenance
  cases truthy lease.provenanceId with
  | none => trivial
  | some provenanceId =>
    refine Prog.issues_bind ((walk_unvisited lease now roots fuel _).mono ?_) fun _ => trivial
    rintro o ⟨id, -, rfl⟩
    exact List.mem_singleton_self _

theorem readProvenance_once (fuel : Nat) (lease : AuthorityLease) (now : DateTime)
    (roots : Finset String) :
    (readProvenance fuel lease now roots).Once (StoreOp.About doc) := by
  unfold readProvenance verifyAuthorityProvenance
  cases truthy lease.provenanceId with
  | none => trivial
  | some provenanceId =>
    exact Prog.once_bind_left (walk_once doc lease now roots fuel _) fun _ => trivial

section LeaseGates

variable (cp : ControlPlane) (fuel : Nat) (now : DateTime) (identity : IdentityContext)
  (intent : ActionIntent) (agent : AgentRecord)

theorem leaseGates_kinds (lease : Option AuthorityLease) :
    (leaseGates cp fuel now identity intent agent lease).Issues
      (StoreOp.OfKinds ["authority_provenance"]) := by
  cases lease with
  | none => trivial
  | some lease =>
    rw [leaseGates]
    by_cases hprov : cp.requireAuthorityProvenance
    · rw [if_pos hprov]
      exact Prog.issues_bind (readProvenance_kinds fuel lease now _) fun _ => trivial
    · rw [if_neg hprov]
      trivial

theorem leaseGates_once (lease : Option AuthorityLease) :
    (leaseGates cp fuel now identity intent agent lease).Once (StoreOp.About doc) := by
  cases lease with
  | none => trivial
  | some lease =>
    rw [leaseGates]
    by_cases hprov : cp.requireAuthorityProvenance
    · rw [if_pos hprov]
      exact Prog.once_bind_left (readProvenance_once doc fuel lease now _) fun _ => trivial
    · rw [if_neg hprov]
      trivial

/-- Reads of different kinds of documents, each at most once, in a sequence. -/
theorem once_bind_kinds {α β : Type} {p : StoreM α} {f : α → StoreM β} (kinds kinds' : List String)
    (hkinds : ∀ kind ∈ kinds, kind ∉ kinds') (hp : p.Issues (StoreOp.OfKinds kinds))
    (hponce : p.Once (StoreOp.About doc)) (hf : ∀ a, (f a).Issues (StoreOp.OfKinds kinds'))
    (hfonce : ∀ a, (f a).Once (StoreOp.About doc)) : (p >>= f).Once (StoreOp.About doc) :=
  Prog.once_bind_disjoint (disjoint_kinds doc hkinds) hp hponce hf hfonce

theorem call_kinds {o : StoreOp} {kinds : List String} (kind : String) (ho : o.docName.1 = kind)
    (hkind : kind ∈ kinds) : (store.call o).Issues (StoreOp.OfKinds kinds) :=
  store.call_issues o (by rw [StoreOp.OfKinds, ho]; exact hkind)

theorem call_once (o : StoreOp) : (store.call o).Once (StoreOp.About doc) :=
  @Prog.once_perform RuntimeStore PyError (StoreOp.About doc) o

theorem kinds_mono {α : Type} {p : StoreM α} {kinds kinds' : List String} (hsub : kinds ⊆ kinds')
    (hp : p.Issues (StoreOp.OfKinds kinds)) : p.Issues (StoreOp.OfKinds kinds') :=
  hp.mono fun _ ho => hsub ho

/-- The part of the gates behind the evidence. -/
theorem leaseAndTarget_kinds (leaseId : String) {α : Type}
    (f : Option AuthorityLease → List String → Option MaterialTarget → α) :
    (do
      let lease ← store.getLease leaseId
      let authorityReasons ← leaseGates cp fuel now identity intent agent lease
      let target ← store.getTarget intent.targetId
      pure (f lease authorityReasons target) : StoreM α).Issues
        (StoreOp.OfKinds ["leases", "authority_provenance", "targets"]) := by
  refine Prog.issues_bind (call_kinds "leases" rfl (by decide)) fun lease => ?_
  refine Prog.issues_bind (kinds_mono (by decide)
    (leaseGates_kinds cp fuel now identity intent agent lease)) fun reasons => ?_
  exact Prog.issues_bind (call_kinds "targets" rfl (by decide)) fun _ => trivial

theorem leaseAndTarget_once (leaseId : String) {α : Type}
    (f : Option AuthorityLease → List String → Option MaterialTarget → α) :
    (do
      let lease ← store.getLease leaseId
      let authorityReasons ← leaseGates cp fuel now identity intent agent lease
      let target ← store.getTarget intent.targetId
      pure (f lease authorityReasons target) : StoreM α).Once (StoreOp.About doc) := by
  have htarget : ∀ (lease : Option AuthorityLease) (reasons : List String),
      (do
        let target ← store.getTarget intent.targetId
        pure (f lease reasons target) : StoreM α).Issues (StoreOp.OfKinds ["targets"]) :=
    fun _ _ => Prog.issues_bind (call_kinds "targets" rfl (by decide)) fun _ => trivial
  refine once_bind_kinds doc ["leases"] ["authority_provenance", "targets"] (by decide)
    (call_kinds "leases" rfl (by decide)) (call_once doc _) (fun lease => ?_) fun lease => ?_
  · refine Prog.issues_bind (kinds_mono (by decide)
      (leaseGates_kinds cp fuel now identity intent agent lease)) fun reasons => ?_
    exact kinds_mono (by decide) (htarget lease reasons)
  · refine once_bind_kinds doc ["authority_provenance"] ["targets"] (by decide)
      (leaseGates_kinds cp fuel now identity intent agent lease)
      (leaseGates_once doc cp fuel now identity intent agent lease) (htarget lease) fun reasons => ?_
    exact Prog.once_bind_left (call_once doc _) fun _ => trivial

theorem materialGates_kinds (leaseId : String) :
    (materialGates cp fuel now identity leaseId intent agent).Issues
      (StoreOp.OfKinds ["evidence", "leases", "authority_provenance", "targets"]) := by
  unfold materialGates
  refine Prog.issues_bind (kinds_mono (by decide) (readEvidence_kinds _)) fun evidence => ?_
  exact kinds_mono (by decide) (leaseAndTarget_kinds cp fuel now identity intent agent leaseId _)

theorem materialGates_once (leaseId : String) :
    (materialGates cp fuel now identity leaseId intent agent).Once (StoreOp.About doc) := by
  unfold materialGates
  exact once_bind_kinds doc ["evidence"] ["leases", "authority_provenance", "targets"] (by decide)
    (readEvidence_kinds _) (readEvidence_once doc _)
    (fun _ => leaseAndTarget_kinds cp fuel now identity intent agent leaseId _)
    fun _ => leaseAndTarget_once doc cp fuel now identity intent agent leaseId _

end LeaseGates

theorem gates_once (cp : ControlPlane) (fuel : Nat) (now : DateTime) (identity : IdentityContext)
    (leaseId : String) (intent : ActionIntent) :
    (gates cp fuel now identity leaseId intent).Once (StoreOp.About doc) := by
  unfold gates
  refine once_bind_kinds doc ["agents"]
    ["evidence", "leases", "authority_provenance", "targets"] (by decide)
    (call_kinds "agents" rfl (by decide)) (call_once doc _) (fun agent => ?_) fun agent => ?_
  · split
    · exact materialGates_kinds cp fuel now identity intent _ leaseId
    · trivial
  · split
    · exact materialGates_once doc cp fuel now identity intent _ leaseId
    · trivial

theorem settle_kinds (draw : Draw) (identity : IdentityContext) (leaseId : String)
    (intent : ActionIntent) (report : GateReport) :
    (settle draw identity leaseId intent report).Issues
      (StoreOp.OfKinds ["receipts", "synthetic_actions"]) := by
  have hreceipt : ∀ record : ExecutionReceipt,
      (receipt record).Issues (StoreOp.OfKinds ["receipts", "synthetic_actions"]) :=
    fun _ => Prog.issues_bind (call_kinds "receipts" rfl (by decide)) fun _ => trivial
  unfold settle
  split
  · exact Prog.issues_bind (call_kinds "synthetic_actions" rfl (by decide)) fun _ => hreceipt _
  · exact hreceipt _

/-- An execution looks at each registry document at most once. -/
theorem execute_once (hdoc : doc.1 ∈ registryKinds) (cp : ControlPlane) (fuel : Nat)
    (draw : Draw) (identity : IdentityContext) (leaseId : String) (intent : ActionIntent) :
    (execute cp fuel draw identity leaseId intent).Once (StoreOp.About doc) := by
  refine Prog.once_bind_left (gates_once doc cp fuel draw.now identity leaseId intent) fun report => ?_
  refine (settle_kinds draw identity leaseId intent report).mono fun o ho habout => ?_
  rw [← habout] at hdoc
  have hkinds : ∀ kind ∈ registryKinds, kind ∉ ["receipts", "synthetic_actions"] := by decide
  exact hkinds _ hdoc ho

end ControlPlane

/-! ## Documents as cells -/

section Documents

variable [PyRuntime] {ι : Type}

/-- What a key holds. -/
def FirestoreClient.content (c : FirestoreClient) (key : String × String) : Option PyValue :=
  c.docs.lookup key

theorem firestore_cells (fs : FirestoreStore) :
    Cells fs.handle fs.opKey FirestoreClient.content where
  answer o s t hdoc := fs.handle_answer hdoc
  own o s t hdoc := by
    have hagree : AgreeOn (fun key => key = fs.opKey o) s t := by
      rintro key rfl
      exact hdoc
    have hown : AgreeOn (fun key => key = fs.opKey o) (fs.handle o s).2 (fs.handle o t).2 :=
      (hagree.own rfl).2
    exact hown _ rfl
  other o s key hkey := fs.lookup_handle_of_ne hkey s

theorem silent_of_written (fs : FirestoreStore) {o : StoreOp} (ho : written o = none) :
    Silent fs.handle FirestoreClient.content o := by
  intro s
  rw [handle_state, ho]
  rfl

/-! ## One put among executions -/

/-- The put of one client, or the execution of another. -/
def putOr (u : StoreOp) : Option ι → Type
  | none => u.Result
  | some _ => ExecutionReceipt

/-- The executions, and one put by a client of its own, none of them started. -/
def putAmongExecutions (u : StoreOp) (calls : ι → ExecuteCall) (c : FirestoreClient) :
    Pool RuntimeStore PyError FirestoreClient (Option ι) (putOr u) where
  state := c
  threads
    | none => store.call u
    | some i => (calls i).program

/-- What a client can see or touch; the put is on its own. -/
def clientFootprint (fs : FirestoreStore) (calls : ι → ExecuteCall) :
    Option ι → String × String → Prop
  | none => fun _ => False
  | some i => Footprint fs (calls i)

variable {fs : FirestoreStore} {c : FirestoreClient} {calls : ι → ExecuteCall} {u : StoreOp}

theorem oneWriter (hu : u.IsRegistryPut)
    (hdistinct : ∀ i j, i ≠ j → Distinct (calls i) (calls j)) :
    Pool.OneWriter fs.handle fs.opKey FirestoreClient.content none u (clientFootprint fs calls)
      (putAmongExecutions u calls c).threads where
  writer := ⟨.done, rfl, fun r => ⟨r, rfl⟩⟩
  own := by
    rintro (_ | i) hi
    · exact absurd rfl hi
    · exact (ControlPlane.execute_issues _ _ _ _ _ _).mono fun o ho => footprint_own fs ho
  apart := by
    rintro (_ | i) (_ | j) hi hj hij
    · exact absurd rfl hi
    · exact absurd rfl hi
    · exact absurd rfl hj
    · refine (ControlPlane.execute_issues _ _ _ _ _ _).mono fun o ho => ?_
      have hne : i ≠ j := fun heq => hij (congrArg some heq)
      exact (footprint_other fs (hdistinct i j hne) ho).imp_left (silent_of_written fs)
  once := by
    rintro (_ | i) hi
    · exact absurd rfl hi
    · have honce := ControlPlane.execute_once u.docName hu.docName_mem (calls i).cp (calls i).fuel
        (calls i).draw (calls i).identity (calls i).leaseId (calls i).intent
      have hsame : (fun o => fs.opKey o = fs.opKey u) = StoreOp.About u.docName :=
        funext fun o => propext fs.opKey_inj
      rw [hsame]
      exact honce
  reads := by
    rintro (_ | i) hi
    · exact absurd rfl hi
    · refine (ControlPlane.execute_issues _ _ _ _ _ _).mono fun o ho => ?_
      rcases executeOp_cases fs ho with hread | hreceipt | haction
      · exact Or.inl (silent_of_written fs (written_of_isRead hread.isRead))
      · rw [hreceipt]
        exact Or.inr (fs.docKey_ne_of_kind (ne_of_mem_registryKinds hu.docName_mem (by decide)) _ _)
      · rw [haction]
        exact Or.inr (fs.docKey_ne_of_kind (ne_of_mem_registryKinds hu.docName_mem (by decide)) _ _)

omit [PyRuntime] in
theorem content_ext {s t : FirestoreClient} (hst : s.content = t.content) : s = t :=
  congrArg FirestoreClient.mk (Finmap.ext_lookup fun key => congrFun hst key)

/-- One registry write is serializable.  In any interleaving of one registry put with any number of
    executions with fresh ids, over any store: each execution that is finished returned what it
    returns when it runs alone, on the store before the put or on the store after it; and once
    everybody is finished, some serial order of the same clients gives every one of them the same
    result and leaves the same store. -/
theorem registry_write_is_serializable [DecidableEq ι] [Fintype ι] (fs : FirestoreStore)
    (c : FirestoreClient) (hu : u.IsRegistryPut) (hdistinct : ∀ i j, i ≠ j → Distinct (calls i) (calls j))
    (sched : List (Option ι)) :
    (∀ i r, (Pool.runSchedule fs.handle sched (putAmongExecutions u calls c)).outcome (some i) =
        some r →
      r = ((calls i).program.run fs.handle c).1 ∨
      r = ((calls i).program.run fs.handle (fs.handle u c).2).1) ∧
    ((∀ client,
        (Pool.runSchedule fs.handle sched (putAmongExecutions u calls c)).outcome client ≠ none) →
      ∃ (order : List (Option ι)) (turns : Option ι → Nat),
        order.Nodup ∧ (∀ client, client ∈ order) ∧
        Pool.runSchedule fs.handle (Pool.serial turns order) (putAmongExecutions u calls c) =
          Pool.runSchedule fs.handle sched (putAmongExecutions u calls c)) := by
  have hw : Pool.OneWriter fs.handle fs.opKey FirestoreClient.content none u
      (clientFootprint fs calls) (putAmongExecutions u calls c).threads := oneWriter hu hdistinct
  refine ⟨fun i r hr => ?_, fun hdone => ?_⟩
  · exact hw.outcome_before_or_after (firestore_cells fs) (Option.some_ne_none i) hr
  · exact Pool.one_write_is_serializable (firestore_cells fs) (fun _ _ => content_ext) hw hdone

end Documents

/-- Two executions under the seeded lease, and its revocation: the first has read the lease when the
    revocation is stored, the second reads it afterwards. -/
theorem racing_revocation_is_serializable :
    let calls : Bool → ExecuteCall := fun b =>
      { seededCall with
        draw := ⟨⟨1787838300000000, 0⟩, ⟨1787838300000000, 0⟩, cond b "1" "4", cond b "2" "5",
          cond b "3" "6"⟩ }
    let sched : List (Option Bool) := List.replicate 3 (some true) ++ List.replicate 2 (some false) ++
      none :: List.replicate 5 (some false) ++ List.replicate 5 (some true)
    let pool := putAmongExecutions (.putLease revokedLease) calls seededClient
    ∃ (order : List (Option Bool)) (turns : Option Bool → Nat),
      order.Nodup ∧ (∀ client, client ∈ order) ∧
      Pool.runSchedule demoStore.handle (Pool.serial turns order) pool =
        Pool.runSchedule demoStore.handle sched pool := by
  intro calls sched pool
  have hdistinct : ∀ i j, i ≠ j → Distinct (calls i) (calls j) := by
    rintro (_ | _) (_ | _) hij
    · exact absurd rfl hij
    · exact ⟨by decide, by decide⟩
    · exact ⟨by decide, by decide⟩
    · exact absurd rfl hij
  have hdone : ∀ client, (Pool.runSchedule demoStore.handle sched pool).outcome client ≠ none := by
    decide +kernel
  exact (registry_write_is_serializable demoStore seededClient (u := .putLease revokedLease) trivial
    hdistinct sched).2 hdone

end PoiexGoc
