/-
  CONCURRENT executions do not interfere.

  Any number of `execute` calls share one document store, and their reads and writes interleave in
  any order.

  1. `Footprint` — the documents one call can see or touch: the registry, its own receipt and its
     own action.  Its operations stay inside (`footprint_own`), and an operation of another call
     either writes nothing or writes outside (`footprint_other`), because the ids are fresh.

  2. `execute_agrees` — so each call is in step with its solo run from the initial store, and ends
     as it does.

  3. What the solo run leaves in the call's own two documents (`execute_documents`), and that no
     call writes anywhere else (`lookup_elsewhere`), give the final store.
-/
import PoiexGoc.Lib.Interleave
import PoiexGoc.Proofs.AuditLedger
import PoiexGoc.Proofs.DemoMission
import PoiexGoc.Proofs.DocumentFrames

namespace PoiexGoc

open Py Effect FirestoreStore

/-- The arguments and the draw of one `execute` call. -/
structure ExecuteCall where
  cp : ControlPlane
  fuel : Nat
  draw : Draw
  identity : IdentityContext
  leaseId : String
  intent : ActionIntent

/-- The document of the call's receipt. -/
def ExecuteCall.receiptKey (fs : FirestoreStore) (call : ExecuteCall) : String × String :=
  fs.docKey "receipts" call.draw.receiptId

/-- The document of the call's action. -/
def ExecuteCall.actionKey (fs : FirestoreStore) (call : ExecuteCall) : String × String :=
  fs.docKey "synthetic_actions" call.draw.runId

/-- The documents of the registry. -/
def RegistryKey (fs : FirestoreStore) (key : String × String) : Prop :=
  ∃ kind ∈ registryKinds, ∃ id, key = fs.docKey kind id

/-- The documents a call can see or touch. -/
def Footprint (fs : FirestoreStore) (call : ExecuteCall) (key : String × String) : Prop :=
  RegistryKey fs key ∨ key = call.receiptKey fs ∨ key = call.actionKey fs

/-- The calls draw different ids. -/
structure Distinct (call call' : ExecuteCall) : Prop where
  receiptHex : call.draw.receiptHex ≠ call'.draw.receiptHex
  runHex : call.draw.runHex ≠ call'.draw.runHex

theorem registryKey_of_read (fs : FirestoreStore) {o : StoreOp} (ho : o.IsRegistryRead) :
    RegistryKey fs (fs.opKey o) :=
  ⟨o.docName.1, ho.docName_mem, o.docName.2, rfl⟩

/-- Every operation of a call is a read of the registry, or about one of its own two documents. -/
theorem executeOp_cases (fs : FirestoreStore) {call : ExecuteCall} {o : StoreOp}
    (ho : ControlPlane.ExecuteOp call.draw o) :
    o.IsRegistryRead ∨ fs.opKey o = call.receiptKey fs ∨ fs.opKey o = call.actionKey fs := by
  cases o with
  | putReceipt receipt => exact Or.inr (Or.inl (fs.docKey_inj.mpr ⟨rfl, ho.1⟩))
  | executeSyntheticAction runId payload => exact Or.inr (Or.inr (fs.docKey_inj.mpr ⟨rfl, ho⟩))
  | getAgent | getLease | getAuthorityProvenance | getEvidence | getTarget => exact Or.inl trivial
  | _ => exact ho.elim

theorem footprint_own (fs : FirestoreStore) {call : ExecuteCall} {o : StoreOp}
    (ho : ControlPlane.ExecuteOp call.draw o) : Footprint fs call (fs.opKey o) := by
  rcases executeOp_cases fs ho with hread | hreceipt | haction
  · exact Or.inl (registryKey_of_read fs hread)
  · exact Or.inr (Or.inl hreceipt)
  · exact Or.inr (Or.inr haction)

theorem not_registryKey (fs : FirestoreStore) {kind : String} (hkind : kind ∉ registryKinds)
    (id : String) : ¬ RegistryKey fs (fs.docKey kind id) := by
  rintro ⟨kind', hkind', id', heq⟩
  exact ne_of_mem_registryKinds hkind' hkind (fs.docKey_inj.mp heq).1

theorem receiptKey_ne_actionKey (fs : FirestoreStore) (call call' : ExecuteCall) :
    call.receiptKey fs ≠ call'.actionKey fs :=
  fs.docKey_ne_of_kind (by decide) _ _

theorem Distinct.receiptKey_ne (fs : FirestoreStore) {call call' : ExecuteCall}
    (hdistinct : Distinct call call') : call.receiptKey fs ≠ call'.receiptKey fs := by
  intro heq
  have hid : "rcpt-" ++ call.draw.receiptHex = "rcpt-" ++ call'.draw.receiptHex :=
    (fs.docKey_inj.mp heq).2
  exact hdistinct.receiptHex ((String.append_right_inj _).mp hid)

theorem Distinct.actionKey_ne (fs : FirestoreStore) {call call' : ExecuteCall}
    (hdistinct : Distinct call call') : call.actionKey fs ≠ call'.actionKey fs := by
  intro heq
  have hid : "run-" ++ call.draw.runHex = "run-" ++ call'.draw.runHex :=
    (fs.docKey_inj.mp heq).2
  exact hdistinct.runHex ((String.append_right_inj _).mp hid)

section Calls

variable [PyRuntime]

def ExecuteCall.program (call : ExecuteCall) : StoreM ExecutionReceipt :=
  call.cp.execute call.fuel call.draw call.identity call.leaseId call.intent

/-- An operation of one call writes nothing, or outside the footprint of every other call. -/
theorem footprint_other (fs : FirestoreStore) {call call' : ExecuteCall}
    (hdistinct : Distinct call call') {o : StoreOp} (ho : ControlPlane.ExecuteOp call'.draw o) :
    written o = none ∨ ¬ Footprint fs call (fs.opKey o) := by
  rcases executeOp_cases fs ho with hread | hreceipt | haction
  · exact Or.inl (written_of_isRead hread.isRead)
  · right
    rw [hreceipt]
    rintro (hregistry | heq | heq)
    · exact not_registryKey fs (by decide) _ hregistry
    · exact hdistinct.receiptKey_ne fs heq.symm
    · exact receiptKey_ne_actionKey fs call' call heq
  · right
    rw [haction]
    rintro (hregistry | heq | heq)
    · exact not_registryKey fs (by decide) _ hregistry
    · exact receiptKey_ne_actionKey fs call call' heq.symm
    · exact hdistinct.actionKey_ne fs heq.symm

/-! ## The documents of one call -/

/-- What one call leaves in its two documents, from any registry that decodes. -/
theorem execute_documents (fs : FirestoreStore) {c : FirestoreClient} {call : ExecuteCall}
    (hpar : Serializable (.dict call.intent.parameters)) {provenanceIds : Finset String}
    (hdec : ControlPlane.RegistryDecodes (fs.view c) provenanceIds)
    (hfuel : provenanceIds.card < call.fuel) :
    ∃ receipt, (call.program.run fs.handle c).1 = .ok receipt ∧
      (call.program.run fs.handle c).2.docs.lookup (call.receiptKey fs) =
        some (.dict (receiptToDoc receipt)) ∧
      ((receipt.decision = "BLOCK" ∧
          (call.program.run fs.handle c).2.docs.lookup (call.actionKey fs) =
            c.docs.lookup (call.actionKey fs)) ∨
        (receipt.decision = "ALLOW" ∧ ∃ payload resultHash, PayloadMatches payload receipt ∧
          receipt.executorResultHash = some resultHash ∧
          (call.program.run fs.handle c).2.docs.lookup (call.actionKey fs) =
            some (.dict (storedAction call.draw.runId payload resultHash)))) := by
  have hne : call.actionKey fs ≠ call.receiptKey fs := (receiptKey_ne_actionKey fs call call).symm
  rcases ControlPlane.execute_decides (firestoreStore_implements fs) hdec hfuel hpar call.cp
    call.draw call.identity call.leaseId with
      ⟨report, hrun⟩ | ⟨report, target, resultHash, hhash, hrun⟩
  · have hprogram : call.program.run fs.handle c = _ := hrun
    rw [hprogram]
    exact ⟨_, rfl, lookup_write_self _ _ _,
      Or.inl ⟨rfl, fs.lookup_handle_of_ne (o := .putReceipt _) hne c⟩⟩
  · have hprogram : call.program.run fs.handle c = _ := hrun
    have hstored := fs.handle_state (.executeSyntheticAction call.draw.runId
      (ControlPlane.actionPayload call.identity call.intent target)) c
    simp only [written, hhash] at hstored
    rw [hprogram]
    refine ⟨_, rfl, lookup_write_self _ _ _, Or.inr ⟨rfl, _, resultHash,
      payloadMatches_allowReceipt _ _ _ _ _ _ _, rfl, ?_⟩⟩
    refine (fs.lookup_handle_of_ne (o := .putReceipt _) hne _).trans ?_
    rw [hstored]
    exact lookup_write_self _ _ _

/-! ## Any interleaving -/

section Interleavings

variable {ι : Type} [DecidableEq ι] {fs : FirestoreStore} {c : FirestoreClient}
  {calls : ι → ExecuteCall} {sched : List ι}

/-- The calls on one store, none of them started. -/
def executions (calls : ι → ExecuteCall) (c : FirestoreClient) :
    Pool RuntimeStore PyError FirestoreClient ι fun _ => ExecutionReceipt :=
  ⟨c, fun i => (calls i).program⟩

/-- The store and the outcomes after a schedule. -/
def afterSchedule (fs : FirestoreStore) (calls : ι → ExecuteCall) (c : FirestoreClient)
    (sched : List ι) : Pool RuntimeStore PyError FirestoreClient ι fun _ => ExecutionReceipt :=
  Pool.runSchedule fs.handle sched (executions calls c)

theorem executeOp_of_mem_events {i : ι} {o : StoreOp}
    (he : (i, o) ∈ Pool.events fs.handle sched (executions calls c)) :
    ControlPlane.ExecuteOp (calls i).draw o :=
  Pool.issues_of_mem_events (ControlPlane.execute_issues _ _ _ _ _ _) he

/-- Each call is in step with its solo run from the initial store. -/
theorem execute_agrees (hdistinct : ∀ i j, i ≠ j → Distinct (calls i) (calls j)) (i : ι) :
    Pool.InStep fs.handle (AgreeOn (Footprint fs (calls i))) i ((calls i).program.run fs.handle c)
      ((calls i).program.turns fs.handle c - sched.count i) (afterSchedule fs calls c sched) := by
  have hstart : Pool.InStep fs.handle (AgreeOn (Footprint fs (calls i))) i
      (((executions calls c).threads i).run fs.handle c)
      (((executions calls c).threads i).turns fs.handle c) (executions calls c) :=
    Pool.InStep.start (AgreeOn.refl _ c)
  refine Pool.thread_agrees ?_ ?_ hstart
  · intro o s t ho hagree
    exact hagree.own (footprint_own fs (executeOp_of_mem_events ho))
  · rintro ⟨j, o⟩ he hji s t hagree
    exact hagree.other (footprint_other fs (hdistinct i j (Ne.symm hji)) (executeOp_of_mem_events he))

/-- Documents that belong to no call are left alone; the registry is among them. -/
theorem lookup_elsewhere {key : String × String}
    (hkey : ∀ i, key ≠ (calls i).receiptKey fs ∧ key ≠ (calls i).actionKey fs) :
    (afterSchedule fs calls c sched).state.docs.lookup key = c.docs.lookup key := by
  refine Pool.schedule_invariant (I := fun s : FirestoreClient => s.docs.lookup key = c.docs.lookup key) rfl ?_
  rintro ⟨i, o⟩ he s hs
  rcases executeOp_cases fs (executeOp_of_mem_events he) with hread | hreceipt | haction
  · show (fs.handle o s).2.docs.lookup key = _
    rw [handle_state, written_of_isRead hread.isRead]
    exact hs
  · have hne : key ≠ fs.opKey o := by
      rw [hreceipt]
      exact (hkey i).1
    exact (fs.lookup_handle_of_ne hne s).trans hs
  · have hne : key ≠ fs.opKey o := by
      rw [haction]
      exact (hkey i).2
    exact (fs.lookup_handle_of_ne hne s).trans hs

/-- Where a call is finished, the store holds in the call's documents what its solo run leaves. -/
theorem lookup_of_finished (hdistinct : ∀ i j, i ≠ j → Distinct (calls i) (calls j)) {i : ι}
    {r : Except PyError ExecutionReceipt}
    (hdone : (afterSchedule fs calls c sched).outcome i = some r) {key : String × String}
    (hkey : Footprint fs (calls i) key) :
    (afterSchedule fs calls c sched).state.docs.lookup key =
      ((calls i).program.run fs.handle c).2.docs.lookup key :=
  ((execute_agrees hdistinct i).finished hdone).2 key hkey

/-- Two complete schedules leave the same store. -/
theorem state_eq_of_finished (hdistinct : ∀ i j, i ≠ j → Distinct (calls i) (calls j))
    {sched' : List ι} (hdone : ∀ i, (afterSchedule fs calls c sched).outcome i ≠ none)
    (hdone' : ∀ i, (afterSchedule fs calls c sched').outcome i ≠ none) :
    (afterSchedule fs calls c sched).state = (afterSchedule fs calls c sched').state := by
  have hdocs : (afterSchedule fs calls c sched).state.docs =
      (afterSchedule fs calls c sched').state.docs := by
    apply Finmap.ext_lookup
    intro key
    -- a document of some call is what its solo run leaves, any other is as it was
    by_cases howned : ∃ i, key = (calls i).receiptKey fs ∨ key = (calls i).actionKey fs
    · obtain ⟨i, hkey⟩ := howned
      obtain ⟨r, hr⟩ := Option.ne_none_iff_exists'.mp (hdone i)
      obtain ⟨r', hr'⟩ := Option.ne_none_iff_exists'.mp (hdone' i)
      rw [lookup_of_finished hdistinct hr (Or.inr hkey),
        lookup_of_finished hdistinct hr' (Or.inr hkey)]
    · have hkey : ∀ i, key ≠ (calls i).receiptKey fs ∧ key ≠ (calls i).actionKey fs :=
        fun i => not_or.mp fun h => howned ⟨i, h⟩
      rw [lookup_elsewhere hkey, lookup_elsewhere hkey]
  exact congrArg FirestoreClient.mk hdocs

/-- Concurrent executions do not interfere.  Over any store whose registry decodes, in any
    interleaving of any number of calls with fresh ids: a call returns what it returns when it is
    run alone, as soon as it has had the turns of its solo run; the registry is unchanged; and once
    every call is finished, the store is the initial one plus one receipt for each call and one
    action for each ALLOW, whatever the order was. -/
theorem concurrent_executions_do_not_interfere
    (hpar : ∀ i, Serializable (.dict (calls i).intent.parameters))
    {provenanceIds : Finset String}
    (hdec : ControlPlane.RegistryDecodes (fs.view c) provenanceIds)
    (hfuel : ∀ i, provenanceIds.card < (calls i).fuel)
    (hdistinct : ∀ i j, i ≠ j → Distinct (calls i) (calls j))
    (hfresh : ∀ i, c.docs.lookup ((calls i).receiptKey fs) = none ∧
      c.docs.lookup ((calls i).actionKey fs) = none) (sched : List ι) :
    (∀ i, ∃ receipt, ((calls i).program.run fs.handle c).1 = .ok receipt ∧
      ((calls i).program.turns fs.handle c ≤ sched.count i →
        (afterSchedule fs calls c sched).outcome i = some (.ok receipt)) ∧
      ∀ r, (afterSchedule fs calls c sched).outcome i = some r → r = .ok receipt) ∧
    (∀ kind ∈ registryKinds, ∀ id,
      (afterSchedule fs calls c sched).state.docs.lookup (fs.docKey kind id) =
        c.docs.lookup (fs.docKey kind id)) ∧
    ((∀ i, (afterSchedule fs calls c sched).outcome i ≠ none) →
      (∀ i, ∃ receipt, (afterSchedule fs calls c sched).outcome i = some (.ok receipt) ∧
        (afterSchedule fs calls c sched).state.docs.lookup ((calls i).receiptKey fs) =
          some (.dict (receiptToDoc receipt)) ∧
        ((receipt.decision = "BLOCK" ∧
            (afterSchedule fs calls c sched).state.docs.lookup ((calls i).actionKey fs) = none) ∨
          (receipt.decision = "ALLOW" ∧ ∃ payload resultHash, PayloadMatches payload receipt ∧
            receipt.executorResultHash = some resultHash ∧
            (afterSchedule fs calls c sched).state.docs.lookup ((calls i).actionKey fs) =
              some (.dict (storedAction (calls i).draw.runId payload resultHash))))) ∧
      (∀ key, (∀ i, key ≠ (calls i).receiptKey fs ∧ key ≠ (calls i).actionKey fs) →
        (afterSchedule fs calls c sched).state.docs.lookup key = c.docs.lookup key) ∧
      ∀ sched', (∀ i, (afterSchedule fs calls c sched').outcome i ≠ none) →
        (afterSchedule fs calls c sched').state = (afterSchedule fs calls c sched).state) := by
  have hsolo := fun i => execute_documents fs (hpar i) hdec (hfuel i)
  have hresult : ∀ i receipt, ((calls i).program.run fs.handle c).1 = .ok receipt →
      ∀ r, (afterSchedule fs calls c sched).outcome i = some r → r = .ok receipt :=
    fun i receipt hreceipt r hr => ((execute_agrees hdistinct i).finished hr).1.trans hreceipt
  refine ⟨fun i => ?_, fun kind hkind id => ?_, fun hdone => ⟨fun i => ?_, fun key hkey => ?_,
    fun sched' hdone' => ?_⟩⟩
  · -- the result of a call is the one of its solo run
    obtain ⟨receipt, hreceipt, -⟩ := hsolo i
    refine ⟨receipt, hreceipt, fun hturns => ?_, hresult i receipt hreceipt⟩
    have hagrees := @execute_agrees _ ι _ fs c calls sched hdistinct i
    rw [Nat.sub_eq_zero_of_le hturns] at hagrees
    rw [hagrees.outcome_of_turns, hreceipt]
  · -- the registry is elsewhere: receipts and actions are other collections
    refine lookup_elsewhere fun i => ⟨?_, ?_⟩
    · exact fs.docKey_ne_of_kind (ne_of_mem_registryKinds hkind (by decide)).symm _ _
    · exact fs.docKey_ne_of_kind (ne_of_mem_registryKinds hkind (by decide)).symm _ _
  · -- its two documents are in its footprint, and so are the ones the solo run leaves
    obtain ⟨receipt, hreceipt, hdoc, haction⟩ := hsolo i
    obtain ⟨r, hr⟩ := Option.ne_none_iff_exists'.mp (hdone i)
    have hok := hresult i receipt hreceipt r hr
    refine ⟨receipt, hok ▸ hr, ?_, ?_⟩
    · rw [lookup_of_finished hdistinct hr (Or.inr (Or.inl rfl)), hdoc]
    · rw [lookup_of_finished hdistinct hr (Or.inr (Or.inr rfl))]
      rcases haction with ⟨hblock, hsame⟩ | hallow
      · exact Or.inl ⟨hblock, hsame.trans (hfresh i).2⟩
      · exact Or.inr hallow
  · exact lookup_elsewhere hkey
  · exact state_eq_of_finished hdistinct hdone' hdone

end Interleavings

end Calls

/-! ## On the seeded demo store -/

def demoStore : FirestoreStore := ⟨"poiex_goc_v0_1", by decide⟩

/-- The seeded store, and an execution that is allowed on it when it runs alone. -/
def seededClient : FirestoreClient :=
  ((CloudDemo.bootstrapSyntheticMission ⟨1787838300000000, 0⟩ "s1").run demoStore.handle {}).2

def seededCall : ExecuteCall where
  cp := CloudDemo.controlPlane
  fuel := 2
  draw := ⟨⟨1787838300000000, 0⟩, ⟨1787838300000000, 0⟩, "1", "2", "3"⟩
  identity := CloudDemo.identity "s1"
  leaseId := "lease-001"
  intent :=
    { intentId := "intent-s1", agentId := "agent-maint-01"
      actionType := "issue_synthetic_work_order", targetId := "pump-A"
      targetHash := "4cfbd96418f23a1a2237794cb05f31e0d162e8abad0cf2b9f10e2db7830c176f"
      parameters := [("work_order", .str "WO-1")], requestedAt := ⟨1787838300000000, 0⟩
      intentHash := "" }

/-- Two calls of the seeded agent, one of them on a lease that is not there. -/
def seededPair : Bool → ExecuteCall
  | true => { seededCall with fuel := 3 }
  | false => { seededCall with
      fuel := 3, draw := ⟨seededCall.draw.now, seededCall.draw.now, "4", "5", "6"⟩
      leaseId := "lease-002" }

/-- Turn by turn, to the end of both. -/
def lockstep : List Bool := (List.replicate 8 [true, false]).flatten

/-- In lockstep the one is allowed, with its receipt and its action, and the other blocked, with its
    receipt only. -/
theorem two_executions_do_not_interfere :
    (∃ receipt payload resultHash,
      (afterSchedule demoStore seededPair seededClient lockstep).outcome true = some (.ok receipt) ∧
      receipt.decision = "ALLOW" ∧
      (afterSchedule demoStore seededPair seededClient lockstep).state.docs.lookup
        ((seededPair true).receiptKey demoStore) = some (.dict (receiptToDoc receipt)) ∧
      (afterSchedule demoStore seededPair seededClient lockstep).state.docs.lookup
        ((seededPair true).actionKey demoStore) =
          some (.dict (storedAction (seededPair true).draw.runId payload resultHash))) ∧
    ∃ receipt,
      (afterSchedule demoStore seededPair seededClient lockstep).outcome false =
        some (.ok receipt) ∧
      receipt.decision = "BLOCK" ∧
      (afterSchedule demoStore seededPair seededClient lockstep).state.docs.lookup
        ((seededPair false).receiptKey demoStore) = some (.dict (receiptToDoc receipt)) ∧
      (afterSchedule demoStore seededPair seededClient lockstep).state.docs.lookup
        ((seededPair false).actionKey demoStore) = none := by
  have hdec : ControlPlane.RegistryDecodes (demoStore.view seededClient)
      {"prov-root", "prov-child"} := by
    have hempty : ControlPlane.RegistryDecodes (demoStore.view {}) {"prov-root", "prov-child"} :=
      { ControlPlane.registryDecodes_empty with bounded := nofun }
    exact CloudDemo.bootstrap_decodes (firestoreStore_implements demoStore) hempty (fun _ h => h) _
      (by decide)
  have hpar : ∀ i, Serializable (.dict (seededPair i).intent.parameters) := by
    have hseeded : Serializable (.dict seededCall.intent.parameters) :=
      serializable_dict.mpr (by simp only [seededCall, List.forall_mem_cons, serializable_str,
        List.not_mem_nil, false_implies, implies_true, and_self])
    rintro (_ | _)
    · exact hseeded
    · exact hseeded
  have hfuel : ∀ i, ({"prov-root", "prov-child"} : Finset String).card < (seededPair i).fuel := by
    decide
  have hdistinct : ∀ i j, i ≠ j → Distinct (seededPair i) (seededPair j) := by
    rintro (_ | _) (_ | _) hij
    · exact absurd rfl hij
    · exact ⟨by decide, by decide⟩
    · exact ⟨by decide, by decide⟩
    · exact absurd rfl hij
  have hfresh : ∀ i, seededClient.docs.lookup ((seededPair i).receiptKey demoStore) = none ∧
      seededClient.docs.lookup ((seededPair i).actionKey demoStore) = none := by
    rintro (_ | _)
    · exact ⟨by decide +kernel, by decide +kernel⟩
    · exact ⟨by decide +kernel, by decide +kernel⟩
  have hdecisions : ∀ i, ((afterSchedule demoStore seededPair seededClient lockstep).outcome i).map
      (fun r => r.map ExecutionReceipt.decision) = some (.ok (if i then "ALLOW" else "BLOCK")) := by
    decide +kernel
  have hdone : ∀ i,
      (afterSchedule demoStore seededPair seededClient lockstep).outcome i ≠ none := by
    intro i hnone
    have hdecision := hdecisions i
    rw [hnone] at hdecision
    cases hdecision
  obtain ⟨hdocs, -, -⟩ := (concurrent_executions_do_not_interfere hpar hdec hfuel hdistinct hfresh
    lockstep).2.2 hdone
  have hdecision : ∀ i receipt,
      (afterSchedule demoStore seededPair seededClient lockstep).outcome i = some (.ok receipt) →
        receipt.decision = if i then "ALLOW" else "BLOCK" := by
    intro i receipt hreceipt
    have hdecision := hdecisions i
    rw [hreceipt] at hdecision
    exact Except.ok.inj (Option.some.inj hdecision)
  constructor
  · obtain ⟨receipt, hreceipt, hdoc, hcase⟩ := hdocs true
    rcases hcase with ⟨hblock, -⟩ | ⟨hallow, payload, resultHash, -, -, haction⟩
    · exact absurd (hblock.symm.trans (hdecision true receipt hreceipt)) (by decide)
    · exact ⟨receipt, payload, resultHash, hreceipt, hallow, hdoc, haction⟩
  · obtain ⟨receipt, hreceipt, hdoc, hcase⟩ := hdocs false
    rcases hcase with ⟨hblock, hnone⟩ | ⟨hallow, -⟩
    · exact ⟨receipt, hreceipt, hblock, hdoc, hnone⟩
    · exact absurd (hallow.symm.trans (hdecision false receipt hreceipt)) (by decide)

end PoiexGoc
