/-
  The SERVICE: any number of requests to one database, handled in any interleaving.

  1. The requests of a service keep each other's facts (`keeps_servedFacts`): they overwrite each
     other's agent and lease, but every record stays in its seeded shape, and receipts and actions
     are stored under ids of their own.

  2. So each of them answers as `request_serves` says, and what it has answered stays true
     (`documents_answers_stand`): on the documents, and so on every client library that takes the
     operations of the requests (`service_answers_stand`).
-/
import PoiexGoc.Proofs.LibraryRuns
import PoiexGoc.Proofs.RevocationRaces
import PoiexGoc.Proofs.ServedRequests
import PoiexGoc.Runtime.ControlService

namespace PoiexGoc

open Py Effect

namespace CloudDemo

section Keeping

variable [PyRuntime] {σ : Type} {h : Handler RuntimeStore PyError σ} {view : σ → StoreView}
  {target : MaterialTarget}

theorem ServedOp.storable (htarget : target.SelfConsistent) {draw : Draw} {o : StoreOp}
    (ho : ServedOp target draw o) : o.Storable := by
  cases o with
  | putTarget new =>
    rw [ho]
    exact htarget
  | _ => trivial

/-- Requests with different ids keep each other's facts. -/
theorem keeps_servedFacts (himp : Implements h view) (htarget : target.SelfConsistent)
    {draw draw' : Draw} (hreceipt : draw.receiptId ≠ draw'.receiptId)
    (hrun : draw.runId ≠ draw'.runId) {o : StoreOp} (ho : ServedOp target draw' o) (s : σ) :
    Keeps (servedFacts view target draw) s (h o s).2 := by
  rintro k ⟨howned, hk⟩
  refine ⟨howned, ?_⟩
  rw [(himp.refines o s (ho.storable htarget)).2]
  exact ServedFact.holds_handle ho (howned.apart hreceipt hrun) hk

/-- A valid request, whatever other requests run beside it. -/
theorem request_serves (himp : Implements h view) (htargetName : target.targetId = targetId)
    {case scenarioId : String} (hcase : case ∈ allowedCases)
    (hid : matchesScenario scenarioId = true) {fuel : Nat} (hfuel : 2 ≤ fuel) (ids : FreshIds)
    {now : DateTime} {evidence : EvidenceItem} (hseeds : Seeds evidence target)
    (hboot : bootstrapSyntheticMission now scenarioId = seed now scenarioId evidence target)
    (proposal : Option PlannerProposal)
    (hpar : Serializable (.dict (effectiveProposal case scenarioId proposal).parameters)) (s : σ) :
    (runDemoCase fuel ids case now scenarioId proposal).Assures h
      (servedFacts view target (ids.drawAt now)) (ServedOp target (ids.drawAt now))
      (Returns fun result s => Answers target (ids.drawAt now) case scenarioId now
        (effectiveProposal case scenarioId proposal) result (view s)) 26 s := by
  rw [runDemoCase_of_seed hcase hid hboot]
  refine Prog.assures_bind (prepare_serves himp hseeds now scenarioId case s) ?_
  rintro _ s₁ ⟨rfl, hs₁⟩
  exact governProposal_serves himp hfuel ids now rfl case scenarioId htargetName hpar hs₁

end Keeping

end CloudDemo

namespace ControlService

/-- One request, with what its endpoint draws. -/
structure Call where
  fuel : Nat
  ids : CloudDemo.FreshIds
  now : DateTime
  request : DemoRequest

/-- The draw of the call's execution. -/
def Call.draw (call : Call) : Draw := call.ids.drawAt call.now

/-- The proposal that is decided: the client's, or the one of the case. -/
def Call.proposal (call : Call) : PlannerProposal :=
  CloudDemo.effectiveProposal call.request.case.value call.request.scenarioId
    (call.request.proposal.map ProposalPayload.plannerProposal)

/-- Parameters from a JSON text, and those of the default proposals, can be serialized. -/
theorem Call.proposal_serializable (call : Call) :
    Serializable (.dict call.proposal.parameters) := by
  unfold Call.proposal CloudDemo.effectiveProposal
  cases call.request.proposal with
  | none =>
    exact serializable_dict.mpr (by simp only [Option.map_none, Option.getD_none,
      CloudDemo.defaultProposal, List.forall_mem_cons, serializable_str, List.not_mem_nil,
      false_implies, implies_true, and_self])
  | some payload => exact payload.parameters_json

section Serving

variable [PyRuntime]

variable {σ : Type}

/-- The requests of one service on one database, none of them started. -/
def serving {ι : Type} (process : Process) (calls : ι → Call) (s : σ) :
    Pool RuntimeStore PyError σ ι fun _ => Response :=
  ⟨s, fun i => runDemo process (calls i).fuel (calls i).ids (calls i).now (calls i).request⟩

/-- The answer is true of the store: its receipt is there as the answer reports it, and replays. -/
structure TrueOf (fs : FirestoreStore) (lib : Library σ) (result : CloudDemo.DemoResult)
    (receipt : ExecutionReceipt) (s : σ) : Prop where
  receiptId : result.receiptId = some receipt.receiptId
  runId : result.runId = some receipt.runId
  traceId : result.traceId = some receipt.traceId
  decision : result.decision = receipt.decision
  reasons : result.reasons = receipt.reasons
  replay : result.replay = "PASS" ∧ result.replayMismatches = some []
  stored : (fs.handleOver lib (.getReceipt receipt.receiptId) s).1 = .ok (some receipt)
  replays : ((ControlPlane.replay receipt.receiptId).run (fs.handleOver lib) s).1 =
    .ok (ControlPlane.manifestOf receipt [])
  acted : result.decision = "ALLOW" → ∃ resultHash,
    receipt.executorResultHash = some resultHash ∧
    (fs.handleOver lib (.hasSyntheticAction receipt.runId resultHash) s).1 = .ok true

/-- A record that is there is found over the library. -/
theorem found_over_library {lib : Library σ} {docs : σ → FirestoreClient} {limits : Library.Limits}
    (hkeeps : lib.Keeps docs limits) {fs : FirestoreStore} {o : StoreOp} {s : σ}
    (ho : ControlPlane.FindsStored (fs.view (docs s)) o) :
    (fs.handleOver lib o s).1 = (StoreView.handle o (fs.view (docs s))).1 := by
  rw [(FirestoreStore.handleOver_agrees hkeeps fs (.of_finds hkeeps ho) s).1]
  exact (firestoreStore_refines fs o (docs s) ho.isRead.storable).1

/-- What an answered request has to show for itself, then and later. -/
theorem trueOf_of_settled {fs : FirestoreStore} {lib : Library σ} {docs : σ → FirestoreClient}
    {limits : Library.Limits} (hkeeps : lib.Keeps docs limits)
    {target : MaterialTarget} {draw : Draw} {case scenarioId : String} {ctx : CloudDemo.DemoContext}
    {proposal : PlannerProposal} {now : DateTime} {receipt : ExecutionReceipt} {s : σ}
    (hsettled : CloudDemo.Settled target draw now receipt (fs.view (docs s))) :
    TrueOf fs lib (CloudDemo.governedResult case scenarioId ctx proposal
      ⟨receipt, ControlPlane.manifestOf receipt []⟩) receipt s where
  receiptId := rfl
  runId := rfl
  traceId := rfl
  decision := rfl
  reasons := rfl
  replay := ⟨rfl, rfl⟩
  stored :=
    (found_over_library hkeeps (o := .getReceipt _) ⟨receipt, hsettled.stored⟩).trans
      hsettled.stored
  replays := by
    have himp := firestoreStore_implements fs
    have hrec := hsettled.stands.reconstructable
    have htaken : ∀ o ∈ (ControlPlane.replay receipt.receiptId).ops fs.handle (docs s),
        fs.Accepted limits o := fun o ho =>
      .of_finds hkeeps (ControlPlane.replay_ops_find himp hsettled.stored hrec o ho)
    rw [(FirestoreStore.run_handleOver hkeeps fs htaken).1,
      himp.run_reads (ControlPlane.replay_issues _),
      ControlPlane.replay_eval_pass hsettled.stored hrec]
    rfl
  acted := by
    intro hallow
    obtain ⟨resultHash, hhash, hacted⟩ := hsettled.acted hallow
    refine ⟨resultHash, (truthy_eq_some.mp hhash).1, ?_⟩
    exact (found_over_library hkeeps (o := .hasSyntheticAction _ _) hacted).trans hacted

/-- The message of a request with an unsafe scenario id. -/
def scenarioMessage : String := "scenario_id must be 1-64 safe identifier characters"

/-- A call is answered in one of two ways, and what its result reports is there. -/
def Answered (target : MaterialTarget) (fs : FirestoreStore) (call : Call)
    (answer : Except PyError Response) (c : FirestoreClient) : Prop :=
  (CloudDemo.matchesScenario call.request.scenarioId = false →
    answer = .ok (.badRequest scenarioMessage)) ∧
  (CloudDemo.matchesScenario call.request.scenarioId = true → ∃ result, answer = .ok (.ok result) ∧
    CloudDemo.Answers target call.draw call.request.case.value call.request.scenarioId call.now
      call.proposal result (fs.view c))

/-- A call by itself, whatever other calls do between its operations. -/
theorem runDemo_serves {process : Process} {db : Database} {fs : FirestoreStore}
    (hstore : process.store = .ok (.firestore (db, fs))) {target : MaterialTarget}
    (htarget : CloudDemo.SeededByAll target) {call : Call} (hfuel : 2 ≤ call.fuel)
    (c : FirestoreClient) :
    (runDemo process call.fuel call.ids call.now call.request).Assures fs.handle
      (CloudDemo.servedFacts fs.view target call.draw) (CloudDemo.ServedOp target call.draw)
      (Answered target fs call) 26 c := by
  unfold runDemo
  rw [hstore]
  by_cases hid : CloudDemo.matchesScenario call.request.scenarioId = true
  · obtain ⟨evidence, hseeds, hboot⟩ := htarget.boots call.now call.request.scenarioId hid
    have hrequest := CloudDemo.request_serves (firestoreStore_implements fs) htarget.targetId
      call.request.case.value_mem hid hfuel call.ids hseeds hboot
      (call.request.proposal.map ProposalPayload.plannerProposal) call.proposal_serializable c
    refine Prog.assures_bind (m := 0) (Prog.assures_attempt hrequest) ?_
    rintro r c₁ ⟨result, rfl, hanswers⟩ c₂ hkeep
    refine ⟨fun hrejected => absurd (hrejected.symm.trans hid) Bool.false_ne_true, fun _ => ?_⟩
    exact ⟨result, rfl, CloudDemo.stable_answers _ _ _ _ _ c₁ c₂ hkeep hanswers⟩
  · -- raised before the first operation
    have hraises : call.request.program call.fuel call.ids call.now =
        .done (.error (.valueError scenarioMessage)) := by
      unfold DemoRequest.program CloudDemo.runDemoCase
      rw [if_neg (not_not_intro call.request.case.value_mem), CloudDemo.validateScenarioId,
        if_neg hid]
      rfl
    simp only [hraises]
    exact fun _ _ => ⟨fun _ => rfl, fun h => absurd h hid⟩

/-- On the documents themselves: each request ends after twenty-six operations of its own, and what
    it has answered is so at every later point. -/
theorem documents_answers_stand {ι : Type} [DecidableEq ι] {process : Process} {db : Database}
    {fs : FirestoreStore} (hstore : process.store = .ok (.firestore (db, fs)))
    {target : MaterialTarget} (htarget : CloudDemo.SeededByAll target) {calls : ι → Call}
    (hfuel : ∀ i, 2 ≤ (calls i).fuel)
    (hreceipt : ∀ i j, i ≠ j → (calls i).ids.receiptHex ≠ (calls j).ids.receiptHex)
    (hrun : ∀ i j, i ≠ j → (calls i).ids.runHex ≠ (calls j).ids.runHex) (c : FirestoreClient)
    (sched more : List ι) (i : ι) :
    (26 ≤ sched.count i → ∃ answer,
      (Pool.runSchedule fs.handle sched (serving process calls c)).outcome i = some answer) ∧
    ∀ answer, (Pool.runSchedule fs.handle sched (serving process calls c)).outcome i =
        some answer →
      Answered target fs (calls i) answer
        (Pool.runSchedule fs.handle (sched ++ more) (serving process calls c)).state := by
  have hkeeps : ∀ i j, i ≠ j → ∀ o s, CloudDemo.ServedOp target (calls j).draw o →
      Keeps (CloudDemo.servedFacts fs.view target (calls i).draw) s (fs.handle o s).2 := by
    intro i j hij o s ho
    refine CloudDemo.keeps_servedFacts (firestoreStore_implements fs) htarget.hashed (fun heq => ?_)
      (fun heq => ?_) ho s
    · exact hreceipt i j hij ((String.append_right_inj "rcpt-").mp heq)
    · exact hrun i j hij ((String.append_right_inj "run-").mp heq)
  have hstart : (serving process calls c).AllAssure fs.handle
      (fun i => CloudDemo.servedFacts fs.view target (calls i).draw)
      (fun i => CloudDemo.ServedOp target (calls i).draw) (fun i => Answered target fs (calls i))
      fun _ => 26 :=
    fun i => runDemo_serves hstore htarget (hfuel i) c
  exact ⟨Pool.ended_of_assures hkeeps hstart, fun _ hdone =>
    Pool.outcome_of_assures hkeeps hstart sched more hdone⟩

/-- Over a library that takes their operations, the requests end as over the documents. -/
theorem serving_over_library {ι : Type} [DecidableEq ι] {process : Process} {fs : FirestoreStore}
    {lib : Library σ} {docs : σ → FirestoreClient} {limits : Library.Limits}
    (hlib : lib.Keeps docs limits) {calls : ι → Call} {s : σ} {sched : List ι}
    (haccepts : ∀ e ∈ Pool.events (fs.handleOver lib) sched (serving process calls s),
      fs.Accepted limits e.2) (i : ι) :
    (Pool.runSchedule (fs.handleOver lib) sched (serving process calls s)).outcome i =
        (Pool.runSchedule fs.handle sched (serving process calls (docs s))).outcome i ∧
      docs (Pool.runSchedule (fs.handleOver lib) sched (serving process calls s)).state =
        (Pool.runSchedule fs.handle sched (serving process calls (docs s))).state := by
  obtain ⟨hthreads, hdocs, -⟩ := FirestoreStore.runSchedule_handleOver hlib fs haccepts
  exact ⟨Pool.outcome_congr hthreads i, hdocs⟩

/-- What the service answers STANDS.  Any number of requests to one database, in any interleaving of
    their store operations and whatever the database held before, on any client library that takes
    their operations: each of them is answered after at most twenty-six operations of its
    own, an unsafe scenario id with a 400 and every other one with a result.  A proposal for another
    target than the trusted one is refused and leaves no receipt.  Any other result names a receipt
    that is stored as the result reports it, with its action if it is an ALLOW, and whose replay
    passes when the request ends and at every later point, whatever the other requests do. -/
theorem service_answers_stand {ι : Type} [DecidableEq ι] {process : Process} {db : Database}
    {fs : FirestoreStore} (hstore : process.store = .ok (.firestore (db, fs)))
    {lib : Library σ} {docs : σ → FirestoreClient} {limits : Library.Limits}
    (hlib : lib.Keeps docs limits) {calls : ι → Call} (hfuel : ∀ i, 2 ≤ (calls i).fuel)
    (hreceipt : ∀ i j, i ≠ j → (calls i).ids.receiptHex ≠ (calls j).ids.receiptHex)
    (hrun : ∀ i j, i ≠ j → (calls i).ids.runHex ≠ (calls j).ids.runHex) (s : σ)
    (sched more : List ι)
    (haccepts : ∀ e ∈ Pool.events (fs.handleOver lib) (sched ++ more) (serving process calls s),
      fs.Accepted limits e.2) (i : ι) :
    (26 ≤ sched.count i → ∃ answer, (Pool.runSchedule (fs.handleOver lib) sched
      (serving process calls s)).outcome i = some answer) ∧
    ∀ answer, (Pool.runSchedule (fs.handleOver lib) sched
        (serving process calls s)).outcome i = some answer →
      (CloudDemo.matchesScenario (calls i).request.scenarioId = false →
        answer = .ok (.badRequest scenarioMessage)) ∧
      (CloudDemo.matchesScenario (calls i).request.scenarioId = true →
        ∃ result, answer = .ok (.ok result) ∧
          (((calls i).proposal.targetId ≠ "pump-A" ∧ result.receiptId = none ∧
              result.decision = "REJECTED_BEFORE_INTENT") ∨
            ((calls i).proposal.targetId = "pump-A" ∧ ∃ receipt, TrueOf fs lib result receipt
              (Pool.runSchedule (fs.handleOver lib) (sched ++ more)
                (serving process calls s)).state))) := by
  obtain ⟨target, hall⟩ := CloudDemo.exists_seededByAll
  -- what is taken to the end is taken up to any point before
  have hbefore : ∀ e ∈ Pool.events (fs.handleOver lib) sched (serving process calls s),
      fs.Accepted limits e.2 := by
    intro e he
    refine haccepts e ?_
    rw [Pool.events_append]
    exact List.mem_append_left _ he
  obtain ⟨houtcome, -⟩ := serving_over_library hlib hbefore i
  obtain ⟨-, hdocs⟩ := serving_over_library hlib haccepts i
  obtain ⟨hends, hanswers⟩ := documents_answers_stand hstore hall hfuel hreceipt
    hrun (docs s) sched more i
  rw [houtcome]
  refine ⟨hends, fun answer hdone => ?_⟩
  obtain ⟨hrejected, hsafe⟩ := hanswers answer hdone
  refine ⟨hrejected, fun hid => ?_⟩
  obtain ⟨result, hanswer, hanswers⟩ := hsafe hid
  refine ⟨result, hanswer, ?_⟩
  cases hanswers with
  | refused htarget hresult =>
    rw [hresult]
    exact Or.inl ⟨htarget, rfl, rfl⟩
  | governed htarget receipt hresult hsettled =>
    rw [hresult]
    rw [← hdocs] at hsettled
    exact Or.inr ⟨htarget, receipt, trueOf_of_settled hlib hsettled⟩

end Serving

/-! ## On Cloud Run -/

/-- A service on Cloud Run, on the namespace of the demo. -/
def cloudRun : Process where
  env
    | "K_SERVICE" => some "poiex-goc-control"
    | "POIEX_GOC_STORE" => some " Firestore"
    | _ => none
  lower s := String.ofList (s.toList.map Char.toLower)
  installed := true

/-- A revoked request and an allowed one. -/
def twoCalls : Bool → Call
  | true => ⟨2, ⟨"1", "2", "3"⟩, ⟨1787838300000000, 0⟩, ⟨.revokedAuthority, "s1", none, by decide⟩⟩
  | false => ⟨2, ⟨"4", "5", "6"⟩, ⟨1787838301000000, 0⟩, ⟨.allow, "s2", none, by decide⟩⟩

/-- The allowed request seeds while the revoked one runs, which is answered all the same. -/
theorem overlapping_answer_stands :
    ∃ result receipt,
      (Pool.runSchedule demoStore.handle
        (List.replicate 11 true ++ List.replicate 9 false ++ List.replicate 16 true)
        (serving cloudRun twoCalls ({} : FirestoreClient))).outcome true =
          some (.ok (.ok result)) ∧
      TrueOf demoStore FirestoreClient.library result receipt (Pool.runSchedule demoStore.handle
        ((List.replicate 11 true ++ List.replicate 9 false ++ List.replicate 16 true) ++
          List.replicate 20 false) (serving cloudRun twoCalls ({} : FirestoreClient))).state := by
  have hstore : cloudRun.store = .ok (.firestore (⟨none, none⟩, demoStore)) := by rfl
  have hfuel : ∀ i, 2 ≤ (twoCalls i).fuel := by
    rintro (_ | _)
    · exact Nat.le_refl 2
    · exact Nat.le_refl 2
  have hreceipt : ∀ i j, i ≠ j → (twoCalls i).ids.receiptHex ≠ (twoCalls j).ids.receiptHex := by
    decide
  have hrun : ∀ i j, i ≠ j → (twoCalls i).ids.runHex ≠ (twoCalls j).ids.runHex := by
    decide
  obtain ⟨hends, hanswers⟩ := service_answers_stand hstore FirestoreClient.library_keeps hfuel
    hreceipt hrun {}
    (List.replicate 11 true ++ List.replicate 9 false ++ List.replicate 16 true)
    (List.replicate 20 false) (fun e _ => demoStore.accepted_unlimited e.2) true
  rw [FirestoreStore.handleOver_library] at hends hanswers
  obtain ⟨answer, hdone⟩ := hends (by decide)
  obtain ⟨result, hanswer, hcase⟩ := (hanswers answer hdone).2 (by decide)
  rcases hcase with ⟨hother, -⟩ | ⟨-, receipt, htrue⟩
  · exact absurd rfl hother
  · rw [hanswer] at hdone
    exact ⟨result, receipt, hdone, htrue⟩

end ControlService

end PoiexGoc
