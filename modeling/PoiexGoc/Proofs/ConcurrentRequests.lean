/-
  CONCURRENT demo requests.

  Every request seeds the SAME documents before it executes, so requests that overlap overwrite
  each other's agent and lease, and a revoked request can end in ALLOW
  (`revoked_request_is_allowed`).  What does hold, in every interleaving of any number of requests:

  1. A request that reads no agent, lease or provenance record after another request has overwritten
     it returns what it returns alone.  Its own receipt and action are out of reach of the others,
     whose ids are different, and it cannot tell whose target and evidence it reads
     (`reads_settled`).

  2. A target substitution is rejected as it is alone, whatever the others do: they never take away
     what its rejection needs (`SeedFact`), namely an agent, sound evidence and a target that has
     the name it is stored under.
-/
import PoiexGoc.Proofs.Rejections
import PoiexGoc.Proofs.RevocationRaces
import PoiexGoc.Proofs.SeededReads

namespace PoiexGoc

open Py Effect FirestoreStore

/-- The reads of what requests put differently: agents, leases and provenance records. -/
def StoreOp.IsAuthorityRead : StoreOp → Prop
  | .getAgent _ | .getLease _ | .getAuthorityProvenance _ => True
  | _ => False

instance : DecidablePred StoreOp.IsAuthorityRead
  | .getAgent _ | .getLease _ | .getAuthorityProvenance _ => isTrue trivial
  | .getEvidence _ | .getTarget _ | .getReceipt _ | .hasSyntheticAction _ _ | .putAgent _
  | .putLease _ | .putAuthorityProvenance _ | .putEvidence _ | .putTarget _ | .putReceipt _
  | .executeSyntheticAction _ _ => isFalse id

section Operations

variable [PyRuntime]

/-! ## Receipts and actions are out of reach of other requests -/

/-- A receipt or an action is written under the ids of the draw. -/
theorem RequestOp.own_ids {draw : Draw} {o : StoreOp} (ho : RequestOp draw o)
    (hwritten : (written o).isSome) :
    (o.docName.1 = "receipts" → o.docName.2 = draw.receiptId) ∧
      (o.docName.1 = "synthetic_actions" → o.docName.2 = draw.runId) := by
  rcases ho with hseeding | hexecute | hread
  · rcases hseeding.read_or_put with hread | hput
    · rw [written_of_isRead hread.isRead] at hwritten
      cases hwritten
    · have hkind := hput.docName_mem
      constructor
      · exact fun heq => absurd (heq ▸ hkind) (by decide)
      · exact fun heq => absurd (heq ▸ hkind) (by decide)
  · cases o with
    | putReceipt receipt =>
      refine ⟨fun _ => hexecute.1, fun heq => absurd heq ?_⟩
      show "receipts" ≠ "synthetic_actions"
      decide
    | executeSyntheticAction runId payload =>
      refine ⟨fun heq => absurd heq ?_, fun _ => hexecute⟩
      show "synthetic_actions" ≠ "receipts"
      decide
    | getAgent | getLease | getAuthorityProvenance | getEvidence | getTarget => cases hwritten
    | _ => exact hexecute.elim
  · rw [written_of_isRead hread] at hwritten
    cases hwritten

/-- The receipt stored under the draw's id, if any, is one of the draw's run. -/
def OwnReceipt (fs : FirestoreStore) (draw : Draw) (c : FirestoreClient) : Prop :=
  ∀ receipt, (fs.handle (.getReceipt draw.receiptId) c).1 = .ok (some receipt) →
    receipt.runId = draw.runId

theorem OwnReceipt.keep {fs : FirestoreStore} {draw draw' : Draw} {o : StoreOp}
    (ho : RequestOp draw' o) (hdraw : draw' = draw ∨ draw'.receiptId ≠ draw.receiptId)
    {c : FirestoreClient} (hc : OwnReceipt fs draw c) : OwnReceipt fs draw (fs.handle o c).2 := by
  have hkeep : written o = none ∨ fs.opKey (.getReceipt draw.receiptId) ≠ fs.opKey o →
      OwnReceipt fs draw (fs.handle o c).2 := by
    intro hother receipt hreceipt
    rw [fs.handle_answer_keep hother] at hreceipt
    exact hc receipt hreceipt
  cases o with
  | putReceipt stored =>
    obtain ⟨hid, hrun⟩ : stored.receiptId = draw'.receiptId ∧ stored.runId = draw'.runId := by
      rcases ho with hseeding | hexecute | hread
      · rcases hseeding with hread | hput
        · exact hread.elim
        · exact hput.elim
      · exact hexecute
      · exact hread.elim
    rcases hdraw with rfl | hne
    · -- the draw's own receipt: it was made for the draw's run
      intro receipt hreceipt
      have hself := (firestoreStore_implements fs).view_putReceipt stored c
      have hfound : (fs.view (fs.handle (.putReceipt stored) c).2).receipt stored.receiptId =
          .ok (some receipt) := hid ▸ hreceipt
      rw [hself, StoreView.putReceipt_self] at hfound
      rw [← Option.some.inj (Except.ok.inj hfound)]
      exact hrun
    · refine hkeep (Or.inr fun heq => hne ?_)
      rw [← hid]
      exact (fs.docKey_inj.mp heq).2.symm
  | putAgent | putLease | putAuthorityProvenance | putEvidence | putTarget
  | executeSyntheticAction =>
    refine hkeep (Or.inr (fs.docKey_ne_of_kind ?_ _ _))
    simp only [StoreOp.docName]
    decide
  | _ => exact hkeep (Or.inl rfl)

/-! ## A request alone -/

/-- Alone, a revoked or stale request is never allowed. -/
theorem denied_alone {σ : Type} {h : Handler RuntimeStore PyError σ} {view : σ → StoreView}
    (himp : Implements h view) {request : DemoRun}
    (hcase : request.case = "revoked_authority" ∨ request.case = "policy_epoch_stale")
    (hfuel : 2 ≤ request.fuel) (s : σ) (result : CloudDemo.DemoResult)
    (hresult : (request.program.run h s).1 = .ok result) : result.decision ≠ "ALLOW" := by
  by_cases hvalid : request.case ∈ CloudDemo.allowedCases ∧
      CloudDemo.matchesScenario request.scenarioId = true
  · have htarget : (CloudDemo.defaultProposal request.case request.scenarioId).targetId =
        CloudDemo.targetId := by
      rcases hcase with heq | heq
      · rw [heq]; rfl
      · rw [heq]; rfl
    have hpar : Serializable (.dict (CloudDemo.defaultProposal request.case
        request.scenarioId).parameters) :=
      serializable_dict.mpr (by simp only [CloudDemo.defaultProposal, List.forall_mem_cons,
        serializable_str, List.not_mem_nil, false_implies, implies_true, and_self])
    obtain ⟨result', s', hrun, hverdict⟩ := CloudDemo.runDemoCase_verdict himp hvalid.1 hvalid.2
      request.now request.ids hfuel none hpar s
    have hsame : result' = result := Except.ok.inj ((congrArg Prod.fst hrun).symm.trans hresult)
    have hblock : result.verdict =
        CloudDemo.verdictOf request.case CloudDemo.action CloudDemo.targetId := by
      rw [← hsame, hverdict, ← htarget]
      rfl
    rw [CloudDemo.verdictOf_denied _ hcase] at hblock
    have hdecision : result.decision = "BLOCK" := congrArg CloudDemo.Verdict.decision hblock
    rw [hdecision]
    decide
  · obtain ⟨e, heq⟩ := CloudDemo.runDemoCase_refused hvalid request.fuel request.ids request.now
      none
    have hprogram : request.program = .done (.error e) := heq
    rw [hprogram] at hresult
    cases hresult

/-! ## Any interleaving -/

section Interleavings

variable {ι : Type} [DecidableEq ι] {fs : FirestoreStore} {c : FirestoreClient}
  {requests : ι → DemoRun} {sched : List ι}

/-- The requests on one store, none of them started. -/
def demoRequests (requests : ι → DemoRun) (c : FirestoreClient) :
    Pool RuntimeStore PyError FirestoreClient ι fun _ => CloudDemo.DemoResult :=
  ⟨c, fun i => (requests i).program⟩

/-- The operations a schedule makes, each with its request. -/
def demoEvents (fs : FirestoreStore) (requests : ι → DemoRun) (c : FirestoreClient)
    (sched : List ι) : List (ι × StoreOp) :=
  Pool.events fs.handle sched (demoRequests requests c)

/-- The store and the outcomes after a schedule. -/
def afterRequests (fs : FirestoreStore) (requests : ι → DemoRun) (c : FirestoreClient)
    (sched : List ι) : Pool RuntimeStore PyError FirestoreClient ι fun _ => CloudDemo.DemoResult :=
  Pool.runSchedule fs.handle sched (demoRequests requests c)

/-- The two draws have different ids. -/
structure DistinctDraws (draw draw' : Draw) : Prop where
  receiptHex : draw.receiptHex ≠ draw'.receiptHex
  runHex : draw.runHex ≠ draw'.runHex

theorem requestOp_of_mem_events {i : ι} {o : StoreOp}
    (he : (i, o) ∈ demoEvents fs requests c sched) : RequestOp (requests i).draw o :=
  Pool.issues_of_mem_events (DemoRun.program_issues _) he

/-- Of targets and evidence, requests put the seeded ones only. -/
theorem puts_of_mem_events {target : MaterialTarget} (hall : CloudDemo.SeededByAll target) :
    ∀ e ∈ Pool.events fs.handle sched (demoRequests requests c), CloudDemo.PutsShared target e.2 :=
  fun e he => Pool.issues_of_mem_events (CloudDemo.program_puts hall (requests e.1)) he

/-- No agent, lease or provenance record is read by the request after another request has written it
    and the request has not written it again. -/
def ReadsUndisturbed (fs : FirestoreStore) (i : ι) (events : List (ι × StoreOp)) : Prop :=
  ∀ n < events.length, ∀ e ∈ events[n]?, e.1 = i → e.2.IsAuthorityRead →
    Untouched fs i (events.take n) (fs.opKey e.2)

instance (fs : FirestoreStore) (i : ι) (events : List (ι × StoreOp)) :
    Decidable (ReadsUndisturbed fs i events) :=
  inferInstanceAs (Decidable (∀ n < events.length, ∀ e ∈ events[n]?, e.1 = i →
    e.2.IsAuthorityRead → ∀ j ∈ lastWriter fs (fs.opKey e.2) (events.take n), j = i))

/-- Receipts and actions are read under the ids of the draw. -/
theorem readsOwn_of_mem_events
    (hdistinct : ∀ i j, i ≠ j → DistinctDraws (requests i).draw (requests j).draw)
    (hfresh : ∀ i, c.docs.lookup (fs.docKey "receipts" (requests i).draw.receiptId) = none)
    {i : ι} {o : StoreOp} (he : (i, o) ∈ demoEvents fs requests c sched) :
    ReadsOwn (requests i).draw o := by
  have hstart : OwnReceipt fs (requests i).draw c := by
    intro receipt hreceipt
    have hnone : fs.getDecoded "receipts" (requests i).draw.receiptId receiptFromDoc c =
        .ok none := by
      rw [getDecoded, FirestoreStore.get, hfresh i]
      rfl
    cases hnone.symm.trans hreceipt
  refine Pool.meets_of_mem_events hstart ?_ ?_ (DemoRun.program_meets (requests i)) he
  · rintro ⟨j, o'⟩ he' s hs
    refine hs.keep (requestOp_of_mem_events he') ?_
    by_cases hij : j = i
    · exact Or.inl (by rw [hij])
    · refine Or.inr fun heq => (hdistinct j i hij).receiptHex ?_
      exact (String.append_right_inj "rcpt-").mp heq
  · intro o' s _ hs
    cases o' with
    | getReceipt id =>
      rintro rfl
      exact hs
    | _ => trivial

/-- So what a request reads is untouched, or it cannot tell it from what it has written, when the
    agents, leases and provenance records it reads are untouched. -/
theorem reads_settled {target : MaterialTarget} (hall : CloudDemo.SeededByAll target)
    (hdistinct : ∀ i j, i ≠ j → DistinctDraws (requests i).draw (requests j).draw)
    (hfresh : ∀ i, c.docs.lookup (fs.docKey "receipts" (requests i).draw.receiptId) = none)
    {i : ι} (hreads : ReadsUndisturbed fs i (demoEvents fs requests c sched))
    {past : List (ι × StoreOp)} {o : StoreOp} {rest : List (ι × StoreOp)}
    (heq : demoEvents fs requests c sched = past ++ (i, o) :: rest) (ho : o.IsRead) :
    Untouched fs i past (fs.opKey o) ∨ (Wrote fs i past (fs.opKey o) ∧
      ∀ c c', Shaped (CloudDemo.sharedShape fs target) (fs.opKey o) c →
        Shaped (CloudDemo.sharedShape fs target) (fs.opKey o) c' →
          CloudDemo.AlikeAnswers o (fs.handle o c).1 (fs.handle o c').1) := by
  have hmem : (i, o) ∈ demoEvents fs requests c sched := by
    rw [heq]
    exact List.mem_append_right _ List.mem_cons_self
  have hown := readsOwn_of_mem_events hdistinct hfresh hmem
  have hwriter : ∀ j ∈ lastWriter fs (fs.opKey o) past, ∃ o' : StoreOp, o'.docName = o.docName ∧
      (o'.docName.1 = "receipts" → o'.docName.2 = (requests j).draw.receiptId) ∧
      (o'.docName.1 = "synthetic_actions" → o'.docName.2 = (requests j).draw.runId) := by
    intro j hj
    obtain ⟨o', hpast, hwritten, hkey⟩ := exists_of_lastWriter hj
    have he : (j, o') ∈ demoEvents fs requests c sched := by
      rw [heq]
      exact List.mem_append_left _ hpast
    exact ⟨o', fs.opKey_inj.mp hkey, (requestOp_of_mem_events he).own_ids hwritten⟩
  cases o with
  | getReceipt id =>
    -- receipts and actions have the ids of the draw, which no other request writes
    refine Or.inl fun j hj => ?_
    obtain ⟨o', hname, hreceipt, -⟩ := hwriter j hj
    rw [hname] at hreceipt
    by_contra hne
    refine (hdistinct j i hne).receiptHex ((String.append_right_inj "rcpt-").mp ?_)
    exact (hreceipt rfl).symm.trans hown
  | hasSyntheticAction runId expected =>
    refine Or.inl fun j hj => ?_
    obtain ⟨o', hname, -, haction⟩ := hwriter j hj
    rw [hname] at haction
    by_contra hne
    refine (hdistinct j i hne).runHex ((String.append_right_inj "run-").mp ?_)
    exact (haction rfl).symm.trans hown
  | getEvidence | getTarget =>
    exact CloudDemo.shared_read hall (puts_of_mem_events hall)
      (fun _ hkind => CloudDemo.program_opens hkind (requests i)) heq ho
      (by simp only [StoreOp.docName]; decide)
  | getAgent | getLease | getAuthorityProvenance =>
    -- the read is at the place `past.length` of the events
    have hplace : past.length < (demoEvents fs requests c sched).length := by
      rw [heq, List.length_append, List.length_cons]
      omega
    have hundisturbed := hreads past.length hplace
    rw [heq, List.getElem?_append_right (Nat.le_refl _), Nat.sub_self,
      List.take_left] at hundisturbed
    exact Or.inl (hundisturbed _ rfl rfl trivial)
  | _ => exact ho.elim

/-- A target substitution ends as it does alone, whatever the other requests do. -/
theorem substitution_ends_as_alone {i : ι} (hcase : (requests i).case = "target_substitution") :
    (∀ r, (afterRequests fs requests c sched).outcome i = some r →
      r = ((requests i).program.run fs.handle c).1) ∧
    ((requests i).program.turns fs.handle c ≤ sched.count i →
      (afterRequests fs requests c sched).outcome i =
        some ((requests i).program.run fs.handle c).1) := by
  by_cases hid : CloudDemo.matchesScenario (requests i).scenarioId = true
  · have hsubstitution := substitution_relies (firestoreStore_implements fs) hcase hid c
    obtain ⟨⟨result, hsolo, hrejected, -⟩, hturns⟩ := hsubstitution.run
    have hrelies : ((demoRequests requests c).threads i).Relies fs.handle (seedFacts fs.view)
        (Yields (seedFacts fs.view) (· = (requests i).rejection) []) 10
        (demoRequests requests c).state := hsubstitution
    have hothers : ∀ e ∈ Pool.events fs.handle sched (demoRequests requests c), e.1 ≠ i → ∀ s,
        Keeps (seedFacts fs.view) s (fs.handle e.2 s).2 :=
      fun e he _ s => keeps_op (firestoreStore_implements fs) (requestOp_of_mem_events he) s
    have hends : ∀ r, (afterRequests fs requests c sched).outcome i = some r →
        r = ((requests i).program.run fs.handle c).1 := by
      intro r hr
      obtain ⟨result', rfl, hrejected', -⟩ :=
        Pool.relies_outcome hothers hrelies hr
      rw [hsolo, hrejected, hrejected']
    refine ⟨hends, fun hcount => ?_⟩
    rw [hturns] at hcount
    obtain ⟨r, hr⟩ := Pool.outcome_of_relies hothers hrelies hcount
    exact hr.trans (congrArg some (hends r hr))
  · -- refused before the first call
    obtain ⟨e, heq⟩ := CloudDemo.runDemoCase_refused (fun h => hid h.2) (requests i).fuel
      (requests i).ids (requests i).now none
    have hprogram : (requests i).program = .done (.error e) := heq
    have hdone : (afterRequests fs requests c sched).outcome i = some (.error e) :=
      Pool.outcome_eq_some.mpr (Pool.threads_eq_of_done sched hprogram)
    rw [hdone, hprogram]
    exact ⟨fun r hr => (Option.some.inj hr).symm, fun _ => rfl⟩

theorem request_in_step {target : MaterialTarget} (hall : CloudDemo.SeededByAll target)
    (hdistinct : ∀ i j, i ≠ j → DistinctDraws (requests i).draw (requests j).draw)
    (hfresh : ∀ i, c.docs.lookup (fs.docKey "receipts" (requests i).draw.receiptId) = none)
    {i : ι} (hreads : ReadsUndisturbed fs i (demoEvents fs requests c sched)) :
    Pool.InStep fs.handle
      (AgreeUpTo fs (CloudDemo.sharedShape fs target) i (demoEvents fs requests c sched)) i
      ((requests i).program.run fs.handle c)
      ((requests i).program.turns fs.handle c - sched.count i)
      (afterRequests fs requests c sched) := by
  have halike : ((demoRequests requests c).threads i).Indifferent CloudDemo.AlikeAnswers :=
    CloudDemo.program_indifferent (requests i)
  exact inStep_of_shaped CloudDemo.AlikeAnswers.refl halike
    (fun e he => CloudDemo.keepsShape_of_putsShared fs (puts_of_mem_events hall e he))
    fun _ _ _ heq ho => reads_settled hall hdistinct hfresh hreads heq ho

/-- A request ends as it does alone when the agents, leases and provenance records it reads are
    undisturbed, and a target substitution ends so in any case. -/
theorem demo_requests_end_as_alone
    (hdistinct : ∀ i j, i ≠ j → DistinctDraws (requests i).draw (requests j).draw)
    (hfresh : ∀ i, c.docs.lookup (fs.docKey "receipts" (requests i).draw.receiptId) = none)
    (sched : List ι) {i : ι} (hcalm : ReadsUndisturbed fs i (demoEvents fs requests c sched) ∨
      (requests i).case = "target_substitution") :
    (∀ r, (afterRequests fs requests c sched).outcome i = some r →
      r = ((requests i).program.run fs.handle c).1) ∧
    ((requests i).program.turns fs.handle c ≤ sched.count i →
      (afterRequests fs requests c sched).outcome i =
        some ((requests i).program.run fs.handle c).1) ∧
    ((requests i).case = "revoked_authority" ∨ (requests i).case = "policy_epoch_stale" →
      2 ≤ (requests i).fuel → ∀ result,
        (afterRequests fs requests c sched).outcome i = some (.ok result) →
          result.decision ≠ "ALLOW") := by
  have hends : (∀ r, (afterRequests fs requests c sched).outcome i = some r →
        r = ((requests i).program.run fs.handle c).1) ∧
      ((requests i).program.turns fs.handle c ≤ sched.count i →
        (afterRequests fs requests c sched).outcome i =
          some ((requests i).program.run fs.handle c).1) := by
    rcases hcalm with hreads | hcase
    · obtain ⟨target, hall⟩ := CloudDemo.exists_seededByAll
      have hstep := request_in_step hall hdistinct hfresh hreads
      refine ⟨fun r hr => (hstep.finished hr).1, fun hturns => ?_⟩
      rw [Nat.sub_eq_zero_of_le hturns] at hstep
      exact hstep.outcome_of_turns
    · exact substitution_ends_as_alone hcase
  refine ⟨hends.1, hends.2, fun hcase hfuel result hresult => ?_⟩
  exact denied_alone (firestoreStore_implements fs) hcase hfuel c result (hends.1 _ hresult).symm

end Interleavings

end Operations

/-! ## On the demo store -/

/-- A revoked request and an allowed one. -/
def demoPair : Bool → DemoRun
  | true => ⟨2, ⟨"1", "2", "3"⟩, "revoked_authority", ⟨1787838300000000, 0⟩, "s1"⟩
  | false => ⟨2, ⟨"4", "5", "6"⟩, "allow", ⟨1787838301000000, 0⟩, "s2"⟩

/-- The revoked request has seeded and revoked its lease when the other request seeds the lease
    again; it then executes on the lease of the other. -/
def overlappingSchedule : List Bool :=
  List.replicate 11 true ++ List.replicate 9 false ++ List.replicate 16 true

theorem revoked_request_is_allowed :
    (demoPair true).scenarioId ≠ (demoPair false).scenarioId ∧
    ((demoPair true).program.run demoStore.handle {}).1.map CloudDemo.DemoResult.decision =
      .ok "BLOCK" ∧
    ((afterRequests demoStore demoPair {} overlappingSchedule).outcome true).map
      (fun r => r.map CloudDemo.DemoResult.decision) = some (.ok "ALLOW") := by
  decide +kernel

/-- The other request has seeded when the revoked one starts; from there they alternate. -/
def staggeredSchedule : List Bool :=
  List.replicate 9 false ++ (List.replicate 15 [true, false]).flatten ++ List.replicate 9 true

theorem staggered_request_is_blocked :
    (afterRequests demoStore demoPair {} staggeredSchedule).outcome true =
      some ((demoPair true).program.run demoStore.handle {}).1 ∧
    ∀ result, (afterRequests demoStore demoPair {} staggeredSchedule).outcome true =
      some (.ok result) → result.decision ≠ "ALLOW" := by
  have hdistinct : ∀ i j, i ≠ j → DistinctDraws (demoPair i).draw (demoPair j).draw := by
    rintro (_ | _) (_ | _) hij
    · exact absurd rfl hij
    · exact ⟨by decide, by decide⟩
    · exact ⟨by decide, by decide⟩
    · exact absurd rfl hij
  have hfresh : ∀ i, ({} : FirestoreClient).docs.lookup
      (demoStore.docKey "receipts" (demoPair i).draw.receiptId) = none :=
    fun _ => Finmap.lookup_empty _
  have hcalm : ReadsUndisturbed demoStore true
      (demoEvents demoStore demoPair {} staggeredSchedule) := by decide +kernel
  obtain ⟨-, hends, hdenied⟩ :=
    demo_requests_end_as_alone hdistinct hfresh staggeredSchedule (Or.inl hcalm)
  exact ⟨hends (by decide +kernel), hdenied (Or.inl rfl) (Nat.le_refl 2)⟩

-- The evidence that the revoked request reads is the one the other request has put over its own.
example : ReadsUndisturbed demoStore true (demoEvents demoStore demoPair {}
      ([false, true, true, false] ++ List.replicate 25 true)) ∧
    (afterRequests demoStore demoPair {}
      ([false, true, true, false] ++ List.replicate 25 true)).outcome true =
        some ((demoPair true).program.run demoStore.handle {}).1 := by
  decide +kernel

end PoiexGoc
