/-
  GOVERNED PROPOSALS are all or nothing.

  1. `executeProposal_refused` — everything that can go wrong with a proposal goes wrong before the
     first write: the trusted target is unknown, the proposal names another one, or the intent has
     no hash (`Refused`).

  2. `executeProposal_governs` — any other proposal returns, over a store whose documents decode:
     the execution decides, and its receipt is legible for the replay that follows.

  3. `Backend.Gained` — what it adds to the store: a receipt, and an action if it was allowed.

  4. `proposal_is_all_or_nothing` — the two together, and what they mean for a demo request.
-/
import PoiexGoc.Proofs.DemoRuns
import PoiexGoc.Proofs.FreshReplays
import PoiexGoc.Proofs.Mediation

namespace PoiexGoc

open Py Effect

/-- Why a proposal is refused. -/
inductive Refused (v : StoreView) (proposal : PlannerProposal) (authorizedTargetId : String) : Prop
  | unknown (htarget : v.target authorizedTargetId = .ok none)
  | substituted {target : MaterialTarget} (htarget : v.target authorizedTargetId = .ok (some target))
    (hother : proposal.targetId ≠ target.targetId)
  | unserializable {target : MaterialTarget}
    (htarget : v.target authorizedTargetId = .ok (some target))
    (hpar : ¬ Serializable (.dict proposal.parameters))

section Proposals

variable [PyRuntime] {σ : Type} {h : Handler RuntimeStore PyError σ} {view : σ → StoreView}

theorem getTarget_run (himp : Implements h view) (targetId : String) (s : σ) :
    (store.getTarget targetId).run h s = ((view s).target targetId, s) :=
  himp.run_read (show StoreOp.IsRead (.getTarget targetId) from trivial) s

/-- With a trusted target at hand, a proposal is bound to it and executed. -/
theorem executeProposal_bound (himp : Implements h view) (cp : ControlPlane) (fuel : Nat)
    (draw : Draw) (identity : IdentityContext) (leaseId : String) (proposal : PlannerProposal)
    {authorizedTargetId : String} (intentId : String) (requestedAt : DateTime)
    {target : MaterialTarget} {s : σ}
    (htarget : (view s).target authorizedTargetId = .ok (some target)) :
    (executeProposal cp fuel draw identity leaseId proposal authorizedTargetId intentId
        requestedAt).run h s =
      (do
        let intent ← store.lift
          (proposalToIntent proposal intentId identity.agentId target requestedAt)
        let receipt ← cp.execute fuel draw identity leaseId intent
        let replay ← ControlPlane.replay receipt.receiptId
        return { receipt, replay } : StoreM GovernedOutcome).run h s := by
  have hget := getTarget_run himp authorizedTargetId s
  rw [htarget] at hget
  exact Prog.run_bind_ok hget _

/-- A refused proposal raises, and nothing was written. -/
theorem executeProposal_refused (himp : Implements h view) (cp : ControlPlane) (fuel : Nat)
    (draw : Draw) (identity : IdentityContext) (leaseId : String) {proposal : PlannerProposal}
    {authorizedTargetId : String} (intentId : String) (requestedAt : DateTime) {s : σ}
    (hrefused : Refused (view s) proposal authorizedTargetId) :
    ∃ e, (executeProposal cp fuel draw identity leaseId proposal authorizedTargetId intentId
      requestedAt).run h s = (.error e, s) := by
  cases hrefused with
  | unknown htarget =>
    have hget := getTarget_run himp authorizedTargetId s
    rw [htarget] at hget
    exact ⟨_, Prog.run_bind_ok hget _⟩
  | substituted htarget hother =>
    rename_i target
    have hintent : proposalToIntent proposal intentId identity.agentId target requestedAt =
        .error (.valueError "planner proposal target does not match trusted target") := if_pos hother
    rw [executeProposal_bound himp cp fuel draw identity leaseId proposal intentId requestedAt
      htarget, hintent]
    exact ⟨_, rfl⟩
  | unserializable htarget hpar =>
    rename_i target
    have hintent : ∃ e, proposalToIntent proposal intentId identity.agentId target requestedAt =
        .error e := by
      rw [proposalToIntent]
      by_cases hother : proposal.targetId ≠ target.targetId
      · rw [if_pos hother]
        exact ⟨_, rfl⟩
      · rw [if_neg hother]
        exact ActionIntent.create_raises hpar _ _ _ _ _ _
    obtain ⟨e, hintent⟩ := hintent
    rw [executeProposal_bound himp cp fuel draw identity leaseId proposal intentId requestedAt
      htarget, hintent]
    exact ⟨e, rfl⟩

/-- What `execute` leaves once it has returned: a BLOCK receipt, or an action and its ALLOW
    receipt, under the ids drawn. -/
inductive Executed (h : Handler RuntimeStore PyError σ) (draw : Draw) (s : σ) :
    ExecutionReceipt → σ → Prop
  | block {receipt : ExecutionReceipt} (hdecision : receipt.decision = "BLOCK")
    (hid : receipt.receiptId = draw.receiptId) (hrun : receipt.runId = draw.runId) :
    Executed h draw s receipt (h (.putReceipt receipt) s).2
  | allow {receipt : ExecutionReceipt} (hdecision : receipt.decision = "ALLOW")
    (hid : receipt.receiptId = draw.receiptId) (hrun : receipt.runId = draw.runId)
    {payload : PyDict} {resultHash : String}
    (hhash : canonicalHash (syntheticResult draw.runId payload) = .ok resultHash) :
    Executed h draw s receipt
      (h (.putReceipt receipt) (h (.executeSyntheticAction draw.runId payload) s).2).2

theorem execute_executed (himp : Implements h view) (cp : ControlPlane) {fuel : Nat} (draw : Draw)
    (identity : IdentityContext) (leaseId : String) (intent : ActionIntent)
    (hpar : Serializable (.dict intent.parameters)) {s : σ} {provenanceIds : Finset String}
    (hdec : ControlPlane.RegistryDecodes (view s) provenanceIds)
    (hfuel : provenanceIds.card < fuel) :
    ∃ receipt s', (cp.execute fuel draw identity leaseId intent).run h s = (.ok receipt, s') ∧
      Executed h draw s receipt s' := by
  rcases ControlPlane.execute_decides himp hdec hfuel hpar cp draw identity leaseId with
    ⟨report, hrun⟩ | ⟨report, target, resultHash, hhash, hrun⟩
  · exact ⟨_, _, hrun, .block rfl rfl rfl⟩
  · exact ⟨_, _, hrun, .allow rfl rfl rfl hhash⟩

/-- Any other proposal is executed and replayed, over a registry that decodes. -/
theorem executeProposal_governs (himp : Implements h view) (cp : ControlPlane) {fuel : Nat}
    (draw : Draw) (identity : IdentityContext) (leaseId : String) {proposal : PlannerProposal}
    {authorizedTargetId : String} (intentId : String) (requestedAt : DateTime) {s : σ}
    {provenanceIds : Finset String}
    (hdec : ControlPlane.RegistryDecodes (view s) provenanceIds) (hfuel : provenanceIds.card < fuel)
    (hgoverned : ¬ Refused (view s) proposal authorizedTargetId) :
    ∃ outcome s', (executeProposal cp fuel draw identity leaseId proposal authorizedTargetId
        intentId requestedAt).run h s = (.ok outcome, s') ∧
      Executed h draw s outcome.receipt s' := by
  obtain ⟨found, htarget⟩ := hdec.target authorizedTargetId
  cases found with
  | none => exact absurd (.unknown htarget) hgoverned
  | some target =>
    have hsame : ¬ proposal.targetId ≠ target.targetId :=
      fun hother => hgoverned (.substituted htarget hother)
    have hpar : Serializable (.dict proposal.parameters) := by
      by_contra hpar
      exact hgoverned (.unserializable htarget hpar)
    obtain ⟨intentHash, hcreate⟩ := ActionIntent.create_isOk hpar intentId identity.agentId
      proposal.actionType target.targetId target.targetHash requestedAt
    have hintent : proposalToIntent proposal intentId identity.agentId target requestedAt =
        .ok ⟨intentId, identity.agentId, proposal.actionType, target.targetId, target.targetHash,
          proposal.parameters, requestedAt, intentHash⟩ := by
      rw [proposalToIntent, if_neg hsame, hcreate]
    obtain ⟨receipt, s', hexecute, hexecuted⟩ := execute_executed himp cp draw identity leaseId
      ⟨intentId, identity.agentId, proposal.actionType, target.targetId, target.targetHash,
        proposal.parameters, requestedAt, intentHash⟩ hpar hdec hfuel
    -- the receipt just stored refers to records that decode, so its replay returns
    have hsettled := settled_of_execute himp hexecute
    have hreplay := ControlPlane.replay_run himp hsettled.stored (hsettled.legible hdec)
    refine ⟨⟨receipt, ControlPlane.manifestOf receipt (ControlPlane.findings (view s') receipt)⟩, s',
      ?_, hexecuted⟩
    rw [executeProposal_bound himp cp fuel draw identity leaseId proposal intentId requestedAt
      htarget, hintent]
    show (cp.execute fuel draw identity leaseId _ >>= _).run h s = _
    rw [Prog.run_bind_ok hexecute, Prog.run_bind_ok hreplay]
    rfl

end Proposals

/-! ## What a governed proposal adds to a store -/

/-- The ids under which a provenance record may be stored. -/
def Backend.provenanceIds : Backend → Finset String
  | .memory s => s.authorityProvenance.keys
  | .firestore _ c => c.docs.keys.image Prod.snd

/-- A receipt under a new id changes the answer at that id. -/
theorem putReceipt_changes {v : StoreView} {receipt : ExecutionReceipt}
    (hnew : v.receipt receipt.receiptId = .ok none) (id : String) :
    (v.putReceipt receipt).receipt id ≠ v.receipt id ↔ id = receipt.receiptId := by
  constructor
  · intro hne
    by_contra hother
    exact hne (Function.update_of_ne hother _ _)
  · rintro rfl heq
    rw [StoreView.putReceipt_self, hnew] at heq
    cases Option.some_ne_none _ (Except.ok.inj heq)

section Gains

variable [PyRuntime]

/-- Every document of the registry decodes. -/
structure Backend.Decodes (s : Backend) : Prop where
  agent : ∀ id, ∃ found, s.view.agent id = .ok found
  lease : ∀ id, ∃ found, s.view.lease id = .ok found
  evidence : ∀ id, ∃ found, s.view.evidence id = .ok found
  target : ∀ id, ∃ found, s.view.target id = .ok found
  provenance : ∀ id, ∃ found, s.view.provenance id = .ok found

theorem Backend.Decodes.registryDecodes {s : Backend} (hdec : s.Decodes) :
    ControlPlane.RegistryDecodes s.view s.provenanceIds where
  agent := hdec.agent
  lease := hdec.lease
  evidence := hdec.evidence
  target := hdec.target
  provenance := hdec.provenance
  bounded := by
    intro id record hrecord
    cases s with
    | memory s => exact (memoryStore_registryDecodes s).bounded id record hrecord
    | firestore fs c =>
      -- a record is found where a document is
      have hrecord' : fs.getDecoded "authority_provenance" id provenanceFromDoc c =
          .ok (some record) := hrecord
      refine Finset.mem_image.mpr ⟨fs.docKey "authority_provenance" id, ?_, rfl⟩
      by_contra hkey
      have hnone : c.docs.lookup (fs.docKey "authority_provenance" id) = none :=
        Finmap.lookup_eq_none.mpr fun hmem => hkey (Finmap.mem_keys.mpr hmem)
      rw [FirestoreStore.getDecoded, FirestoreStore.get, hnone] at hrecord'
      cases Except.ok.inj hrecord'

/-- From `s` to `s'` the store has gained exactly the receipt, and exactly one action if the receipt
    is an ALLOW. -/
structure Backend.Gained (s s' : Backend) (receipt : ExecutionReceipt) : Prop where
  decided : receipt.decision = "ALLOW" ∨ receipt.decision = "BLOCK"
  stored : s'.view.receipt receipt.receiptId = .ok (some receipt)
  receipts : ∀ id, s'.view.receipt id ≠ s.view.receipt id ↔ id = receipt.receiptId
  actions : ∀ runId, s'.actionDoc runId ≠ s.actionDoc runId ↔
    receipt.decision = "ALLOW" ∧ runId = receipt.runId
  written : (receipt.decision = "BLOCK" ∧ s' = (Backend.handle (.putReceipt receipt) s).2) ∨
    receipt.decision = "ALLOW" ∧ ∃ payload, s' = (Backend.handle (.putReceipt receipt)
      (Backend.handle (.executeSyntheticAction receipt.runId payload) s).2).2

theorem gained_of_executed {draw : Draw} {s s' : Backend} {receipt : ExecutionReceipt}
    (hreceipt : s.view.receipt draw.receiptId = .ok none) (haction : s.actionDoc draw.runId = none)
    (hexecuted : Executed Backend.handle draw s receipt s') : s.Gained s' receipt := by
  cases hexecuted with
  | block hdecision hid hrun =>
    have hview := backend_implements.view_putReceipt receipt s
    rw [← hid] at hreceipt
    constructor
    · exact Or.inr hdecision
    · rw [hview]
      exact StoreView.putReceipt_self _ _
    · intro id
      rw [hview]
      exact putReceipt_changes hreceipt id
    · intro runId
      rw [Backend.actionDoc_putReceipt, hdecision]
      constructor
      · exact fun hne => absurd rfl hne
      · rintro ⟨hallow, -⟩
        exact absurd hallow (by decide)
    · exact Or.inl ⟨hdecision, rfl⟩
  | allow hdecision hid hrun hhash =>
    rename_i payload resultHash
    have hview := backend_implements.view_putReceipt receipt
      (Backend.handle (.executeSyntheticAction draw.runId payload) s).2
    rw [backend_implements.view_executed hhash s] at hview
    rw [← hid] at hreceipt
    rw [← hrun] at haction hhash hview ⊢
    constructor
    · exact Or.inl hdecision
    · rw [hview]
      exact StoreView.putReceipt_self _ _
    · intro id
      rw [hview]
      exact putReceipt_changes hreceipt id
    · intro runId
      rw [Backend.actionDoc_putReceipt]
      constructor
      · intro hne
        refine ⟨hdecision, ?_⟩
        by_contra hother
        exact hne (s.actionDoc_executed_of_ne payload hother)
      · rintro ⟨-, rfl⟩ heq
        have hstored := s.actionDoc_executed hhash
        rw [heq, haction] at hstored
        cases hstored
    · exact Or.inr ⟨hdecision, payload, rfl⟩

end Gains

/-! ## A demo request -/

namespace CloudDemo

variable [PyRuntime] {σ : Type} {h : Handler RuntimeStore PyError σ} {view : σ → StoreView}

/-- A request whose proposal raises without a write has written nothing either, whatever it makes of
    the exception. -/
theorem governProposal_keeps {fuel : Nat} {ids : FreshIds} {case scenarioId : String}
    (ctx : DemoContext) {proposal : PlannerProposal} {s : σ} {e : PyError}
    (hraise : (executeProposal ctx.controlPlane fuel (ids.drawAt ctx.now) ctx.identity ctx.leaseId
      proposal ctx.authorizedTargetId ("intent-" ++ scenarioId ++ "-" ++ case) ctx.now).run h s =
        (.error e, s)) :
    ((governProposal fuel ids case scenarioId ctx proposal).run h s).2 = s := by
  unfold governProposal
  show (Prog.run h (Prog.tryCatch (executeProposal _ _ _ _ _ _ _ _ _ >>= _) _) s).2 = s
  rw [Prog.run_tryCatch, Prog.run_bind_error hraise]
  cases e with
  | valueError message => rfl
  | typeError | keyError | runtimeError | fuelExhausted => rfl

/-- On a mission, a proposal that cannot be hashed or names another target leaves the store alone;
    any other one gets a verdict with a receipt. -/
theorem governProposal_rejected (himp : Implements h view) {now : DateTime} {case : String} {s : σ}
    (hs : Mission (view s) now (caseAgent case) (caseLease case now)) {fuel : Nat}
    (hfuel : 2 ≤ fuel) {proposal : PlannerProposal} {ids : FreshIds} {scenarioId : String}
    {result : DemoResult} {s' : σ}
    (hrun : (governProposal fuel ids case scenarioId (context now scenarioId) proposal).run h s =
      (.ok result, s'))
    (hrejected : result.decision = "REJECTED_BEFORE_INTENT" ∨ result.replay = "NOT_CREATED") :
    s' = s := by
  obtain ⟨target, hfound, hname, -⟩ := hs.target
  by_cases hgoverned : proposal.targetId = targetId ∧ Serializable (.dict proposal.parameters)
  · obtain ⟨result', s'', hrun', hverdict, -⟩ :=
      governProposal_governs himp hs hfuel hgoverned.1 hgoverned.2 ids scenarioId
    have hsame : result = result' := Except.ok.inj (congrArg Prod.fst (hrun.symm.trans hrun'))
    rw [hgoverned.1] at hverdict
    rcases hrejected with hdecision | hreplay
    · have heq : result.decision = (verdictOf case proposal.actionType targetId).decision := by
        rw [hsame, ← hverdict]
        rfl
      exact absurd (heq.symm.trans hdecision) (verdictOf_not_rejected case proposal.actionType)
    · have heq : result.replay = (verdictOf case proposal.actionType targetId).replay := by
        rw [hsame, ← hverdict]
        rfl
      rw [verdictOf_replay, hreplay] at heq
      exact absurd heq (by decide)
  · have hrefused : Refused (view s) proposal targetId := by
      by_cases htarget : proposal.targetId = targetId
      · exact .unserializable hfound fun hpar => hgoverned ⟨htarget, hpar⟩
      · refine .substituted hfound ?_
        rw [hname]
        exact htarget
    obtain ⟨e, hraise⟩ := executeProposal_refused himp controlPlane fuel (ids.drawAt now)
      (identity scenarioId) (lease now).leaseId ("intent-" ++ scenarioId ++ "-" ++ case) now hrefused
    have hkeep := governProposal_keeps (context now scenarioId) hraise
    rw [hrun] at hkeep
    exact hkeep

end CloudDemo

section Atomicity

variable [PyRuntime]

/-- The seeding of a request stores nothing of the ledger, so a rejected request does not either. -/
theorem rejected_request_keeps_ledger (s : Backend) {fuel : Nat} (hfuel : 2 ≤ fuel)
    (ids : CloudDemo.FreshIds) (case : String) (now : DateTime) (scenarioId : String)
    (proposal : Option PlannerProposal) {result : CloudDemo.DemoResult} {s' : Backend}
    (hrun : (CloudDemo.runDemoCase fuel ids case now scenarioId proposal).run Backend.handle s =
      (.ok result, s'))
    (hrejected : result.decision = "REJECTED_BEFORE_INTENT" ∨ result.replay = "NOT_CREATED") :
    s.SameLedger s' := by
  by_cases hvalid : case ∈ CloudDemo.allowedCases ∧ CloudDemo.matchesScenario scenarioId = true
  · obtain ⟨evidence, target, hseeds, heq⟩ :=
      CloudDemo.runDemoCase_eq hvalid.1 hvalid.2 fuel ids now proposal
    obtain ⟨s₁, hprepare, hmission⟩ :=
      CloudDemo.prepare_run backend_implements hseeds now scenarioId case s
    have hkeep := @Prog.run_invariant RuntimeStore _ _ _ Backend.handle _ s.SameLedger
      (fun o s' ho => CloudDemo.sameLedger_of_seeding ho) _
      (CloudDemo.prepare_issues hseeds now scenarioId case) s (Backend.SameLedger.refl s)
    rw [hprepare] at hkeep
    rw [heq, Prog.run_bind_ok hprepare] at hrun
    rw [CloudDemo.governProposal_rejected backend_implements hmission hfuel hrun hrejected]
    exact hkeep
  · obtain ⟨e, heq⟩ := CloudDemo.runDemoCase_refused hvalid fuel ids now proposal
    rw [heq] at hrun
    cases hrun

/-- A governed proposal is all or nothing.  Over a store whose registry decodes, with ids that are
    new to it: a refused proposal raises and leaves the store as it was; any other one returns, and
    the store has gained exactly its receipt, and exactly one action if it was allowed.  So a demo
    request that reports a rejection has stored neither. -/
theorem proposal_is_all_or_nothing :
    (∀ (s : Backend) (cp : ControlPlane) (fuel : Nat) (draw : Draw) (identity : IdentityContext)
        (leaseId : String) (proposal : PlannerProposal) (authorizedTargetId intentId : String)
        (requestedAt : DateTime),
      s.Decodes → s.provenanceIds.card < fuel → s.view.receipt draw.receiptId = .ok none →
      s.actionDoc draw.runId = none →
      (Refused s.view proposal authorizedTargetId ∧
        ∃ e, (executeProposal cp fuel draw identity leaseId proposal authorizedTargetId intentId
          requestedAt).run Backend.handle s = (.error e, s)) ∨
      (¬ Refused s.view proposal authorizedTargetId ∧
        ∃ outcome s', (executeProposal cp fuel draw identity leaseId proposal authorizedTargetId
          intentId requestedAt).run Backend.handle s = (.ok outcome, s') ∧
          s.Gained s' outcome.receipt)) ∧
    ∀ (s : Backend) (fuel : Nat) (ids : CloudDemo.FreshIds) (case : String) (now : DateTime)
      (scenarioId : String) (proposal : Option PlannerProposal) (result : CloudDemo.DemoResult)
      (s' : Backend), 2 ≤ fuel →
      (CloudDemo.runDemoCase fuel ids case now scenarioId proposal).run Backend.handle s =
        (.ok result, s') →
      result.decision = "REJECTED_BEFORE_INTENT" ∨ result.replay = "NOT_CREATED" →
      s.SameLedger s' := by
  constructor
  · intro s cp fuel draw identity leaseId proposal authorizedTargetId intentId requestedAt hdec hfuel
      hreceipt haction
    by_cases hrefused : Refused s.view proposal authorizedTargetId
    · exact Or.inl ⟨hrefused, executeProposal_refused backend_implements cp fuel draw identity
        leaseId intentId requestedAt hrefused⟩
    · obtain ⟨outcome, s', hrun, hexecuted⟩ := executeProposal_governs backend_implements cp draw
        identity leaseId intentId requestedAt hdec.registryDecodes hfuel hrefused
      exact Or.inr ⟨hrefused, outcome, s', hrun, gained_of_executed hreceipt haction hexecuted⟩
  · intro s fuel ids case now scenarioId proposal result s' hfuel hrun hrejected
    exact rejected_request_keeps_ledger s hfuel ids case now scenarioId proposal hrun hrejected

end Atomicity

open CloudDemo in
/-- The mission's proposal gains a receipt and an action, and a demo request with the default
    substitution is rejected with the ledger as it was. -/
theorem mission_proposal_is_all_or_nothing :
    (∃ outcome s', (executeProposal controlPlane 3 missionDraw (identity "s1") "lease-001"
        (defaultProposal "allow" "s1") targetId "intent-s1" missionTime).run Backend.handle
          (runCommands Backend.handle 3 missionCalls (.memory {})).2 = (.ok outcome, s') ∧
      (runCommands Backend.handle 3 missionCalls (.memory {})).2.Gained s' outcome.receipt) ∧
    ∃ s', ((runDemoCase 2 ⟨"1", "2", "3"⟩ "target_substitution" missionTime "s1" none).run
        Backend.handle (.memory {})).2 = s' ∧ (Backend.memory {}).SameLedger s' := by
  constructor
  · have hdec : (runCommands Backend.handle 3 missionCalls (.memory {})).2.Decodes :=
      ⟨fun _ => ⟨_, rfl⟩, fun _ => ⟨_, rfl⟩, fun _ => ⟨_, rfl⟩, fun _ => ⟨_, rfl⟩, fun _ => ⟨_, rfl⟩⟩
    rcases proposal_is_all_or_nothing.1 _ controlPlane 3 missionDraw (identity "s1") "lease-001"
      (defaultProposal "allow" "s1") targetId "intent-s1" missionTime hdec (by decide +kernel)
      (by decide +kernel) (by decide +kernel) with ⟨-, e, hraise⟩ | ⟨-, hgoverned⟩
    · have hok : ((executeProposal controlPlane 3 missionDraw (identity "s1") "lease-001"
          (defaultProposal "allow" "s1") targetId "intent-s1" missionTime).run Backend.handle
            (runCommands Backend.handle 3 missionCalls (.memory {})).2).1.map
              (fun outcome => outcome.receipt.decision) = .ok "ALLOW" := by decide +kernel
      rw [hraise] at hok
      cases hok
    · exact hgoverned
  · have hrejected : ((runDemoCase 2 ⟨"1", "2", "3"⟩ "target_substitution" missionTime "s1"
        none).run Backend.handle (.memory {})).1.map DemoResult.decision =
          .ok "REJECTED_BEFORE_INTENT" := by decide +kernel
    obtain ⟨result, hresult, hdecision⟩ := map_eq_ok hrejected
    exact ⟨_, rfl, proposal_is_all_or_nothing.2 (.memory {}) 2 ⟨"1", "2", "3"⟩ "target_substitution"
      missionTime "s1" none result _ (Nat.le_refl 2) (Prod.ext hresult rfl) (Or.inl hdecision)⟩

end PoiexGoc
