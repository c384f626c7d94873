/-
  The target a proposal is BOUND to, and the one it acts on.

  `execute_proposal` looks its target up twice: once to make the intent, and again in the gates.  In
  between anybody may put another version of it.

  1. `execute_acts_on` — an execution that returns ALLOW has found a target with the intent's hash.

  2. The intent carries the hash of the first look-up, so the second one must find it again
     (`proposals_act_on_their_bound_target`).  A version that was put in between, with another hash,
     is not acted on in any interleaving.
-/
import PoiexGoc.Lib.Snapshot
import PoiexGoc.Proofs.ControlPlaneCalls
import PoiexGoc.Proofs.RevocationRaces
import PoiexGoc.Runtime.CloudDemo

namespace PoiexGoc

open Py Effect

/-- The targets that are found are `stored`. -/
def FindsTarget (stored : String → MaterialTarget → Prop) :
    (o : StoreOp) → Except PyError o.Result → Prop
  | .getTarget id, r => ∀ target, r = .ok (some target) → stored id target
  | _, _ => True

namespace ControlPlane

section Gates

variable {stored : String → MaterialTarget → Prop} {cp : ControlPlane} {now : DateTime}
  {identity : IdentityContext} {intent : ActionIntent} {leaseId : String}

/-- The target a report names was found under the intent's id, and passes unless there is a reason. -/
def NamesTarget (stored : String → MaterialTarget → Prop) (intent : ActionIntent)
    (r : Except PyError GateReport) : Prop :=
  ∀ report, r = .ok report → ∀ target, report.target = some target →
    stored intent.targetId target ∧
      (report.reasons = [] → targetReasons intent (some target) = [])

theorem materialGates_names (fuel : Nat) (agent : AgentRecord) :
    (materialGates cp fuel now identity leaseId intent agent).Meets (FindsTarget stored)
      StoreOp.IsRegistryRead (NamesTarget stored intent) := by
  unfold materialGates
  refine Prog.meets_bind_ok ((readEvidence_issues _).meets _) fun evidence _ => ?_
  refine Prog.meets_bind_ok (store.call_meets _ trivial) fun lease _ => ?_
  refine Prog.meets_bind_ok ((leaseGates_issues (fun _ => trivial) cp fuel now identity intent agent
    lease).meets _)
    fun reasons _ => ?_
  refine Prog.meets_bind_ok (store.call_meets _ trivial) fun found hfound => ?_
  rintro report hr target htarget
  obtain rfl := Except.ok.inj hr
  obtain rfl : found = some target := htarget
  exact ⟨hfound target rfl, fun hnil => (List.append_eq_nil_iff.mp hnil).2⟩

theorem gates_names (fuel : Nat) :
    (gates cp fuel now identity leaseId intent).Meets (FindsTarget stored)
      StoreOp.IsRegistryRead (NamesTarget stored intent) := by
  unfold gates
  refine Prog.meets_bind_ok (store.call_meets _ trivial) fun found _ => ?_
  split
  · exact materialGates_names fuel _
  · rintro report hr target htarget
    rw [← Except.ok.inj hr] at htarget
    cases htarget

end Gates

/-- The receipt allows the intent's action on a target that was found under its id, with its hash. -/
def ActsOn (stored : String → MaterialTarget → Prop) (intent : ActionIntent)
    (receipt : ExecutionReceipt) : Prop :=
  ∃ target, stored intent.targetId target ∧ intent.targetHash = target.targetHash ∧
    intent.actionType ∈ target.allowedActions ∧ receipt.targetId = some target.targetId ∧
    receipt.targetHash = some target.targetHash

theorem execute_acts_on (stored : String → MaterialTarget → Prop) (cp : ControlPlane) (fuel : Nat)
    (draw : Draw) (identity : IdentityContext) (leaseId : String) (intent : ActionIntent) :
    (execute cp fuel draw identity leaseId intent).Meets (FindsTarget stored)
      (fun _ => True) fun r => ∀ receipt, r = .ok receipt → receipt.decision = "ALLOW" →
        ActsOn stored intent receipt := by
  unfold execute
  refine Prog.meets_bind_ok ((gates_names fuel).mono (fun _ _ => trivial) fun _ h => h)
    fun report hnames => ?_
  unfold settle
  split
  · rename_i target htarget hnil
    obtain ⟨hstored, hpasses⟩ := hnames report rfl target htarget
    obtain ⟨t, ht, hhash, haction⟩ := targetReasons_eq_nil.mp (hpasses hnil)
    obtain rfl := Option.some.inj ht
    refine Prog.meets_bind_ok (store.call_meets (P := fun _ => True) _ trivial) fun _ _ => ?_
    refine Prog.meets_bind_ok (store.call_meets (P := fun _ => True) _ trivial) fun _ _ => ?_
    rintro receipt hr -
    rw [← Except.ok.inj hr]
    exact ⟨target, hstored, hhash, haction, rfl, rfl⟩
  · refine Prog.meets_bind_ok (store.call_meets (P := fun _ => True) _ trivial) fun _ _ => ?_
    rintro receipt hr hallow
    rw [← Except.ok.inj hr] at hallow
    exact absurd hallow (show "BLOCK" ≠ "ALLOW" by decide)

end ControlPlane

section Proposals

variable [PyRuntime]

/-- An intent is bound to the target it was made of. -/
theorem proposalToIntent_bound {proposal : PlannerProposal} {intentId agentId : String}
    {target : MaterialTarget} {requestedAt : DateTime} {intent : ActionIntent}
    (hintent : proposalToIntent proposal intentId agentId target requestedAt = .ok intent) :
    proposal.targetId = target.targetId ∧ intent.targetId = target.targetId ∧
      intent.targetHash = target.targetHash ∧ intent.actionType = proposal.actionType := by
  unfold proposalToIntent at hintent
  by_cases hother : proposal.targetId ≠ target.targetId
  · rw [if_pos hother] at hintent
    cases hintent
  · rw [if_neg hother] at hintent
    unfold ActionIntent.create at hintent
    cases hhash : canonicalHash (ActionIntent.payload intentId agentId proposal.actionType
        target.targetId target.targetHash proposal.parameters requestedAt) with
    | error e =>
      rw [hhash] at hintent
      cases hintent
    | ok intentHash =>
      rw [hhash] at hintent
      obtain rfl := Except.ok.inj hintent
      exact ⟨not_not.mp hother, rfl, rfl, rfl⟩

/-- What follows the first look-up of a proposal. -/
def governed (cp : ControlPlane) (fuel : Nat) (draw : Draw) (identity : IdentityContext)
    (leaseId : String) (plan : PlannerProposal) (intentId : String) (requestedAt : DateTime) :
    Option MaterialTarget → StoreM GovernedOutcome
  | none => throw (.valueError "authorized target is not present in trusted registry")
  | some target => do
    let intent ← store.lift (proposalToIntent plan intentId identity.agentId target requestedAt)
    let receipt ← cp.execute fuel draw identity leaseId intent
    let replay ← ControlPlane.replay receipt.receiptId
    return { receipt, replay }

/-- The outcome acts on a stored target with the hash of the one that was found. -/
def ActsOnBound (stored : String → MaterialTarget → Prop) (plan : PlannerProposal)
    (found : Option MaterialTarget) (outcome : GovernedOutcome) : Prop :=
  ∃ bound target, found = some bound ∧ plan.targetId = bound.targetId ∧
    stored bound.targetId target ∧ target.targetHash = bound.targetHash ∧
    plan.actionType ∈ target.allowedActions ∧ outcome.receipt.targetId = some target.targetId ∧
    outcome.receipt.targetHash = some bound.targetHash

theorem governed_acts_on (stored : String → MaterialTarget → Prop) (cp : ControlPlane) (fuel : Nat)
    (draw : Draw) (identity : IdentityContext) (leaseId : String) (plan : PlannerProposal)
    (intentId : String) (requestedAt : DateTime) (found : Option MaterialTarget) :
    (governed cp fuel draw identity leaseId plan intentId requestedAt found).Meets
      (FindsTarget stored) (fun _ => True) fun r => ∀ outcome, r = .ok outcome →
        outcome.receipt.decision = "ALLOW" → ActsOnBound stored plan found outcome := by
  cases found with
  | none =>
    rintro outcome hr
    cases hr
  | some bound =>
    have hlift : (store.lift (proposalToIntent plan intentId identity.agentId bound
        requestedAt)).Meets (FindsTarget stored) (fun _ => True) fun r =>
          proposalToIntent plan intentId identity.agentId bound requestedAt = r := rfl
    refine Prog.meets_bind_ok hlift fun intent hintent => ?_
    obtain ⟨hplan, hid, hhash, haction⟩ := proposalToIntent_bound hintent
    refine Prog.meets_bind_ok (ControlPlane.execute_acts_on stored cp fuel draw identity leaseId
      intent) fun receipt hacts => ?_
    refine Prog.meets_bind_ok (((ControlPlane.replay_issues receipt.receiptId).mono
      fun _ _ => trivial).meets _) fun manifest _ => ?_
    rintro outcome hr hallow
    rw [← Except.ok.inj hr] at hallow ⊢
    obtain ⟨target, hstored, htargetHash, hallowed, hreceiptId, hreceiptHash⟩ :=
      hacts receipt rfl hallow
    rw [hid] at hstored
    rw [haction] at hallowed
    rw [hhash] at htargetHash
    exact ⟨bound, target, rfl, hplan, hstored, htargetHash.symm, hallowed, hreceiptId,
      hreceiptHash.trans (congrArg some htargetHash.symm)⟩

/-! ## Every interleaving -/

/-- The results of a proposal, and of the clients beside it. -/
def BesideProposal {ι : Type} (α : ι → Type) : Option ι → Type
  | none => GovernedOutcome
  | some i => α i

variable {σ ι : Type} {α : ι → Type} {h : Handler RuntimeStore PyError σ} {view : σ → StoreView}

/-- One program of the orchestrator among other clients, none of them started. -/
def proposalAmong (proposal : StoreM GovernedOutcome) (clients : (i : ι) → StoreM (α i)) (s : σ) :
    Pool RuntimeStore PyError σ (Option ι) (BesideProposal α) where
  state := s
  threads
    | none => proposal
    | some i => clients i

/-- A proposal acts on the target it is bound to, or not at all.  One proposal among any other
    clients, which may do anything to the store at any time: if it is allowed, its target was found
    under the authorized id when the intent was made, and under its own id again later, with the same
    hash; the receipt has that hash, and the version that was found allows the action. -/
theorem proposals_act_on_their_bound_target [DecidableEq ι] (himp : Implements h view)
    (cp : ControlPlane) (fuel : Nat) (draw : Draw) (identity : IdentityContext) (leaseId : String)
    (plan : PlannerProposal) (authorizedTargetId intentId : String) (requestedAt : DateTime)
    (clients : (i : ι) → StoreM (α i)) (s : σ) (sched : List (Option ι)) {outcome : GovernedOutcome}
    (hdone : (Pool.runSchedule h sched (proposalAmong (executeProposal cp fuel draw identity leaseId
      plan authorizedTargetId intentId requestedAt) clients s)).outcome none = some (.ok outcome))
    (hallow : outcome.receipt.decision = "ALLOW") :
    let pool := proposalAmong (executeProposal cp fuel draw identity leaseId plan authorizedTargetId
      intentId requestedAt) clients s
    ∃ pre post bound target, pre ++ none :: post = sched ∧
      (view (Pool.runSchedule h pre pool).state).target authorizedTargetId = .ok (some bound) ∧
      plan.targetId = bound.targetId ∧
      (∃ t, Pool.Passes h post (Pool.runSchedule h (pre ++ [none]) pool) t ∧
        (view t).target bound.targetId = .ok (some target)) ∧
      target.targetHash = bound.targetHash ∧ plan.actionType ∈ target.allowedActions ∧
      outcome.receipt.targetId = some target.targetId ∧
      outcome.receipt.targetHash = some bound.targetHash := by
  intro pool
  let rest : Except PyError (Option MaterialTarget) → StoreM GovernedOutcome
    | .ok found => governed cp fuel draw identity leaseId plan intentId requestedAt found
    | .error e => .done (.error e)
  have hstart : pool.threads none = .call (.getTarget authorizedTargetId) rest := by
    show executeProposal cp fuel draw identity leaseId plan authorizedTargetId intentId
      requestedAt = _
    unfold executeProposal
    show Prog.call _ _ = Prog.call _ _
    congr 1
    funext r
    cases r with
    | error e => rfl
    | ok found =>
      cases found with
      | none => rfl
      | some target => rfl
  obtain ⟨pre, post, rfl, hwaiting⟩ := Pool.first_call hstart hdone
  -- the first look-up is answered by the state it finds
  let before := (Pool.runSchedule h pre pool).state
  have hfirst : (h (.getTarget authorizedTargetId) before).1 =
      (view before).target authorizedTargetId :=
    (himp.refines (.getTarget authorizedTargetId) before trivial).1
  have hstep : Pool.runSchedule h (pre ++ [none]) pool =
      (Pool.runSchedule h pre pool).step h none := Pool.runSchedule_append h pre [none] pool
  have hthread : (Pool.runSchedule h (pre ++ [none]) pool).threads none =
      rest ((view before).target authorizedTargetId) := by
    rw [hstep, Pool.step_threads_self hwaiting, ← hfirst]
  have hend : (Pool.runSchedule h post (Pool.runSchedule h (pre ++ [none]) pool)).outcome none =
      some (.ok outcome) := by
    rw [← Pool.runSchedule_append, List.append_assoc]
    exact hdone
  let later := Pool.runSchedule h (pre ++ [none]) pool
  let stored : String → MaterialTarget → Prop := fun id target =>
    ∃ t, Pool.Passes h post later t ∧ (view t).target id = .ok (some target)
  cases hfound : (view before).target authorizedTargetId with
  | error e =>
    rw [hfound] at hthread
    have hraised : (Pool.runSchedule h post later).threads none = .done (.error e) :=
      Pool.threads_eq_of_done post hthread
    cases (Pool.outcome_eq_some.mp hend).symm.trans hraised
  | ok found =>
    rw [hfound] at hthread
    let reports : Except PyError (BesideProposal α none) → Prop := fun r =>
      ∀ outcome : GovernedOutcome, r = .ok outcome → outcome.receipt.decision = "ALLOW" →
        ActsOnBound stored plan found outcome
    have hmeets : (later.threads none).Meets (FindsTarget stored) (fun _ => True) reports := by
      rw [hthread]
      exact governed_acts_on stored cp fuel draw identity leaseId plan intentId requestedAt found
    have hanswers : ∀ (o : StoreOp) t, Pool.Passes h post later t → True →
        FindsTarget stored o (h o t).1 := by
      intro o t ht _
      cases o with
      | getTarget id =>
        intro target hr
        rw [(himp.refines (.getTarget id) t trivial).1] at hr
        exact ⟨t, ht, hr⟩
      | _ => trivial
    have hlast := Pool.meets_passing hanswers hmeets
    rw [Pool.outcome_eq_some.mp hend] at hlast
    obtain ⟨bound, target, rfl, hplan, hstored, hhash, haction, hreceiptId, hreceiptHash⟩ :=
      hlast outcome rfl hallow
    exact ⟨pre, post, bound, target, rfl, hfound, hplan, hstored, hhash, haction, hreceiptId,
      hreceiptHash⟩

end Proposals

/-- A pump that is upgraded right after the second look-up: the proposal acts on the version it is
    bound to. -/
theorem upgraded_pump_is_acted_on_as_bound :
    let plan : PlannerProposal := ⟨CloudDemo.action, "pump-A", [("work_order", .str "WO-1")], ""⟩
    let upgrade : StoreM Unit := do
      let upgraded ← store.lift (MaterialTarget.create "pump-A" "synthetic_equipment"
        "plant-demo/pump-A" 4 {CloudDemo.action})
      store.putTarget upgraded
    let pool := proposalAmong (executeProposal seededCall.cp seededCall.fuel seededCall.draw
      seededCall.identity seededCall.leaseId plan "pump-A" "intent-1" seededCall.draw.now)
      (fun _ : Unit => upgrade) seededClient
    let sched := List.replicate 7 none ++ some () :: List.replicate 8 none
    ∃ outcome pre post bound target,
      (Pool.runSchedule demoStore.handle sched pool).outcome none = some (.ok outcome) ∧
      outcome.receipt.decision = "ALLOW" ∧ pre ++ none :: post = sched ∧
      (demoStore.view (Pool.runSchedule demoStore.handle pre pool).state).target "pump-A" =
        .ok (some bound) ∧
      (∃ t, Pool.Passes demoStore.handle post (Pool.runSchedule demoStore.handle (pre ++ [none]) pool)
        t ∧ (demoStore.view t).target "pump-A" = .ok (some target)) ∧
      outcome.receipt.targetHash = some bound.targetHash := by
  intro plan upgrade pool sched
  have hallowed : ((Pool.runSchedule demoStore.handle sched pool).outcome none).map
      (fun r => r.map fun outcome => outcome.receipt.decision) = some (.ok "ALLOW") := by
    decide +kernel
  obtain ⟨r, hdone, hr⟩ := Option.map_eq_some_iff.mp hallowed
  cases r with
  | error e => cases hr
  | ok outcome =>
    have hallow : outcome.receipt.decision = "ALLOW" := Except.ok.inj hr
    obtain ⟨pre, post, bound, target, hsplit, hbound, hplan, hlater, -, -, -, hhash⟩ :=
      proposals_act_on_their_bound_target (firestoreStore_implements demoStore) seededCall.cp
        seededCall.fuel seededCall.draw seededCall.identity seededCall.leaseId plan "pump-A"
        "intent-1" seededCall.draw.now (fun _ : Unit => upgrade) seededClient sched
        hdone hallow
    rw [← hplan] at hlater
    exact ⟨outcome, pre, post, bound, target, hdone, hallow, hsplit, hbound, hlater, hhash⟩

end PoiexGoc
