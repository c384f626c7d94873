/-
  Authority that is LOST stays lost, whoever runs.

  A lease is lost to its agent once it is revoked, expired, or of an epoch the agent has left
  (`Loss`).  Nothing in the store marks this for good: every `execute` reads the agent and the lease
  anew, and whoever may put records may put them back.

  1. Clients that put nothing back keep a stored loss (`Loss.Stored.keep`).  A promotion puts the
     agent it has read, so it keeps the epoch as long as it reads the new one.

  2. Where a loss is stored, a covered call finds it and refuses (`Loss.execute_meets`), whatever it
     finds besides.

  3. The stored loss is an invariant all clients rely on and none of them breaks, so none of them is
     granted anything on the lost lease in any interleaving (`lost_authority_stays_lost`).
-/
import PoiexGoc.Lib.RelyGuarantee
import PoiexGoc.Proofs.ConcurrentLedger
import PoiexGoc.Proofs.PassingTime
import PoiexGoc.Proofs.RevocationRaces

namespace PoiexGoc

open Py Effect

/-- The agent cannot use the lease from `since` on, or its epoch is now at least `epoch`. -/
structure Loss where
  agentId : String
  leaseId : String
  since : DateTime
  epoch : Int

/-- An action, or a receipt that allows one. -/
def StoreOp.Grants : StoreOp → Prop
  | .executeSyntheticAction _ _ => True
  | .putReceipt receipt => receipt.decision = "ALLOW"
  | _ => False

theorem ControlPlane.Refusing.not_grants {o : StoreOp} (ho : ControlPlane.Refusing o) :
    ¬ o.Grants := by
  cases o with
  | putReceipt receipt =>
    intro hallow
    have hblock : receipt.decision = "BLOCK" := ho
    rw [show receipt.decision = "ALLOW" from hallow] at hblock
    exact absurd hblock (by decide)
  | executeSyntheticAction => exact ho.elim
  | _ => exact id

theorem StoreOp.IsRead.not_grants {o : StoreOp} (ho : o.IsRead) : ¬ o.Grants := by
  cases o with
  | putReceipt | executeSyntheticAction => exact ho.elim
  | _ => exact id

theorem StoreOp.IsRegistryPut.not_grants {o : StoreOp} (ho : o.IsRegistryPut) : ¬ o.Grants := by
  cases o with
  | putReceipt | executeSyntheticAction => exact ho.elim
  | _ => exact id

namespace Loss

variable (loss : Loss)

/-- A lease nobody may use since the loss. -/
def Voids (lease : AuthorityLease) : Prop :=
  revokedBy lease.revokedAt loss.since ∨ lease.expiresAt ≤ loss.since ∨ lease.epoch < loss.epoch

/-- The agent has reached the epoch, if it is the one of the loss. -/
def AgentBound (agent : AgentRecord) : Prop :=
  agent.agentId = loss.agentId → loss.epoch ≤ agent.currentEpoch

/-- The lease is void, if it is the one of the loss. -/
def LeaseBound (lease : AuthorityLease) : Prop :=
  lease.leaseId = loss.leaseId → loss.Voids lease

/-- The loss is stored: agents and leases are filed under their own ids, as every put files them,
    and those of the loss are as it says. -/
structure Stored (v : StoreView) : Prop where
  agent : ∀ id agent, v.agent id = .ok (some agent) → agent.agentId = id ∧ loss.AgentBound agent
  lease : ∀ id lease, v.lease id = .ok (some lease) → lease.leaseId = id ∧ loss.LeaseBound lease

/-- What reads find where the loss is stored. -/
def Found : (o : StoreOp) → Except PyError o.Result → Prop
  | .getAgent id, r => ∀ agent, r = .ok (some agent) → agent.agentId = id ∧ loss.AgentBound agent
  | .getLease id, r => ∀ lease, r = .ok (some lease) → lease.leaseId = id ∧ loss.LeaseBound lease
  | _, _ => True

/-- The loss covers a call of the agent on the lease, from its time on. -/
def Covers (now : DateTime) (identity : IdentityContext) (leaseId : String) : Prop :=
  identity.agentId = loss.agentId ∧ leaseId = loss.leaseId ∧ loss.since ≤ now

variable {loss}

/-- A void lease and an agent of the epoch do not go together. -/
theorem leaseReasons_ne_nil {identity : IdentityContext} {intent : ActionIntent}
    {agent : AgentRecord} {lease : AuthorityLease} {now : DateTime} (hsince : loss.since ≤ now)
    (hagent : loss.epoch ≤ agent.currentEpoch) (hlease : loss.Voids lease) :
    ControlPlane.leaseReasons identity intent agent lease now ≠ [] := by
  intro hnil
  obtain ⟨-, -, hunrevoked, hunexpired, hepoch⟩ := ControlPlane.leaseReasons_eq_nil.mp hnil
  rcases hlease with hrevoked | hexpired | hold
  · exact hunrevoked (revokedBy_later hsince hrevoked)
  · rw [DateTime.lt_def] at hunexpired
    rw [DateTime.le_def] at hexpired hsince
    omega
  · omega

/-! ## What keeps a loss -/

variable [PyRuntime]

/-- The operation does not put the lost authority back. -/
def Heeds (loss : Loss) : StoreOp → Prop
  | .putAgent agent => loss.AgentBound agent
  | .putLease lease => loss.LeaseBound lease
  | o => o.Storable

theorem Heeds.storable {o : StoreOp} (ho : loss.Heeds o) : o.Storable := by
  cases o with
  | putAgent | putLease => trivial
  | _ => exact ho

theorem Heeds.of_read {o : StoreOp} (ho : o.IsRead) : loss.Heeds o := by
  cases o with
  | putAgent | putLease => exact ho.elim
  | _ => exact ho.storable

theorem Heeds.of_execute {draw : Draw} {o : StoreOp} (ho : ControlPlane.ExecuteOp draw o) :
    loss.Heeds o := by
  cases o with
  | putAgent | putLease => exact ho.elim
  | _ => exact ho.storable

section Backends

variable {σ : Type} {h : Handler RuntimeStore PyError σ} {view : σ → StoreView}

theorem Stored.keep (himp : Implements h view) {o : StoreOp} (ho : loss.Heeds o) {s : σ}
    (hs : loss.Stored (view s)) : loss.Stored (view (h o s).2) := by
  rw [(himp.refines o s ho.storable).2]
  cases o with
  | putAgent new =>
    refine ⟨fun id agent hfound => ?_, hs.lease⟩
    rcases StoreView.found_after_put hfound with ⟨rfl, rfl⟩ | hold
    · exact ⟨rfl, ho⟩
    · exact hs.agent id agent hold
  | putLease new =>
    refine ⟨hs.agent, fun id lease hfound => ?_⟩
    rcases StoreView.found_after_put hfound with ⟨rfl, rfl⟩ | hold
    · exact ⟨rfl, ho⟩
    · exact hs.lease id lease hold
  | executeSyntheticAction runId payload =>
    simp only [StoreView.handle]
    split
    · exact hs
    · exact ⟨hs.agent, hs.lease⟩
  | _ => exact ⟨hs.agent, hs.lease⟩

theorem Stored.found (himp : Implements h view) {s : σ} (hs : loss.Stored (view s)) (o : StoreOp) :
    loss.Found o (h o s).1 := by
  cases o with
  | getAgent id =>
    rw [(himp.refines (.getAgent id) s trivial).1]
    exact hs.agent id
  | getLease id =>
    rw [(himp.refines (.getLease id) s trivial).1]
    exact hs.lease id
  | _ => trivial

end Backends

/-! ## The calls of `execute` -/

/-- The operation keeps the loss, and what it grants is of a call the loss does not cover. -/
def Respects (loss : Loss) (calls : Draw → IdentityContext → String → Prop) (o : StoreOp) : Prop :=
  loss.Heeds o ∧ (o.Grants → ∃ draw identity leaseId, calls draw identity leaseId ∧
    ¬ loss.Covers draw.now identity leaseId ∧ ControlPlane.ExecuteOp draw o)

variable {calls : Draw → IdentityContext → String → Prop}

theorem Respects.of_read {o : StoreOp} (ho : o.IsRead) : loss.Respects calls o :=
  ⟨Heeds.of_read ho, fun hgrants => absurd hgrants ho.not_grants⟩

theorem Respects.of_put {o : StoreOp} (hput : o.IsRegistryPut) (ho : loss.Heeds o) :
    loss.Respects calls o :=
  ⟨ho, fun hgrants => absurd hgrants hput.not_grants⟩

/-- A covered call finds the loss and is refused; any other call grants what it is free to. -/
theorem execute_meets {draw : Draw} {identity : IdentityContext} {leaseId : String}
    (hcall : calls draw identity leaseId) (cp : ControlPlane) (fuel : Nat) (intent : ActionIntent) :
    (cp.execute fuel draw identity leaseId intent).Meets loss.Found (loss.Respects calls)
      fun r => ∀ receipt, r = .ok receipt → loss.Covers draw.now identity leaseId →
        receipt.decision = "BLOCK" := by
  have hissues : (cp.execute fuel draw identity leaseId intent).Meets loss.Found
      (ControlPlane.ExecuteOp draw) fun _ => True :=
    (ControlPlane.execute_issues cp fuel draw identity leaseId intent).meets _
  by_cases hcovers : loss.Covers draw.now identity leaseId
  · obtain ⟨hagent, hlease, hsince⟩ := hcovers
    have hdenied : ControlPlane.Denied identity intent draw.now
        (fun agent => loss.epoch ≤ agent.currentEpoch) loss.Voids :=
      fun agent lease hbound hvoid => leaseReasons_ne_nil hsince hbound hvoid
    -- the agent and the lease it finds are those of the loss
    have hfinds : ∀ (o : StoreOp) r, loss.Found o r →
        ControlPlane.Finds identity.agentId leaseId (fun agent => loss.epoch ≤ agent.currentEpoch)
          loss.Voids o r := by
      intro o r hfound
      cases o with
      | getAgent id =>
        rintro rfl agent hr
        obtain ⟨hid, hbound⟩ := hfound agent hr
        exact hbound (hid.trans hagent)
      | getLease id =>
        rintro rfl lease hr
        obtain ⟨hid, hbound⟩ := hfound lease hr
        exact hbound (hid.trans hlease)
      | _ => trivial
    have hrefuses : (cp.execute fuel draw identity leaseId intent).Meets loss.Found
        ControlPlane.Refusing fun r => ∀ receipt, r = .ok receipt → receipt.decision = "BLOCK" :=
      (ControlPlane.execute_refuses hdenied cp fuel).rely hfinds
    refine (hrefuses.and hissues).mono ?_ fun r hr receipt hok _ => hr.1 receipt hok
    rintro o ⟨hrefusing, hop⟩
    exact ⟨Heeds.of_execute hop, fun hgrants => absurd hgrants hrefusing.not_grants⟩
  · refine hissues.mono ?_ fun _ _ _ _ h => absurd h hcovers
    exact fun o ho => ⟨Heeds.of_execute ho, fun _ => ⟨draw, identity, leaseId, hcall, hcovers, ho⟩⟩

/-- A promotion puts back the agent it has found. -/
theorem promote_meets (agentId capability evidenceId : String) :
    (ControlPlane.promoteObservedCapability agentId capability evidenceId).Meets loss.Found
      (loss.Respects calls) fun _ => True := by
  unfold ControlPlane.promoteObservedCapability
  refine Prog.meets_bind (store.call_meets _ (Respects.of_read trivial)) (fun found hfound => ?_)
    fun _ _ => trivial
  cases found with
  | none => trivial
  | some agent =>
    obtain ⟨-, hbound⟩ := hfound agent rfl
    refine Prog.meets_bind (store.call_meets _ (Respects.of_read trivial)) (fun evidence _ => ?_)
      fun _ _ => trivial
    cases evidence with
    | none => trivial
    | some evidence =>
      show Prog.Meets _ _ _ (if _ then _ else if _ then _ else _)
      split
      · trivial
      · split
        · trivial
        · have hput : loss.Respects calls (.putAgent { agent with
              observedCapabilities := agent.observedCapabilities.insert capability evidenceId }) :=
            Respects.of_put trivial hbound
          exact (store.call_meets _ hput).mono (fun _ ho => ho) fun _ _ => trivial

theorem replay_meets (receiptId : String) :
    (ControlPlane.replay receiptId).Meets loss.Found (loss.Respects calls) fun _ => True :=
  ((ControlPlane.replay_issues receiptId).mono fun _ => Respects.of_read).meets _

/-! ## The clients -/

/-- The call does not put the lost authority back. -/
def Allows (loss : Loss) : Command → Prop
  | .operation o => (o.IsRegistryPut ∧ loss.Heeds o) ∨ o.IsRead
  | _ => True

/-- A covered call is answered with a BLOCK, if it is answered. -/
def Withholds (loss : Loss) : (cmd : Command) → Except PyError cmd.Result → Prop
  | .execute _ draw identity leaseId _, r => ∀ receipt, r = .ok receipt →
    loss.Covers draw.now identity leaseId → receipt.decision = "BLOCK"
  | _, _ => True

theorem command_meets {cmd : Command} (hcmd : loss.Allows cmd) (fuel : Nat)
    (hcalls : ∀ cp draw identity leaseId intent, cmd = .execute cp draw identity leaseId intent →
      calls draw identity leaseId) :
    (cmd.program fuel).Meets loss.Found (loss.Respects calls) (loss.Withholds cmd) := by
  cases cmd with
  | operation o =>
    refine (store.call_meets o ?_).mono (fun _ ho => ho) fun _ _ => trivial
    exact hcmd.elim (fun hput => Respects.of_put hput.1 hput.2) Respects.of_read
  | promote agentId capability evidenceId => exact promote_meets agentId capability evidenceId
  | execute cp draw identity leaseId intent =>
    exact execute_meets (hcalls cp draw identity leaseId intent rfl) cp fuel intent
  | replay receiptId => exact replay_meets receiptId

theorem executeProposal_meets {draw : Draw} {identity : IdentityContext} {leaseId : String}
    (hcall : calls draw identity leaseId) (cp : ControlPlane) (fuel : Nat)
    (proposal : PlannerProposal) (authorizedTargetId intentId : String) (requestedAt : DateTime) :
    (executeProposal cp fuel draw identity leaseId proposal authorizedTargetId intentId
      requestedAt).Meets loss.Found (loss.Respects calls)
      fun r => ∀ outcome, r = .ok outcome → loss.Covers draw.now identity leaseId →
        outcome.receipt.decision = "BLOCK" := by
  unfold executeProposal
  refine Prog.meets_bind_ok (store.call_meets _ (Respects.of_read trivial)) fun found _ => ?_
  cases found with
  | none =>
    rintro outcome hr
    cases hr
  | some target =>
    refine Prog.meets_bind_ok (store.lift_meets _ _ _) fun intent _ => ?_
    refine Prog.meets_bind_ok (execute_meets hcall cp fuel intent) fun receipt hreceipt => ?_
    refine Prog.meets_bind_ok (replay_meets receipt.receiptId) fun manifest _ => ?_
    rintro outcome hr
    rw [← Except.ok.inj hr]
    exact hreceipt receipt rfl

/-! ## The demo requests -/

section Requests

open CloudDemo

variable {now : DateTime} {scenarioId case : String}

/-- A request for another agent and another lease puts and changes its own. -/
theorem prepare_meets (hagent : loss.agentId ≠ CloudDemo.agent.agentId)
    (hlease : loss.leaseId ≠ (CloudDemo.lease now).leaseId) {evidence : EvidenceItem}
    {target : MaterialTarget} (hseeds : Seeds evidence target) :
    (prepare now scenarioId case evidence target).Meets loss.Found (loss.Respects calls)
      fun r => ∀ ctx, r = .ok ctx → ctx = context now scenarioId := by
  have hputs : ∀ o : StoreOp, o.IsRegistryPut → loss.Heeds o →
      (store.call o).Meets loss.Found (loss.Respects calls) fun _ => True :=
    fun o hput ho => (store.call_meets o (Respects.of_put hput ho)).mono (fun _ h => h)
      fun _ _ => trivial
  have hseed : (seed now scenarioId evidence target).Meets loss.Found (loss.Respects calls)
      fun r => ∀ ctx, r = .ok ctx → ctx = context now scenarioId := by
    unfold seed
    refine Prog.meets_bind_ok (hputs (.putAgent CloudDemo.agent) trivial
      fun heq => absurd heq.symm hagent) fun _ _ => ?_
    refine Prog.meets_bind_ok (hputs (.putEvidence evidence) trivial trivial) fun _ _ => ?_
    refine Prog.meets_bind_ok (promote_meets _ _ _) fun _ _ => ?_
    refine Prog.meets_bind_ok (hputs (.putTarget target) trivial hseeds.hashed) fun _ _ => ?_
    refine Prog.meets_bind_ok (hputs (.putAuthorityProvenance (provenanceRoot now)) trivial
      trivial) fun _ _ => ?_
    refine Prog.meets_bind_ok (hputs (.putAuthorityProvenance (provenanceChild now)) trivial
      trivial) fun _ _ => ?_
    refine Prog.meets_bind_ok (hputs (.putLease (CloudDemo.lease now)) trivial
      fun heq => absurd heq.symm hlease) fun _ _ => ?_
    exact fun ctx hr => (Except.ok.inj hr).symm
  have hcase : (applyCase case (context now scenarioId)).Meets loss.Found (loss.Respects calls)
      fun _ => True := by
    unfold applyCase
    split
    · refine Prog.meets_bind (store.call_meets _ (Respects.of_read trivial))
        (fun found hfound => ?_) fun _ _ => trivial
      cases found with
      | none => trivial
      | some found =>
        refine hputs (.putLease { found with revokedAt := _ }) trivial fun heq => ?_
        exact absurd (heq.symm.trans (hfound found rfl).1) hlease
    · split
      · refine Prog.meets_bind (store.call_meets _ (Respects.of_read trivial))
          (fun found hfound => ?_) fun _ _ => trivial
        cases found with
        | none => trivial
        | some found =>
          refine hputs (.putAgent { found with currentEpoch := _ }) trivial fun heq => ?_
          exact absurd (heq.symm.trans (hfound found rfl).1) hagent
      · trivial
  unfold prepare
  refine Prog.meets_bind_ok hseed fun ctx hctx => ?_
  rw [hctx ctx rfl]
  refine Prog.meets_bind_ok hcase fun _ _ => ?_
  exact fun ctx' hr => (Except.ok.inj hr).symm

theorem request_meets {demo : DemoRun} (hagent : loss.agentId ≠ CloudDemo.agent.agentId)
    (hlease : loss.leaseId ≠ (CloudDemo.lease demo.now).leaseId)
    (hcall : calls demo.draw (CloudDemo.identity demo.scenarioId)
      (CloudDemo.lease demo.now).leaseId) :
    demo.program.Meets loss.Found (loss.Respects calls) fun _ => True := by
  obtain ⟨target, hall⟩ := exists_seededByAll
  rcases demo.program_cases hall with ⟨e, heq⟩ | ⟨evidence, hseeds, heq⟩
  · rw [heq]
    trivial
  · rw [heq]
    refine Prog.meets_bind (prepare_meets hagent hlease hseeds) (fun ctx hctx => ?_)
      fun _ _ => trivial
    rw [hctx ctx rfl]
    refine Prog.meets_tryCatch (Q := fun _ => True) ?_ (fun _ _ => trivial) fun e _ => ?_
    · exact Prog.meets_bind (executeProposal_meets hcall _ _ _ _ _ _) (fun _ _ => trivial)
        fun _ _ => trivial
    · cases e with
      | _ => trivial

end Requests

end Loss

/-- The calls a client makes of `execute`: their draws, identities and leases. -/
def Client.Executes : Client → Draw → IdentityContext → String → Prop
  | .session _ cmds, draw, identity, leaseId =>
    ∃ cp intent, Command.execute cp draw identity leaseId intent ∈ cmds
  | .proposal _ _ draw identity leaseId _ _ _ _, draw', identity', leaseId' =>
    draw' = draw ∧ identity' = identity ∧ leaseId' = leaseId
  | .request demo, draw, identity, leaseId =>
    draw = demo.draw ∧ identity = CloudDemo.identity demo.scenarioId ∧
      leaseId = (CloudDemo.lease demo.now).leaseId

namespace Loss

variable [PyRuntime]

/-- The client does not put the lost authority back.  A demo request seeds the demo's agent and
    lease anew, so it may be about others only. -/
def AllowsClient (loss : Loss) : Client → Prop
  | .session _ cmds => ∀ cmd ∈ cmds, loss.Allows cmd
  | .proposal _ _ _ _ _ _ _ _ _ => True
  | .request demo =>
    loss.agentId ≠ CloudDemo.agent.agentId ∧ loss.leaseId ≠ (CloudDemo.lease demo.now).leaseId

/-- Every covered call of the client is answered with a BLOCK, if it is answered. -/
def WithholdsFrom (loss : Loss) : (client : Client) → client.Result → Prop
  | .session _ _, replies => ∀ reply ∈ replies, loss.Withholds reply.1 reply.2
  | .proposal _ _ draw identity leaseId _ _ _ _, outcome =>
    loss.Covers draw.now identity leaseId → outcome.receipt.decision = "BLOCK"
  | .request _, _ => True

theorem client_meets {loss : Loss} {client : Client} (hclient : loss.AllowsClient client) :
    client.program.Meets loss.Found (loss.Respects client.Executes)
      fun r => ∀ result, r = .ok result → loss.WithholdsFrom client result := by
  cases client with
  | session fuel cmds =>
    refine session_meets fun cmd hcmd => command_meets (hclient cmd hcmd) fuel ?_
    rintro cp draw identity leaseId intent rfl
    exact ⟨cp, intent, hcmd⟩
  | proposal cp fuel draw identity leaseId plan authorizedTargetId intentId requestedAt =>
    exact executeProposal_meets ⟨rfl, rfl, rfl⟩ cp fuel plan authorizedTargetId intentId requestedAt
  | request demo =>
    exact (request_meets hclient.1 hclient.2 ⟨rfl, rfl, rfl⟩).mono (fun _ ho => ho)
      fun _ _ _ _ => trivial

end Loss

/-! ## Every interleaving -/

section Interleavings

variable [PyRuntime] {σ ι : Type} [DecidableEq ι] {h : Handler RuntimeStore PyError σ}
  {view : σ → StoreView}

/-- Lost authority stays lost.  A lease is stored as revoked, expired, or of an epoch before the one
    its agent is stored with.  Any clients that do not put that authority back, interleaved in any
    way: it is still lost at every point of every schedule; no client is answered an ALLOW to a call
    of that agent on that lease, from the loss on; and every action that is executed, and every
    ALLOW receipt that is stored, belongs to some other call of the client that made it. -/
theorem lost_authority_stays_lost (himp : Implements h view) (loss : Loss) (clients : ι → Client)
    (hclients : ∀ i, loss.AllowsClient (clients i)) {s : σ} (hlost : loss.Stored (view s))
    (sched : List ι) :
    loss.Stored (view (Pool.runSchedule h sched (clientPool clients s)).state) ∧
    (∀ i result, (Pool.runSchedule h sched (clientPool clients s)).outcome i = some (.ok result) →
      loss.WithholdsFrom (clients i) result) ∧
    ∀ i o, (i, o) ∈ Pool.events h sched (clientPool clients s) → o.Grants →
      ∃ draw identity leaseId, (clients i).Executes draw identity leaseId ∧
        ¬ loss.Covers draw.now identity leaseId ∧ ControlPlane.ExecuteOp draw o := by
  have hkeep : ∀ i o t, loss.Respects (clients i).Executes o → loss.Stored (view t) →
      loss.Stored (view (h o t).2) := fun _ _ _ ho ht => ht.keep himp ho.1
  have hanswers : ∀ i o t, loss.Respects (clients i).Executes o → loss.Stored (view t) →
      loss.Found o (h o t).1 := fun _ o _ _ ht => ht.found himp o
  have hmeets : (clientPool clients s).AllMeet loss.Found
      (fun i => loss.Respects (clients i).Executes)
      fun i r => ∀ result, r = .ok result → loss.WithholdsFrom (clients i) result :=
    fun i => Loss.client_meets (hclients i)
  obtain ⟨hstored, hmeets', hevents⟩ := Pool.invariant_runSchedule (J := fun t => loss.Stored (view t))
    hkeep hanswers hlost hmeets sched
  refine ⟨hstored, fun i result hdone => ?_, fun i o he hgrants => (hevents (i, o) he).2 hgrants⟩
  have hi := hmeets' i
  rw [Pool.outcome_eq_some.mp hdone] at hi
  exact hi result rfl

end Interleavings

/-- The demo agent has moved on to epoch 8, and its lease is of epoch 7.  While a registrar promotes
    a capability of the agent and moves it on once more, its call on the lease is refused. -/
theorem a_stale_lease_is_refused_throughout :
    let now : DateTime := seededCall.draw.now
    let loss : Loss := ⟨"agent-maint-01", "lease-001", now, 8⟩
    let evidence : EvidenceItem :=
      ⟨"ev-1", "agent-maint-01", CloudDemo.action, .runtimeObservation, now, "", "trace-1"⟩
    let clients : Bool → Client
      | true => .session 2 [.execute seededCall.cp seededCall.draw seededCall.identity
          seededCall.leaseId seededCall.intent]
      | false => .session 2 [.operation (.putEvidence evidence),
          .promote "agent-maint-01" CloudDemo.action "ev-1",
          .operation (.putAgent { CloudDemo.agent with currentEpoch := 9 })]
    let registered := (MemoryStore.handle (.putAgent { CloudDemo.agent with currentEpoch := 8 }) {}).2
    let leased := (MemoryStore.handle (.putLease (CloudDemo.lease now)) registered).2
    let final := Pool.runSchedule MemoryStore.handle
      [false, true, false, false, true, true, false, false, true, true] (clientPool clients leased)
    loss.Stored final.state.view ∧
      ∃ replies, final.outcome true = some (.ok replies) ∧ loss.WithholdsFrom (clients true) replies := by
  intro now loss evidence clients registered leased final
  have hempty : loss.Stored (MemoryStore.view {}) := by
    rw [memoryStore_empty_view]
    constructor
    · intro id agent hfound
      cases hfound
    · intro id lease hfound
      cases hfound
  have hlost : loss.Stored leased.view := by
    refine Loss.Stored.keep memoryStore_implements ?_ (hempty.keep memoryStore_implements ?_)
    · exact fun _ => Or.inr (Or.inr (by decide))
    · exact fun _ => by decide
  have hclients : ∀ i, loss.AllowsClient (clients i) := by
    rintro (_ | _) cmd hcmd
    · rcases List.mem_cons.mp hcmd with rfl | hcmd
      · exact Or.inl ⟨trivial, trivial⟩
      rcases List.mem_cons.mp hcmd with rfl | hcmd
      · trivial
      · rw [List.mem_singleton.mp hcmd]
        exact Or.inl ⟨trivial, fun _ => by decide⟩
    · rw [List.mem_singleton.mp hcmd]
      trivial
  obtain ⟨hstored, hwithholds, -⟩ := lost_authority_stays_lost memoryStore_implements loss clients
    hclients hlost [false, true, false, false, true, true, false, false, true, true]
  have hdone : (final.outcome true).map (fun r => r.isOk) = some true := by decide +kernel
  refine ⟨hstored, ?_⟩
  cases houtcome : final.outcome true with
  | none =>
    rw [houtcome] at hdone
    cases hdone
  | some r =>
    cases r with
    | error e =>
      rw [houtcome] at hdone
      cases hdone
    | ok replies => exact ⟨replies, rfl, hwithholds true replies houtcome⟩

end PoiexGoc
