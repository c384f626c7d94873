/-
  A REVOCATION that races an execution.

  1. `execute_refuses` — whatever else the store answers: an execution whose lease read finds a
     lease that its agent may not use makes no action and stores no ALLOW receipt.

  2. The reads are separate operations, and nothing is read twice.  A revocation that is stored
     before the execution reads the lease therefore wins in every interleaving
     (`stored_revocation_wins_before_the_read`), and so does an epoch stored before it reads the
     agent.

  3. One that is stored after that read loses, although it is in the store before the action is
     written (`stored_revocation_loses_after_the_read`).
-/
import PoiexGoc.Proofs.ConcurrentExecutions

namespace PoiexGoc

open Py Effect FirestoreStore

namespace ControlPlane

/-- The agent and the lease an execution finds are in `agentP` and `leaseP`. -/
def Finds (agentId leaseId : String) (agentP : AgentRecord → Prop) (leaseP : AuthorityLease → Prop) :
    (o : StoreOp) → Except PyError o.Result → Prop
  | .getAgent id, r => id = agentId → ∀ agent, r = .ok (some agent) → agentP agent
  | .getLease id, r => id = leaseId → ∀ lease, r = .ok (some lease) → leaseP lease
  | _, _ => True

/-- The operations of an execution that allows nothing. -/
def Refusing : StoreOp → Prop
  | .putReceipt receipt => receipt.decision = "BLOCK"
  | o => o.IsRegistryRead

theorem Refusing.of_registryRead {o : StoreOp} (ho : o.IsRegistryRead) : Refusing o := by
  cases o with
  | getAgent | getLease | getAuthorityProvenance | getEvidence | getTarget => trivial
  | _ => exact ho.elim

section Refusals

variable {identity : IdentityContext} {leaseId : String} {intent : ActionIntent}
  {now : DateTime} {agentP : AgentRecord → Prop} {leaseP : AuthorityLease → Prop}

/-- Every agent and lease found have a reason against them. -/
def Denied (identity : IdentityContext) (intent : ActionIntent) (now : DateTime)
    (agentP : AgentRecord → Prop) (leaseP : AuthorityLease → Prop) : Prop :=
  ∀ agent lease, agentP agent → leaseP lease → leaseReasons identity intent agent lease now ≠ []

/-- A report that is settled with a BLOCK. -/
def Refused (r : Except PyError GateReport) : Prop :=
  ∀ report, r = .ok report → report.target = none ∨ report.reasons ≠ []

/-- A lease that is found has a reason against it, and so has one that is not. -/
theorem leaseGates_refuse (hdenied : Denied identity intent now agentP leaseP)
    (cp : ControlPlane) (fuel : Nat) {agent : AgentRecord} (hagent : agentP agent)
    {found : Option AuthorityLease} (hfound : ∀ lease, found = some lease → leaseP lease) :
    (leaseGates cp fuel now identity intent agent found).Meets
      (Finds identity.agentId leaseId agentP leaseP) StoreOp.IsRegistryRead
      fun r => ∀ reasons, r = .ok reasons → reasons ≠ [] := by
  cases found with
  | none =>
    rintro reasons hr
    rw [← Except.ok.inj hr]
    exact List.cons_ne_nil _ _
  | some lease =>
    have hne := hdenied agent lease hagent (hfound lease rfl)
    rw [leaseGates]
    by_cases hprov : cp.requireAuthorityProvenance
    · rw [if_pos hprov]
      refine Prog.meets_bind_ok ((readProvenance_issues (fun _ => trivial) fuel lease now
        _).meets _)
        fun provenance _ => ?_
      rintro reasons hr
      rw [← Except.ok.inj hr]
      exact List.append_ne_nil_of_left_ne_nil hne _
    · rw [if_neg hprov]
      rintro reasons hr
      rw [← Except.ok.inj hr]
      exact hne

theorem materialGates_refuse (hdenied : Denied identity intent now agentP leaseP)
    (cp : ControlPlane) (fuel : Nat) {agent : AgentRecord} (hagent : agentP agent) :
    (materialGates cp fuel now identity leaseId intent agent).Meets
      (Finds identity.agentId leaseId agentP leaseP) StoreOp.IsRegistryRead Refused := by
  unfold materialGates
  refine Prog.meets_bind_ok ((readEvidence_issues _).meets _) fun evidence _ => ?_
  refine Prog.meets_bind_ok (store.call_meets _ trivial) fun found hfound => ?_
  have hlease : ∀ lease, found = some lease → leaseP lease :=
    fun lease heq => hfound rfl lease (congrArg Except.ok heq)
  refine Prog.meets_bind_ok (leaseGates_refuse hdenied cp fuel hagent hlease) fun reasons hne => ?_
  refine Prog.meets_bind_ok (store.call_meets _ trivial) fun target _ => ?_
  rintro report hr
  rw [← Except.ok.inj hr]
  -- the lease's reasons are the middle part of the report
  right
  show _ ++ reasons ++ _ ≠ []
  exact List.append_ne_nil_of_left_ne_nil
    (List.append_ne_nil_of_right_ne_nil _ (hne reasons rfl)) _

theorem gates_refuse (hdenied : Denied identity intent now agentP leaseP) (cp : ControlPlane)
    (fuel : Nat) :
    (gates cp fuel now identity leaseId intent).Meets
      (Finds identity.agentId leaseId agentP leaseP) StoreOp.IsRegistryRead Refused := by
  unfold gates
  refine Prog.meets_bind_ok (store.call_meets _ trivial) fun found hfound => ?_
  split
  · rename_i agent _
    exact materialGates_refuse hdenied cp fuel (hfound rfl _ rfl)
  · rintro report hr
    rw [← Except.ok.inj hr]
    exact Or.inl rfl

/-- An execution that finds only what is denied makes no action, and the receipt it stores and
    returns says BLOCK. -/
theorem execute_refuses {draw : Draw}
    (hdenied : Denied identity intent draw.now agentP leaseP) (cp : ControlPlane) (fuel : Nat) :
    (execute cp fuel draw identity leaseId intent).Meets
      (Finds identity.agentId leaseId agentP leaseP) Refusing
      fun r => ∀ receipt, r = .ok receipt → receipt.decision = "BLOCK" := by
  unfold execute
  refine Prog.meets_bind_ok ((gates_refuse hdenied cp fuel).mono
    (fun _ => Refusing.of_registryRead) fun _ h => h) fun report hrefused => ?_
  unfold settle
  split
  · rename_i target htarget hnil
    rcases hrefused report rfl with hnone | hne
    · cases hnone.symm.trans htarget
    · exact absurd hnil hne
  · refine Prog.meets_bind_ok (store.call_meets _ rfl) fun _ _ => ?_
    rintro receipt hr
    rw [← Except.ok.inj hr]
    rfl

end Refusals

end ControlPlane

/-! ## The race -/

/-- The two clients of a race. -/
inductive Party where
  | executor
  | registrar
  deriving DecidableEq

@[reducible] def Party.Result : Party → Type
  | executor => ExecutionReceipt
  | registrar => Unit

section Race

variable [PyRuntime]

/-- One execution, and one other client that changes the registry. -/
def race (call : ExecuteCall) (update : StoreM Unit) (c : FirestoreClient) :
    Pool RuntimeStore PyError FirestoreClient Party Party.Result where
  state := c
  threads
    | .executor => call.program
    | .registrar => update

variable {fs : FirestoreStore} {c : FirestoreClient} {call : ExecuteCall}
  {agentP : AgentRecord → Prop} {leaseP : AuthorityLease → Prop}

/-- The stored agent and the stored lease of a call are in `agentP` and `leaseP`. -/
structure Holds (fs : FirestoreStore) (call : ExecuteCall) (agentP : AgentRecord → Prop)
    (leaseP : AuthorityLease → Prop) (s : FirestoreClient) : Prop where
  agent : ∀ a, (fs.view s).agent call.identity.agentId = .ok (some a) → agentP a
  lease : ∀ l, (fs.view s).lease call.leaseId = .ok (some l) → leaseP l

theorem Holds.finds {s : FirestoreClient} (hs : Holds fs call agentP leaseP s) (o : StoreOp) :
    ControlPlane.Finds call.identity.agentId call.leaseId agentP leaseP o (fs.handle o s).1 := by
  cases o with
  | getAgent id =>
    rintro rfl a ha
    exact hs.agent a ha
  | getLease id =>
    rintro rfl l hl
    exact hs.lease l hl
  | _ => trivial

/-- An execution changes no registry document. -/
theorem Holds.execute {s : FirestoreClient} (hs : Holds fs call agentP leaseP s) {o : StoreOp}
    (ho : ControlPlane.ExecuteOp call.draw o) : Holds fs call agentP leaseP (fs.handle o s).2 := by
  have hkeep : ∀ o' : StoreOp, o'.IsRegistryRead →
      (fs.handle o' (fs.handle o s).2).1 = (fs.handle o' s).1 := by
    intro o' ho'
    refine fs.handle_answer_keep ?_ s
    rcases executeOp_cases fs ho with hread | hreceipt | haction
    · exact Or.inl (written_of_isRead hread.isRead)
    · right
      rw [hreceipt]
      rintro heq
      exact not_registryKey fs (by decide) _ (heq ▸ registryKey_of_read fs ho')
    · right
      rw [haction]
      rintro heq
      exact not_registryKey fs (by decide) _ (heq ▸ registryKey_of_read fs ho')
  refine ⟨fun a ha => hs.agent a ?_, fun l hl => hs.lease l ?_⟩
  · exact (hkeep (.getAgent call.identity.agentId) trivial).symm.trans ha
  · exact (hkeep (.getLease call.leaseId) trivial).symm.trans hl

/-- No action is executed and no ALLOW receipt issued in the schedule, by the execution of `pool`. -/
structure NothingAllowed (fs : FirestoreStore) (call : ExecuteCall) (sched : List Party)
    (pool : Pool RuntimeStore PyError FirestoreClient Party Party.Result) : Prop where
  noAction : ∀ runId payload,
    (.executor, .executeSyntheticAction runId payload) ∉ Pool.events fs.handle sched pool
  noReceipt : ∀ receipt, (.executor, .putReceipt receipt) ∈ Pool.events fs.handle sched pool →
    receipt.decision = "BLOCK"
  actionDoc : (Pool.runSchedule fs.handle sched pool).state.docs.lookup (call.actionKey fs) =
    pool.state.docs.lookup (call.actionKey fs)
  outcome : ∀ receipt, (Pool.runSchedule fs.handle sched pool).outcome .executor =
    some (.ok receipt) → receipt.decision = "BLOCK"

/-- Neither a refusing execution nor a registry put writes the action document. -/
theorem lookup_action_keep {o : StoreOp}
    (ho : ControlPlane.Refusing o ∨ o.IsRegistryPut) (s : FirestoreClient) :
    (fs.handle o s).2.docs.lookup (call.actionKey fs) =
      s.docs.lookup (call.actionKey fs) := by
  have hother : o.docName.1 ≠ "synthetic_actions" →
      (fs.handle o s).2.docs.lookup (call.actionKey fs) = s.docs.lookup (call.actionKey fs) :=
    fun hkind => fs.lookup_handle_of_ne (fs.docKey_ne_of_kind hkind.symm _ _) s
  rcases ho with hrefusing | hput
  · cases o with
    | putReceipt receipt => exact hother (show "receipts" ≠ "synthetic_actions" by decide)
    | getAgent | getLease | getAuthorityProvenance | getEvidence | getTarget => rfl
    | _ => exact hrefusing.elim
  · exact hother (ne_of_mem_registryKinds hput.docName_mem (by decide)).symm

/-- The execution's operations, and the registrar's one put. -/
theorem race_events {u : StoreOp} {k : Except PyError u.Result → StoreM Unit}
    (hk : ∀ r, ∃ x, k r = .done x) {sched : List Party} {party : Party} {o : StoreOp}
    (he : (party, o) ∈ Pool.events fs.handle sched (race call (.call u k) c)) :
    (party = .executor ∧ ControlPlane.ExecuteOp call.draw o) ∨ (party = .registrar ∧ o = u) := by
  cases party with
  | executor =>
    have hissues : ((race call (.call u k) c).threads .executor).Issues
        (ControlPlane.ExecuteOp call.draw) := ControlPlane.execute_issues _ _ _ _ _ _
    exact Or.inl ⟨rfl, Pool.issues_of_mem_events hissues he⟩
  | registrar =>
    have hissues : ((race call (.call u k) c).threads .registrar).Issues
        (fun o : StoreOp => o = u) := by
      refine ⟨rfl, fun r => ?_⟩
      obtain ⟨x, hx⟩ := hk r
      rw [hx]
      trivial
    exact Or.inr ⟨rfl, Pool.issues_of_mem_events hissues he⟩

/-- A registry put that is stored while the execution can still be refused.  `J` is what is known
    of the store before the put: it lets the reads made so far be answered as `agentP` and `leaseP`
    say, and makes the put establish both.  From then on nobody changes the registry. -/
theorem nothingAllowed_of_put {u : StoreOp} {k : Except PyError u.Result → StoreM Unit}
    (hu : u.IsRegistryPut) (hk : ∀ r, ∃ x, k r = .done x) {pre post : List Party}
    (hsilent : .registrar ∉ pre)
    (hdenied : ControlPlane.Denied call.identity call.intent call.draw.now agentP leaseP)
    {J : FirestoreClient → Prop} (hJ : J c)
    (hkeep : ∀ o s, ControlPlane.ExecuteOp call.draw o → J s → J (fs.handle o s).2)
    (hreads : ∀ o s, (Party.executor, o) ∈ Pool.events fs.handle pre (race call (.call u k) c) →
      J s →
      ControlPlane.Finds call.identity.agentId call.leaseId agentP leaseP o (fs.handle o s).1)
    (hwrite : ∀ s, J s → Holds fs call agentP leaseP (fs.handle u s).2) :
    NothingAllowed fs call (pre ++ .registrar :: post) (race call (.call u k) c) := by
  have hevents := @race_events _ fs c call u k hk (pre ++ .registrar :: post)
  -- the put is the registrar's first and only step
  have hwaiting : (Pool.runSchedule fs.handle pre (race call (.call u k) c)).threads .registrar =
      .call u k := Pool.threads_eq_of_silent fun e he heq =>
    hsilent (heq ▸ Pool.mem_of_mem_events he)
  have hstored : ∀ o, (Party.registrar, o) ∉ Pool.events fs.handle post
      ((Pool.runSchedule fs.handle pre (race call (.call u k) c)).step fs.handle .registrar) := by
    intro o
    obtain ⟨x, hx⟩ := hk (fs.handle u (Pool.runSchedule fs.handle pre
      (race call (.call u k) c)).state).1
    exact Pool.not_mem_events_of_done ((Pool.step_threads_self hwaiting).trans hx) o
  have hsplit := Pool.events_append fs.handle pre (.registrar :: post) (race call (.call u k) c)
  have hbefore : ∀ e ∈ Pool.events fs.handle pre (race call (.call u k) c), ∀ s, J s →
      J (fs.handle e.2 s).2 := by
    rintro ⟨party, o⟩ he s hs
    rcases hevents (hsplit ▸ List.mem_append_left _ he) with ⟨-, ho⟩ | ⟨rfl, -⟩
    · exact hkeep o s ho hs
    · exact absurd (Pool.mem_of_mem_events he) hsilent
  have hafter : ∀ e ∈ Pool.events fs.handle post
      ((Pool.runSchedule fs.handle pre (race call (.call u k) c)).step fs.handle .registrar),
      ∀ s, Holds fs call agentP leaseP s → Holds fs call agentP leaseP (fs.handle e.2 s).2 := by
    rintro ⟨party, o⟩ he s hs
    rcases hevents (hsplit ▸ List.mem_append_right _ (Pool.mem_events_cons.mpr (Or.inr he))) with
      ⟨-, ho⟩ | ⟨rfl, -⟩
    · exact hs.execute ho
    · exact absurd he (hstored o)
  obtain ⟨hmeets, hrefusing⟩ := Pool.meets_across
    (show Party.executor ≠ .registrar by decide) hJ hbefore hreads (Pool.next_of_call hwaiting)
    hwrite hafter (fun o s _ hs => hs.finds o)
    (show ((race call (.call u k) c).threads .executor).Meets _ _ _ from
      ControlPlane.execute_refuses hdenied call.cp call.fuel)
  refine ⟨fun runId payload ho => hrefusing _ ho, fun receipt ho => hrefusing _ ho, ?_,
    fun receipt hr => ?_⟩
  · -- neither client writes the action document
    refine Pool.schedule_invariant (I := fun s : FirestoreClient =>
      s.docs.lookup (call.actionKey fs) = c.docs.lookup (call.actionKey fs)) rfl ?_
    rintro ⟨party, o⟩ he s hs
    rcases hevents he with ⟨rfl, -⟩ | ⟨rfl, rfl⟩
    · exact (lookup_action_keep (Or.inl (hrefusing o he)) s).trans hs
    · exact (lookup_action_keep (Or.inr hu) s).trans hs
  · rw [Pool.outcome_eq_some.mp hr] at hmeets
    exact hmeets receipt rfl

/-- A revocation, or a new epoch, wins in every interleaving in which it is stored before the
    execution's own read of the lease, or of the agent. -/
theorem stored_revocation_wins_before_the_read (fs : FirestoreStore) (c : FirestoreClient)
    (call : ExecuteCall) (pre post : List Party) (hsilent : .registrar ∉ pre) :
    (∀ lease : AuthorityLease, lease.leaseId = call.leaseId →
      revokedBy lease.revokedAt call.draw.now →
      (.executor, .getLease call.leaseId) ∉
        Pool.events fs.handle pre (race call (store.putLease lease) c) →
      NothingAllowed fs call (pre ++ .registrar :: post) (race call (store.putLease lease) c)) ∧
    (∀ agent : AgentRecord, agent.agentId = call.identity.agentId →
      (∀ l, (fs.view c).lease call.leaseId = .ok (some l) → l.epoch ≠ agent.currentEpoch) →
      (.executor, .getAgent call.identity.agentId) ∉
        Pool.events fs.handle pre (race call (store.putAgent agent) c) →
      NothingAllowed fs call (pre ++ .registrar :: post) (race call (store.putAgent agent) c)) := by
  constructor
  · -- a revocation: nothing need be known of the store before it
    intro lease hid hrevoked hunread
    have hdenied : ControlPlane.Denied call.identity call.intent call.draw.now (fun _ => True)
        (fun l => revokedBy l.revokedAt call.draw.now) := by
      intro agent l _ hl hnil
      exact (ControlPlane.leaseReasons_eq_nil.mp hnil).2.2.1 hl
    refine nothingAllowed_of_put (u := .putLease lease) (J := fun _ => True) trivial
      (fun r => ⟨r, rfl⟩) hsilent hdenied trivial (fun _ _ _ _ => trivial) ?_ ?_
    · intro o s ho _
      cases o with
      | getAgent id => exact fun _ _ _ => trivial
      | getLease id =>
        rintro rfl
        exact absurd ho hunread
      | _ => trivial
    · intro s _
      have hview := (firestoreStore_refines fs (.putLease lease) s trivial).2
      refine ⟨fun _ _ => trivial, fun l hl => ?_⟩
      rw [hview, ← hid] at hl
      have hfound := ((fs.view s).putLease_self lease).symm.trans hl
      rw [← Option.some.inj (Except.ok.inj hfound)]
      exact hrevoked
  · -- a new epoch: the stored lease keeps the old one, since the execution writes no lease
    intro agent hid hepoch hunread
    have hdenied : ControlPlane.Denied call.identity call.intent call.draw.now
        (fun a => a.currentEpoch = agent.currentEpoch)
        (fun l => l.epoch ≠ agent.currentEpoch) := by
      intro a l ha hl hnil
      exact hl ((ControlPlane.leaseReasons_eq_nil.mp hnil).2.2.2.2.trans ha)
    refine nothingAllowed_of_put (u := .putAgent agent)
      (J := Holds fs call (fun _ => True) fun l => l.epoch ≠ agent.currentEpoch) trivial
      (fun r => ⟨r, rfl⟩) hsilent hdenied ⟨fun _ _ => trivial, hepoch⟩
      (fun o s ho hs => hs.execute ho) ?_ ?_
    · intro o s ho hs
      cases o with
      | getAgent id =>
        rintro rfl
        exact absurd ho hunread
      | getLease id =>
        rintro rfl l hl
        exact hs.lease l hl
      | _ => trivial
    · intro s hs
      have hview := (firestoreStore_refines fs (.putAgent agent) s trivial).2
      refine ⟨fun a ha => ?_, fun l hl => ?_⟩
      · rw [hview, ← hid] at ha
        have hfound := ((fs.view s).putAgent_self agent).symm.trans ha
        rw [← Option.some.inj (Except.ok.inj hfound)]
      · rw [hview] at hl
        exact hs.lease l hl

end Race

/-! ## On the seeded demo store -/

/-- The seeded lease, revoked a second ago. -/
def revokedLease : AuthorityLease :=
  { CloudDemo.lease ⟨1787838300000000, 0⟩ with
    revokedAt := some ⟨1787838299000000, 0⟩ }

/-- The revocation is stored before the action, and the action is executed all the same: the
    execution has read the agent, the evidence and the lease, the revoked lease is put, and the
    execution goes on to its ALLOW receipt. -/
theorem stored_revocation_loses_after_the_read :
    let stored := Pool.runSchedule demoStore.handle [.executor, .executor, .executor, .registrar]
      (race seededCall (store.putLease revokedLease) seededClient)
    let final := Pool.runSchedule demoStore.handle
      [.executor, .executor, .executor, .executor, .executor] stored
    revokedBy revokedLease.revokedAt seededCall.draw.now ∧
    (demoStore.view stored.state).lease seededCall.leaseId = .ok (some revokedLease) ∧
    stored.state.docs.lookup (seededCall.actionKey demoStore) = none ∧
    (final.state.docs.lookup (seededCall.actionKey demoStore)).isSome ∧
    (final.outcome .executor).map (fun r => r.map ExecutionReceipt.decision) =
      some (.ok "ALLOW") := by
  decide +kernel

/-- The demo agent in its next epoch. -/
def advancedAgent : AgentRecord :=
  { CloudDemo.agent with
    observedCapabilities := Finmap.singleton CloudDemo.action "ev-runtime-001"
    currentEpoch := CloudDemo.agent.currentEpoch + 1 }

/-- The same revocation, stored while the execution has read the agent and the evidence only, and a
    new epoch, stored before it has read anything: either way the execution ends with a BLOCK. -/
theorem early_revocation_wins :
    let revoking := race seededCall (store.putLease revokedLease) seededClient
    let advancing := race seededCall (store.putAgent advancedAgent) seededClient
    let midway := [.executor, .executor] ++ .registrar ::
      [.executor, .executor, .executor, .executor, .executor]
    let before := [] ++ .registrar ::
      [.executor, .executor, .executor, .executor, .executor, .executor, .executor]
    (NothingAllowed demoStore seededCall midway revoking ∧
      ((Pool.runSchedule demoStore.handle midway revoking).outcome .executor).map
        (fun r => r.map ExecutionReceipt.decision) = some (.ok "BLOCK")) ∧
    NothingAllowed demoStore seededCall before advancing ∧
      ((Pool.runSchedule demoStore.handle before advancing).outcome .executor).map
        (fun r => r.map ExecutionReceipt.decision) = some (.ok "BLOCK") := by
  intro revoking advancing midway before
  have hrevoked : revokedBy revokedLease.revokedAt seededCall.draw.now := by decide
  have hunread : (Party.executor, StoreOp.getLease seededCall.leaseId) ∉
      Pool.events demoStore.handle [.executor, .executor] revoking := by
    intro he
    have hnames : (Pool.events demoStore.handle [.executor, .executor] revoking).map
        (fun e => e.2.docName.1) = ["agents", "evidence"] := by decide +kernel
    have hname : "leases" ∈ (["agents", "evidence"] : List String) :=
      hnames ▸ List.mem_map_of_mem (f := fun e : Party × StoreOp => e.2.docName.1) he
    exact absurd hname (by decide)
  have hlease : (demoStore.view seededClient).lease seededCall.leaseId =
      .ok (some (CloudDemo.lease ⟨1787838300000000, 0⟩)) := by decide +kernel
  have hstale : ∀ l, (demoStore.view seededClient).lease seededCall.leaseId = .ok (some l) →
      l.epoch ≠ advancedAgent.currentEpoch := by
    intro l hl
    obtain rfl := Option.some.inj (Except.ok.inj (hlease.symm.trans hl))
    decide
  refine ⟨⟨?_, by decide +kernel⟩, ?_, by decide +kernel⟩
  · exact (stored_revocation_wins_before_the_read demoStore seededClient seededCall
      [.executor, .executor] [.executor, .executor, .executor, .executor, .executor] (by decide)).1
        revokedLease rfl hrevoked hunread
  · exact (stored_revocation_wins_before_the_read demoStore seededClient seededCall []
      [.executor, .executor, .executor, .executor, .executor, .executor, .executor]
      List.not_mem_nil).2 advancedAgent rfl hstale List.not_mem_nil

end PoiexGoc
