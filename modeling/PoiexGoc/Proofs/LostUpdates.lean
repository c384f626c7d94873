/-
  Two read-modify-write UPDATES of one agent document.

  A promotion and an epoch advance both read the whole document, change one field and put the
  whole document back.

  1. One after the other they compose: `promote_then_advance` and its mirror image are the same
     final agent, and it bars every lease of the old epoch (`execute_stale`).

  2. So an interleaving in which one has finished before the other reads keeps both updates
     (`separate_updates_survive`).

  3. When the reads of both come before the writes, the later write puts back what the earlier one
     had changed (`overlapping_update_is_lost`): a stale lease is valid again.
-/
import PoiexGoc.Proofs.RevocationRaces
import PoiexGoc.Proofs.ReplayReports

namespace PoiexGoc

open Py Effect FirestoreStore

/-- The two clients that update an agent. -/
inductive Updater where
  | promoter
  | advancer
  deriving DecidableEq

def withNextEpoch (agent : AgentRecord) : AgentRecord :=
  { agent with currentEpoch := agent.currentEpoch + 1 }

/-- What each client changes. -/
def Updater.change (capability evidenceId : String) : Updater → AgentRecord → AgentRecord
  | .promoter => withCapability capability evidenceId
  | .advancer => withNextEpoch

theorem Updater.change_agentId (capability evidenceId : String) (u : Updater)
    (agent : AgentRecord) : (u.change capability evidenceId agent).agentId = agent.agentId := by
  cases u with
  | promoter => rfl
  | advancer => rfl

theorem Updater.eq_of_ne_of_ne {first second u : Updater} (hne : first ≠ second) (hu : u ≠ second) :
    u = first := by
  cases u with
  | promoter =>
    cases first with
    | promoter => rfl
    | advancer =>
      cases second with
      | promoter => exact absurd rfl hu
      | advancer => exact absurd rfl hne
  | advancer =>
    cases first with
    | promoter =>
      cases second with
      | promoter => exact absurd rfl hne
      | advancer => exact absurd rfl hu
    | advancer => rfl

/-- Both changes commute: they are about different fields. -/
theorem Updater.change_change {first second : Updater} (hne : first ≠ second)
    (capability evidenceId : String) (agent : AgentRecord) :
    second.change capability evidenceId (first.change capability evidenceId agent) =
      withNextEpoch (withCapability capability evidenceId agent) := by
  cases first with
  | promoter =>
    cases second with
    | promoter => exact absurd rfl hne
    | advancer => rfl
  | advancer =>
    cases second with
    | promoter => rfl
    | advancer => exact absurd rfl hne

section Updates

variable [PyRuntime]

/-- A promotion and an epoch advance on one store; the advance is the step of the demo's
    `policy_epoch_stale` case. -/
def updates (agentId capability evidenceId : String) (ctx : CloudDemo.DemoContext)
    (c : FirestoreClient) : Pool RuntimeStore PyError FirestoreClient Updater fun _ => Unit where
  state := c
  threads
    | .promoter => ControlPlane.promoteObservedCapability agentId capability evidenceId
    | .advancer => CloudDemo.applyCase "policy_epoch_stale" ctx

variable {σ : Type} {h : Handler RuntimeStore PyError σ} {view : σ → StoreView}

/-- An epoch advance is one put: the agent with the next epoch. -/
theorem advance_run (himp : Implements h view) {s : σ} {agent : AgentRecord}
    {ctx : CloudDemo.DemoContext}
    (hagent : (view s).agent ctx.identity.agentId = .ok (some agent)) :
    (CloudDemo.applyCase "policy_epoch_stale" ctx).run h s =
      (store.putAgent (withNextEpoch agent)).run h s := by
  have hread : (store.getAgent ctx.identity.agentId).run h s = (.ok (some agent), s) := by
    rw [himp.run_read (show StoreOp.IsRead (.getAgent ctx.identity.agentId) from trivial),
      ← hagent]
    rfl
  rw [CloudDemo.applyCase, if_neg (by decide), if_pos rfl, Prog.run_bind_ok hread]
  rfl

/-- A put does not raise, and is the answer from then on. -/
theorem putAgent_run (himp : Implements h view) (agent : AgentRecord) (s : σ) :
    (store.putAgent agent).run h s = (.ok (), (h (.putAgent agent) s).2) ∧
      view (h (.putAgent agent) s).2 = (view s).putAgent agent := by
  have hrefines := himp.refines (.putAgent agent) s trivial
  exact ⟨Prod.ext hrefines.1 rfl, hrefines.2⟩

/-- What the two updates have in common: each replaces the agent by the updated agent. -/
structure UpdatesBy (h : Handler RuntimeStore PyError σ) (view : σ → StoreView) (agentId : String)
    (evidenceId : String) (evidence : EvidenceItem) (p : StoreM Unit)
    (change : AgentRecord → AgentRecord) : Prop where
  run : ∀ s agent, (view s).agent agentId = .ok (some agent) →
    (view s).evidence evidenceId = .ok (some evidence) →
    ∃ s', p.run h s = (.ok (), s') ∧ view s' = (view s).putAgent (change agent)

theorem promote_updates (himp : Implements h view) {agentId capability evidenceId : String}
    {evidence : EvidenceItem} (hsupports : Supports evidence agentId capability) :
    UpdatesBy h view agentId evidenceId evidence
      (ControlPlane.promoteObservedCapability agentId capability evidenceId)
      (withCapability capability evidenceId) where
  run := by
    intro s agent hagent hevidence
    rw [ControlPlane.promote_run himp hagent hevidence hsupports]
    exact ⟨_, putAgent_run himp _ s⟩

theorem advance_updates (himp : Implements h view) (ctx : CloudDemo.DemoContext)
    (evidenceId : String) (evidence : EvidenceItem) :
    UpdatesBy h view ctx.identity.agentId evidenceId evidence
      (CloudDemo.applyCase "policy_epoch_stale" ctx) withNextEpoch where
  run := by
    intro s agent hagent _
    rw [advance_run himp hagent]
    exact ⟨_, putAgent_run himp _ s⟩

/-- A lease of another epoch than its agent's is refused, whatever else is stored: a call that
    returns returns a BLOCK, and over a registry that decodes it returns. -/
theorem execute_stale (himp : Implements h view) {s : σ} {call : ExecuteCall} {agent : AgentRecord}
    {lease : AuthorityLease}
    (hagent : (view s).agent call.identity.agentId = .ok (some agent))
    (hidentity : ControlPlane.identityReasons call.identity (some agent) call.intent = [])
    (hlease : (view s).lease call.leaseId = .ok (some lease))
    (hstale : lease.epoch ≠ agent.currentEpoch) :
    (∀ receipt, (call.program.run h s).1 = .ok receipt →
      receipt.decision = "BLOCK" ∧ "AUTHORITY_EPOCH_STALE" ∈ receipt.reasons) ∧
    ∀ provenanceIds, ControlPlane.RegistryDecodes (view s) provenanceIds →
      provenanceIds.card < call.fuel → ∃ receipt, (call.program.run h s).1 = .ok receipt := by
  have hreason : "AUTHORITY_EPOCH_STALE" ∈ ControlPlane.leaseReasons call.identity call.intent
      agent lease call.draw.now := by
    rw [ControlPlane.leaseReasons]
    exact List.mem_append_right _ (mem_reasonIf.mpr ⟨hstale, rfl⟩)
  have hmem := fun report => @ControlPlane.mem_reasons_of_lease _ call.cp call.fuel call.draw.now
    call.identity call.leaseId call.intent _ _ _ hagent hidentity hlease _ hreason report
  have hrun := ControlPlane.execute_run himp call.cp call.fuel call.draw call.identity call.leaseId
    call.intent s
  -- whatever the gates report, the receipt carries the reason
  have hblock : ∀ report, (ControlPlane.gates call.cp call.fuel call.draw.now call.identity
      call.leaseId call.intent).eval (view s).answers = .ok report →
      (call.program.run h s).1 =
        .ok (ControlPlane.blockReceipt call.draw call.identity call.leaseId call.intent report) := by
    intro report heval
    rw [heval] at hrun
    exact congrArg Prod.fst (hrun.trans (ControlPlane.settle_run_block himp
      (Or.inr (List.ne_nil_of_mem (hmem report heval))) _ _ _ _ s))
  constructor
  · intro receipt hreceipt
    cases heval : (ControlPlane.gates call.cp call.fuel call.draw.now call.identity call.leaseId
        call.intent).eval (view s).answers with
    | error e =>
      rw [heval] at hrun
      cases (congrArg Prod.fst hrun).symm.trans hreceipt
    | ok report =>
      obtain rfl := Except.ok.inj ((hblock report heval).symm.trans hreceipt)
      exact ⟨rfl, hmem report heval⟩
  · intro provenanceIds hdec hfuel
    obtain ⟨report, heval⟩ := ControlPlane.gates_eval_isOk hdec hfuel call.cp call.draw.now
      call.identity call.leaseId call.intent
    exact ⟨_, hblock report heval⟩

/-! ## Interleavings -/

variable {fs : FirestoreStore} {c : FirestoreClient} {ctx : CloudDemo.DemoContext}
  {capability evidenceId : String} {agent : AgentRecord} {evidence : EvidenceItem}

theorem updates_by (fs : FirestoreStore) (c : FirestoreClient)
    (hsupports : Supports evidence ctx.identity.agentId capability) (u : Updater) :
    UpdatesBy fs.handle fs.view ctx.identity.agentId evidenceId evidence
      ((updates ctx.identity.agentId capability evidenceId ctx c).threads u)
      (u.change capability evidenceId) := by
  cases u with
  | promoter => exact promote_updates (firestoreStore_implements fs) hsupports
  | advancer => exact advance_updates (firestoreStore_implements fs) ctx evidenceId evidence

/-- The second client starts after the first has finished: what the store then holds is the store
    of the second run after the first. -/
theorem view_of_separate (hsupports : Supports evidence ctx.identity.agentId capability)
    (hagent : (fs.view c).agent ctx.identity.agentId = .ok (some agent))
    (hid : agent.agentId = ctx.identity.agentId)
    (hevidence : (fs.view c).evidence evidenceId = .ok (some evidence)) {first second : Updater}
    (hne : first ≠ second) {pre post : List Updater} (hpre : second ∉ pre)
    (hfirst : (Pool.runSchedule fs.handle pre
      (updates ctx.identity.agentId capability evidenceId ctx c)).outcome first ≠ none)
    (hsecond : (Pool.runSchedule fs.handle (pre ++ post)
      (updates ctx.identity.agentId capability evidenceId ctx c)).outcome second ≠ none) :
    fs.view (Pool.runSchedule fs.handle (pre ++ post)
        (updates ctx.identity.agentId capability evidenceId ctx c)).state =
      ((fs.view c).putAgent (first.change capability evidenceId agent)).putAgent
        (withNextEpoch (withCapability capability evidenceId agent)) := by
  have hother : ∀ u : Updater, u ≠ second → u = first := fun u hu => Updater.eq_of_ne_of_ne hne hu
  -- up to the end of `pre`, the first client alone
  obtain ⟨r₁, hr₁⟩ := Option.ne_none_iff_exists'.mp hfirst
  have hrun₁ := Pool.run_of_alone
    (fun e he => hother e.1 fun heq => hpre (heq ▸ Pool.mem_of_mem_events he)) hr₁
  obtain ⟨s₁, hs₁, hview₁⟩ := (updates_by fs c hsupports first).run c agent hagent hevidence
  have hstate₁ : (Pool.runSchedule fs.handle pre
      (updates ctx.identity.agentId capability evidenceId ctx c)).state = s₁ :=
    congrArg Prod.snd (hrun₁.symm.trans hs₁)
  have hsame := @Pool.threads_eq_of_silent _ _ _ _ _ _ fs.handle second pre
    (updates ctx.identity.agentId capability evidenceId ctx c)
    fun e he heq => hpre (heq ▸ Pool.mem_of_mem_events he)
  -- from there on the first client is finished, so the second is alone
  rw [Pool.runSchedule_append] at hsecond ⊢
  obtain ⟨r₂, hr₂⟩ := Option.ne_none_iff_exists'.mp hsecond
  have halone : ∀ e ∈ Pool.events fs.handle post (Pool.runSchedule fs.handle pre
      (updates ctx.identity.agentId capability evidenceId ctx c)), e.1 = second := by
    rintro ⟨u, o⟩ he
    by_contra hu
    rw [show u = first from hother u hu] at he
    exact Pool.not_mem_events_of_done (Pool.outcome_eq_some.mp hr₁) o he
  have hrun₂ := Pool.run_of_alone halone hr₂
  rw [hsame] at hrun₂
  have hagent₁ : (fs.view s₁).agent ctx.identity.agentId =
      .ok (some (first.change capability evidenceId agent)) := by
    have hkeeps := first.change_agentId capability evidenceId agent
    rw [hview₁, ← hid, ← hkeeps]
    exact StoreView.putAgent_self _ _
  have hevidence₁ : (fs.view s₁).evidence evidenceId = .ok (some evidence) := by
    rw [hview₁]
    exact hevidence
  obtain ⟨s₂, hs₂, hview₂⟩ := (updates_by fs c hsupports second).run s₁ _ hagent₁ hevidence₁
  rw [hstate₁] at hrun₂
  refine (congrArg fs.view (congrArg Prod.snd (hrun₂.symm.trans hs₂))).trans ?_
  rw [hview₂, hview₁, Updater.change_change hne]

/-- When one client starts after the other has finished, both updates are in the final agent, and
    the leases of the old epoch stay blocked. -/
theorem separate_updates_survive (hsupports : Supports evidence ctx.identity.agentId capability)
    (hagent : (fs.view c).agent ctx.identity.agentId = .ok (some agent))
    (hid : agent.agentId = ctx.identity.agentId)
    (hevidence : (fs.view c).evidence evidenceId = .ok (some evidence)) {first second : Updater}
    (hne : first ≠ second) {pre post : List Updater} (hpre : second ∉ pre)
    (hfirst : (Pool.runSchedule fs.handle pre
      (updates ctx.identity.agentId capability evidenceId ctx c)).outcome first ≠ none)
    (hsecond : (Pool.runSchedule fs.handle (pre ++ post)
      (updates ctx.identity.agentId capability evidenceId ctx c)).outcome second ≠ none) :
    let final := (Pool.runSchedule fs.handle (pre ++ post)
      (updates ctx.identity.agentId capability evidenceId ctx c)).state
    (fs.view final).agent ctx.identity.agentId =
      .ok (some (withNextEpoch (withCapability capability evidenceId agent))) ∧
    ∀ (call : ExecuteCall) (lease : AuthorityLease),
      call.identity.agentId = ctx.identity.agentId → call.identity.authenticated = true →
      call.intent.agentId = call.identity.agentId →
      (fs.view c).lease call.leaseId = .ok (some lease) → lease.epoch = agent.currentEpoch →
      (∀ receipt, (call.program.run fs.handle final).1 = .ok receipt →
        receipt.decision = "BLOCK" ∧ "AUTHORITY_EPOCH_STALE" ∈ receipt.reasons) ∧
      ∀ provenanceIds, ControlPlane.RegistryDecodes (fs.view c) provenanceIds →
        provenanceIds.card < call.fuel →
          ∃ receipt, (call.program.run fs.handle final).1 = .ok receipt := by
  intro final
  have hview : fs.view final =
      ((fs.view c).putAgent (first.change capability evidenceId agent)).putAgent
        (withNextEpoch (withCapability capability evidenceId agent)) :=
    view_of_separate hsupports hagent hid hevidence hne hpre hfirst hsecond
  have hfinal : (fs.view final).agent ctx.identity.agentId =
      .ok (some (withNextEpoch (withCapability capability evidenceId agent))) := by
    rw [hview, ← hid]
    exact StoreView.putAgent_self _ _
  refine ⟨hfinal, fun call lease hcaller hauth hintent hlease hepoch => ?_⟩
  have hidentity : ControlPlane.identityReasons call.identity
      (some (withNextEpoch (withCapability capability evidenceId agent))) call.intent = [] :=
    ControlPlane.identityReasons_eq_nil.mpr ⟨hauth, Option.some_ne_none _, hintent⟩
  have hlease' : (fs.view final).lease call.leaseId = .ok (some lease) := by
    rw [hview]
    exact hlease
  -- the lease is of the epoch before the advance
  have hstale : lease.epoch ≠
      (withNextEpoch (withCapability capability evidenceId agent)).currentEpoch := by
    show lease.epoch ≠ agent.currentEpoch + 1
    omega
  rw [← hcaller] at hfinal
  obtain ⟨hblocks, hreturns⟩ :=
    execute_stale (firestoreStore_implements fs) hfinal hidentity hlease' hstale
  refine ⟨hblocks, fun provenanceIds hdec hfuel => hreturns provenanceIds ?_ hfuel⟩
  rw [hview]
  exact (hdec.handle (o := .putAgent _) nofun).handle (o := .putAgent _) nofun

end Updates

/-! ## On the seeded demo store -/

def seededContext : CloudDemo.DemoContext where
  controlPlane := CloudDemo.controlPlane
  identity := CloudDemo.identity "s1"
  leaseId := "lease-001"
  authorizedTargetId := "pump-A"
  now := ⟨1787838300000000, 0⟩

def seededUpdates : Pool RuntimeStore PyError FirestoreClient Updater fun _ => Unit :=
  updates "agent-maint-01" CloudDemo.action "ev-runtime-001" seededContext seededClient

/-- Both clients have read the agent when the advance is stored, and the promotion puts back the
    epoch it read: both finish, the epoch is 7 as before, and the lease of epoch 7 is good for an
    ALLOW. -/
theorem overlapping_update_is_lost :
    let final := Pool.runSchedule demoStore.handle
      [.promoter, .advancer, .advancer, .promoter, .promoter] seededUpdates
    (∀ u, final.outcome u = some (.ok ())) ∧
    ((demoStore.view seededClient).agent "agent-maint-01").map (Option.map AgentRecord.currentEpoch)
      = .ok (some 7) ∧
    ((demoStore.view final.state).agent "agent-maint-01").map (Option.map AgentRecord.currentEpoch)
      = .ok (some 7) ∧
    (seededCall.program.run demoStore.handle final.state).1.map ExecutionReceipt.decision =
      .ok "ALLOW" := by
  refine ⟨fun u => ?_, ?_⟩
  · cases u with
    | promoter => decide +kernel
    | advancer => decide +kernel
  · decide +kernel

/-- The agent of the seeded store, and the evidence of its capability. -/
def seededAgent : AgentRecord :=
  withCapability CloudDemo.action "ev-runtime-001" CloudDemo.agent

def seededEvidence : EvidenceItem :=
  { evidenceId := "ev-runtime-001", sourceType := .runtimeObservation
    subjectId := "agent-maint-01", claim := CloudDemo.action
    observedAt := ⟨1787838300000000, 0⟩
    payloadHash := "de86a14317645e8fe72bab5b1598307f3371d713f2aa0f4abf8e826075aad635"
    traceId := "trace-observed-s1" }

/-- The same two updates one after the other. -/
theorem successive_updates_survive :
    let final := (Pool.runSchedule demoStore.handle
      ([.promoter, .promoter, .promoter] ++ [.advancer, .advancer]) seededUpdates).state
    (demoStore.view final).agent "agent-maint-01" =
      .ok (some (withNextEpoch (withCapability CloudDemo.action "ev-runtime-001" seededAgent))) ∧
    ∀ receipt, (seededCall.program.run demoStore.handle final).1 = .ok receipt →
      receipt.decision = "BLOCK" ∧ "AUTHORITY_EPOCH_STALE" ∈ receipt.reasons := by
  have hagent : (demoStore.view seededClient).agent seededContext.identity.agentId =
      .ok (some seededAgent) := by decide +kernel
  have hevidence : (demoStore.view seededClient).evidence "ev-runtime-001" =
      .ok (some seededEvidence) := by decide +kernel
  have hlease : (demoStore.view seededClient).lease seededCall.leaseId =
      .ok (some (CloudDemo.lease ⟨1787838300000000, 0⟩)) := by decide +kernel
  have hsurvive := @separate_updates_survive _ demoStore seededClient seededContext
    CloudDemo.action "ev-runtime-001" seededAgent seededEvidence ⟨rfl, rfl, rfl⟩ hagent rfl
    hevidence .promoter .advancer (by decide) [.promoter, .promoter, .promoter]
    [.advancer, .advancer] (by decide) (by decide +kernel) (by decide +kernel)
  exact ⟨hsurvive.1, (hsurvive.2 seededCall (CloudDemo.lease ⟨1787838300000000, 0⟩) rfl rfl rfl
    hlease rfl).1⟩

end PoiexGoc
