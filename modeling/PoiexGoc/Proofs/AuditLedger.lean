/-
  The AUDIT LEDGER of a local store: receipts and mutations correspond one to one.

  `Ledger` is the invariant, over the three pieces of state it relates — receipts, actions and the
  mutation counter.  Registry puts, promotions and replays leave all three alone
  (`ledgerPart_of_issues`); an execution stores one receipt under a fresh id, and an action under
  a fresh run together with the counter when that receipt says ALLOW (`Ledger.block`,
  `Ledger.allow`).  The fresh ids come from the `uuid4` values of the run, which are assumed not to
  repeat; `FreshFor` says that the values still to be drawn name nothing stored yet.
-/
import PoiexGoc.Proofs.GateReports
import PoiexGoc.Proofs.StoreRefinement
import PoiexGoc.Runtime.CloudDemo
import PoiexGoc.Runtime.Commands

namespace PoiexGoc

open Py Effect

/-- The ids of the stored ALLOW receipts. -/
def allowReceipts (receipts : Dict ExecutionReceipt) : Finset String :=
  receipts.keys.filter fun id =>
    (receipts.lookup id).map ExecutionReceipt.decision = some "ALLOW"

theorem mem_allowReceipts {receipts : Dict ExecutionReceipt} {id : String} :
    id ∈ allowReceipts receipts ↔
      ∃ receipt, receipts.lookup id = some receipt ∧ receipt.decision = "ALLOW" := by
  rw [allowReceipts, Finset.mem_filter, Option.map_eq_some_iff]
  constructor
  · rintro ⟨-, h⟩
    exact h
  · rintro ⟨receipt, hlookup, hallow⟩
    exact ⟨Finmap.mem_keys.mpr (Finmap.mem_of_lookup_eq_some hlookup), receipt, hlookup, hallow⟩

/-- The payload of an action names the agent and the target of its receipt. -/
structure PayloadMatches (payload : PyDict) (receipt : ExecutionReceipt) : Prop where
  agentId : payload.lookup "agent_id" = some (.str receipt.agentId)
  targetId : ∃ targetId, receipt.targetId = some targetId ∧
    payload.lookup "target_id" = some (.str targetId)
  targetHash : ∃ targetHash, receipt.targetHash = some targetHash ∧
    payload.lookup "target_hash" = some (.str targetHash)

theorem payloadMatches_allowReceipt (draw : Draw) (identity : IdentityContext) (leaseId : String)
    (intent : ActionIntent) (report : ControlPlane.GateReport) (target : MaterialTarget)
    (resultHash : String) :
    PayloadMatches (ControlPlane.actionPayload identity intent target)
      (ControlPlane.allowReceipt draw identity leaseId intent report target resultHash) :=
  ⟨rfl, ⟨_, rfl, rfl⟩, ⟨_, rfl, rfl⟩⟩

/-- What a lookup finds after a receipt was stored under a new id. -/
theorem lookup_insert_new {receipts : Dict ExecutionReceipt} {new r : ExecutionReceipt}
    {id : String} (hid : (receipts.insert new.receiptId new).lookup id = some r) :
    (id = new.receiptId ∧ r = new) ∨ (id ≠ new.receiptId ∧ receipts.lookup id = some r) := by
  by_cases heq : id = new.receiptId
  · subst heq
    rw [Finmap.lookup_insert] at hid
    exact Or.inl ⟨rfl, (Option.some.inj hid).symm⟩
  · rw [Finmap.lookup_insert_of_ne _ heq] at hid
    exact Or.inr ⟨heq, hid⟩

/-- The id is not that of a stored receipt, and the run not one of a stored receipt. -/
def Unused (s : MemoryStore) (receiptId runId : String) : Prop :=
  s.receipts.lookup receiptId = none ∧
    ∀ id receipt, s.receipts.lookup id = some receipt → receipt.runId ≠ runId

theorem Unused.lookup_of_ne {s : MemoryStore} {new r : ExecutionReceipt} {id : String}
    (hunused : Unused s new.receiptId new.runId) (hid : s.receipts.lookup id = some r) :
    (s.receipts.insert new.receiptId new).lookup id = some r := by
  have hne : id ≠ new.receiptId := by
    rintro rfl
    cases hunused.1.symm.trans hid
  rw [Finmap.lookup_insert_of_ne _ hne, hid]

/-- A receipt with another decision adds nothing to the ALLOW receipts. -/
theorem allowReceipts_insert_of_ne {s : MemoryStore} {new : ExecutionReceipt}
    (hunused : Unused s new.receiptId new.runId) (hdecision : new.decision ≠ "ALLOW") :
    allowReceipts (s.receipts.insert new.receiptId new) = allowReceipts s.receipts := by
  ext id
  rw [mem_allowReceipts, mem_allowReceipts]
  constructor
  · rintro ⟨receipt, hid, hallow⟩
    rcases lookup_insert_new hid with ⟨-, rfl⟩ | ⟨-, hold⟩
    · exact absurd hallow hdecision
    · exact ⟨receipt, hold, hallow⟩
  · rintro ⟨receipt, hid, hallow⟩
    exact ⟨receipt, hunused.lookup_of_ne hid, hallow⟩

/-- A fresh ALLOW receipt is one more. -/
theorem card_allowReceipts_insert {s : MemoryStore} {new : ExecutionReceipt}
    (hunused : Unused s new.receiptId new.runId) (hdecision : new.decision = "ALLOW") :
    (allowReceipts (s.receipts.insert new.receiptId new)).card =
      (allowReceipts s.receipts).card + 1 := by
  have hmore : allowReceipts (s.receipts.insert new.receiptId new) =
      insert new.receiptId (allowReceipts s.receipts) := by
    ext id
    rw [Finset.mem_insert, mem_allowReceipts, mem_allowReceipts]
    constructor
    · rintro ⟨receipt, hid, hallow⟩
      rcases lookup_insert_new hid with ⟨rfl, -⟩ | ⟨-, hold⟩
      · exact Or.inl rfl
      · exact Or.inr ⟨receipt, hold, hallow⟩
    · rintro (rfl | ⟨receipt, hid, hallow⟩)
      · exact ⟨new, Finmap.lookup_insert _, hdecision⟩
      · exact ⟨receipt, hunused.lookup_of_ne hid, hallow⟩
  have hnew : new.receiptId ∉ allowReceipts s.receipts := by
    intro hmem
    obtain ⟨receipt, hid, -⟩ := mem_allowReceipts.mp hmem
    cases hunused.1.symm.trans hid
  rw [hmore, Finset.card_insert_of_notMem hnew]

section Ledger

variable [PyRuntime]

structure Ledger (s : MemoryStore) : Prop where
  keyed : ∀ id receipt, s.receipts.lookup id = some receipt → receipt.receiptId = id
  decided : ∀ id receipt, s.receipts.lookup id = some receipt →
    receipt.decision = "ALLOW" ∨ receipt.decision = "BLOCK"
  owner : ∀ id id' receipt receipt', s.receipts.lookup id = some receipt →
    s.receipts.lookup id' = some receipt' → receipt.runId = receipt'.runId → id = id'
  actions : ∀ runId, runId ∈ s.syntheticActions ↔
    ∃ id receipt, s.receipts.lookup id = some receipt ∧ receipt.decision = "ALLOW" ∧
      receipt.runId = runId
  count : s.syntheticMutationCount = (allowReceipts s.receipts).card
  allowed : ∀ id receipt, s.receipts.lookup id = some receipt → receipt.decision = "ALLOW" →
    ∃ payload resultHash,
      s.syntheticActions.lookup receipt.runId = some (syntheticResult receipt.runId payload) ∧
      PayloadMatches payload receipt ∧
      canonicalHash (syntheticResult receipt.runId payload) = .ok resultHash ∧
      receipt.executorResultHash = some resultHash
  blocked : ∀ id receipt, s.receipts.lookup id = some receipt → receipt.decision = "BLOCK" →
    receipt.executorResultHash = none

theorem Ledger.empty : Ledger {} := by
  have hnone : ∀ (id : String) (receipt : ExecutionReceipt),
      Finmap.lookup id (∅ : Dict ExecutionReceipt) ≠ some receipt := by
    intro id receipt h
    rw [Finmap.lookup_empty] at h
    cases h
  refine ⟨fun id r h => absurd h (hnone id r), fun id r h => absurd h (hnone id r),
    fun id _ r _ h => absurd h (hnone id r), fun runId => ⟨fun h => ?_, ?_⟩, ?_,
    fun id r h => absurd h (hnone id r), fun id r h => absurd h (hnone id r)⟩
  · exact absurd h Finmap.notMem_empty
  · rintro ⟨id, receipt, h, -⟩
    exact absurd h (hnone id receipt)
  · decide

/-- A fresh receipt is the only one of its run. -/
theorem Ledger.owner_insert {s : MemoryStore} (hs : Ledger s) {new : ExecutionReceipt}
    (hunused : Unused s new.receiptId new.runId) {id id' : String}
    {receipt receipt' : ExecutionReceipt}
    (hid : (s.receipts.insert new.receiptId new).lookup id = some receipt)
    (hid' : (s.receipts.insert new.receiptId new).lookup id' = some receipt')
    (hrun : receipt.runId = receipt'.runId) : id = id' := by
  rcases lookup_insert_new hid with ⟨rfl, rfl⟩ | ⟨-, hold⟩
  · rcases lookup_insert_new hid' with ⟨rfl, rfl⟩ | ⟨-, hold'⟩
    · rfl
    · exact absurd hrun.symm (hunused.2 id' receipt' hold')
  · rcases lookup_insert_new hid' with ⟨rfl, rfl⟩ | ⟨-, hold'⟩
    · exact absurd hrun (hunused.2 id receipt hold)
    · exact hs.owner id id' receipt receipt' hold hold' hrun

/-- Storing a fresh BLOCK receipt keeps the ledger. -/
theorem Ledger.block {s : MemoryStore} (hs : Ledger s) {new : ExecutionReceipt}
    (hunused : Unused s new.receiptId new.runId) (hdecision : new.decision = "BLOCK")
    (hhash : new.executorResultHash = none) :
    Ledger { s with receipts := s.receipts.insert new.receiptId new } := by
  have hnot : new.decision ≠ "ALLOW" := by
    rw [hdecision]
    decide
  exact {
    keyed := by
      intro id receipt hid
      rcases lookup_insert_new hid with ⟨rfl, rfl⟩ | ⟨-, hold⟩
      · rfl
      · exact hs.keyed id receipt hold
    decided := by
      intro id receipt hid
      rcases lookup_insert_new hid with ⟨-, rfl⟩ | ⟨-, hold⟩
      · exact Or.inr hdecision
      · exact hs.decided id receipt hold
    owner := by
      intro id id' receipt receipt' hid hid' hrun
      exact hs.owner_insert hunused hid hid' hrun
    actions := by
      intro runId
      refine (hs.actions runId).trans ⟨?_, ?_⟩
      · rintro ⟨id, receipt, hid, hallow, hrun⟩
        exact ⟨id, receipt, hunused.lookup_of_ne hid, hallow, hrun⟩
      · rintro ⟨id, receipt, hid, hallow, hrun⟩
        rcases lookup_insert_new hid with ⟨-, rfl⟩ | ⟨-, hold⟩
        · exact absurd hallow hnot
        · exact ⟨id, receipt, hold, hallow, hrun⟩
    count := by
      show s.syntheticMutationCount = _
      rw [allowReceipts_insert_of_ne hunused hnot]
      exact hs.count
    allowed := by
      intro id receipt hid hallow
      rcases lookup_insert_new hid with ⟨-, rfl⟩ | ⟨-, hold⟩
      · exact absurd hallow hnot
      · exact hs.allowed id receipt hold hallow
    blocked := by
      intro id receipt hid hblock
      rcases lookup_insert_new hid with ⟨-, rfl⟩ | ⟨-, hold⟩
      · exact hhash
      · exact hs.blocked id receipt hold hblock }

/-- Storing a fresh action, counting it, and storing its fresh ALLOW receipt keeps the ledger. -/
theorem Ledger.allow {s : MemoryStore} (hs : Ledger s) {new : ExecutionReceipt}
    (hunused : Unused s new.receiptId new.runId) (hdecision : new.decision = "ALLOW")
    {payload : PyDict} {resultHash : String} (hpayload : PayloadMatches payload new)
    (hcanonical : canonicalHash (syntheticResult new.runId payload) = .ok resultHash)
    (hhash : new.executorResultHash = some resultHash) :
    Ledger { s with
      receipts := s.receipts.insert new.receiptId new
      syntheticActions := s.syntheticActions.insert new.runId (syntheticResult new.runId payload)
      syntheticMutationCount := s.syntheticMutationCount + 1 } where
  keyed := by
    intro id receipt hid
    rcases lookup_insert_new hid with ⟨rfl, rfl⟩ | ⟨-, hold⟩
    · rfl
    · exact hs.keyed id receipt hold
  decided := by
    intro id receipt hid
    rcases lookup_insert_new hid with ⟨-, rfl⟩ | ⟨-, hold⟩
    · exact Or.inl hdecision
    · exact hs.decided id receipt hold
  owner := by
    intro id id' receipt receipt' hid hid' hrun
    exact hs.owner_insert hunused hid hid' hrun
  actions := by
    intro runId
    rw [Finmap.mem_insert]
    constructor
    · rintro (rfl | hmem)
      · exact ⟨new.receiptId, new, Finmap.lookup_insert _, hdecision, rfl⟩
      · obtain ⟨id, receipt, hid, hallow, hrun⟩ := (hs.actions runId).mp hmem
        exact ⟨id, receipt, hunused.lookup_of_ne hid, hallow, hrun⟩
    · rintro ⟨id, receipt, hid, hallow, hrun⟩
      rcases lookup_insert_new hid with ⟨-, rfl⟩ | ⟨-, hold⟩
      · exact Or.inl hrun.symm
      · exact Or.inr ((hs.actions runId).mpr ⟨id, receipt, hold, hallow, hrun⟩)
  count := by
    show s.syntheticMutationCount + 1 = _
    rw [card_allowReceipts_insert hunused hdecision, hs.count]
  allowed := by
    intro id receipt hid hallow
    rcases lookup_insert_new hid with ⟨-, rfl⟩ | ⟨-, hold⟩
    · exact ⟨payload, resultHash, Finmap.lookup_insert _, hpayload, hcanonical, hhash⟩
    · obtain ⟨payload', resultHash', hlookup, hrest⟩ := hs.allowed id receipt hold hallow
      refine ⟨payload', resultHash', ?_, hrest⟩
      -- the action of an older receipt is another run's, so it is not overwritten
      rw [Finmap.lookup_insert_of_ne _ (hunused.2 id receipt hold)]
      exact hlookup
  blocked := by
    intro id receipt hid hblock
    rcases lookup_insert_new hid with ⟨-, rfl⟩ | ⟨-, hold⟩
    · rw [hdecision] at hblock
      exact absurd hblock (by decide)
    · exact hs.blocked id receipt hold hblock

/-! ## One execution -/

theorem memoryStore_registryDecodes (s : MemoryStore) :
    ControlPlane.RegistryDecodes s.view s.authorityProvenance.keys where
  agent _ := ⟨_, rfl⟩
  lease _ := ⟨_, rfl⟩
  evidence _ := ⟨_, rfl⟩
  target _ := ⟨_, rfl⟩
  provenance _ := ⟨_, rfl⟩
  bounded _ _ hrecord := mem_keys_of_lookup (Except.ok.inj hrecord)

/-- With enough fuel and serializable parameters an execution returns a receipt under the ids it
    has drawn, and stores that receipt only, or the receipt and its action. -/
theorem execute_memory (cp : ControlPlane) {fuel : Nat} (draw : Draw) (identity : IdentityContext)
    (leaseId : String) {intent : ActionIntent} (hpar : Serializable (.dict intent.parameters))
    {s : MemoryStore} (hfuel : s.authorityProvenance.keys.card < fuel) :
    ∃ receipt, ((cp.execute fuel draw identity leaseId intent).run MemoryStore.handle s).1 =
        .ok receipt ∧
      receipt.receiptId = draw.receiptId ∧ receipt.runId = draw.runId ∧
      ((receipt.decision = "BLOCK" ∧ receipt.executorResultHash = none ∧
          ((cp.execute fuel draw identity leaseId intent).run MemoryStore.handle s).2 =
            { s with receipts := s.receipts.insert receipt.receiptId receipt }) ∨
        (receipt.decision = "ALLOW" ∧ ∃ payload resultHash, PayloadMatches payload receipt ∧
          canonicalHash (syntheticResult receipt.runId payload) = .ok resultHash ∧
          receipt.executorResultHash = some resultHash ∧
          ((cp.execute fuel draw identity leaseId intent).run MemoryStore.handle s).2 =
            { s with
              receipts := s.receipts.insert receipt.receiptId receipt
              syntheticActions :=
                s.syntheticActions.insert receipt.runId (syntheticResult receipt.runId payload)
              syntheticMutationCount := s.syntheticMutationCount + 1 })) := by
  rcases ControlPlane.execute_decides memoryStore_implements (memoryStore_registryDecodes s) hfuel
    hpar cp draw identity leaseId with ⟨report, hrun⟩ | ⟨report, target, resultHash, hhash, hrun⟩
  · rw [hrun]
    exact ⟨_, rfl, rfl, rfl, Or.inl ⟨rfl, rfl, rfl⟩⟩
  · -- allowed: the store computes the same hash as the receipt, so its action is stored
    have hstored : (MemoryStore.handle (.executeSyntheticAction draw.runId
        (ControlPlane.actionPayload identity intent target)) s).2 =
        { s with
          syntheticActions := s.syntheticActions.insert draw.runId
            (syntheticResult draw.runId (ControlPlane.actionPayload identity intent target))
          syntheticMutationCount := s.syntheticMutationCount + 1 } := by
      simp only [MemoryStore.handle, MemoryStore.executeSyntheticAction, hhash]
    rw [hstored] at hrun
    rw [hrun]
    exact ⟨_, rfl, rfl, rfl, Or.inr ⟨rfl, ControlPlane.actionPayload identity intent target,
      resultHash, payloadMatches_allowReceipt _ _ _ _ _ _ _, hhash, rfl, rfl⟩⟩

/-! ## One call -/

/-- The two stores agree on receipts, actions and the counter. -/
structure SameLedger (s s' : MemoryStore) : Prop where
  receipts : s'.receipts = s.receipts
  actions : s'.syntheticActions = s.syntheticActions
  count : s'.syntheticMutationCount = s.syntheticMutationCount

theorem Ledger.congr {s s' : MemoryStore} (hs : Ledger s) (hsame : SameLedger s s') :
    Ledger s' := by
  obtain ⟨hreceipts, hactions, hcount⟩ := hsame
  constructor
  · rw [hreceipts]; exact hs.keyed
  · rw [hreceipts]; exact hs.decided
  · rw [hreceipts]; exact hs.owner
  · rw [hreceipts, hactions]; exact hs.actions
  · rw [hreceipts, hcount]; exact hs.count
  · rw [hreceipts, hactions]; exact hs.allowed
  · rw [hreceipts]; exact hs.blocked

end Ledger

/-- None of the `uuid4` values still to be drawn names a stored receipt or run. -/
def FreshFor (s : MemoryStore) (hexes : List String) : Prop :=
  ∀ receiptHex ∈ hexes, ∀ runHex ∈ hexes, Unused s ("rcpt-" ++ receiptHex) ("run-" ++ runHex)

theorem FreshFor.congr {s s' : MemoryStore} {used rest : List String}
    (hfresh : FreshFor s (used ++ rest)) (hreceipts : s'.receipts = s.receipts) :
    FreshFor s' rest := by
  intro receiptHex hreceipt runHex hrun
  unfold Unused
  rw [hreceipts]
  exact hfresh receiptHex (List.mem_append_right _ hreceipt) runHex (List.mem_append_right _ hrun)

/-- After a receipt was stored under ids just drawn, the values still to be drawn are fresh. -/
theorem FreshFor.insert {s s' : MemoryStore} {new : ExecutionReceipt} {draw : Draw}
    {used rest : List String} (hnodup : (used ++ rest).Nodup) (hfresh : FreshFor s (used ++ rest))
    (hrunUsed : draw.runHex ∈ used) (hreceiptUsed : draw.receiptHex ∈ used)
    (hid : new.receiptId = draw.receiptId) (hrun : new.runId = draw.runId)
    (hreceipts : s'.receipts = s.receipts.insert new.receiptId new) : FreshFor s' rest := by
  -- the prefixes are the same, so two ids differ where their `uuid4` values do
  have hdisjoint := (List.nodup_append.mp hnodup).2.2
  intro receiptHex hreceipt runHex hrunHex
  obtain ⟨hnone, hother⟩ := hfresh receiptHex (List.mem_append_right _ hreceipt) runHex
    (List.mem_append_right _ hrunHex)
  have hneId : "rcpt-" ++ receiptHex ≠ new.receiptId := by
    rw [hid, Draw.receiptId, ne_eq, String.append_right_inj]
    exact fun h => hdisjoint _ hreceiptUsed _ hreceipt h.symm
  have hneRun : new.runId ≠ "run-" ++ runHex := by
    rw [hrun, Draw.runId, ne_eq, String.append_right_inj]
    exact hdisjoint _ hrunUsed _ hrunHex
  unfold Unused
  rw [hreceipts]
  refine ⟨by rw [Finmap.lookup_insert_of_ne _ hneId, hnone], fun id receipt hlookup => ?_⟩
  rcases lookup_insert_new hlookup with ⟨-, rfl⟩ | ⟨-, hold⟩
  · exact hneRun
  · exact hother id receipt hold

/-- The reads, and the puts of agents. -/
def StoreOp.IsQuiet (o : StoreOp) : Prop := o.IsRead ∨ ∃ agent, o = .putAgent agent

theorem card_keys_insert_le {V : Type} (m : Dict V) (key : String) (x : V) :
    (m.insert key x).keys.card ≤ m.keys.card + 1 := by
  have hsub : (m.insert key x).keys ⊆ Insert.insert key m.keys := by
    intro k hk
    rcases Finmap.mem_insert.mp (Finmap.mem_keys.mp hk) with rfl | hmem
    · exact Finset.mem_insert_self _ _
    · exact Finset.mem_insert_of_mem (Finmap.mem_keys.mpr hmem)
  exact (Finset.card_le_card hsub).trans (Finset.card_insert_le _ _)

section Runs

variable [PyRuntime]

/-- The calls of a governed run: registry puts, promotions, executions of serializable intents and
    replays.  Receipts and actions are only ever stored by executions. -/
def Command.Governed : Command → Prop
  | .operation o => o.IsRegistryPut
  | .execute _ _ _ _ intent => Serializable (.dict intent.parameters)
  | _ => True

/-- The `uuid4` values a call draws. -/
def Command.hexes : Command → List String
  | .execute _ draw _ _ _ => [draw.runHex, draw.receiptHex, draw.traceHex]
  | _ => []

/-- A program that only reads and puts agents keeps the ledger and the provenance records. -/
theorem quiet_of_issues {α : Type} {p : StoreM α} (hp : p.Issues StoreOp.IsQuiet)
    (s : MemoryStore) :
    SameLedger s (p.run MemoryStore.handle s).2 ∧
      (p.run MemoryStore.handle s).2.authorityProvenance = s.authorityProvenance := by
  refine @Prog.run_invariant RuntimeStore _ _ _ MemoryStore.handle _
    (fun s' => SameLedger s s' ∧ s'.authorityProvenance = s.authorityProvenance) ?_ p hp s
    ⟨⟨rfl, rfl, rfl⟩, rfl⟩
  rintro o s' (hread | ⟨agent, rfl⟩) hs'
  · rw [memoryStore_implements.readsKeep o s' hread]
    exact hs'
  · exact ⟨⟨hs'.1.receipts, hs'.1.actions, hs'.1.count⟩, hs'.2⟩

/-- An execution keeps the ledger and uses up the values it draws. -/
theorem ledger_execute {fuel : Nat} (cp : ControlPlane) (draw : Draw) (identity : IdentityContext)
    (leaseId : String) {intent : ActionIntent} (hpar : Serializable (.dict intent.parameters))
    {rest : List String} (hnodup : ([draw.runHex, draw.receiptHex, draw.traceHex] ++ rest).Nodup)
    {s : MemoryStore} (hs : Ledger s)
    (hfresh : FreshFor s ([draw.runHex, draw.receiptHex, draw.traceHex] ++ rest))
    (hfuel : s.authorityProvenance.keys.card < fuel) :
    Ledger ((cp.execute fuel draw identity leaseId intent).run MemoryStore.handle s).2 ∧
      FreshFor ((cp.execute fuel draw identity leaseId intent).run MemoryStore.handle s).2 rest ∧
      ((cp.execute fuel draw identity leaseId intent).run MemoryStore.handle
        s).2.authorityProvenance.keys.card ≤ s.authorityProvenance.keys.card + 1 := by
  obtain ⟨receipt, -, hid, hrun, hcase⟩ := execute_memory cp draw identity leaseId hpar hfuel
  have hrunUsed : draw.runHex ∈ [draw.runHex, draw.receiptHex, draw.traceHex] :=
    List.mem_cons_self
  have hreceiptUsed : draw.receiptHex ∈ [draw.runHex, draw.receiptHex, draw.traceHex] :=
    List.mem_cons_of_mem _ List.mem_cons_self
  have hunused : Unused s receipt.receiptId receipt.runId := by
    rw [hid, hrun]
    exact hfresh _ (List.mem_append_left _ hreceiptUsed) _ (List.mem_append_left _ hrunUsed)
  rcases hcase with ⟨hdecision, hnone, hstore⟩ |
    ⟨hdecision, payload, resultHash, hpayload, hcanonical, hhash, hstore⟩
  · rw [hstore]
    exact ⟨hs.block hunused hdecision hnone,
      FreshFor.insert hnodup hfresh hrunUsed hreceiptUsed hid hrun rfl, Nat.le_succ _⟩
  · rw [hstore]
    exact ⟨hs.allow hunused hdecision hpayload hcanonical hhash,
      FreshFor.insert hnodup hfresh hrunUsed hreceiptUsed hid hrun rfl, Nat.le_succ _⟩

/-- One call keeps the ledger, uses up the values it draws, and adds at most one provenance
    record. -/
theorem ledger_step {fuel : Nat} {cmd : Command} (hcmd : cmd.Governed) {rest : List String}
    (hnodup : (cmd.hexes ++ rest).Nodup) {s : MemoryStore} (hs : Ledger s)
    (hfresh : FreshFor s (cmd.hexes ++ rest)) (hfuel : s.authorityProvenance.keys.card < fuel) :
    Ledger ((cmd.program fuel).run MemoryStore.handle s).2 ∧
      FreshFor ((cmd.program fuel).run MemoryStore.handle s).2 rest ∧
      ((cmd.program fuel).run MemoryStore.handle s).2.authorityProvenance.keys.card ≤
        s.authorityProvenance.keys.card + 1 := by
  cases cmd with
  | operation o =>
    -- a put of the registry: no receipt, no action, at most one provenance record
    have hsame : SameLedger s (MemoryStore.handle o s).2 := by
      cases o with
      | putAgent | putLease | putAuthorityProvenance | putEvidence | putTarget =>
        exact ⟨rfl, rfl, rfl⟩
      | _ => exact hcmd.elim
    have hcard : (MemoryStore.handle o s).2.authorityProvenance.keys.card ≤
        s.authorityProvenance.keys.card + 1 := by
      cases o with
      | putAuthorityProvenance record => exact card_keys_insert_le _ _ _
      | putAgent | putLease | putEvidence | putTarget => exact Nat.le_succ _
      | _ => exact hcmd.elim
    exact ⟨hs.congr hsame, hfresh.congr hsame.receipts, hcard⟩
  | promote agentId capability evidenceId =>
    have hissues : (ControlPlane.promoteObservedCapability agentId capability evidenceId).Issues
        StoreOp.IsQuiet := by
      refine (ControlPlane.promote_issues agentId capability evidenceId).mono ?_
      rintro o (rfl | rfl | hput)
      · exact Or.inl trivial
      · exact Or.inl trivial
      · exact Or.inr hput
    obtain ⟨hsame, hprov⟩ := quiet_of_issues hissues s
    have hcard : ((ControlPlane.promoteObservedCapability agentId capability evidenceId).run
        MemoryStore.handle s).2.authorityProvenance.keys.card ≤
        s.authorityProvenance.keys.card + 1 := by
      rw [hprov]
      exact Nat.le_succ _
    exact ⟨hs.congr hsame, hfresh.congr hsame.receipts, hcard⟩
  | replay receiptId =>
    have hkeep : ((ControlPlane.replay receiptId).run MemoryStore.handle s).2 = s := by
      rw [memoryStore_implements.run_reads (ControlPlane.replay_issues receiptId)]
    show Ledger ((ControlPlane.replay receiptId).run MemoryStore.handle s).2 ∧
      FreshFor ((ControlPlane.replay receiptId).run MemoryStore.handle s).2 rest ∧
      ((ControlPlane.replay receiptId).run MemoryStore.handle s).2.authorityProvenance.keys.card ≤ _
    rw [hkeep]
    exact ⟨hs, hfresh.congr rfl, Nat.le_succ _⟩
  | execute cp draw identity leaseId intent =>
    exact ledger_execute cp draw identity leaseId hcmd hnodup hs hfresh hfuel

/-- A run keeps the ledger and leaves the values of later calls fresh.  Induction on the calls; each
    uses up its own `uuid4` values. -/
theorem ledger_run {fuel : Nat} {cmds : List Command} (hcmds : ∀ cmd ∈ cmds, cmd.Governed)
    {rest : List String} (hnodup : (cmds.flatMap Command.hexes ++ rest).Nodup) {s : MemoryStore}
    (hs : Ledger s) (hfresh : FreshFor s (cmds.flatMap Command.hexes ++ rest))
    (hfuel : s.authorityProvenance.keys.card + cmds.length ≤ fuel) :
    Ledger (runCommands MemoryStore.handle fuel cmds s).2 ∧
      FreshFor (runCommands MemoryStore.handle fuel cmds s).2 rest ∧
      (runCommands MemoryStore.handle fuel cmds s).2.authorityProvenance.keys.card ≤
        s.authorityProvenance.keys.card + cmds.length := by
  induction cmds generalizing s with
  | nil => exact ⟨hs, hfresh, Nat.le_refl _⟩
  | cons cmd cmds ih =>
    rw [List.flatMap_cons, List.append_assoc] at hnodup hfresh
    rw [List.length_cons] at hfuel
    obtain ⟨hs', hfresh', hcard⟩ := @ledger_step _ fuel cmd (hcmds cmd List.mem_cons_self) _
      hnodup s hs hfresh (by omega)
    obtain ⟨hend, hfreshEnd, hcardEnd⟩ := ih (fun c hc => hcmds c (List.mem_cons_of_mem _ hc))
      (List.nodup_append.mp hnodup).2.1 hs' hfresh' (by omega)
    rw [runCommands_cons, List.length_cons]
    exact ⟨hend, hfreshEnd, Nat.le_trans hcardEnd (by omega)⟩

/-- Receipts and mutations correspond one to one.  In every governed run from an empty store whose
    `uuid4` values do not repeat, the ledger holds at the end; and every execution along the way
    returns a receipt under a new id, adds it to the receipts, and changes no registry record. -/
theorem receipts_match_mutations (fuel : Nat) (cmds : List Command)
    (hcmds : ∀ cmd ∈ cmds, cmd.Governed) (hnodup : (cmds.flatMap Command.hexes).Nodup)
    (hfuel : cmds.length ≤ fuel) :
    Ledger (runCommands MemoryStore.handle fuel cmds {}).2 ∧
    ∀ pre cp draw identity leaseId intent post,
      cmds = pre ++ Command.execute cp draw identity leaseId intent :: post →
      ∃ receipt s s', s = (runCommands MemoryStore.handle fuel pre {}).2 ∧
        (cp.execute fuel draw identity leaseId intent).run MemoryStore.handle s =
          (.ok receipt, s') ∧
        receipt.receiptId ∉ s.receipts ∧
        s'.receipts = s.receipts.insert receipt.receiptId receipt ∧
        s'.agents = s.agents ∧ s'.leases = s.leases ∧ s'.evidence = s.evidence ∧
        s'.targets = s.targets ∧ s'.authorityProvenance = s.authorityProvenance := by
  have hempty : ∀ hexes, FreshFor {} hexes := by
    intro hexes receiptHex _ runHex _
    refine ⟨rfl, fun id receipt h => ?_⟩
    cases (Finmap.lookup_empty id).symm.trans h
  have hzero : (MemoryStore.authorityProvenance {}).keys.card = 0 := by decide
  constructor
  · refine (@ledger_run _ fuel cmds hcmds [] ?_ {} Ledger.empty (hempty _) (by omega)).1
    rw [List.append_nil]
    exact hnodup
  · -- an execution along the way: the run before it leaves its values fresh
    intro pre cp draw identity leaseId intent post hsplit
    rw [hsplit, List.length_append, List.length_cons] at hfuel
    rw [hsplit, List.flatMap_append] at hnodup
    have hexecute : (Command.execute cp draw identity leaseId intent).Governed :=
      hcmds _ (hsplit ▸ List.mem_append_right _ List.mem_cons_self)
    obtain ⟨-, hfresh, hcard⟩ := ledger_run (s := {})
      (fun c hc => hcmds c (hsplit ▸ List.mem_append_left _ hc)) hnodup Ledger.empty (hempty _)
      (show _ ≤ fuel by omega)
    obtain ⟨receipt, hreceipt, hid, -, hcase⟩ := execute_memory cp draw identity leaseId hexecute
      (show (runCommands MemoryStore.handle fuel pre {}).2.authorityProvenance.keys.card < fuel by
        omega)
    have hmem : draw.runHex ∈ List.flatMap Command.hexes
          (Command.execute cp draw identity leaseId intent :: post) ∧
        draw.receiptHex ∈ List.flatMap Command.hexes
          (Command.execute cp draw identity leaseId intent :: post) :=
      ⟨List.mem_append_left _ List.mem_cons_self,
        List.mem_append_left _ (List.mem_cons_of_mem _ List.mem_cons_self)⟩
    have hnew : receipt.receiptId ∉ (runCommands MemoryStore.handle fuel pre {}).2.receipts := by
      rw [hid]
      exact Finmap.lookup_eq_none.mp (hfresh _ hmem.2 _ hmem.1).1
    rcases hcase with ⟨-, -, hstore⟩ | ⟨-, payload, resultHash, -, -, -, hstore⟩
    · exact ⟨receipt, _, _, rfl, Prod.ext hreceipt hstore, hnew, rfl, rfl, rfl, rfl, rfl, rfl⟩
    · exact ⟨receipt, _, _, rfl, Prod.ext hreceipt hstore, hnew, rfl, rfl, rfl, rfl, rfl, rfl⟩

end Runs

/-- An agent is registered with what it needs for one action.  Its call on that lease is allowed,
    one on another lease is blocked, and the replay of a receipt changes nothing. -/
theorem demo_receipts_match_mutations :
    let now : DateTime := ⟨1787838300000000, 0⟩
    let evidence : EvidenceItem :=
      ⟨"ev-runtime-001", "agent-maint-01", CloudDemo.action, .runtimeObservation, now, "",
        "trace-1"⟩
    let target : MaterialTarget :=
      ⟨"pump-A", "synthetic_equipment", "plant-demo/pump-A", 3, {CloudDemo.action},
        "4cfbd96418f23a1a2237794cb05f31e0d162e8abad0cf2b9f10e2db7830c176f"⟩
    let intent : ActionIntent :=
      { intentId := "intent-s1", agentId := "agent-maint-01", actionType := CloudDemo.action
        targetId := "pump-A", targetHash := target.targetHash
        parameters := [("work_order", .str "WO-1")], requestedAt := now, intentHash := "" }
    let cmds : List Command :=
      [.operation (.putAgent CloudDemo.agent), .operation (.putEvidence evidence),
       .promote "agent-maint-01" CloudDemo.action "ev-runtime-001",
       .operation (.putTarget target), .operation (.putLease (CloudDemo.lease now)),
       .operation (.putAuthorityProvenance (CloudDemo.provenanceRoot now)),
       .operation (.putAuthorityProvenance (CloudDemo.provenanceChild now)),
       .execute CloudDemo.controlPlane ⟨now, now, "1", "2", "3"⟩ (CloudDemo.identity "s1")
        "lease-001" intent,
       .execute CloudDemo.controlPlane ⟨now, now, "4", "5", "6"⟩ (CloudDemo.identity "s1")
        "lease-002" intent,
       .replay "rcpt-2"]
    let final := (runCommands MemoryStore.handle 10 cmds {}).2
    Ledger final ∧
      (final.receipts.lookup "rcpt-2").map ExecutionReceipt.decision = some "ALLOW" ∧
      (final.receipts.lookup "rcpt-5").map ExecutionReceipt.decision = some "BLOCK" ∧
      final.syntheticMutationCount = 1 := by
  intro now evidence target intent cmds final
  refine ⟨(receipts_match_mutations 10 cmds ?_ (by decide) (by decide)).1, by decide +kernel⟩
  have hpar : Serializable (.dict [("work_order", .str "WO-1")]) :=
    serializable_dict.mpr (by simp only [List.forall_mem_cons, serializable_str, List.not_mem_nil,
      false_implies, implies_true, and_self])
  simp only [cmds, List.forall_mem_cons, List.not_mem_nil, false_implies, implies_true, and_true]
  exact ⟨trivial, trivial, trivial, trivial, trivial, trivial, trivial, hpar, hpar, trivial⟩

end PoiexGoc
