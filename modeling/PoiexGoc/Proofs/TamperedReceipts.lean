/-
  TAMPERED RECEIPTS: when a replay notices that the target of a stored receipt was replaced.

  1. `allStanding_run` — in every run whose receipts and actions are stored by executions only, every
     stored ALLOW receipt stands.

  2. A receipt whose target fields are replaced still stands: nothing else of it is compared with
     the action that was executed.  So its replay is left with the target check.

  3. `target_tamper_visible_iff` — the check fails for a non-empty target id under which no target
     with the replaced hash is stored.  It is skipped for an empty one, and passed by the pair of
     any registered target.
-/
import PoiexGoc.Proofs.StandingReceipts

namespace PoiexGoc

open Py Effect

/-- Every receipt is stored under its id, and every ALLOW receipt stands. -/
structure AllStanding (v : StoreView) : Prop where
  keyed : ∀ id receipt, v.receipt id = .ok (some receipt) → receipt.receiptId = id
  standing : ∀ id receipt, v.receipt id = .ok (some receipt) → receipt.decision = "ALLOW" →
    Standing v receipt

/-- None of the `uuid4` values names the run of a stored receipt. -/
def RunsUnused (v : StoreView) (hexes : List String) : Prop :=
  ∀ hex ∈ hexes, ∀ id receipt, v.receipt id = .ok (some receipt) → receipt.runId ≠ "run-" ++ hex

/-- The operation stores no receipt and no action. -/
def StoreOp.LeavesLedger : StoreOp → Prop
  | .putReceipt _ | .executeSyntheticAction _ _ => False
  | _ => True

namespace Command

/-- Receipts and actions are stored by executions only. -/
def Unforged : Command → Prop
  | .operation o => o.LeavesLedger
  | _ => True

/-- The `uuid4` value of the run a call starts. -/
def runHexes : Command → List String
  | .execute _ draw _ _ _ => [draw.runHex]
  | _ => []

end Command

section Runs

variable [PyRuntime] {σ : Type} {h : Handler RuntimeStore PyError σ} {view : σ → StoreView}

/-- A program that stores no receipt and no action keeps the receipts, and what stands. -/
theorem quiet_program (hback : Backs h view) {α : Type} {p : StoreM α}
    (hp : p.Issues StoreOp.LeavesLedger) (s : σ) :
    (view (p.run h s).2).receipt = (view s).receipt ∧
      ∀ receipt, Standing (view s) receipt → Standing (view (p.run h s).2) receipt := by
  refine Prog.run_invariant (P := StoreOp.LeavesLedger)
    (I := fun s' => (view s').receipt = (view s).receipt ∧
      ∀ receipt, Standing (view s) receipt → Standing (view s') receipt) ?_ hp
    ⟨rfl, fun _ hstanding => hstanding⟩
  rintro o s' ho ⟨hreceipts, hstands⟩
  constructor
  · rw [← hreceipts]
    funext id
    refine (hback.transition o s').receipt_eq ?_
    rintro other rfl
    exact ho.elim
  · intro receipt hstanding
    refine (hstands receipt hstanding).transition (hback.transition o s') ?_
    rintro payload rfl
    exact ho

theorem AllStanding.quiet (hback : Backs h view) {α : Type} {p : StoreM α}
    (hp : p.Issues StoreOp.LeavesLedger) {used rest : List String} {s : σ}
    (hs : AllStanding (view s)) (hunused : RunsUnused (view s) (used ++ rest)) :
    AllStanding (view (p.run h s).2) ∧ RunsUnused (view (p.run h s).2) rest := by
  obtain ⟨hreceipts, hstands⟩ := quiet_program hback hp s
  refine ⟨⟨?_, ?_⟩, ?_⟩
  · rw [hreceipts]
    exact hs.keyed
  · intro id receipt hid hallow
    rw [hreceipts] at hid
    exact hstands receipt (hs.standing id receipt hid hallow)
  · intro hex hhex id receipt hid
    rw [hreceipts] at hid
    exact hunused hex (List.mem_append_right _ hhex) id receipt hid

omit [PyRuntime] in
/-- Storing a receipt that stands, or is no ALLOW receipt, keeps the others standing. -/
theorem AllStanding.putReceipt {v : StoreView} (hv : AllStanding v) {new : ExecutionReceipt}
    (hnew : new.decision = "ALLOW" → Standing v new) : AllStanding (v.putReceipt new) := by
  constructor
  · intro id receipt hid
    rcases StoreView.found_after_put hid with ⟨rfl, rfl⟩ | hold
    · rfl
    · exact hv.keyed id receipt hold
  · intro id receipt hid hallow
    have hstanding : Standing v receipt := by
      rcases StoreView.found_after_put hid with ⟨-, rfl⟩ | hold
      · exact hnew hallow
      · exact hv.standing id receipt hold hallow
    exact ⟨hstanding.agent, hstanding.lease, hstanding.evidence, hstanding.action⟩

omit [PyRuntime] in
theorem RunsUnused.putReceipt {v : StoreView} {used rest : List String}
    (hunused : RunsUnused v (used ++ rest)) {new : ExecutionReceipt}
    (hnew : ∀ hex ∈ rest, new.runId ≠ "run-" ++ hex) : RunsUnused (v.putReceipt new) rest := by
  intro hex hhex id receipt hid
  rcases StoreView.found_after_put hid with ⟨-, rfl⟩ | hold
  · exact hnew hex hhex
  · exact hunused hex (List.mem_append_right _ hhex) id receipt hold

/-- One execution: its own run is new, so the actions of the others stay what they are. -/
theorem AllStanding.execute (himp : Implements h view) (cp : ControlPlane) (fuel : Nat)
    (draw : Draw) (identity : IdentityContext) (leaseId : String) (intent : ActionIntent)
    {rest : List String} (hnodup : ([draw.runHex] ++ rest).Nodup) {s : σ}
    (hs : AllStanding (view s)) (hunused : RunsUnused (view s) ([draw.runHex] ++ rest)) :
    AllStanding (view ((cp.execute fuel draw identity leaseId intent).run h s).2) ∧
      RunsUnused (view ((cp.execute fuel draw identity leaseId intent).run h s).2) rest := by
  have hother : ∀ hex ∈ rest, draw.runId ≠ "run-" ++ hex := by
    intro hex hhex heq
    rw [Draw.runId, String.append_right_inj] at heq
    exact (List.nodup_cons.mp hnodup).1 (heq ▸ hhex)
  rcases ControlPlane.execute_cases himp cp fuel draw identity leaseId intent s with ⟨e, hrun⟩ |
    ⟨report, -, -, hrun⟩ | ⟨report, target, resultHash, -, -, -, hhash, hrun⟩
  · rw [hrun]
    exact ⟨hs, fun hex hhex => hunused hex (List.mem_append_right _ hhex)⟩
  · rw [hrun, himp.view_putReceipt]
    refine ⟨hs.putReceipt fun hallow => ?_, hunused.putReceipt hother⟩
    exact absurd hallow (show "BLOCK" ≠ "ALLOW" by decide)
  · have hheld := held_of_execute himp hrun rfl
    rw [himp.view_putReceipt, himp.view_executed hhash] at hheld
    rw [hrun, himp.view_putReceipt, himp.view_executed hhash]
    have hactions : AllStanding ((view s).putAction draw.runId resultHash) := by
      refine ⟨hs.keyed, fun id receipt hid hallow => ?_⟩
      exact (hs.standing id receipt hid hallow).putAction
        (Ne.symm (hunused draw.runHex List.mem_cons_self id receipt hid))
    have hruns : RunsUnused ((view s).putAction draw.runId resultHash) ([draw.runHex] ++ rest) :=
      hunused
    refine ⟨hactions.putReceipt fun _ => ?_, hruns.putReceipt hother⟩
    exact ⟨hheld.standing.agent, hheld.standing.lease, hheld.standing.evidence,
      hheld.standing.action⟩

theorem allStanding_step (hback : Backs h view) (fuel : Nat) {cmd : Command}
    (hcmd : cmd.Unforged) {rest : List String} (hnodup : (cmd.runHexes ++ rest).Nodup) {s : σ}
    (hs : AllStanding (view s)) (hunused : RunsUnused (view s) (cmd.runHexes ++ rest)) :
    AllStanding (view ((cmd.program fuel).run h s).2) ∧
      RunsUnused (view ((cmd.program fuel).run h s).2) rest := by
  cases cmd with
  | operation o => exact hs.quiet hback (store.call_issues o hcmd) hunused
  | promote agentId capability evidenceId =>
    refine hs.quiet hback ?_ hunused
    refine (ControlPlane.promote_issues agentId capability evidenceId).mono ?_
    rintro o (rfl | rfl | ⟨agent, rfl⟩)
    · trivial
    · trivial
    · trivial
  | execute cp draw identity leaseId intent =>
    exact hs.execute hback.toImplements cp fuel draw identity leaseId intent hnodup hunused
  | replay receiptId =>
    refine hs.quiet hback ((ControlPlane.replay_issues receiptId).mono fun o ho => ?_) hunused
    cases o with
    | getAgent | getLease | getAuthorityProvenance | getEvidence | getTarget | getReceipt
    | hasSyntheticAction => trivial
    | _ => exact ho.elim

/-- Induction on the calls; each execution uses up its own run. -/
theorem allStanding_run (hback : Backs h view) (fuel : Nat) {cmds : List Command}
    (hcmds : ∀ cmd ∈ cmds, cmd.Unforged) (hnodup : (cmds.flatMap Command.runHexes).Nodup) {s : σ}
    (hs : AllStanding (view s)) (hunused : RunsUnused (view s) (cmds.flatMap Command.runHexes)) :
    AllStanding (view (runCommands h fuel cmds s).2) := by
  induction cmds generalizing s with
  | nil => exact hs
  | cons cmd cmds ih =>
    rw [List.flatMap_cons] at hnodup hunused
    obtain ⟨hs', hunused'⟩ :=
      allStanding_step hback fuel (hcmds cmd List.mem_cons_self) hnodup hs hunused
    rw [runCommands_cons]
    exact ih (fun c hc => hcmds c (List.mem_cons_of_mem _ hc)) (List.nodup_append.mp hnodup).2.1 hs'
      hunused'

end Runs

/-! ## The replay of a receipt with other target fields -/

/-- The receipt with its target fields replaced. -/
def retargeted (receipt : ExecutionReceipt) (targetId targetHash : Option String) :
    ExecutionReceipt :=
  { receipt with targetId, targetHash }

section Replacement

variable [PyRuntime]

/-- A replay that asks for a target which cannot be read raises. -/
theorem replay_of_illegible_target {v : StoreView} {receiptId : String} {receipt : ExecutionReceipt}
    (hreceipt : v.receipt receiptId = .ok (some receipt)) {targetId : String}
    (hid : truthy receipt.targetId = some targetId) {e : PyError}
    (htarget : v.target targetId = .error e) (manifest : ReplayManifest) :
    (ControlPlane.replay receiptId).eval v.answers ≠ .ok manifest := by
  intro hreplay
  unfold ControlPlane.replay at hreplay
  rw [Prog.eval_bind] at hreplay
  obtain ⟨found, hfound, hreplay⟩ := bind_eq_ok.mp hreplay
  have hsame : found = some receipt := Except.ok.inj (hfound.symm.trans hreceipt)
  subst hsame
  replace hreplay : Prog.eval v.answers (ControlPlane.mismatches receipt >>= _) = .ok manifest :=
    hreplay
  rw [Prog.eval_bind] at hreplay
  obtain ⟨found, hmismatches, -⟩ := bind_eq_ok.mp hreplay
  unfold ControlPlane.mismatches at hmismatches
  simp only [Prog.eval_bind] at hmismatches
  obtain ⟨_, -, hrest⟩ := bind_eq_ok.mp hmismatches
  obtain ⟨_, -, hrest⟩ := bind_eq_ok.mp hrest
  obtain ⟨_, -, hrest⟩ := bind_eq_ok.mp hrest
  obtain ⟨_, htargets, -⟩ := bind_eq_ok.mp hrest
  unfold ControlPlane.targetMismatches at htargets
  rw [hid] at htargets
  replace htargets : Prog.eval v.answers (store.getTarget targetId >>= _) = .ok _ := htargets
  rw [Prog.eval_bind] at htargets
  obtain ⟨_, hget, -⟩ := bind_eq_ok.mp htargets
  cases htarget.symm.trans hget

/-- Nothing but its target check can fail the replay of a retargeted receipt that stands. -/
theorem replay_retargeted_iff {v : StoreView} {receipt : ExecutionReceipt}
    (hstanding : Standing v receipt) {targetId targetHash : Option String}
    (hstored : v.receipt receipt.receiptId = .ok (some (retargeted receipt targetId targetHash))) :
    (∃ manifest, (ControlPlane.replay receipt.receiptId).eval v.answers = .ok manifest ∧
        manifest.reconstructionStatus = "FAIL") ↔
      ∃ name found, truthy targetId = some name ∧ v.target name = .ok found ∧
        ∀ target, found = some target → targetHash ≠ some target.targetHash := by
  have hstill : Standing v (retargeted receipt targetId targetHash) :=
    ⟨hstanding.agent, hstanding.lease, hstanding.evidence, hstanding.action⟩
  cases hname : truthy targetId with
  | none =>
    -- no target check at all
    have hlegible := hstill.legible fun id hid => by cases hname.symm.trans hid
    rw [ControlPlane.replay_eval hstored hlegible, findings_of_standing hstill,
      ControlPlane.storedTargetFindings_of_none hname]
    constructor
    · rintro ⟨manifest, hmanifest, hstatus⟩
      rw [← Except.ok.inj hmanifest] at hstatus
      exact absurd rfl ((ControlPlane.manifestOf_fail_iff _ []).mp hstatus)
    · rintro ⟨name, found, hsome, -⟩
      cases hsome
  | some name =>
    cases htarget : v.target name with
    | error e =>
      constructor
      · rintro ⟨manifest, hmanifest, -⟩
        exact absurd hmanifest (replay_of_illegible_target hstored hname htarget manifest)
      · rintro ⟨name', found, hsome, hfound, -⟩
        rw [← Option.some.inj hsome, htarget] at hfound
        cases hfound
    | ok found =>
      have hlegible := hstill.legible fun id hid => by
        rw [← Option.some.inj (hname.symm.trans hid)]
        exact ⟨found, htarget⟩
      rw [ControlPlane.replay_eval hstored hlegible, findings_of_standing hstill,
        ControlPlane.storedTargetFindings_of_name hname htarget]
      constructor
      · rintro ⟨manifest, hmanifest, hstatus⟩
        rw [← Except.ok.inj hmanifest, ControlPlane.manifestOf_fail_iff] at hstatus
        exact ⟨name, found, rfl, htarget, ControlPlane.targetFindings_ne_nil.mp hstatus⟩
      · rintro ⟨name', found', hsome, hfound, hall⟩
        rw [← Option.some.inj hsome, htarget] at hfound
        rw [← Except.ok.inj hfound] at hall
        exact ⟨_, rfl, (ControlPlane.manifestOf_fail_iff _ _).mpr
          (ControlPlane.targetFindings_ne_nil.mpr hall)⟩

/-- Receipt target tamper is visible exactly through the target check.  In every run whose receipts
    and actions are stored by executions only, replace the target fields of a stored ALLOW receipt:
    its replay answers FAIL exactly when the new target id is not empty and names no target with the
    new hash. -/
theorem target_tamper_visible_iff (s₀ : Backend) (hempty : s₀.view = StoreView.empty) (fuel : Nat)
    (cmds : List Command) (hcmds : ∀ cmd ∈ cmds, cmd.Unforged)
    (hnodup : (cmds.flatMap Command.runHexes).Nodup) (receiptId : String)
    (receipt : ExecutionReceipt)
    (hreceipt : (runCommands Backend.handle fuel cmds s₀).2.view.receipt receiptId =
      .ok (some receipt))
    (hallow : receipt.decision = "ALLOW") (targetId targetHash : Option String) :
    let s := (runCommands Backend.handle fuel cmds s₀).2
    let tampered := (Backend.handle (.putReceipt (retargeted receipt targetId targetHash)) s).2
    (∃ manifest, ((ControlPlane.replay receiptId).run Backend.handle tampered).1 = .ok manifest ∧
        manifest.reconstructionStatus = "FAIL") ↔
      ∃ name found, truthy targetId = some name ∧ s.view.target name = .ok found ∧
        ∀ target, found = some target → targetHash ≠ some target.targetHash := by
  intro s tampered
  have hnone : ∀ id receipt, StoreView.empty.receipt id ≠ .ok (some receipt) := by
    intro id receipt h
    cases Except.ok.inj h
  have hall : AllStanding s.view := by
    refine allStanding_run backend_backs fuel hcmds hnodup ?_ ?_
    · rw [hempty]
      exact ⟨fun id r h => absurd h (hnone id r), fun id r h => absurd h (hnone id r)⟩
    · rw [hempty]
      exact fun _ _ id r h => absurd h (hnone id r)
  have hkey : receiptId = receipt.receiptId := (hall.keyed _ _ hreceipt).symm
  have hstanding : Standing s.view receipt := hall.standing _ _ hreceipt hallow
  have hview : tampered.view = s.view.putReceipt (retargeted receipt targetId targetHash) :=
    backend_implements.view_putReceipt _ s
  have hstill : Standing tampered.view receipt := by
    rw [hview]
    exact ⟨hstanding.agent, hstanding.lease, hstanding.evidence, hstanding.action⟩
  have hstored : tampered.view.receipt receipt.receiptId =
      .ok (some (retargeted receipt targetId targetHash)) := by
    rw [hview]
    exact StoreView.putReceipt_self _ (retargeted receipt targetId targetHash)
  have htarget : tampered.view.target = s.view.target := by rw [hview]; rfl
  rw [hkey, backend_implements.run_reads (ControlPlane.replay_issues _),
    replay_retargeted_iff hstill hstored, htarget]

end Replacement

open CloudDemo in
/-- Clearing the target fields of the demo's ALLOW receipt goes unnoticed. -/
theorem cleared_target_is_not_noticed :
    let s := (runCommands Backend.handle 3 (missionCalls ++ [missionExecution]) (.memory {})).2
    let tampered := (Backend.handle (.putReceipt (retargeted missionReceipt none none)) s).2
    s.view.receipt "rcpt-2" = .ok (some missionReceipt) ∧ missionReceipt.decision = "ALLOW" ∧
    (none, none) ≠ (missionReceipt.targetId, missionReceipt.targetHash) ∧
    ((ControlPlane.replay "rcpt-2").run Backend.handle tampered).1 =
      .ok ⟨"run-1", "rcpt-2", "PASS", [], "trace-3"⟩ := by
  decide +kernel

open CloudDemo in
/-- Another hash under the same target is noticed. -/
theorem tampered_target_hash_is_noticed :
    ∃ manifest, ((ControlPlane.replay "rcpt-2").run Backend.handle
        (Backend.handle (.putReceipt
          (retargeted missionReceipt (some targetId) (some "tampered-target-hash")))
          (runCommands Backend.handle 3 (missionCalls ++ [missionExecution])
            (.memory {})).2).2).1 = .ok manifest ∧ manifest.reconstructionStatus = "FAIL" := by
  have hunforged : ∀ cmd ∈ missionCalls ++ [missionExecution], cmd.Unforged := by
    intro cmd hcmd
    simp only [missionCalls, List.cons_append, List.nil_append, List.mem_cons, List.not_mem_nil,
      or_false] at hcmd
    rcases hcmd with rfl | rfl | rfl | rfl | rfl | rfl | rfl | rfl <;> trivial
  refine (target_tamper_visible_iff (.memory {}) rfl 3
    (missionCalls ++ [missionExecution]) hunforged (by decide) "rcpt-2" missionReceipt
    (by decide +kernel) rfl (some targetId) (some "tampered-target-hash")).mpr ?_
  refine ⟨targetId, some missionTarget, by decide, by decide +kernel, ?_⟩
  intro target htarget
  rw [← Option.some.inj htarget]
  decide

end PoiexGoc
