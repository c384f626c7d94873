/-
  STORAGE CHOICE never changes authorization semantics.

  A sequence of calls runs on a backend as it runs on the view of it (`runCommands_view`), reply by
  reply; two backends that start with the same view therefore give the same replies.  The empty
  `MemoryStore` and the empty `FirestoreStore` both start as the empty view.
-/
import PoiexGoc.Proofs.ControlPlaneCalls
import PoiexGoc.Proofs.StoreRefinement
import PoiexGoc.Runtime.Commands

namespace PoiexGoc

open Py Effect

section Agreement

variable [PyRuntime]

/-- The calls every backend takes: the only restricted one is a direct put of a target, whose
    hash must be the hash of its fields. -/
def Command.Storable : Command → Prop
  | .operation o => o.Storable
  | _ => True

theorem Command.program_issues {cmd : Command} (fuel : Nat) (hcmd : cmd.Storable) :
    (cmd.program fuel).Issues StoreOp.Storable := by
  cases cmd with
  | operation o => exact store.call_issues o hcmd
  | promote agentId capability evidenceId =>
    refine (ControlPlane.promote_issues agentId capability evidenceId).mono ?_
    rintro o (rfl | rfl | ⟨agent, rfl⟩)
    · trivial
    · trivial
    · trivial
  | execute cp draw identity leaseId intent =>
    exact (cp.execute_issues fuel draw identity leaseId intent).mono fun _ =>
      ControlPlane.ExecuteOp.storable
  | replay receiptId =>
    exact (ControlPlane.replay_issues receiptId).mono fun _ => StoreOp.IsRead.storable

/-- Call by call, a backend replies as its view does and stays what its view becomes. -/
theorem runCommands_view {σ : Type} {h : Handler RuntimeStore PyError σ} {view : σ → StoreView}
    (href : Refines h view) (fuel : Nat) {cmds : List Command}
    (hcmds : ∀ cmd ∈ cmds, cmd.Storable) (s : σ) :
    (runCommands h fuel cmds s).1 = (runCommands StoreView.handle fuel cmds (view s)).1 ∧
      view (runCommands h fuel cmds s).2 =
        (runCommands StoreView.handle fuel cmds (view s)).2 := by
  induction cmds generalizing s with
  | nil => exact ⟨rfl, rfl⟩
  | cons cmd cmds ih =>
    have hissues := cmd.program_issues fuel (hcmds cmd List.mem_cons_self)
    obtain ⟨hreply, hview⟩ := href.run hissues s
    obtain ⟨hreplies, hviews⟩ := @ih (fun c hc => hcmds c (List.mem_cons_of_mem _ hc))
      ((cmd.program fuel).run h s).2
    rw [hview] at hreplies hviews
    rw [runCommands_cons, runCommands_cons, hreply, hreplies, hviews]
    exact ⟨rfl, rfl⟩

theorem memoryStore_empty_view : MemoryStore.view {} = StoreView.empty := rfl

theorem firestoreStore_empty_view (fs : FirestoreStore) : fs.view {} = StoreView.empty := rfl

/-- Storage choice never changes authorization semantics: the same calls on an empty local store
    and on an empty document store reply alike, every one of them, whatever the loops are given as
    fuel. -/
theorem storage_choice_never_changes_replies (fs : FirestoreStore) (fuel : Nat)
    (cmds : List Command) (hcmds : ∀ cmd ∈ cmds, cmd.Storable) :
    (runCommands MemoryStore.handle fuel cmds {}).1 = (runCommands fs.handle fuel cmds {}).1 := by
  have hmemory := (runCommands_view memoryStore_refines fuel hcmds {}).1
  have hfirestore := (runCommands_view (firestoreStore_refines fs) fuel hcmds {}).1
  rw [memoryStore_empty_view] at hmemory
  rw [firestoreStore_empty_view] at hfirestore
  exact hmemory.trans hfirestore.symm

end Agreement

/-- A registered agent without a lease, a target with its own hash, and a receipt nobody issued. -/
theorem storage_choice_on_a_pump :
    let pump : MaterialTarget :=
      { targetId := "pump-A", targetType := "synthetic_equipment"
        canonicalRef := "plant-demo/pump-A", version := 3
        allowedActions := {"issue_synthetic_work_order"}
        targetHash := "4cfbd96418f23a1a2237794cb05f31e0d162e8abad0cf2b9f10e2db7830c176f" }
    let fs : FirestoreStore := ⟨"poiex_goc_v0_1", by decide⟩
    let cmds : List Command :=
      [.operation (.putAgent { agentId := "agent-1", role := "operator" }),
       .operation (.putTarget pump), .promote "agent-1" "inspect" "ev-1", .replay "rcpt-0"]
    (runCommands MemoryStore.handle 1 cmds {}).1 = (runCommands fs.handle 1 cmds {}).1 := by
  intro pump fs cmds
  refine storage_choice_never_changes_replies fs 1 cmds fun cmd hcmd => ?_
  have hpump : pump.SelfConsistent := by decide +kernel
  simp only [cmds, List.mem_cons, List.not_mem_nil, or_false] at hcmd
  rcases hcmd with rfl | rfl | rfl | rfl
  · trivial
  · exact hpump
  · trivial
  · trivial

end PoiexGoc
