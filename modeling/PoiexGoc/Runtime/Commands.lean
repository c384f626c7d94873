/-
  RUNS of a control plane: a caller's sequence of store operations, promotions, executions and
  replays, each returning a value or raising, none of them stopping the sequence.

  `runCommands` runs such a sequence against a handler.  `session` is the same sequence as one
  program, so that several callers can be interleaved; alone, it runs as `runCommands` does.
-/
import PoiexGoc.Runtime.ControlPlane

namespace PoiexGoc

open Py Effect

/-- One call of a caller. -/
inductive Command where
  | operation (o : StoreOp)
  | promote (agentId capability evidenceId : String)
  | execute (cp : ControlPlane) (draw : Draw) (identity : IdentityContext) (leaseId : String)
      (intent : ActionIntent)
  | replay (receiptId : String)

namespace Command

/-- What each call returns. -/
@[reducible] def Result : Command → Type
  | operation o => o.Result
  | promote _ _ _ => Unit
  | execute _ _ _ _ _ => ExecutionReceipt
  | replay _ => ReplayManifest

def program (fuel : Nat) : (cmd : Command) → StoreM cmd.Result
  | operation o => store.call o
  | promote agentId capability evidenceId =>
    ControlPlane.promoteObservedCapability agentId capability evidenceId
  | execute cp draw identity leaseId intent => cp.execute fuel draw identity leaseId intent
  | replay receiptId => ControlPlane.replay receiptId

end Command

/-- What a call returned or raised. -/
abbrev Reply := (cmd : Command) × Except PyError cmd.Result

variable {σ : Type}

/-- The replies of a sequence of calls, and the store it leaves. -/
def runCommands (h : Handler RuntimeStore PyError σ) (fuel : Nat) :
    List Command → σ → List Reply × σ
  | [], s => ([], s)
  | cmd :: cmds, s =>
    let (reply, s') := (cmd.program fuel).run h s
    let (replies, s'') := runCommands h fuel cmds s'
    (⟨cmd, reply⟩ :: replies, s'')

theorem runCommands_cons (h : Handler RuntimeStore PyError σ) (fuel : Nat) (cmd : Command)
    (cmds : List Command) (s : σ) :
    runCommands h fuel (cmd :: cmds) s =
      (⟨cmd, ((cmd.program fuel).run h s).1⟩ ::
          (runCommands h fuel cmds ((cmd.program fuel).run h s).2).1,
        (runCommands h fuel cmds ((cmd.program fuel).run h s).2).2) := rfl

/-- The sequence as one program; what a call raises is a reply like any other. -/
def session (fuel : Nat) : List Command → StoreM (List Reply)
  | [] => pure []
  | cmd :: cmds => do
    let reply ← (cmd.program fuel).attempt
    let replies ← session fuel cmds
    pure (⟨cmd, reply⟩ :: replies)

theorem session_run (h : Handler RuntimeStore PyError σ) (fuel : Nat) (cmds : List Command)
    (s : σ) :
    (session fuel cmds).run h s =
      (.ok (runCommands h fuel cmds s).1, (runCommands h fuel cmds s).2) := by
  induction cmds generalizing s with
  | nil => rfl
  | cons cmd cmds ih =>
    rw [session, Prog.run_bind_ok (Prog.run_attempt h (cmd.program fuel) s),
      Prog.run_bind_ok (ih _), runCommands_cons]
    rfl

theorem session_issues {P : StoreOp → Prop} {fuel : Nat} {cmds : List Command}
    (hcmds : ∀ cmd ∈ cmds, (cmd.program fuel).Issues P) : (session fuel cmds).Issues P := by
  induction cmds with
  | nil => trivial
  | cons cmd cmds ih =>
    refine Prog.issues_bind (Prog.issues_attempt (hcmds cmd List.mem_cons_self)) fun reply => ?_
    exact Prog.issues_bind (ih fun c hc => hcmds c (List.mem_cons_of_mem _ hc)) fun _ => trivial

/-- A sequence of calls returns one reply for each, as the call on its own does. -/
theorem session_meets {A : (o : StoreOp) → Except PyError o.Result → Prop} {P : StoreOp → Prop}
    {Q : (cmd : Command) → Except PyError cmd.Result → Prop} {fuel : Nat} {cmds : List Command}
    (hcmds : ∀ cmd ∈ cmds, (cmd.program fuel).Meets A P (Q cmd)) :
    (session fuel cmds).Meets A P
      fun r => ∀ replies, r = .ok replies → ∀ reply ∈ replies, Q reply.1 reply.2 := by
  induction cmds with
  | nil =>
    rintro replies hr reply hmem
    rw [← Except.ok.inj hr] at hmem
    cases hmem
  | cons cmd cmds ih =>
    refine Prog.meets_bind_ok (Prog.meets_attempt (hcmds cmd List.mem_cons_self))
      fun reply hreply => ?_
    obtain ⟨_, heq, hcmd⟩ := hreply
    rw [← Except.ok.inj heq] at hcmd
    refine Prog.meets_bind_ok (ih fun c hc => hcmds c (List.mem_cons_of_mem _ hc))
      fun replies hreplies => ?_
    rintro all hr other hmem
    rw [← Except.ok.inj hr] at hmem
    rcases List.mem_cons.mp hmem with rfl | hmem
    · exact hcmd
    · exact hreplies replies rfl other hmem

/-- Every call of the sequence satisfies `P` in the store it starts from. -/
def RunMeets (h : Handler RuntimeStore PyError σ) (fuel : Nat) (P : Command → σ → Prop) :
    List Command → σ → Prop
  | [], _ => True
  | cmd :: cmds, s => P cmd s ∧ RunMeets h fuel P cmds ((cmd.program fuel).run h s).2

theorem runMeets_of_forall {h : Handler RuntimeStore PyError σ} {fuel : Nat}
    {P : Command → Prop} {cmds : List Command} (hcmds : ∀ cmd ∈ cmds, P cmd) (s : σ) :
    RunMeets h fuel (fun cmd _ => P cmd) cmds s := by
  induction cmds generalizing s with
  | nil => trivial
  | cons cmd cmds ih =>
    exact ⟨hcmds cmd List.mem_cons_self, ih (fun c hc => hcmds c (List.mem_cons_of_mem _ hc)) _⟩

theorem RunMeets.and_of_forall {h : Handler RuntimeStore PyError σ} {fuel : Nat}
    {P : Command → Prop} {Q : Command → σ → Prop} {cmds : List Command} {s : σ}
    (hcmds : ∀ cmd ∈ cmds, P cmd) (hmeets : RunMeets h fuel Q cmds s) :
    RunMeets h fuel (fun cmd s => P cmd ∧ Q cmd s) cmds s := by
  induction cmds generalizing s with
  | nil => trivial
  | cons cmd cmds ih =>
    exact ⟨⟨hcmds cmd List.mem_cons_self, hmeets.1⟩,
      ih (fun c hc => hcmds c (List.mem_cons_of_mem _ hc)) hmeets.2⟩

/-- What every call keeps, where it meets the condition, holds after the whole run. -/
theorem runCommands_invariant {h : Handler RuntimeStore PyError σ} {fuel : Nat}
    {P : Command → σ → Prop} {I : σ → Prop}
    (step : ∀ cmd s, P cmd s → I s → I ((cmd.program fuel).run h s).2) {cmds : List Command}
    {s : σ} (hcmds : RunMeets h fuel P cmds s) (hs : I s) : I (runCommands h fuel cmds s).2 := by
  induction cmds generalizing s with
  | nil => exact hs
  | cons cmd cmds ih =>
    rw [runCommands_cons]
    exact ih hcmds.2 (step cmd s hcmds.1 hs)

/-- What every operation keeps holds after any run. -/
theorem runCommands_keeps {h : Handler RuntimeStore PyError σ} {I : σ → Prop}
    (step : ∀ o s, I s → I (h o s).2) (fuel : Nat) (cmds : List Command) {s : σ} (hs : I s) :
    I (runCommands h fuel cmds s).2 := by
  refine runCommands_invariant (P := fun _ _ => True) ?_ (runMeets_of_forall (fun _ _ => trivial) s)
    hs
  intro cmd s _ hcmd
  exact Prog.run_invariant (fun o s _ ho => step o s ho) (Prog.issues_any (cmd.program fuel)) hcmd

end PoiexGoc
