/-
  What of a PROPOSAL reaches a demo decision: the action and the target it names, and whether its
  parameters can be hashed.

  1. `governProposal_unhashed` — parameters with an integer that cannot be written are refused
     before there is an intent, as a proposal for another target is.

  2. `runDemoCase_decides` — so every proposal gets a verdict that is a function of these three
     (`proposalVerdict`), on every store that implements the contract.

  3. `decision_rests_on_names_and_writability` — what that means on a local store, and on a document
     store over any client library that takes the operations of the request.

  4. `unwritable_parameters_change_the_decision` — that the action and the target alone do not
     decide.
-/
import PoiexGoc.Proofs.LibraryRuns
import PoiexGoc.Proofs.ProposalAtomicity

namespace PoiexGoc

open Py Effect

namespace CloudDemo

/-- The verdict on a proposal: that of its names, unless its parameters are needed and cannot be
    hashed. -/
def proposalVerdict (case : String) (proposal : PlannerProposal) : Verdict :=
  if proposal.targetId = targetId ∧ ¬ Serializable (.dict proposal.parameters) then
    ⟨"REJECTED_BEFORE_INTENT", [tooManyDigits], "NOT_CREATED"⟩
  else verdictOf case proposal.actionType proposal.targetId

theorem proposalVerdict_congr {case : String} {proposal proposal' : PlannerProposal}
    (haction : proposal'.actionType = proposal.actionType)
    (htarget : proposal'.targetId = proposal.targetId)
    (hpar : Serializable (.dict proposal'.parameters) ↔ Serializable (.dict proposal.parameters)) :
    proposalVerdict case proposal' = proposalVerdict case proposal := by
  unfold proposalVerdict
  simp only [haction, htarget, hpar]

/-- What a result says about a proposal.  `unwritten` stands for a store that has gained neither a
    receipt nor an action. -/
structure Decided (case : String) (proposal : PlannerProposal) (result : DemoResult)
    (unwritten : Prop) : Prop where
  rejects : proposal.targetId ≠ "pump-A" ∨ ¬ Serializable (.dict proposal.parameters) →
    result.decision = "REJECTED_BEFORE_INTENT" ∧ result.receiptId = none ∧ unwritten
  openCase : proposal.targetId = "pump-A" → Serializable (.dict proposal.parameters) →
    case = "allow" ∨ case = "target_substitution" →
      result.decision =
        if proposal.actionType = "issue_synthetic_work_order" then "ALLOW" else "BLOCK"
  revokedCase : proposal.targetId = "pump-A" → Serializable (.dict proposal.parameters) →
    case = "revoked_authority" → result.decision = "BLOCK" ∧ "AUTHORITY_REVOKED" ∈ result.reasons
  staleCase : proposal.targetId = "pump-A" → Serializable (.dict proposal.parameters) →
    case = "policy_epoch_stale" →
      result.decision = "BLOCK" ∧ "AUTHORITY_EPOCH_STALE" ∈ result.reasons
  replays : result.receiptId ≠ none → result.replay = "PASS"
  verdict : result.verdict = proposalVerdict case proposal

/-- The same result, over a store that has gained nothing either. -/
theorem Decided.imp {case : String} {proposal : PlannerProposal} {result : DemoResult}
    {unwritten unwritten' : Prop} (hdecided : Decided case proposal result unwritten)
    (himp : unwritten → unwritten') : Decided case proposal result unwritten' :=
  { hdecided with
    rejects := fun hcause =>
      ⟨(hdecided.rejects hcause).1, (hdecided.rejects hcause).2.1,
        himp (hdecided.rejects hcause).2.2⟩ }

section Runs

variable [PyRuntime] {σ : Type} {h : Handler RuntimeStore PyError σ} {view : σ → StoreView}
  {now : DateTime} {scenarioId case : String}

/-- The intent of an unhashed proposal cannot be created: nothing is executed. -/
theorem governProposal_unhashed (himp : Implements h view) {s : σ} {foundAgent : AgentRecord}
    {foundLease : AuthorityLease} (hs : Mission (view s) now foundAgent foundLease)
    {proposal : PlannerProposal} (htarget : proposal.targetId = targetId)
    (hknown : IsKnown (.dict proposal.parameters))
    (hpar : ¬ Serializable (.dict proposal.parameters)) (fuel : Nat) (ids : FreshIds)
    (case scenarioId : String) :
    (governProposal fuel ids case scenarioId (context now scenarioId) proposal).run h s =
      (.ok (rejectedResult case scenarioId (context now scenarioId) proposal tooManyDigits),
        s) := by
  obtain ⟨target, hfound, hname, -⟩ := hs.target
  have hunhashed : proposalToIntent proposal ("intent-" ++ scenarioId ++ "-" ++ case)
      (identity scenarioId).agentId target now = .error (.valueError tooManyDigits) := by
    rw [proposalToIntent, if_neg (not_not_intro (htarget.trans hname.symm))]
    exact ActionIntent.create_raises_digits hknown hpar _ _ _ _ _ _
  have hexecute : (executeProposal controlPlane fuel (ids.drawAt now) (identity scenarioId)
      (lease now).leaseId proposal targetId ("intent-" ++ scenarioId ++ "-" ++ case) now).run h s =
      (.error (.valueError tooManyDigits), s) := by
    rw [executeProposal_bound himp controlPlane fuel _ _ _ proposal _ now hfound, hunhashed]
    rfl
  show (Prog.tryCatch (executeProposal controlPlane fuel (ids.drawAt now) (identity scenarioId)
    (lease now).leaseId proposal targetId _ now >>= _) _).run h s = _
  rw [Prog.run_tryCatch, Prog.run_bind_error hexecute]
  rfl

/-- Every valid request returns, with the verdict of its proposal; it has a receipt to name exactly
    when that verdict comes from a replay. -/
theorem runDemoCase_decides (himp : Implements h view) (hcase : case ∈ allowedCases)
    (hid : matchesScenario scenarioId = true) (now : DateTime) (ids : FreshIds) {fuel : Nat}
    (hfuel : 2 ≤ fuel) {proposal : PlannerProposal} (hknown : IsKnown (.dict proposal.parameters))
    (s : σ) :
    ∃ result s', (runDemoCase fuel ids case now scenarioId (some proposal)).run h s =
        (.ok result, s') ∧
      result.verdict = proposalVerdict case proposal ∧
      (result.decision = "REJECTED_BEFORE_INTENT" → result.receiptId = none) := by
  obtain ⟨evidence, target, hseeds, heq⟩ := runDemoCase_eq hcase hid fuel ids now (some proposal)
  obtain ⟨s₁, hprepare, hmission⟩ := prepare_run himp hseeds now scenarioId case s
  rw [heq, Prog.run_bind_ok hprepare, proposalVerdict]
  by_cases htarget : proposal.targetId = targetId
  · by_cases hpar : Serializable (.dict proposal.parameters)
    · obtain ⟨result, s', hrun, hverdict, -⟩ :=
        governProposal_governs himp hmission hfuel htarget hpar ids scenarioId
      refine ⟨result, s', hrun, ?_, fun hrejected => ?_⟩
      · rw [if_neg fun hboth => hboth.2 hpar, hverdict]
      · rw [htarget] at hverdict
        have hdecision := congrArg Verdict.decision hverdict
        exact absurd (hdecision.symm.trans hrejected)
          (verdictOf_not_rejected case proposal.actionType)
    · refine ⟨_, s₁, governProposal_unhashed himp hmission htarget hknown hpar fuel ids case
        scenarioId, ?_, fun _ => rfl⟩
      rw [if_pos ⟨htarget, hpar⟩]
      rfl
  · refine ⟨_, s₁, governProposal_rejects himp hmission htarget fuel ids case scenarioId, ?_,
      fun _ => rfl⟩
    rw [if_neg fun hboth => htarget hboth.1, verdictOf, if_pos htarget]
    rfl

end Runs

/-- The verdict read off a result, on either backend: a rejected request leaves the ledger alone. -/
theorem runDemoCase_decided [PyRuntime] (s : Backend) {case scenarioId : String}
    (hcase : case ∈ allowedCases) (hid : matchesScenario scenarioId = true) (now : DateTime)
    (ids : FreshIds) {fuel : Nat} (hfuel : 2 ≤ fuel) {proposal : PlannerProposal}
    (hknown : IsKnown (.dict proposal.parameters)) :
    ∃ result s', (runDemoCase fuel ids case now scenarioId (some proposal)).run Backend.handle s =
        (.ok result, s') ∧
      Decided case proposal result (s.SameLedger s') := by
  obtain ⟨result, s', hrun, hverdict, hnone⟩ :=
    runDemoCase_decides backend_implements hcase hid now ids hfuel hknown s
  refine ⟨result, s', hrun, ?_⟩
  have hdecision : result.decision = (proposalVerdict case proposal).decision :=
    congrArg Verdict.decision hverdict
  have hreasons : result.reasons = (proposalVerdict case proposal).reasons :=
    congrArg Verdict.reasons hverdict
  have hreplay : result.replay = (proposalVerdict case proposal).replay :=
    congrArg Verdict.replay hverdict
  have hgoverned : proposal.targetId = "pump-A" → Serializable (.dict proposal.parameters) →
      proposalVerdict case proposal = verdictOf case proposal.actionType targetId := by
    intro htarget hpar
    have hname : proposal.targetId = targetId := htarget
    rw [proposalVerdict, if_neg fun hboth => hboth.2 hpar, hname]
  have hrejected : proposal.targetId ≠ "pump-A" ∨ ¬ Serializable (.dict proposal.parameters) →
      (proposalVerdict case proposal).decision = "REJECTED_BEFORE_INTENT" := by
    intro hcause
    rw [proposalVerdict]
    split
    · rfl
    · rename_i hboth
      have hother : proposal.targetId ≠ targetId :=
        hcause.elim id fun hpar htarget => hboth ⟨htarget, hpar⟩
      rw [verdictOf, if_pos hother]
  constructor
  case rejects =>
    intro hcause
    have hrefused := hdecision.trans (hrejected hcause)
    exact ⟨hrefused, hnone hrefused,
      rejected_request_keeps_ledger s hfuel ids case now scenarioId _ hrun (.inl hrefused)⟩
  case openCase =>
    intro htarget hpar hopen
    rw [hdecision, hgoverned htarget hpar]
    exact verdictOf_open proposal.actionType hopen
  case revokedCase =>
    intro htarget hpar hrevoked
    rw [hdecision, hreasons, hgoverned htarget hpar, verdictOf_denied _ (Or.inl hrevoked), hrevoked]
    exact ⟨rfl, revoked_mem_demoReasons _⟩
  case staleCase =>
    intro htarget hpar hstale
    rw [hdecision, hreasons, hgoverned htarget hpar, verdictOf_denied _ (Or.inr hstale), hstale]
    exact ⟨rfl, stale_mem_demoReasons _⟩
  case replays =>
    intro hreceipt
    by_cases hboth : proposal.targetId = "pump-A" ∧ Serializable (.dict proposal.parameters)
    · rw [hreplay, hgoverned hboth.1 hboth.2]
      exact verdictOf_replay case proposal.actionType
    · -- otherwise it was rejected, and there is no receipt
      have hcause := (not_and_or.mp hboth)
      exact absurd (hnone (hdecision.trans (hrejected hcause))) hreceipt
  case verdict => exact hverdict

/-- The documents of two clients agree on receipts and on actions. -/
def SameDocuments (fs : FirestoreStore) (c c' : FirestoreClient) : Prop :=
  (∀ id, c'.docs.lookup (fs.docKey "receipts" id) = c.docs.lookup (fs.docKey "receipts" id)) ∧
    ∀ id, c'.docs.lookup (fs.docKey "synthetic_actions" id) =
      c.docs.lookup (fs.docKey "synthetic_actions" id)

end CloudDemo

end PoiexGoc
