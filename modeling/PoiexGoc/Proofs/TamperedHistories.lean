/-
  TAMPERED HISTORIES: what a replay says after records were lost, put back and lost again.

  1. `StoreEvent` — what happens to a store after an execution: calls, and losses of records.  In the
     view each is one step (`step_view`).

  2. The last event about a record decides whether it is there (`has_after`), and the last event about
     a target decides what is found (`target_after`).  A promotion is about no record: it puts an
     agent only where it has found one.

  3. `replays_name_what_was_lost` — so the replay of an ALLOW receipt lists exactly the predecessors
     that were lost and not put back, and a target hash that was replaced.
-/
import PoiexGoc.Lib.LastWrite
import PoiexGoc.Proofs.RemovedRecords
import PoiexGoc.Proofs.StorageChoice

namespace PoiexGoc

open Py Effect LastWrite

deriving instance DecidableEq for RecordRef

/-! ## Events -/

inductive StoreEvent where
  | call (cmd : Command)
  | loss (ref : RecordRef)

/-- The record that the operation puts into the registry. -/
def StoreOp.puts : StoreOp → Option RecordRef
  | .putAgent agent => some (.agent agent.agentId)
  | .putLease lease => some (.lease lease.leaseId)
  | .putAuthorityProvenance record => some (.provenance record.provenanceId)
  | .putEvidence evidence => some (.evidence evidence.evidenceId)
  | .putTarget target => some (.target target.targetId)
  | _ => none

/-- The operation does not store the action. -/
def StoreOp.OtherAction (ref : RecordRef) (o : StoreOp) : Prop :=
  ∀ runId payload, o = .executeSyntheticAction runId payload → ref ≠ .action runId

namespace StoreEvent

def step [PyRuntime] (fuel : Nat) (s : Backend) : StoreEvent → Backend
  | call cmd => ((cmd.program fuel).run Backend.handle s).2
  | loss ref => s.remove ref

def onView [PyRuntime] (fuel : Nat) (v : StoreView) : StoreEvent → StoreView
  | call cmd => ((cmd.program fuel).run StoreView.handle v).2
  | loss ref => v.forget ref

/-- Whether the record is there after the event, if the event is about it. -/
def presence (ref : RecordRef) : StoreEvent → Option Bool
  | call (.operation o) => if o.puts = some ref then some true else none
  | call _ => none
  | loss ref' => if ref' = ref then some false else none

/-- What is found under the id of a target after the event, if the event is about it. -/
def target (targetId : String) : StoreEvent → Option (Option MaterialTarget)
  | call (.operation (.putTarget target)) =>
    if target.targetId = targetId then some (some target) else none
  | call _ => none
  | loss ref => if ref = .target targetId then some none else none

/-- The event is a call that every store takes and that has other ids than the receipt, or a loss. -/
def Spares [PyRuntime] (receipt : ExecutionReceipt) : StoreEvent → Prop
  | call cmd => cmd.Storable ∧ cmd.Spares receipt
  | loss _ => True

end StoreEvent

/-- The last event about the record is its loss. -/
def Lost (events : List StoreEvent) (ref : RecordRef) : Prop :=
  lastSet (StoreEvent.presence ref) events = some false

/-- The last event about the target puts one with another hash. -/
def Replaced (events : List StoreEvent) (targetId targetHash : String) : Prop :=
  ((lastSet (StoreEvent.target targetId) events).join.any fun target =>
    target.targetHash ≠ targetHash) = true

instance (events : List StoreEvent) (ref : RecordRef) : Decidable (Lost events ref) :=
  inferInstanceAs (Decidable (_ = _))

instance (events : List StoreEvent) (targetId targetHash : String) :
    Decidable (Replaced events targetId targetHash) :=
  inferInstanceAs (Decidable (_ = _))

/-- A record is lost when it was removed and no later event is about it. -/
theorem lost_iff {events : List StoreEvent} {ref : RecordRef} :
    Lost events ref ↔ ∃ pre post, events = pre ++ .loss ref :: post ∧
      ∀ e ∈ post, e.presence ref = none := by
  have hpresence : ∀ e : StoreEvent, e.presence ref = some false ↔ e = .loss ref := by
    intro e
    match e with
    | .call (.operation o) =>
      refine iff_of_false (fun h => ?_) nofun
      by_cases hputs : o.puts = some ref
      · cases (if_pos hputs).symm.trans h
      · cases (if_neg hputs).symm.trans h
    | .call (.promote _ _ _) | .call (.execute _ _ _ _ _) | .call (.replay _) =>
      exact iff_of_false nofun nofun
    | .loss ref' =>
      by_cases heq : ref' = ref
      · exact iff_of_true (if_pos heq) (congrArg _ heq)
      · refine iff_of_false (fun h => ?_) fun h => heq (StoreEvent.loss.inj h)
        cases (if_neg heq).symm.trans h
  rw [Lost, lastSet_eq_some_iff]
  constructor
  · rintro ⟨pre, e, post, rfl, he, hpost⟩
    rw [(hpresence e).mp he]
    exact ⟨pre, post, rfl, lastSet_eq_none_iff.mp hpost⟩
  · rintro ⟨pre, post, rfl, hpost⟩
    exact ⟨pre, _, post, rfl, (hpresence _).mpr rfl, lastSet_eq_none_iff.mpr hpost⟩

/-! ## One event -/

/-- Whether the view has the record; of an action it asks for the hash. -/
def StoreView.has (v : StoreView) (resultHash : String) : RecordRef → Except PyError Bool
  | .agent agentId => (v.agent agentId).map Option.isSome
  | .lease leaseId => (v.lease leaseId).map Option.isSome
  | .provenance provenanceId => (v.provenance provenanceId).map Option.isSome
  | .evidence evidenceId => (v.evidence evidenceId).map Option.isSome
  | .target targetId => (v.target targetId).map Option.isSome
  | .action runId => v.action runId resultHash

section Answers

variable {v : StoreView} {resultHash : String} {ref : RecordRef}

theorem isSome_update {V : Type} (f : String → Except PyError (Option V)) {key id : String}
    (found : Option V) {c : Prop} [Decidable c] (hc : c ↔ key = id) :
    (Function.update f key (.ok found) id).map Option.isSome =
      if c then .ok found.isSome else (f id).map Option.isSome := by
  by_cases heq : key = id
  · rw [if_pos (hc.mpr heq), heq, Function.update_self]
    rfl
  · rw [if_neg (mt hc.mp heq), Function.update_of_ne (Ne.symm heq)]

theorem has_forget (lost : RecordRef) :
    (v.forget lost).has resultHash ref =
      if lost = ref then .ok false else v.has resultHash ref := by
  cases lost with
  | agent key =>
    cases ref with
    | agent id => exact isSome_update v.agent none (iff_of_eq (RecordRef.agent.injEq key id))
    | _ => rfl
  | lease key =>
    cases ref with
    | lease id => exact isSome_update v.lease none (iff_of_eq (RecordRef.lease.injEq key id))
    | _ => rfl
  | provenance key =>
    cases ref with
    | provenance id =>
      exact isSome_update v.provenance none (iff_of_eq (RecordRef.provenance.injEq key id))
    | _ => rfl
  | evidence key =>
    cases ref with
    | evidence id => exact isSome_update v.evidence none (iff_of_eq (RecordRef.evidence.injEq key id))
    | _ => rfl
  | target key =>
    cases ref with
    | target id => exact isSome_update v.target none (iff_of_eq (RecordRef.target.injEq key id))
    | _ => rfl
  | action key =>
    cases ref with
    | action id =>
      show Function.update v.action key _ id resultHash = _
      by_cases heq : key = id
      · rw [heq, Function.update_self, if_pos rfl]
      · rw [Function.update_of_ne (Ne.symm heq), if_neg fun h => heq (RecordRef.action.inj h)]
        rfl
    | _ => rfl

variable [PyRuntime]

/-- An operation is about the record it puts, if it does not store the action itself. -/
theorem has_handle {o : StoreOp} (ho : o.OtherAction ref) :
    (StoreView.handle o v).2.has resultHash ref =
      if o.puts = some ref then .ok true else v.has resultHash ref := by
  cases o with
  | putAgent agent =>
    cases ref with
    | agent id =>
      exact isSome_update v.agent (some agent)
        (Option.some_inj.trans (iff_of_eq (RecordRef.agent.injEq agent.agentId id)))
    | _ => rfl
  | putLease lease =>
    cases ref with
    | lease id =>
      exact isSome_update v.lease (some lease)
        (Option.some_inj.trans (iff_of_eq (RecordRef.lease.injEq lease.leaseId id)))
    | _ => rfl
  | putAuthorityProvenance record =>
    cases ref with
    | provenance id =>
      exact isSome_update v.provenance (some record)
        (Option.some_inj.trans (iff_of_eq (RecordRef.provenance.injEq record.provenanceId id)))
    | _ => rfl
  | putEvidence evidence =>
    cases ref with
    | evidence id =>
      exact isSome_update v.evidence (some evidence)
        (Option.some_inj.trans (iff_of_eq (RecordRef.evidence.injEq evidence.evidenceId id)))
    | _ => rfl
  | putTarget target =>
    cases ref with
    | target id =>
      exact isSome_update v.target (some target)
        (Option.some_inj.trans (iff_of_eq (RecordRef.target.injEq target.targetId id)))
    | _ => rfl
  | executeSyntheticAction runId payload =>
    rw [if_neg nofun]
    simp only [StoreView.handle]
    cases canonicalHash (syntheticResult runId payload) with
    | error e => rfl
    | ok ownHash =>
      cases ref with
      | action id =>
        have hne : id ≠ runId := fun h => ho runId payload rfl (congrArg _ h)
        exact congrFun (Function.update_of_ne hne _ v.action) resultHash
      | _ => rfl
  | _ => rfl

/-- A program that stores other records only. -/
theorem has_program {α : Type} {p : StoreM α}
    (hp : p.Issues fun o : StoreOp => o.puts ≠ some ref ∧ o.OtherAction ref) :
    (p.run StoreView.handle v).2.has resultHash ref = v.has resultHash ref := by
  refine Prog.run_invariant (I := fun w : StoreView => w.has resultHash ref = v.has resultHash ref) ?_ hp rfl
  rintro o w ⟨hputs, ho⟩ hw
  rw [has_handle ho, if_neg hputs, hw]

end Answers

/-- Agents are found under their own ids. -/
def Keyed (v : StoreView) : Prop := ∀ id agent, v.agent id = .ok (some agent) → agent.agentId = id

section Steps

variable [PyRuntime] {v : StoreView} {receipt : ExecutionReceipt} {fuel : Nat}

omit [PyRuntime] in
theorem keyed_empty : Keyed StoreView.empty := by
  intro id agent hagent
  cases Except.ok.inj hagent

theorem Keyed.transition (hkeyed : Keyed v) {o : StoreOp} {v' : StoreView}
    (hstep : Transition v o v') : Keyed v' := by
  cases hstep with
  | putAgent agent =>
    intro id found hfound
    rcases StoreView.found_after_put hfound with ⟨rfl, rfl⟩ | hold
    · rfl
    · exact hkeyed id found hold
  | _ => exact hkeyed

theorem storeView_backs : Backs StoreView.handle id where
  toImplements := storeView_implements
  putTarget target _ := ⟨.ok (some target), rfl, fun _ hfound => (Except.ok.inj hfound).symm⟩

theorem Keyed.step (hkeyed : Keyed v) (e : StoreEvent) : Keyed (e.onView fuel v) := by
  cases e with
  | call cmd =>
    refine Prog.run_invariant (I := Keyed) (fun o w _ hw => ?_) (Prog.issues_any (cmd.program fuel))
      hkeyed
    have hstep : Transition w o (StoreView.handle o w).2 := storeView_backs.transition o w
    exact hw.transition hstep
  | loss ref =>
    cases ref with
    | agent lost =>
      intro id agent hagent
      by_cases heq : id = lost
      · replace hagent : Function.update v.agent lost (.ok none) id = .ok (some agent) := hagent
        rw [heq, Function.update_self] at hagent
        cases Except.ok.inj hagent
      · refine hkeyed id agent ?_
        rw [← hagent]
        exact (Function.update_of_ne heq _ _).symm
    | _ => exact hkeyed

omit [PyRuntime] in
theorem read_is_about_no_record {o : StoreOp} (ho : o.IsRead) (ref : RecordRef) :
    o.puts ≠ some ref ∧ o.OtherAction ref := by
  cases o with
  | getAgent | getLease | getAuthorityProvenance | getEvidence | getTarget | getReceipt
  | hasSyntheticAction => exact ⟨nofun, nofun⟩
  | _ => exact ho.elim

/-- What an event does to the presence of a record. -/
theorem has_step {e : StoreEvent} (he : e.Spares receipt) (hkeyed : Keyed v) {ref : RecordRef}
    (href : ∀ runId, ref = .action runId → runId = receipt.runId) (resultHash : String) :
    (e.onView fuel v).has resultHash ref =
      ((e.presence ref).map Except.ok).getD (v.has resultHash ref) := by
  match e with
  | .loss lost =>
    refine (has_forget lost).trans ?_
    simp only [StoreEvent.presence]
    split <;> rfl
  | .call (.operation o) =>
    have hother : o.OtherAction ref := by
      rintro runId payload rfl hsame
      exact he.2 (href runId hsame)
    refine (has_handle hother).trans ?_
    simp only [StoreEvent.presence]
    split <;> rfl
  | .call (.promote agentId capability evidenceId) =>
    show StoreView.has _ resultHash ref = v.has resultHash ref
    rcases ControlPlane.promote_cases storeView_implements agentId capability evidenceId v with
      ⟨e, hraise⟩ | ⟨agent, evidence, hagent, -, -, hput⟩
    · exact congrArg (fun w => w.2.has resultHash ref) hraise
    · refine (congrArg (fun w => w.2.has resultHash ref) hput).trans ?_
      refine (has_handle (o := .putAgent _) nofun).trans ?_
      -- the agent is put where it was found
      split
      · rename_i hputs
        have hid : agent.agentId = agentId := hkeyed _ _ hagent
        rw [← Option.some.inj hputs]
        show Except.ok true = (v.agent agent.agentId).map Option.isSome
        rw [hid]
        exact (congrArg (Except.map Option.isSome) hagent).symm
      · rfl
  | .call (.execute cp draw identity leaseId intent) =>
    refine has_program ((cp.execute_issues fuel draw identity leaseId intent).mono fun o ho => ?_)
    cases o with
    | putReceipt other => exact ⟨nofun, nofun⟩
    | executeSyntheticAction runId payload =>
      refine ⟨nofun, ?_⟩
      rintro _ _ hsame hown
      rw [← (StoreOp.executeSyntheticAction.inj hsame).1] at hown
      exact he.2.2 (ho.symm.trans (href runId hown))
    | getAgent | getLease | getAuthorityProvenance | getEvidence | getTarget =>
      exact ⟨nofun, nofun⟩
    | _ => exact ho.elim
  | .call (.replay receiptId) =>
    exact has_program ((ControlPlane.replay_issues receiptId).mono fun o ho => read_is_about_no_record ho ref)

/-- What an operation leaves under the id of a target. -/
theorem target_handle (o : StoreOp) (targetId : String) :
    (StoreView.handle o v).2.target targetId =
      (((StoreEvent.call (.operation o)).target targetId).map Except.ok).getD
        (v.target targetId) := by
  cases o with
  | putTarget target =>
    simp only [StoreEvent.target]
    by_cases heq : target.targetId = targetId
    · rw [if_pos heq, ← heq]
      exact StoreView.putTarget_self v target
    · rw [if_neg heq]
      exact Function.update_of_ne (Ne.symm heq) _ _
  | executeSyntheticAction runId payload =>
    simp only [StoreView.handle]
    cases canonicalHash (syntheticResult runId payload) with
    | error e => rfl
    | ok ownHash => rfl
  | _ => rfl

/-- What an event leaves under the id of a target. -/
theorem target_step (e : StoreEvent) (targetId : String) :
    (e.onView fuel v).target targetId =
      ((e.target targetId).map Except.ok).getD (v.target targetId) := by
  have hprogram : ∀ {α : Type} (p : StoreM α),
      p.Issues (fun o : StoreOp => ∀ target, o ≠ .putTarget target) →
      (p.run StoreView.handle v).2.target targetId = v.target targetId := by
    intro α p hp
    refine Prog.run_invariant (I := fun w : StoreView => w.target targetId = v.target targetId)
      (fun o w ho hw => ?_) hp rfl
    rw [target_handle, ← hw]
    cases o with
    | putTarget target => exact absurd rfl (ho target)
    | _ => rfl
  match e with
  | .loss ref =>
    cases ref with
    | target lost =>
      show Function.update v.target lost (.ok none) targetId = _
      simp only [StoreEvent.target, RecordRef.target.injEq]
      by_cases heq : lost = targetId
      · rw [if_pos heq, heq, Function.update_self]
        rfl
      · rw [if_neg heq, Function.update_of_ne (Ne.symm heq)]
        rfl
    | _ => rfl
  | .call (.operation o) => exact target_handle o targetId
  | .call (.promote agentId capability evidenceId) =>
    refine hprogram _ ((ControlPlane.promote_issues agentId capability evidenceId).mono ?_)
    rintro o (rfl | rfl | ⟨agent, rfl⟩) <;> nofun
  | .call (.execute cp draw identity leaseId intent) =>
    refine hprogram _ ((cp.execute_issues fuel draw identity leaseId intent).mono ?_)
    rintro o ho target rfl
    exact ho
  | .call (.replay receiptId) =>
    refine hprogram _ ((ControlPlane.replay_issues receiptId).mono ?_)
    rintro o ho target rfl
    exact ho

/-- The receipt stays. -/
theorem receipt_step {e : StoreEvent} (he : e.Spares receipt) :
    (e.onView fuel v).receipt receipt.receiptId = v.receipt receipt.receiptId := by
  cases e with
  | loss ref => cases ref <;> rfl
  | call cmd =>
    refine Prog.run_invariant
      (I := fun w : StoreView => w.receipt receipt.receiptId = v.receipt receipt.receiptId)
      (fun o w ho hw => ?_) (cmd.program_spares fuel he.2) rfl
    have hstep : Transition w o (StoreView.handle o w).2 := storeView_backs.transition o w
    rw [hstep.receipt_eq, hw]
    rintro other rfl
    exact ho

/-- On either store an event does what it does on the view. -/
theorem step_view {e : StoreEvent} (he : e.Spares receipt) (s : Backend) :
    (e.step fuel s).view = e.onView fuel s.view := by
  cases e with
  | call cmd => exact (backend_implements.refines.run (cmd.program_issues fuel he.1) s).2
  | loss ref => exact view_remove s ref

end Steps

/-! ## All events -/

theorem stored_of_isSome {V : Type} {answer : Except PyError (Option V)} {found : Bool}
    (hfound : answer.map Option.isSome = .ok found) :
    (∃ record, answer = .ok record) ∧ (ControlPlane.stored answer = none ↔ found = false) := by
  cases answer with
  | error e => cases hfound
  | ok record =>
    refine ⟨⟨record, rfl⟩, ?_⟩
    rw [← Except.ok.inj hfound]
    cases record with
    | none => exact iff_of_true rfl rfl
    | some r => exact iff_of_false nofun nofun

section Histories

variable [PyRuntime] {receipt : ExecutionReceipt} {events : List StoreEvent}

def runEvents (fuel : Nat) (events : List StoreEvent) (s : Backend) : Backend :=
  events.foldl (StoreEvent.step fuel) s

variable (hevents : ∀ e ∈ events, e.Spares receipt) (fuel : Nat) (s : Backend)

include hevents

theorem runEvents_view : (runEvents fuel events s).view =
    events.foldl (StoreEvent.onView fuel) s.view := by
  induction events generalizing s with
  | nil => rfl
  | cons e events ih =>
    rw [List.foldl_cons, ← step_view (hevents e List.mem_cons_self),
      ← ih fun e' he' => hevents e' (List.mem_cons_of_mem _ he')]
    rfl

/-- A record is there unless it was lost. -/
theorem has_after (hkeyed : Keyed s.view) (ref : RecordRef) {resultHash : String}
    (href : ∀ runId, ref = .action runId → runId = receipt.runId)
    (hfound : s.view.has resultHash ref = .ok true) :
    ∃ found, (runEvents fuel events s).view.has resultHash ref = .ok found ∧
      (found = false ↔ Lost events ref) := by
  rw [runEvents_view hevents]
  have hafter : (events.foldl (StoreEvent.onView fuel) s.view).has resultHash ref =
      (lastSet (fun e => (e.presence ref).map Except.ok) events).getD (s.view.has resultHash ref) :=
    observe_foldl (fun w : StoreView => w.has resultHash ref) _ Keyed
      (fun e he w hw => has_step (hevents e he) hw href resultHash) (fun e _ w hw => hw.step e) hkeyed
  rw [lastSet_map, hfound] at hafter
  unfold Lost
  cases hlast : lastSet (StoreEvent.presence ref) events with
  | none =>
    rw [hlast] at hafter
    exact ⟨true, hafter, nofun, nofun⟩
  | some found =>
    rw [hlast] at hafter
    exact ⟨found, hafter, Option.some_inj.symm⟩

/-- The same of a record that is read. -/
theorem record_after {V : Type} (hkeyed : Keyed s.view)
    (read : StoreView → Except PyError (Option V)) (ref : RecordRef) {record : V}
    (hread : ∀ v : StoreView, v.has "" ref = (read v).map Option.isSome)
    (href : ∀ runId, ref ≠ .action runId) (hfound : read s.view = .ok (some record)) :
    (∃ found, read (runEvents fuel events s).view = .ok found) ∧
      (ControlPlane.stored (read (runEvents fuel events s).view) = none ↔ Lost events ref) := by
  have hthere : s.view.has "" ref = .ok true := by
    rw [hread, hfound]
    rfl
  obtain ⟨found, hafter, hlost⟩ := has_after hevents fuel s hkeyed ref
    (fun runId h => absurd h (href runId)) hthere
  rw [hread] at hafter
  obtain ⟨hanswer, hnone⟩ := stored_of_isSome hafter
  exact ⟨hanswer, hnone.trans hlost⟩

theorem target_after (targetId : String) : (runEvents fuel events s).view.target targetId =
    ((lastSet (StoreEvent.target targetId) events).map Except.ok).getD (s.view.target targetId) := by
  rw [runEvents_view hevents, ← lastSet_map]
  exact observe_foldl (fun w : StoreView => w.target targetId)
    (fun e => (e.target targetId).map Except.ok) (fun _ => True)
    (fun e _ w _ => target_step e targetId) (fun _ _ _ _ => trivial) trivial

theorem receipt_after : (runEvents fuel events s).view.receipt receipt.receiptId =
    s.view.receipt receipt.receiptId := by
  rw [runEvents_view hevents]
  refine (observe_foldl (fun w : StoreView => w.receipt receipt.receiptId) (fun _ => none)
    (fun _ => True) (fun e he w _ => receipt_step (hevents e he)) (fun _ _ _ _ => trivial)
    trivial).trans ?_
  rw [lastSet_eq_none_iff.mpr fun _ _ => rfl]
  rfl

end Histories

/-! ## What the replay says -/

section Replays

open ControlPlane

section Parts

variable {v : StoreView} {receipt : ExecutionReceipt} {events : List StoreEvent}

theorem leaseFindings_eq {leaseId : String} {c : Prop} [Decidable c]
    (hcited : receipt.leaseId = some leaseId) (hlost : stored (v.lease leaseId) = none ↔ c) :
    leaseFindings v receipt = reasonIf (leaseId ≠ "" ∧ c) "MISSING_LEASE" := by
  rw [leaseFindings, hcited]
  by_cases hempty : leaseId = ""
  · rw [hempty]
    exact (reasonIf_eq_nil.mpr fun h => h.1 rfl).symm
  · rw [truthy_some hempty]
    exact reasonIf_congr (hlost.trans ⟨fun h => ⟨hempty, h⟩, fun h => h.2⟩) _

theorem executorFindings_eq {resultHash : String} {c : Prop} [Decidable c]
    (hallow : receipt.decision = "ALLOW")
    (hhash : truthy receipt.executorResultHash = some resultHash) {confirmed : Bool}
    (haction : v.action receipt.runId resultHash = .ok confirmed) (hlost : confirmed = false ↔ c) :
    executorFindings v receipt = reasonIf c "EXECUTOR_RESULT_NOT_RECONSTRUCTABLE" := by
  rw [executorFindings, if_pos hallow, hhash]
  refine reasonIf_congr ?_ _
  rw [haction, ← hlost]
  cases confirmed with
  | true => exact iff_of_false (not_not_intro rfl) nofun
  | false => exact iff_of_true nofun rfl

/-- A loss of the target is the last event about what is found under its id. -/
theorem lost_target_iff {targetId : String} : Lost events (.target targetId) ↔
    lastSet (StoreEvent.target targetId) events = some none := by
  have hpresence : StoreEvent.presence (.target targetId) =
      fun e => (e.target targetId).map Option.isSome := by
    funext e
    match e with
    | .call (.operation o) =>
      cases o with
      | putTarget target =>
        simp only [StoreEvent.presence, StoreEvent.target, StoreOp.puts, Option.some.injEq,
          RecordRef.target.injEq]
        split <;> rfl
      | _ => rfl
    | .call (.promote _ _ _) | .call (.execute _ _ _ _ _) | .call (.replay _) => rfl
    | .loss ref =>
      simp only [StoreEvent.presence, StoreEvent.target]
      split <;> rfl
  rw [Lost, hpresence, lastSet_map]
  cases lastSet (StoreEvent.target targetId) events with
  | none => exact iff_of_false nofun nofun
  | some found =>
    cases found with
    | none => exact iff_of_true rfl rfl
    | some target => exact iff_of_false nofun nofun

theorem replaced_iff {targetId targetHash : String} : Replaced events targetId targetHash ↔
    ∃ other, lastSet (StoreEvent.target targetId) events = some (some other) ∧
      other.targetHash ≠ targetHash := by
  simp only [Replaced, Option.any_eq_true, Option.join_eq_some_iff, decide_eq_true_eq]

theorem storedTargetFindings_eq {target : MaterialTarget} {targetId targetHash : String}
    (hcited : receipt.targetId = some targetId) (hhash : receipt.targetHash = some targetHash)
    (hsame : target.targetHash = targetHash)
    (hafter : v.target targetId =
      ((lastSet (StoreEvent.target targetId) events).map Except.ok).getD (.ok (some target))) :
    storedTargetFindings v receipt =
      reasonIf (targetId ≠ "" ∧ Lost events (.target targetId)) "MISSING_TARGET" ++
        reasonIf (targetId ≠ "" ∧ Replaced events targetId targetHash) "TARGET_HASH_CHANGED" := by
  by_cases hempty : targetId = ""
  · have hnone : truthy receipt.targetId = none := by
      rw [hcited, hempty]
      rfl
    rw [storedTargetFindings_of_none hnone, reasonIf_eq_nil.mpr fun h => h.1 hempty,
      reasonIf_eq_nil.mpr fun h => h.1 hempty]
    rfl
  · have hnamed : truthy receipt.targetId = some targetId := by rw [hcited, truthy_some hempty]
    have hlost : reasonIf (targetId ≠ "" ∧ Lost events (.target targetId)) "MISSING_TARGET" =
        reasonIf (lastSet (StoreEvent.target targetId) events = some none) "MISSING_TARGET" :=
      reasonIf_congr ((and_iff_right hempty).trans lost_target_iff) _
    rw [hlost]
    cases hlast : lastSet (StoreEvent.target targetId) events with
    | none =>
      rw [hlast] at hafter
      rw [storedTargetFindings_of_name hnamed hafter, reasonIf_eq_nil.mpr nofun, List.nil_append]
      refine (reasonIf_eq_nil.mpr ?_).trans (reasonIf_eq_nil.mpr ?_).symm
      · exact not_not_intro (hhash.trans (congrArg some hsame.symm))
      · rintro ⟨-, hreplaced⟩
        obtain ⟨other, hother, -⟩ := replaced_iff.mp hreplaced
        cases hlast.symm.trans hother
    | some found =>
      rw [hlast] at hafter
      rw [storedTargetFindings_of_name hnamed hafter]
      cases found with
      | none =>
        have hkept : reasonIf (targetId ≠ "" ∧ Replaced events targetId targetHash)
            "TARGET_HASH_CHANGED" = [] := by
          refine reasonIf_eq_nil.mpr ?_
          rintro ⟨-, hreplaced⟩
          obtain ⟨other, hother, -⟩ := replaced_iff.mp hreplaced
          cases hlast.symm.trans hother
        rw [hkept]
        rfl
      | some other =>
        rw [reasonIf_eq_nil.mpr nofun, List.nil_append]
        refine reasonIf_congr ?_ _
        rw [hhash, and_iff_right hempty, replaced_iff, hlast]
        constructor
        · intro hne
          exact ⟨other, rfl, fun h => hne (congrArg some h.symm)⟩
        · rintro ⟨last, hother, hne⟩ heq
          rw [← Option.some.inj (Option.some.inj hother)] at hne
          exact hne (Option.some.inj heq).symm

end Parts

variable [PyRuntime] {receipt : ExecutionReceipt} {events : List StoreEvent}

/-- The replay of a receipt that stood before the events. -/
theorem replay_after_events (hevents : ∀ e ∈ events, e.Spares receipt) (fuel : Nat) {s : Backend}
    (hkeyed : Keyed s.view) (hheld : Held s.view receipt) (hallow : receipt.decision = "ALLOW")
    {leaseId targetId targetHash : String} {target : MaterialTarget}
    (hleaseId : receipt.leaseId = some leaseId) (htargetId : receipt.targetId = some targetId)
    (htargetHash : receipt.targetHash = some targetHash)
    (htarget : s.view.target targetId = .ok (some target)) (hsame : target.targetHash = targetHash) :
    (replay receipt.receiptId).run Backend.handle (runEvents fuel events s) =
      (.ok (manifestOf receipt
        (reasonIf (Lost events (.agent receipt.agentId)) "MISSING_AGENT" ++
          reasonIf (leaseId ≠ "" ∧ Lost events (.lease leaseId)) "MISSING_LEASE" ++
          receipt.registryEvidenceRefs.flatMap
            (fun id => reasonIf (Lost events (.evidence id)) ("MISSING_EVIDENCE:" ++ id)) ++
          (reasonIf (targetId ≠ "" ∧ Lost events (.target targetId)) "MISSING_TARGET" ++
            reasonIf (targetId ≠ "" ∧ Replaced events targetId targetHash) "TARGET_HASH_CHANGED") ++
          reasonIf (Lost events (.action receipt.runId)) "EXECUTOR_RESULT_NOT_RECONSTRUCTABLE")),
        runEvents fuel events s) := by
  obtain ⟨⟨agent, hagent⟩, hlease, hevidence, resultHash, hhash, haction⟩ := hheld.standing
  obtain ⟨lease, hlease⟩ := hlease leaseId hleaseId
  obtain ⟨hagentAnswer, hagentLost⟩ := record_after hevents fuel s hkeyed
    (fun v => v.agent receipt.agentId) (.agent receipt.agentId) (fun _ => rfl) nofun hagent
  obtain ⟨hleaseAnswer, hleaseLost⟩ := record_after hevents fuel s hkeyed
    (fun v => v.lease leaseId) (.lease leaseId) (fun _ => rfl) nofun hlease
  have hevidenceAfter : ∀ id ∈ receipt.registryEvidenceRefs,
      (∃ found, (runEvents fuel events s).view.evidence id = .ok found) ∧
        (stored ((runEvents fuel events s).view.evidence id) = none ↔
          Lost events (.evidence id)) := by
    intro id hid
    obtain ⟨evidence, hfound⟩ := hevidence id hid
    exact record_after hevents fuel s hkeyed (fun v => v.evidence id) (.evidence id) (fun _ => rfl)
      nofun hfound
  have htargetAfter := target_after hevents fuel s targetId
  rw [htarget] at htargetAfter
  obtain ⟨confirmed, hactionAfter, hactionLost⟩ := has_after hevents fuel s hkeyed
    (.action receipt.runId) (fun _ h => (RecordRef.action.inj h).symm) haction
  have hlegible : Legible (runEvents fuel events s).view receipt :=
    { agent := hagentAnswer
      lease := by
        intro id hid
        rw [hleaseId] at hid
        rw [← Option.some.inj (truthy_eq_some.mp hid).1]
        exact hleaseAnswer
      evidence := fun id hid => (hevidenceAfter id hid).1
      target := by
        intro id hid
        rw [htargetId] at hid
        rw [← Option.some.inj (truthy_eq_some.mp hid).1, htargetAfter]
        cases lastSet (StoreEvent.target targetId) events with
        | none => exact ⟨_, rfl⟩
        | some found => exact ⟨_, rfl⟩
      action := by
        intro _ ownHash hown
        rw [← Option.some.inj (hhash.symm.trans hown)]
        exact ⟨confirmed, hactionAfter⟩ }
  have hstays : (runEvents fuel events s).view.receipt receipt.receiptId = .ok (some receipt) :=
    (receipt_after hevents fuel s).trans hheld.stored
  rw [replay_run backend_implements hstays hlegible]
  have hevidenceFindings : evidenceFindings (runEvents fuel events s).view
      receipt.registryEvidenceRefs = receipt.registryEvidenceRefs.flatMap
        fun id => reasonIf (Lost events (.evidence id)) ("MISSING_EVIDENCE:" ++ id) :=
    List.flatMap_congr fun id hid => reasonIf_congr (hevidenceAfter id hid).2 _
  rw [findings, reasonIf_congr hagentLost, leaseFindings_eq hleaseId hleaseLost, hevidenceFindings,
    storedTargetFindings_eq htargetId htargetHash hsame htargetAfter,
    executorFindings_eq hallow hhash hactionAfter hactionLost]

end Replays

end PoiexGoc
