/-
  What a request reads of the documents that EVERY request seeds alike.

  All requests put the same target, and evidence items of one kind under one id; agents, leases and
  provenance records differ.  A request reads the same of the former, whoever has put them last:

  1. `PutsShared` — the targets and evidence items that requests put; the two documents keep their
     shape under them (`keepsShape_of_putsShared`).

  2. `program_indifferent` — a request goes on in the same way after two sound evidence items: it
     makes nothing of the time, the trace or the hash.

  3. `program_opens` — a request has put its own evidence and target before it reads any.

  4. `shared_read` — so it cannot tell whose evidence and target it reads.
-/
import PoiexGoc.Proofs.OwnWrites
import PoiexGoc.Proofs.RequestCalls

namespace PoiexGoc

open Py Effect FirestoreStore

namespace CloudDemo

/-! ## The documents that every request puts -/

/-- The kinds and the ids of the documents that are put alike. -/
def sharedNames : List (String × String) := [("evidence", "ev-runtime-001"), ("targets", targetId)]

/-- Of evidence items and targets, a request puts the seeded ones only. -/
def PutsShared (target : MaterialTarget) : StoreOp → Prop
  | .putEvidence evidence =>
    evidence.evidenceId = "ev-runtime-001" ∧ Supports evidence agent.agentId action
  | .putTarget new => new = target
  | _ => True

/-- The shape of the documents that are put alike; nothing is asked of any other. -/
def sharedShape (fs : FirestoreStore) (target : MaterialTarget) (key : String × String)
    (payload : PyDict) : Prop :=
  (key = fs.docKey "evidence" "ev-runtime-001" →
    ∃ evidence, payload = evidenceToDoc evidence ∧ Supports evidence agent.agentId action) ∧
  (key = fs.docKey "targets" targetId → payload = targetToDoc target)

theorem PutsShared.of_isRead {target : MaterialTarget} {o : StoreOp} (ho : o.IsRead) :
    PutsShared target o := by
  cases o with
  | putEvidence | putTarget => exact ho.elim
  | _ => trivial

theorem PutsShared.of_govern {target : MaterialTarget} {draw : Draw} {o : StoreOp}
    (ho : GovernOp draw o) : PutsShared target o := by
  cases o with
  | putEvidence | putTarget =>
    rcases ho with hexecute | hread
    · exact hexecute.elim
    · exact hread.elim
  | _ => trivial

/-- A document of a shared kind has a shared name, when it is a request that writes it. -/
theorem PutsShared.docName_mem [PyRuntime] {target : MaterialTarget}
    (hname : target.targetId = targetId) {o : StoreOp} (ho : PutsShared target o) (hwrites : (written o).isSome)
    (hkind : o.docName.1 ∈ sharedNames.map Prod.fst) : o.docName ∈ sharedNames := by
  cases o with
  | putEvidence evidence =>
    show ("evidence", evidence.evidenceId) ∈ sharedNames
    rw [ho.1]
    decide
  | putTarget new =>
    show ("targets", new.targetId) ∈ sharedNames
    rw [ho, hname]
    decide
  | getAgent | getLease | getAuthorityProvenance | getEvidence | getTarget | getReceipt
  | hasSyntheticAction => cases hwrites
  | _ => exact absurd hkind (by simp only [StoreOp.docName]; decide)

theorem keepsShape_of_putsShared [PyRuntime] (fs : FirestoreStore) {target : MaterialTarget}
    {o : StoreOp} (ho : PutsShared target o) : KeepsShape fs (sharedShape fs target) o := by
  have hother : ∀ {kind docId} {P : Prop}, o.docName.1 ≠ kind →
      fs.opKey o = fs.docKey kind docId → P :=
    fun hne heq => absurd heq (fs.docKey_ne_of_kind hne _ _)
  intro payload hpayload
  cases o with
  | putEvidence evidence =>
    obtain rfl := Option.some.inj hpayload
    exact ⟨fun _ => ⟨evidence, rfl, ho.2⟩, hother (by simp only [StoreOp.docName]; decide)⟩
  | putTarget new =>
    obtain rfl := Option.some.inj hpayload
    refine ⟨hother (by simp only [StoreOp.docName]; decide), fun _ => ?_⟩
    rw [ho]
  | getAgent | getLease | getAuthorityProvenance | getEvidence | getTarget | getReceipt
  | hasSyntheticAction => cases hpayload
  | _ =>
    exact ⟨hother (by simp only [StoreOp.docName]; decide),
      hother (by simp only [StoreOp.docName]; decide)⟩

/-! ## What a request makes of an evidence item -/

/-- The answer is an evidence item of the seeded capability. -/
def SoundAnswer (r : Except PyError (Option EvidenceItem)) : Prop :=
  ∃ evidence, r = .ok (some evidence) ∧ Supports evidence agent.agentId action

/-- Answers that a request does not tell apart: the same, or two sound evidence items. -/
def AlikeAnswers : (o : StoreOp) → Except PyError o.Result → Except PyError o.Result → Prop
  | .getEvidence _, r, r' => r = r' ∨ SoundAnswer r ∧ SoundAnswer r'
  | _, r, r' => r = r'

theorem AlikeAnswers.refl (o : StoreOp) (r : Except PyError o.Result) : AlikeAnswers o r r := by
  cases o with
  | getEvidence => exact Or.inl rfl
  | _ => exact rfl

/-- Every answer of the operation matters. -/
def IsTold (o : StoreOp) : Prop := ∀ r r', AlikeAnswers o r r' → r = r'

theorem call_indifferent {o : StoreOp} (ho : IsTold o) : (store.call o).Indifferent AlikeAnswers :=
  Prog.indifferent_of_issues (store.call_issues o ho)

/-- A read of evidence, when what follows is the same for all sound items. -/
theorem getEvidence_indifferent {α : Type} {evidenceId : String}
    {f : Option EvidenceItem → StoreM α}
    (hsound : ∀ e e', Supports e agent.agentId action → Supports e' agent.agentId action →
      f (some e) = f (some e'))
    (hf : ∀ found, (f found).Indifferent AlikeAnswers) :
    (store.getEvidence evidenceId >>= f).Indifferent AlikeAnswers := by
  refine Prog.indifferent_perform_bind (fun r r' halike => ?_) hf
  rcases halike with rfl | ⟨⟨e, rfl, he⟩, ⟨e', rfl, he'⟩⟩
  · rfl
  · exact hsound e e' he he'

theorem promote_indifferent (evidenceId : String) :
    (ControlPlane.promoteObservedCapability agent.agentId action evidenceId).Indifferent
      AlikeAnswers := by
  unfold ControlPlane.promoteObservedCapability
  refine Prog.indifferent_bind (call_indifferent fun _ _ heq => heq) fun found => ?_
  cases found with
  | none => trivial
  | some agent =>
    refine getEvidence_indifferent (fun e e' he he' => ?_) fun found => ?_
    · exact (ControlPlane.promote_checks he _).trans (ControlPlane.promote_checks he' _).symm
    · cases found with
      | none => trivial
      | some evidence =>
        show Prog.Indifferent _ (if _ then _ else if _ then _ else _)
        split
        · trivial
        · split
          · trivial
          · exact call_indifferent fun _ _ heq => heq

theorem materialGates_indifferent (cp : ControlPlane) (fuel : Nat) (now : DateTime)
    (identity : IdentityContext) (leaseId : String) (intent : ActionIntent) (a : AgentRecord) :
    (ControlPlane.materialGates cp fuel now identity leaseId intent a).Indifferent
      AlikeAnswers := by
  have hrest : ∀ (evidenceId : Option String) (found : Option EvidenceItem),
      Prog.Indifferent AlikeAnswers (do
        let lease ← store.getLease leaseId
        let authorityReasons ← cp.leaseGates fuel now identity intent a lease
        let target ← store.getTarget intent.targetId
        pure {
          evidenceRefs := evidenceId.toList
          target
          reasons := ControlPlane.capabilityReasons found ++ authorityReasons ++
            ControlPlane.targetReasons intent target } : StoreM ControlPlane.GateReport) := by
    intro evidenceId found
    refine Prog.indifferent_bind (call_indifferent fun _ _ heq => heq) fun lease => ?_
    refine Prog.indifferent_bind (Prog.indifferent_of_issues (ControlPlane.leaseGates_issues
      (fun _ _ _ heq => heq) cp fuel now identity intent a lease)) fun _ => ?_
    exact Prog.indifferent_bind (call_indifferent fun _ _ heq => heq) fun _ => trivial
  unfold ControlPlane.materialGates
  cases truthy (a.observedCapabilities.lookup intent.actionType) with
  | none => exact hrest none none
  | some evidenceId =>
    refine getEvidence_indifferent (fun e e' he he' => ?_) (hrest (some evidenceId))
    have hsame : ControlPlane.capabilityReasons (some e) =
        ControlPlane.capabilityReasons (some e') :=
      (ControlPlane.capabilityReasons_eq_nil.mpr ⟨e, rfl, he.source⟩).trans
        (ControlPlane.capabilityReasons_eq_nil.mpr ⟨e', rfl, he'.source⟩).symm
    simp only [hsame]

theorem execute_indifferent (cp : ControlPlane) (fuel : Nat) (draw : Draw)
    (identity : IdentityContext) (leaseId : String) (intent : ActionIntent) :
    (cp.execute fuel draw identity leaseId intent).Indifferent AlikeAnswers := by
  unfold ControlPlane.execute ControlPlane.gates
  refine Prog.indifferent_bind (Prog.indifferent_bind (call_indifferent fun _ _ heq => heq)
    fun found => ?_) fun report => ?_
  · split
    · exact materialGates_indifferent cp fuel draw.now identity leaseId intent _
    · trivial
  · exact Prog.indifferent_of_issues (ControlPlane.settle_issues (fun _ _ _ _ _ heq => heq)
      (fun _ _ _ heq => heq) identity leaseId intent report)

/-- Induction on the evidence references: a replay looks only whether each of them is there. -/
theorem missingEvidence_indifferent (evidenceIds : List String) :
    (ControlPlane.missingEvidence evidenceIds).Indifferent AlikeAnswers := by
  induction evidenceIds with
  | nil => trivial
  | cons evidenceId evidenceIds ih =>
    refine getEvidence_indifferent (fun e e' _ _ => ?_) fun found =>
      Prog.indifferent_bind ih fun _ => trivial
    have hthere : ∀ e : EvidenceItem, reasonIf (some e = none) ("MISSING_EVIDENCE:" ++ evidenceId) =
        [] := fun e => reasonIf_eq_nil.mpr (Option.some_ne_none e)
    simp only [hthere]

theorem replay_indifferent (receiptId : String) :
    (ControlPlane.replay receiptId).Indifferent AlikeAnswers := by
  unfold ControlPlane.replay
  refine Prog.indifferent_bind (call_indifferent fun _ _ heq => heq) fun found => ?_
  cases found with
  | none => trivial
  | some receipt =>
    refine Prog.indifferent_bind ?_ fun _ => trivial
    unfold ControlPlane.mismatches
    refine Prog.indifferent_bind (call_indifferent fun _ _ heq => heq) fun _ => ?_
    refine Prog.indifferent_bind (Prog.indifferent_of_issues
      (ControlPlane.leaseMismatches_issues fun _ _ _ _ heq => heq)) fun _ => ?_
    refine Prog.indifferent_bind (missingEvidence_indifferent _) fun _ => ?_
    refine Prog.indifferent_bind (Prog.indifferent_of_issues
      (ControlPlane.targetMismatches_issues fun _ _ _ _ heq => heq)) fun _ => ?_
    exact Prog.indifferent_bind (Prog.indifferent_of_issues
      (ControlPlane.executorMismatches_issues fun _ _ _ _ _ heq => heq)) fun _ => trivial

theorem governProposal_indifferent [PyRuntime] (fuel : Nat) (ids : FreshIds)
    (case scenarioId : String) (ctx : DemoContext) (proposal : PlannerProposal) :
    (governProposal fuel ids case scenarioId ctx proposal).Indifferent AlikeAnswers := by
  refine Prog.indifferent_tryCatch (Prog.indifferent_bind ?_ fun _ => trivial) fun e => ?_
  · unfold executeProposal
    refine Prog.indifferent_bind (call_indifferent fun _ _ heq => heq) fun found => ?_
    cases found with
    | none => trivial
    | some target =>
      refine Prog.indifferent_bind (p := store.lift _) trivial fun intent => ?_
      refine Prog.indifferent_bind (execute_indifferent _ _ _ _ _ _) fun receipt => ?_
      exact Prog.indifferent_bind (replay_indifferent _) fun _ => trivial
  · cases e with
    | _ => trivial

theorem prepare_indifferent (now : DateTime) (scenarioId case : String) (evidence : EvidenceItem)
    (target : MaterialTarget) :
    (prepare now scenarioId case evidence target).Indifferent AlikeAnswers := by
  have hput : ∀ {α : Type} {o : StoreOp} {f : o.Result → StoreM α}, IsTold o →
      (∀ a, (f a).Indifferent AlikeAnswers) → (store.call o >>= f).Indifferent AlikeAnswers :=
    fun ho hf => Prog.indifferent_bind (call_indifferent ho) hf
  unfold prepare seed
  refine Prog.indifferent_bind ?_ fun ctx => ?_
  · refine hput (fun _ _ heq => heq) fun _ => hput (fun _ _ heq => heq) fun _ => ?_
    refine Prog.indifferent_bind (promote_indifferent _) fun _ => ?_
    refine hput (fun _ _ heq => heq) fun _ => hput (fun _ _ heq => heq) fun _ => ?_
    exact hput (fun _ _ heq => heq) fun _ => hput (fun _ _ heq => heq) fun _ => trivial
  · exact Prog.indifferent_bind (Prog.indifferent_of_issues (applyCase_calls
      (fun _ _ _ heq => heq) (fun _ _ _ heq => heq) (fun _ _ _ heq => heq)
      (fun _ _ _ heq => heq) case ctx)) fun _ => trivial

/-! ## What a request puts before it reads -/

/-- A write into a document of the kind. -/
def Puts [PyRuntime] (kind : String) (o : StoreOp) : Prop := (written o).isSome ∧ o.docName.1 = kind

/-- A read of a document of the kind. -/
def Reads (kind : String) (o : StoreOp) : Prop := o.IsRead ∧ o.docName.1 = kind

theorem seed_opens_evidence [PyRuntime] (now : DateTime) (scenarioId : String)
    (evidence : EvidenceItem) (target : MaterialTarget) :
    (seed now scenarioId evidence target).Opens (Puts "evidence") (Reads "evidence") := by
  unfold seed
  refine Prog.opens_bind (store.call_issues _ fun hread => hread.1) fun _ => ?_
  exact (Prog.opens_perform ⟨rfl, rfl⟩ fun hread => hread.1).bind _

theorem seed_opens_targets [PyRuntime] (now : DateTime) (scenarioId : String)
    (evidence : EvidenceItem) (target : MaterialTarget) :
    (seed now scenarioId evidence target).Opens (Puts "targets") (Reads "targets") := by
  unfold seed
  refine Prog.opens_bind (store.call_issues _ fun hread => hread.1) fun _ => ?_
  refine Prog.opens_bind (store.call_issues _ fun hread => hread.1) fun _ => ?_
  refine Prog.opens_bind ((ControlPlane.promote_issues _ _ _).mono ?_) fun _ => ?_
  · rintro o (rfl | rfl | ⟨agent, rfl⟩)
    · exact fun hread => absurd hread.2 (by simp only [StoreOp.docName]; decide)
    · exact fun hread => absurd hread.2 (by simp only [StoreOp.docName]; decide)
    · exact fun hread => hread.1
  · exact (Prog.opens_perform ⟨rfl, rfl⟩ fun hread => hread.1).bind _

theorem seed_opens [PyRuntime] {kind : String} (hkind : kind ∈ sharedNames.map Prod.fst)
    (now : DateTime) (scenarioId : String) (evidence : EvidenceItem) (target : MaterialTarget) :
    (seed now scenarioId evidence target).Opens (Puts kind) (Reads kind) := by
  rcases List.mem_pair.mp hkind with rfl | rfl
  · exact seed_opens_evidence now scenarioId evidence target
  · exact seed_opens_targets now scenarioId evidence target

/-! ## One request -/

section Requests

variable [PyRuntime]

theorem program_puts {target : MaterialTarget} (hall : SeededByAll target) (request : DemoRun) :
    request.program.Issues (PutsShared target) := by
  rcases request.program_cases hall with ⟨e, heq⟩ | ⟨evidence, hseeds, heq⟩
  · rw [heq]
    trivial
  · rw [heq]
    refine Prog.issues_bind ?_ fun ctx =>
      (governProposal_issues _ _ _ _ ctx _).mono fun _ => PutsShared.of_govern
    refine Prog.issues_bind (seed_calls (fun o ho => PutsShared.of_isRead ho.isRead)
      (fun _ => trivial) ⟨hseeds.evidenceId, hseeds.supports⟩ rfl trivial trivial trivial _)
      fun ctx => ?_
    exact Prog.issues_bind (applyCase_calls (fun _ => trivial) (fun _ => trivial) (fun _ => trivial)
      (fun _ => trivial) _ ctx) fun _ => trivial

theorem program_indifferent (request : DemoRun) : request.program.Indifferent AlikeAnswers := by
  obtain ⟨target, hall⟩ := exists_seededByAll
  rcases request.program_cases hall with ⟨e, heq⟩ | ⟨evidence, -, heq⟩
  · rw [heq]
    trivial
  · rw [heq]
    exact Prog.indifferent_bind (prepare_indifferent _ _ _ _ _) fun ctx =>
      governProposal_indifferent _ _ _ _ ctx _

theorem program_opens {kind : String} (hkind : kind ∈ sharedNames.map Prod.fst)
    (request : DemoRun) : request.program.Opens (Puts kind) (Reads kind) := by
  obtain ⟨target, hall⟩ := exists_seededByAll
  rcases request.program_cases hall with ⟨e, heq⟩ | ⟨evidence, -, heq⟩
  · rw [heq]
    exact fun result hresult => nomatch hresult
  · rw [heq]
    exact ((seed_opens hkind _ _ _ _).bind _).bind _

/-! ## Reading what is put alike -/

omit [PyRuntime] in
theorem eq_of_mem_sharedNames {name name' : String × String} (hname : name ∈ sharedNames)
    (hname' : name' ∈ sharedNames) (hkind : name.1 = name'.1) : name = name' := by
  rcases List.mem_pair.mp hname with rfl | rfl
  · rcases List.mem_pair.mp hname' with rfl | rfl
    · rfl
    · exact absurd hkind (by decide)
  · rcases List.mem_pair.mp hname' with rfl | rfl
    · exact absurd hkind (by decide)
    · rfl

theorem soundAnswer_of_shaped {fs : FirestoreStore} {target : MaterialTarget} {c : FirestoreClient}
    (hc : Shaped (sharedShape fs target) (fs.docKey "evidence" "ev-runtime-001") c) :
    SoundAnswer (fs.handle (.getEvidence "ev-runtime-001") c).1 := by
  obtain ⟨payload, hdoc, hshape, -⟩ := hc
  obtain ⟨evidence, rfl, hsupports⟩ := hshape rfl
  refine ⟨evidence, ?_, hsupports⟩
  show fs.getDecoded "evidence" "ev-runtime-001" evidenceFromDoc c = _
  rw [getDecoded, FirestoreStore.get, hdoc]
  show (evidenceFromDoc (.dict (evidenceToDoc evidence))).map some = _
  rw [evidence_roundTrip]
  rfl

/-- What a read of these documents tells is their shape. -/
theorem alike_of_shaped {fs : FirestoreStore} {target : MaterialTarget} {o : StoreOp}
    (ho : o.IsRead) (hname : o.docName ∈ sharedNames) {c c' : FirestoreClient}
    (hc : Shaped (sharedShape fs target) (fs.opKey o) c)
    (hc' : Shaped (sharedShape fs target) (fs.opKey o) c') :
    AlikeAnswers o (fs.handle o c).1 (fs.handle o c').1 := by
  cases o with
  | getEvidence id =>
    have hid : id = "ev-runtime-001" :=
      congrArg Prod.snd (eq_of_mem_sharedNames hname (List.mem_cons_self) rfl)
    subst hid
    exact Or.inr ⟨soundAnswer_of_shaped hc, soundAnswer_of_shaped hc'⟩
  | getTarget id =>
    have hid : id = targetId := congrArg Prod.snd
      (eq_of_mem_sharedNames hname (List.mem_cons_of_mem _ List.mem_cons_self) rfl)
    subst hid
    obtain ⟨payload, hdoc, -, hshape⟩ := hc
    obtain ⟨payload', hdoc', -, hshape'⟩ := hc'
    refine fs.handle_answer ?_
    rw [hdoc, hdoc', hshape rfl, hshape' rfl]
  | getAgent | getLease | getAuthorityProvenance | getReceipt | hasSyntheticAction =>
    have hkind := List.mem_map_of_mem (f := Prod.fst) hname
    exact absurd hkind (by simp only [StoreOp.docName]; decide)
  | _ => exact ho.elim

variable {ι : Type} [DecidableEq ι] {α : ι → Type} {fs : FirestoreStore} {i : ι} {sched : List ι}
  {pool : Pool RuntimeStore PyError FirestoreClient ι α} {target : MaterialTarget}

/-- Beside clients that put the seeded targets and evidence items only, a client that opens with its
    own reads untouched documents of these kinds, or its own in their shape. -/
theorem shared_read (hall : SeededByAll target)
    (hputs : ∀ e ∈ Pool.events fs.handle sched pool, PutsShared target e.2)
    (hopens : ∀ kind ∈ sharedNames.map Prod.fst, (pool.threads i).Opens (Puts kind) (Reads kind))
    {past : List (ι × StoreOp)} {o : StoreOp} {rest : List (ι × StoreOp)}
    (heq : Pool.events fs.handle sched pool = past ++ (i, o) :: rest) (ho : o.IsRead)
    (hkind : o.docName.1 ∈ sharedNames.map Prod.fst) :
    Untouched fs i past (fs.opKey o) ∨ (Wrote fs i past (fs.opKey o) ∧
      ∀ c c', Shaped (sharedShape fs target) (fs.opKey o) c →
        Shaped (sharedShape fs target) (fs.opKey o) c' →
          AlikeAnswers o (fs.handle o c).1 (fs.handle o c').1) := by
  have hnames : ∀ e ∈ past, (written e.2).isSome → e.2.docName.1 = o.docName.1 →
      e.2.docName ∈ sharedNames := by
    intro e he hwrites hsame
    refine (hputs e ?_).docName_mem hall.targetId hwrites (hsame ▸ hkind)
    rw [heq]
    exact List.mem_append_left _ he
  by_cases hname : o.docName ∈ sharedNames
  · refine Or.inr ⟨?_, fun c c' hc hc' => alike_of_shaped ho hname hc hc'⟩
    obtain ⟨o', hmem, hwrites, hsame⟩ :=
      Pool.opened_of_events (hopens _ hkind) heq ⟨ho, rfl⟩
    have hname' : o'.docName = o.docName :=
      eq_of_mem_sharedNames (hnames (i, o') hmem hwrites hsame) hname hsame
    exact ⟨o', hmem, hwrites, fs.opKey_inj.mpr hname'⟩
  · -- another name of the kind: nobody has written it
    refine Or.inl fun j hj => absurd ?_ hname
    obtain ⟨o', hmem, hwrites, hkey⟩ := exists_of_lastWriter hj
    have hsame : o'.docName = o.docName := fs.opKey_inj.mp hkey
    rw [← hsame]
    exact hnames (j, o') hmem hwrites (congrArg Prod.fst hsame)

end Requests

end CloudDemo

end PoiexGoc
