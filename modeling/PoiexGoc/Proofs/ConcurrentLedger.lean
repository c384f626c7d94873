/-
  The audit LEDGER under concurrency, and when a client stops halfway.

  1. The life of a run id (`RunState`): unused; then acted on and closed by an ALLOW receipt, or
     closed at once by a BLOCK receipt.  It only moves forward (`RunState.Leads`).  A store keeps
     the `Books` of a ledger of run states when the receipts it answers are those of the closed
     runs and the actions it confirms are those of the acted and the allowed ones.

  2. The two writes of an `execute` call are two calls of the store, so other clients, or nothing at
     all, may come between them.  `ledgerProtocol` is the order in which a client makes its writes:
     after an action it OWES the ALLOW receipt of that action, and may do nothing else.  Every
     client follows it (`Client.follows`).

  3. One allowed call keeps books and phases together (`booked_step`); so in every interleaving the
     store keeps the books of one ledger, whose acted runs are those some client owes the receipt
     of, and that moves forward only (`interleaved_runs_move_forward`).
-/
import PoiexGoc.Lib.Typestate
import PoiexGoc.Proofs.ClientCalls

namespace PoiexGoc

open Py Effect

/-! ## The life of a run id -/

inductive RunState where
  | unused
  | acted (resultHash : String)
  | closed (receipt : ExecutionReceipt)

namespace RunState

/-- The hashes under which an action of the run is confirmed. -/
def Confirms : RunState → String → Prop
  | unused, _ => False
  | acted resultHash, expected => resultHash = expected
  | closed receipt, expected =>
    receipt.decision = "ALLOW" ∧ receipt.executorResultHash = some expected

/-- What a run can become: an action is only ever followed by its own ALLOW receipt, and a receipt
    is final. -/
def Leads : RunState → RunState → Prop
  | unused, _ => True
  | acted _, unused => False
  | acted resultHash, acted resultHash' => resultHash' = resultHash
  | acted resultHash, closed receipt =>
    receipt.decision = "ALLOW" ∧ receipt.executorResultHash = some resultHash
  | closed receipt, later => later = closed receipt

theorem Leads.refl (state : RunState) : state.Leads state := by
  cases state with
  | unused => trivial
  | acted | closed => exact rfl

theorem Leads.trans {a b c : RunState} (hab : a.Leads b) (hbc : b.Leads c) : a.Leads c := by
  cases a with
  | unused => trivial
  | closed receipt =>
    rw [show b = closed receipt from hab] at hbc
    exact hbc
  | acted resultHash =>
    cases b with
    | unused => exact hab.elim
    | acted resultHash' =>
      rw [show resultHash' = resultHash from hab] at hbc
      exact hbc
    | closed receipt =>
      rw [show c = closed receipt from hbc]
      exact hab

end RunState

/-- The receipt says ALLOW and carries the hash of the action of the run. -/
def Settles (receipt : ExecutionReceipt) (runId resultHash : String) : Prop :=
  receipt.runId = runId ∧ receipt.decision = "ALLOW" ∧
    receipt.executorResultHash = some resultHash

/-- A receipt that allows carries a hash, and one that blocks carries none. -/
def WellDecided (receipt : ExecutionReceipt) : Prop :=
  (receipt.decision = "ALLOW" ∧ ∃ resultHash, receipt.executorResultHash = some resultHash) ∨
    (receipt.decision = "BLOCK" ∧ receipt.executorResultHash = none)

/-- The store answers as the ledger says. -/
structure Books (v : StoreView) (ledger : String → RunState) : Prop where
  receipts : ∀ id receipt, v.receipt id = .ok (some receipt) ↔
    ledger receipt.runId = .closed receipt ∧ receipt.receiptId = id
  actions : ∀ runId resultHash, v.action runId resultHash = .ok true ↔
    (ledger runId).Confirms resultHash
  closed : ∀ runId receipt, ledger runId = .closed receipt →
    receipt.runId = runId ∧ WellDecided receipt

theorem Books.empty : Books StoreView.empty fun _ => .unused where
  receipts id receipt := by
    constructor
    · intro hid
      cases hid
    · rintro ⟨hclosed, -⟩
      cases hclosed
  actions runId resultHash := by
    constructor
    · intro haction
      cases haction
    · exact fun hconfirms => hconfirms.elim
  closed runId receipt hclosed := by cases hclosed

/-- The books are about receipts and actions only. -/
theorem Books.congr {v v' : StoreView} {ledger : String → RunState} (hbooks : Books v ledger)
    (hreceipt : v'.receipt = v.receipt) (haction : v'.action = v.action) : Books v' ledger where
  receipts := by rw [hreceipt]; exact hbooks.receipts
  actions := by rw [haction]; exact hbooks.actions
  closed := hbooks.closed

/-- An action under an unused run id. -/
theorem Books.act {v : StoreView} {ledger : String → RunState} (hbooks : Books v ledger)
    {runId : String} (hunused : ledger runId = .unused) (resultHash : String) :
    Books (v.putAction runId resultHash) (Function.update ledger runId (.acted resultHash)) where
  receipts id receipt := by
    refine (hbooks.receipts id receipt).trans (and_congr_left fun _ => ?_)
    by_cases hrun : receipt.runId = runId
    · rw [hrun, hunused, Function.update_self]
      constructor
      · intro hclosed
        cases hclosed
      · intro hclosed
        cases hclosed
    · rw [Function.update_of_ne hrun]
  actions runId' expected := by
    by_cases hrun : runId' = runId
    · subst hrun
      have haction : (v.putAction runId' resultHash).action runId' =
          fun expected => .ok (resultHash == expected) := Function.update_self _ _ _
      rw [haction, Function.update_self]
      show Except.ok (resultHash == expected) = .ok true ↔ resultHash = expected
      rw [Except.ok.injEq, beq_iff_eq]
    · have haction : (v.putAction runId resultHash).action runId' = v.action runId' :=
        Function.update_of_ne hrun _ _
      rw [haction, Function.update_of_ne hrun]
      exact hbooks.actions runId' expected
  closed runId' receipt hclosed := by
    by_cases hrun : runId' = runId
    · rw [hrun, Function.update_self] at hclosed
      cases hclosed
    · rw [Function.update_of_ne hrun] at hclosed
      exact hbooks.closed runId' receipt hclosed

/-- A receipt under a new id, for a run that confirms what the receipt does. -/
theorem Books.close {v : StoreView} {ledger : String → RunState} (hbooks : Books v ledger)
    {receipt : ExecutionReceipt} (hdecided : WellDecided receipt)
    (hopen : ∀ old, ledger receipt.runId ≠ .closed old)
    (hnew : ∀ runId old, ledger runId = .closed old → old.receiptId ≠ receipt.receiptId)
    (hconfirms : ∀ resultHash, (ledger receipt.runId).Confirms resultHash ↔
      (RunState.closed receipt).Confirms resultHash) :
    Books (v.putReceipt receipt) (Function.update ledger receipt.runId (.closed receipt)) where
  receipts id other := by
    by_cases hid : id = receipt.receiptId
    · subst hid
      rw [StoreView.putReceipt_self]
      constructor
      · intro hsame
        rw [← Option.some.inj (Except.ok.inj hsame), Function.update_self]
        exact ⟨rfl, rfl⟩
      · rintro ⟨hclosed, hother⟩
        by_cases hrun : other.runId = receipt.runId
        · rw [hrun, Function.update_self] at hclosed
          rw [RunState.closed.inj hclosed]
        · rw [Function.update_of_ne hrun] at hclosed
          exact absurd hother (hnew _ other hclosed)
    · have hkeep : (v.putReceipt receipt).receipt id = v.receipt id :=
        Function.update_of_ne hid _ _
      rw [hkeep]
      refine (hbooks.receipts id other).trans ?_
      by_cases hrun : other.runId = receipt.runId
      · rw [hrun, Function.update_self]
        constructor
        · rintro ⟨hclosed, -⟩
          exact absurd hclosed (hopen other)
        · rintro ⟨hclosed, hother⟩
          rw [RunState.closed.inj hclosed] at hid
          exact absurd hother.symm hid
      · rw [Function.update_of_ne hrun]
  actions runId expected := by
    show v.action runId expected = .ok true ↔ _
    refine (hbooks.actions runId expected).trans ?_
    by_cases hrun : runId = receipt.runId
    · rw [hrun, Function.update_self]
      exact hconfirms expected
    · rw [Function.update_of_ne hrun]
  closed runId other hclosed := by
    by_cases hrun : runId = receipt.runId
    · rw [hrun, Function.update_self] at hclosed
      rw [← RunState.closed.inj hclosed, hrun]
      exact ⟨rfl, hdecided⟩
    · rw [Function.update_of_ne hrun] at hclosed
      exact hbooks.closed runId other hclosed

/-! ## Who owes a receipt -/

/-- Where a client is: the `uuid4` values it has still to use, and the run id and the hash of the
    action whose receipt it owes. -/
structure LedgerPhase where
  fresh : Set String
  owed : Option (String × String)

/-- While a receipt is owed it is the only call to make; otherwise a receipt blocks, and a run id is
    acted on once. -/
def ledgerProtocol [PyRuntime] : Protocol RuntimeStore PyError LedgerPhase where
  allowed
    | ⟨fresh, none⟩, .putReceipt receipt =>
      (∃ x ∈ fresh, receipt.receiptId = "rcpt-" ++ x) ∧ (∃ x ∈ fresh, receipt.runId = "run-" ++ x) ∧
        receipt.decision = "BLOCK" ∧ receipt.executorResultHash = none
    | ⟨fresh, none⟩, .executeSyntheticAction runId _ => ∃ x ∈ fresh, runId = "run-" ++ x
    | ⟨_, none⟩, o => o.Storable
    | ⟨fresh, some (runId, resultHash)⟩, .putReceipt receipt =>
      (∃ x ∈ fresh, receipt.receiptId = "rcpt-" ++ x) ∧ Settles receipt runId resultHash
    | ⟨_, some _⟩, _ => False
  next
    | ⟨fresh, _⟩, .putReceipt receipt, _ =>
      ⟨{x ∈ fresh | "rcpt-" ++ x ≠ receipt.receiptId ∧ "run-" ++ x ≠ receipt.runId}, none⟩
    | ⟨fresh, _⟩, .executeSyntheticAction runId _, .ok resultHash =>
      ⟨{x ∈ fresh | "run-" ++ x ≠ runId}, some (runId, resultHash)⟩
    | φ, _, _ => φ

section Phases

variable {ι : Type}

/-- The phases are about the ledger: the values to be used name nothing in it, and the acted runs
    are the owed ones. -/
structure Phased (ledger : String → RunState) (φ : ι → LedgerPhase) : Prop where
  freshRun : ∀ i, ∀ x ∈ (φ i).fresh, ledger ("run-" ++ x) = .unused
  freshReceipt : ∀ i, ∀ x ∈ (φ i).fresh, ∀ runId receipt, ledger runId = .closed receipt →
    receipt.receiptId ≠ "rcpt-" ++ x
  apart : ∀ i j, ∀ x ∈ (φ i).fresh, x ∈ (φ j).fresh → i = j
  owed : ∀ runId resultHash, ledger runId = .acted resultHash ↔
    ∃ i, (φ i).owed = some (runId, resultHash)
  once : ∀ i j runId resultHash resultHash', (φ i).owed = some (runId, resultHash) →
    (φ j).owed = some (runId, resultHash') → i = j

variable [DecidableEq ι] {ledger : String → RunState} {φ : ι → LedgerPhase} {i : ι}

/-- A client that only uses values up has no value it had not. -/
theorem fresh_of_update {φ' : LedgerPhase} (hsub : φ'.fresh ⊆ (φ i).fresh) {j : ι} {x : String}
    (hx : x ∈ (Function.update φ i φ' j).fresh) : x ∈ (φ j).fresh := by
  by_cases hij : j = i
  · subst hij
    rw [Function.update_self] at hx
    exact hsub hx
  · rw [Function.update_of_ne hij] at hx
    exact hx

/-- Nobody is left with a value that names what one client has just used. -/
theorem Phased.used (hφ : Phased ledger φ) (pre : String) {id : String}
    (hid : ∃ x ∈ (φ i).fresh, id = pre ++ x) {φ' : LedgerPhase}
    (hfilter : ∀ x ∈ φ'.fresh, pre ++ x ≠ id) {j : ι} {x : String}
    (hx : x ∈ (Function.update φ i φ' j).fresh) : pre ++ x ≠ id := by
  by_cases hij : j = i
  · subst hij
    rw [Function.update_self] at hx
    exact hfilter x hx
  · rw [Function.update_of_ne hij] at hx
    obtain ⟨x', hx', rfl⟩ := hid
    intro heq
    rw [(String.append_right_inj pre).mp heq] at hx
    exact hij (hφ.apart j i x' hx hx')

theorem Phased.apart_update (hφ : Phased ledger φ) {φ' : LedgerPhase}
    (hsub : φ'.fresh ⊆ (φ i).fresh) (j j' : ι) (x : String)
    (hx : x ∈ (Function.update φ i φ' j).fresh) (hx' : x ∈ (Function.update φ i φ' j').fresh) :
    j = j' :=
  hφ.apart j j' x (fresh_of_update hsub hx) (fresh_of_update hsub hx')

omit [DecidableEq ι] in
/-- Nobody owes the receipt of an unused run. -/
theorem Phased.not_owed (hφ : Phased ledger φ) {runId : String} (hunused : ledger runId = .unused)
    (j : ι) (resultHash : String) : (φ j).owed ≠ some (runId, resultHash) := by
  intro howed
  have hacted := (hφ.owed runId resultHash).mpr ⟨j, howed⟩
  rw [hunused] at hacted
  cases hacted

omit [DecidableEq ι] in
theorem Phased.receiptId_new (hφ : Phased ledger φ) {id : String}
    (hid : ∃ x ∈ (φ i).fresh, id = "rcpt-" ++ x) (runId : String) (old : ExecutionReceipt)
    (hclosed : ledger runId = .closed old) : old.receiptId ≠ id := by
  obtain ⟨x, hx, rfl⟩ := hid
  exact hφ.freshReceipt i x hx runId old hclosed

/-- After an action its client owes its receipt, and the others what they did. -/
theorem Phased.owed_after_act (hφ : Phased ledger φ) (hidle : (φ i).owed = none) {runId : String}
    (hunused : ledger runId = .unused) (fresh : Set String) (resultHash : String) (j : ι)
    (runId' resultHash' : String) :
    (Function.update φ i ⟨fresh, some (runId, resultHash)⟩ j).owed = some (runId', resultHash') ↔
      (j = i ∧ runId' = runId ∧ resultHash' = resultHash) ∨
        (runId' ≠ runId ∧ (φ j).owed = some (runId', resultHash')) := by
  by_cases hij : j = i
  · subst hij
    rw [Function.update_self, hidle]
    show some (runId, resultHash) = some (runId', resultHash') ↔ _
    rw [Option.some.injEq, Prod.mk.injEq]
    constructor
    · rintro ⟨rfl, rfl⟩
      exact Or.inl ⟨rfl, rfl, rfl⟩
    · rintro (⟨-, rfl, rfl⟩ | ⟨-, hnone⟩)
      · exact ⟨rfl, rfl⟩
      · cases hnone
  · rw [Function.update_of_ne hij]
    constructor
    · intro howed
      refine Or.inr ⟨?_, howed⟩
      rintro rfl
      exact hφ.not_owed hunused j resultHash' howed
    · rintro (⟨heq, -⟩ | ⟨-, howed⟩)
      · exact absurd heq hij
      · exact howed

/-- A client that owes nothing acts on a run id of its own. -/
theorem Phased.act (hφ : Phased ledger φ) (hidle : (φ i).owed = none) {runId : String}
    (hrun : ∃ x ∈ (φ i).fresh, runId = "run-" ++ x) (resultHash : String) :
    Phased (Function.update ledger runId (.acted resultHash))
      (Function.update φ i
        ⟨{x ∈ (φ i).fresh | "run-" ++ x ≠ runId}, some (runId, resultHash)⟩) := by
  have hsub : {x ∈ (φ i).fresh | "run-" ++ x ≠ runId} ⊆ (φ i).fresh := fun x hx => hx.1
  have hused : ∀ x ∈ {x ∈ (φ i).fresh | "run-" ++ x ≠ runId}, "run-" ++ x ≠ runId :=
    fun _ hx => hx.2
  have hunused : ledger runId = .unused := by
    obtain ⟨x, hx, rfl⟩ := hrun
    exact hφ.freshRun i x hx
  have howed := hφ.owed_after_act hidle hunused {x ∈ (φ i).fresh | "run-" ++ x ≠ runId} resultHash
  constructor
  · intro j x hx
    have hne : "run-" ++ x ≠ runId := hφ.used "run-" hrun hused hx
    rw [Function.update_of_ne hne]
    exact hφ.freshRun j x (fresh_of_update hsub hx)
  · intro j x hx runId' receipt hclosed
    have hne : runId' ≠ runId := by
      rintro rfl
      rw [Function.update_self] at hclosed
      cases hclosed
    rw [Function.update_of_ne hne] at hclosed
    exact hφ.freshReceipt j x (fresh_of_update hsub hx) runId' receipt hclosed
  · exact fun j j' x => hφ.apart_update hsub j j' x
  · intro runId' resultHash'
    rw [exists_congr fun j => howed j runId' resultHash']
    by_cases heq : runId' = runId
    · subst heq
      rw [Function.update_self]
      constructor
      · intro hacted
        exact ⟨i, Or.inl ⟨rfl, rfl, (RunState.acted.inj hacted).symm⟩⟩
      · rintro ⟨j, ⟨-, -, rfl⟩ | ⟨hne, -⟩⟩
        · rfl
        · exact absurd rfl hne
    · rw [Function.update_of_ne heq]
      refine (hφ.owed runId' resultHash').trans (exists_congr fun j => ?_)
      constructor
      · exact fun hj => Or.inr ⟨heq, hj⟩
      · rintro (⟨-, heq', -⟩ | ⟨-, hj⟩)
        · exact absurd heq' heq
        · exact hj
  · intro j j' runId' h h' hj hj'
    rcases (howed j runId' h).mp hj with ⟨rfl, rfl, rfl⟩ | ⟨hne, hj⟩
    · rcases (howed j' _ h').mp hj' with ⟨rfl, -, -⟩ | ⟨hne, -⟩
      · rfl
      · exact absurd rfl hne
    · rcases (howed j' runId' h').mp hj' with ⟨-, heq, -⟩ | ⟨-, hj'⟩
      · exact absurd heq hne
      · exact hφ.once j j' runId' h h' hj hj'

/-- A client puts a receipt under an id of its own, for a run that is its own. -/
theorem Phased.close (hφ : Phased ledger φ) {receipt : ExecutionReceipt}
    (hid : ∃ x ∈ (φ i).fresh, receipt.receiptId = "rcpt-" ++ x)
    (hown : ∀ runId resultHash, (φ i).owed = some (runId, resultHash) → runId = receipt.runId)
    (hothers : ∀ j, j ≠ i → (∀ x ∈ (φ j).fresh, "run-" ++ x ≠ receipt.runId) ∧
      ∀ resultHash, (φ j).owed ≠ some (receipt.runId, resultHash)) :
    Phased (Function.update ledger receipt.runId (.closed receipt))
      (Function.update φ i ⟨{x ∈ (φ i).fresh |
        "rcpt-" ++ x ≠ receipt.receiptId ∧ "run-" ++ x ≠ receipt.runId}, none⟩) := by
  let fresh : Set String :=
    {x ∈ (φ i).fresh | "rcpt-" ++ x ≠ receipt.receiptId ∧ "run-" ++ x ≠ receipt.runId}
  have hsub : fresh ⊆ (φ i).fresh := fun x hx => hx.1
  have hused : ∀ x ∈ fresh, "rcpt-" ++ x ≠ receipt.receiptId := fun _ hx => hx.2.1
  have howed : ∀ j runId resultHash,
      (Function.update φ i ⟨fresh, none⟩ j).owed = some (runId, resultHash) ↔
        runId ≠ receipt.runId ∧ (φ j).owed = some (runId, resultHash) := by
    intro j runId resultHash
    by_cases hij : j = i
    · subst hij
      rw [Function.update_self]
      constructor
      · intro hnone
        cases hnone
      · rintro ⟨hne, hj⟩
        exact absurd (hown runId resultHash hj) hne
    · rw [Function.update_of_ne hij]
      refine ⟨fun hj => ⟨?_, hj⟩, And.right⟩
      rintro rfl
      exact (hothers j hij).2 resultHash hj
  constructor
  · intro j x hx
    have hne : "run-" ++ x ≠ receipt.runId := by
      by_cases hij : j = i
      · subst hij
        rw [Function.update_self] at hx
        exact hx.2.2
      · rw [Function.update_of_ne hij] at hx
        exact (hothers j hij).1 x hx
    rw [Function.update_of_ne hne]
    exact hφ.freshRun j x (fresh_of_update hsub hx)
  · intro j x hx runId old hclosed
    by_cases hrun : runId = receipt.runId
    · rw [hrun, Function.update_self] at hclosed
      rw [← RunState.closed.inj hclosed]
      exact (hφ.used "rcpt-" hid hused hx).symm
    · rw [Function.update_of_ne hrun] at hclosed
      exact hφ.freshReceipt j x (fresh_of_update hsub hx) runId old hclosed
  · exact fun j j' x => hφ.apart_update hsub j j' x
  · intro runId resultHash
    rw [exists_congr fun j => howed j runId resultHash]
    by_cases hrun : runId = receipt.runId
    · rw [hrun, Function.update_self]
      constructor
      · intro hacted
        cases hacted
      · rintro ⟨j, hne, -⟩
        exact absurd rfl hne
    · rw [Function.update_of_ne hrun]
      exact (hφ.owed runId resultHash).trans
        (exists_congr fun j => ⟨fun hj => ⟨hrun, hj⟩, And.right⟩)
  · intro j j' runId h h' hj hj'
    exact hφ.once j j' runId h h' ((howed j runId h).mp hj).2 ((howed j' runId h').mp hj').2

end Phases

/-! ## One call -/

/-- The store keeps the books of a ledger that `before` leads to and that the phases are about. -/
def Booked {ι : Type} (before : String → RunState) (v : StoreView) (φ : ι → LedgerPhase) : Prop :=
  ∃ ledger, Books v ledger ∧ Phased ledger φ ∧ ∀ runId, (before runId).Leads (ledger runId)

/-- A run that moves forward. -/
theorem leads_update {before ledger : String → RunState}
    (hbefore : ∀ runId, (before runId).Leads (ledger runId)) {runId : String} {state : RunState}
    (hstate : (ledger runId).Leads state) (id : String) :
    (before id).Leads (Function.update ledger runId state id) := by
  by_cases hid : id = runId
  · subst hid
    rw [Function.update_self]
    exact (hbefore id).trans hstate
  · rw [Function.update_of_ne hid]
    exact hbefore id

/-- The calls that are neither of receipts nor of actions. -/
def StoreOp.IsNeutral : StoreOp → Prop
  | .putReceipt _ | .executeSyntheticAction _ _ => False
  | _ => True

theorem StoreOp.IsRegistryPut.neutral {o : StoreOp} (ho : o.IsRegistryPut) : o.IsNeutral := by
  cases o with
  | putReceipt | executeSyntheticAction => exact ho.elim
  | _ => trivial

section Step

variable [PyRuntime] {σ ι : Type} {h : Handler RuntimeStore PyError σ} {view : σ → StoreView}
  [DecidableEq ι] {before : String → RunState} {φ : ι → LedgerPhase} {i : ι} {s : σ}

theorem StoreOp.IsNeutral.view_eq (himp : Implements h view) {o : StoreOp} (ho : o.IsNeutral)
    (hstorable : o.Storable) (s : σ) :
    (view (h o s).2).receipt = (view s).receipt ∧ (view (h o s).2).action = (view s).action := by
  rw [(himp.refines o s hstorable).2]
  cases o with
  | putReceipt | executeSyntheticAction => exact ho.elim
  | _ => exact ⟨rfl, rfl⟩

/-- A client that owes nothing stores a BLOCK receipt. -/
theorem booked_block (himp : Implements h view) (hbooked : Booked before (view s) φ)
    (hidle : (φ i).owed = none) {receipt : ExecutionReceipt}
    (hid : ∃ x ∈ (φ i).fresh, receipt.receiptId = "rcpt-" ++ x)
    (hrun : ∃ x ∈ (φ i).fresh, receipt.runId = "run-" ++ x) (hblock : receipt.decision = "BLOCK")
    (hhash : receipt.executorResultHash = none) :
    Booked before (view (h (.putReceipt receipt) s).2)
      (Function.update φ i (ledgerProtocol.next (φ i) (.putReceipt receipt) (.ok ()))) := by
  obtain ⟨ledger, hbooks, hφ, hleads⟩ := hbooked
  have hunused : ledger receipt.runId = .unused := by
    obtain ⟨x, hx, heq⟩ := hrun
    rw [heq]
    exact hφ.freshRun i x hx
  rw [himp.view_putReceipt]
  refine ⟨Function.update ledger receipt.runId (.closed receipt), ?_, ?_, leads_update hleads ?_⟩
  · refine hbooks.close (Or.inr ⟨hblock, hhash⟩) ?_ (hφ.receiptId_new hid) fun resultHash => ?_
    · intro old hclosed
      rw [hunused] at hclosed
      cases hclosed
    · rw [hunused]
      show False ↔ receipt.decision = "ALLOW" ∧ _
      rw [hblock]
      exact ⟨False.elim, fun hallow => absurd hallow.1 (by decide)⟩
  · refine hφ.close hid (fun runId resultHash howed => ?_) fun j hij => ⟨fun x hx heq => ?_, ?_⟩
    · rw [hidle] at howed
      cases howed
    · obtain ⟨x', hx', hrun'⟩ := hrun
      rw [hrun', String.append_right_inj] at heq
      rw [heq] at hx
      exact hij (hφ.apart j i x' hx hx')
    · exact hφ.not_owed hunused j
  · rw [hunused]
    trivial

/-- A client stores the ALLOW receipt it owes. -/
theorem booked_allow (himp : Implements h view) (hbooked : Booked before (view s) φ)
    {receipt : ExecutionReceipt} {resultHash : String}
    (howes : (φ i).owed = some (receipt.runId, resultHash))
    (hid : ∃ x ∈ (φ i).fresh, receipt.receiptId = "rcpt-" ++ x) (hallow : receipt.decision = "ALLOW")
    (hhash : receipt.executorResultHash = some resultHash) :
    Booked before (view (h (.putReceipt receipt) s).2)
      (Function.update φ i (ledgerProtocol.next (φ i) (.putReceipt receipt) (.ok ()))) := by
  obtain ⟨ledger, hbooks, hφ, hleads⟩ := hbooked
  have hacted : ledger receipt.runId = .acted resultHash := (hφ.owed _ _).mpr ⟨i, howes⟩
  rw [himp.view_putReceipt]
  refine ⟨Function.update ledger receipt.runId (.closed receipt), ?_, ?_, leads_update hleads ?_⟩
  · refine hbooks.close (Or.inl ⟨hallow, resultHash, hhash⟩) ?_ (hφ.receiptId_new hid)
      fun expected => ?_
    · intro old hclosed
      rw [hacted] at hclosed
      cases hclosed
    · rw [hacted]
      show resultHash = expected ↔ receipt.decision = "ALLOW" ∧ _ = some expected
      rw [hhash, Option.some.injEq]
      exact ⟨fun heq => ⟨hallow, heq⟩, And.right⟩
  · refine hφ.close hid (fun runId hash howed => ?_) fun j hij => ⟨fun x hx heq => ?_, ?_⟩
    · rw [howes] at howed
      exact (Prod.ext_iff.mp (Option.some.inj howed)).1.symm
    · -- the run is acted on, so its id is nobody's to use
      have hunused := hφ.freshRun j x hx
      rw [heq, hacted] at hunused
      cases hunused
    · exact fun hash hj => hij (hφ.once j i _ _ _ hj howes)
  · rw [hacted]
    exact ⟨hallow, hhash⟩

/-- A client that owes nothing acts, and owes the receipt of what it did. -/
theorem booked_act (himp : Implements h view) (hbooked : Booked before (view s) φ)
    (hidle : (φ i).owed = none) {runId : String} (hrun : ∃ x ∈ (φ i).fresh, runId = "run-" ++ x)
    {payload : PyDict} {resultHash : String}
    (hhash : canonicalHash (syntheticResult runId payload) = .ok resultHash) :
    Booked before (view (h (.executeSyntheticAction runId payload) s).2)
      (Function.update φ i (ledgerProtocol.next (φ i) (.executeSyntheticAction runId payload)
        (.ok resultHash))) := by
  obtain ⟨ledger, hbooks, hφ, hleads⟩ := hbooked
  have hunused : ledger runId = .unused := by
    obtain ⟨x, hx, rfl⟩ := hrun
    exact hφ.freshRun i x hx
  rw [himp.view_executed hhash]
  refine ⟨Function.update ledger runId (.acted resultHash), hbooks.act hunused resultHash,
    hφ.act hidle hrun resultHash, leads_update hleads ?_⟩
  rw [hunused]
  trivial

/-- A call that is neither of receipts nor of actions is allowed to who owes nothing, and leaves
    phase and books alone. -/
theorem allowed_neutral {o : StoreOp} (ho : o.IsNeutral) (φ : LedgerPhase) :
    (ledgerProtocol.allowed φ o ↔ φ.owed = none ∧ o.Storable) ∧
      ∀ r, ledgerProtocol.next φ o r = φ := by
  obtain ⟨fresh, owed⟩ := φ
  cases o with
  | putReceipt | executeSyntheticAction => exact ho.elim
  | _ =>
    refine ⟨?_, fun _ => rfl⟩
    cases owed with
    | none => exact ⟨fun hstorable => ⟨rfl, hstorable⟩, And.right⟩
    | some owed => exact ⟨False.elim, fun h => nomatch h.1⟩

theorem booked_neutral (himp : Implements h view) {o : StoreOp} (ho : o.IsNeutral)
    (hbooked : Booked before (view s) φ) (hallowed : ledgerProtocol.allowed (φ i) o) :
    Booked before (view (h o s).2)
      (Function.update φ i (ledgerProtocol.next (φ i) o (h o s).1)) := by
  obtain ⟨hiff, hnext⟩ := allowed_neutral ho (φ i)
  obtain ⟨hreceipt, haction⟩ := ho.view_eq himp (hiff.mp hallowed).2 s
  obtain ⟨ledger, hbooks, hφ⟩ := hbooked
  rw [hnext, Function.update_eq_self]
  exact ⟨ledger, hbooks.congr hreceipt haction, hφ⟩

/-- One allowed call keeps the books. -/
theorem booked_step (himp : Implements h view) (o : StoreOp) (hbooked : Booked before (view s) φ)
    (hallowed : ledgerProtocol.allowed (φ i) o) :
    Booked before (view (h o s).2)
      (Function.update φ i (ledgerProtocol.next (φ i) o (h o s).1)) := by
  cases o with
  | putReceipt receipt =>
    rw [(himp.refines (.putReceipt receipt) s trivial).1]
    rcases hi : φ i with ⟨fresh, _ | ⟨runId, resultHash⟩⟩
    · rw [hi] at hallowed
      obtain ⟨hid, hrun, hblock, hhash⟩ := hallowed
      have hstep := booked_block (i := i) himp hbooked (by rw [hi]) (by rw [hi]; exact hid)
        (by rw [hi]; exact hrun) hblock hhash
      rw [hi] at hstep
      exact hstep
    · rw [hi] at hallowed
      obtain ⟨hid, rfl, hallow, hhash⟩ := hallowed
      have hstep := booked_allow (i := i) himp hbooked (by rw [hi]) (by rw [hi]; exact hid) hallow
        hhash
      rw [hi] at hstep
      exact hstep
  | executeSyntheticAction runId payload =>
    rcases hi : φ i with ⟨fresh, _ | owed⟩
    · rw [hi] at hallowed
      have hans := (himp.refines (.executeSyntheticAction runId payload) s trivial).1
      cases hhash : canonicalHash (syntheticResult runId payload) with
      | ok resultHash =>
        have hok : (StoreView.handle (.executeSyntheticAction runId payload) (view s)).1 =
            .ok resultHash := by simp only [StoreView.handle, hhash]
        have hstep := booked_act (i := i) himp hbooked (by rw [hi]) (by rw [hi]; exact hallowed)
          hhash
        rw [hi] at hstep
        rw [hans, hok]
        exact hstep
      | error e =>
        have herror : (h (.executeSyntheticAction runId payload) s).1 = .error e := by
          rw [hans]
          simp only [StoreView.handle, hhash]
        rw [himp.raisesKeep _ s e herror, herror]
        show Booked before (view s) (Function.update φ i ⟨fresh, none⟩)
        rw [← hi, Function.update_eq_self]
        exact hbooked
    · rw [hi] at hallowed
      exact hallowed.elim
  | _ => exact booked_neutral himp trivial hbooked hallowed

end Step

/-! ## What the clients do -/

section Follows

variable {α : Type} {φ : LedgerPhase}

/-- A part of a client that ends owing nothing, and has used up none but these values. -/
def Spends (φ : LedgerPhase) (used : List String) (_ : Except PyError α) (φ' : LedgerPhase) : Prop :=
  φ'.owed = none ∧ ∀ x ∈ φ.fresh, x ∉ used → x ∈ φ'.fresh

/-- What a later part has still to use, an earlier part with other values has left. -/
theorem Spends.fresh {used rest : List String} {r : Except PyError α} {φ' : LedgerPhase}
    (hspends : Spends φ used r φ') (hdisjoint : ∀ x ∈ rest, x ∉ used)
    (hfresh : ∀ x ∈ rest, x ∈ φ.fresh) : ∀ x ∈ rest, x ∈ φ'.fresh :=
  fun x hx => hspends.2 x (hfresh x hx) (hdisjoint x hx)

/-- A client that ends owes nothing. -/
def Cleared (_ : Except PyError α) (φ : LedgerPhase) : Prop := φ.owed = none

/-- The `uuid4` values of one draw. -/
def Draw.hexes (draw : Draw) : List String := [draw.runHex, draw.receiptHex, draw.traceHex]

/-- A value that a draw does not use names neither its receipt nor its run. -/
theorem Draw.ne_of_unused {draw : Draw} {x : String} (hx : x ∉ draw.hexes) :
    "rcpt-" ++ x ≠ draw.receiptId ∧ "run-" ++ x ≠ draw.runId := by
  rw [Draw.hexes, List.mem_cons, List.mem_cons, not_or, not_or] at hx
  exact ⟨fun h => hx.2.1 ((String.append_right_inj _).mp h),
    fun h => hx.1 ((String.append_right_inj _).mp h)⟩

/-- The values of a draw are different, and the client's to use. -/
structure Draw.Ready (draw : Draw) (φ : LedgerPhase) : Prop where
  nodup : draw.hexes.Nodup
  fresh : ∀ x ∈ draw.hexes, x ∈ φ.fresh

theorem Draw.Ready.run {draw : Draw} (hready : draw.Ready φ) : draw.runHex ∈ φ.fresh :=
  hready.fresh _ List.mem_cons_self

theorem Draw.Ready.receipt {draw : Draw} (hready : draw.Ready φ) :
    draw.receiptHex ∈ φ.fresh ∧ "run-" ++ draw.receiptHex ≠ draw.runId := by
  refine ⟨hready.fresh _ (List.mem_cons_of_mem _ List.mem_cons_self), fun h => ?_⟩
  have hne := (List.nodup_cons.mp hready.nodup).1
  rw [← (String.append_right_inj _).mp h] at hne
  exact hne List.mem_cons_self

variable [PyRuntime]

/-- The calls that a client which owes nothing may make at any time. -/
def StoreOp.IsPlain (o : StoreOp) : Prop := o.IsNeutral ∧ o.Storable

theorem follows_of_plain {p : StoreM α} (hp : p.Issues StoreOp.IsPlain)
    (hidle : φ.owed = none) : p.Follows ledgerProtocol (fun _ φ' => φ' = φ) φ := by
  refine Prog.follows_of_issues (hp.mono fun o ho => ?_)
  obtain ⟨hiff, hnext⟩ := allowed_neutral ho.1 φ
  exact ⟨hiff.mpr ⟨hidle, ho.2⟩, hnext⟩

theorem StoreOp.IsRead.plain {o : StoreOp} (ho : o.IsRead) : o.IsPlain := by
  refine ⟨?_, ho.storable⟩
  cases o with
  | putReceipt | executeSyntheticAction => exact ho.elim
  | _ => trivial

namespace ControlPlane

/-- The writes of one execution: a BLOCK receipt, or an action and at once its ALLOW receipt. -/
theorem settle_follows (hidle : φ.owed = none) {draw : Draw} (hready : draw.Ready φ)
    (identity : IdentityContext) (leaseId : String) (intent : ActionIntent) (report : GateReport) :
    (settle draw identity leaseId intent report).Follows ledgerProtocol (Spends φ draw.hexes) φ := by
  obtain ⟨fresh, owed⟩ := φ
  obtain rfl : owed = none := hidle
  unfold settle
  split
  · rename_i target _ _
    refine ⟨⟨draw.runHex, hready.run, rfl⟩, fun answer => ?_⟩
    cases answer with
    | error e => exact ⟨rfl, fun x hx _ => hx⟩
    | ok resultHash =>
      refine ⟨⟨⟨draw.receiptHex, hready.receipt, rfl⟩, rfl, rfl, rfl⟩, fun answer => ?_⟩
      have hkept : ∀ x ∈ fresh, x ∉ draw.hexes → x ∈ {x ∈ {x ∈ fresh | "run-" ++ x ≠ draw.runId} |
          "rcpt-" ++ x ≠ draw.receiptId ∧ "run-" ++ x ≠ draw.runId} :=
        fun x hx hunused =>
          ⟨⟨hx, (Draw.ne_of_unused hunused).2⟩, Draw.ne_of_unused hunused⟩
      cases answer with
      | ok _ => exact ⟨rfl, hkept⟩
      | error e => exact ⟨rfl, hkept⟩
  · refine ⟨⟨⟨draw.receiptHex, hready.receipt.1, rfl⟩, ⟨draw.runHex, hready.run, rfl⟩, rfl, rfl⟩,
      fun answer => ?_⟩
    have hkept : ∀ x ∈ fresh, x ∉ draw.hexes →
        x ∈ {x ∈ fresh | "rcpt-" ++ x ≠ draw.receiptId ∧ "run-" ++ x ≠ draw.runId} :=
      fun x hx hunused => ⟨hx, Draw.ne_of_unused hunused⟩
    cases answer with
    | ok _ => exact ⟨rfl, hkept⟩
    | error e => exact ⟨rfl, hkept⟩

theorem execute_follows (hidle : φ.owed = none) {draw : Draw} (hready : draw.Ready φ)
    (cp : ControlPlane) (fuel : Nat) (identity : IdentityContext) (leaseId : String)
    (intent : ActionIntent) :
    (cp.execute fuel draw identity leaseId intent).Follows ledgerProtocol (Spends φ draw.hexes)
      φ := by
  have hgates := (gates_issues cp fuel draw.now identity leaseId intent).mono
    fun o ho => StoreOp.IsRead.plain (StoreOp.IsRegistryRead.isRead ho)
  refine Prog.follows_bind (follows_of_plain hgates hidle) ?_ ?_
  · rintro report _ rfl
    exact settle_follows hidle hready identity leaseId intent report
  · rintro e _ rfl
    exact ⟨hidle, fun x hx _ => hx⟩

end ControlPlane

theorem spends_of_plain {p : StoreM α} (hp : p.Issues StoreOp.IsPlain) (hidle : φ.owed = none)
    (used : List String) : p.Follows ledgerProtocol (Spends φ used) φ := by
  refine (follows_of_plain hp hidle).mono ?_
  rintro r _ rfl
  exact ⟨hidle, fun x hx _ => hx⟩

theorem Command.follows {cmd : Command} (hcmd : cmd.Direct) (hnodup : cmd.hexes.Nodup)
    (fuel : Nat) (hidle : φ.owed = none) (hfresh : ∀ x ∈ cmd.hexes, x ∈ φ.fresh) :
    (cmd.program fuel).Follows ledgerProtocol (Spends φ cmd.hexes) φ := by
  cases cmd with
  | operation o =>
    refine spends_of_plain (store.call_issues o ?_) hidle _
    exact hcmd.elim (fun hput => ⟨hput.1.neutral, hput.2⟩) StoreOp.IsRead.plain
  | promote agentId capability evidenceId =>
    refine spends_of_plain ((ControlPlane.promote_issues agentId capability evidenceId).mono ?_)
      hidle _
    rintro o (rfl | rfl | ⟨agent, rfl⟩)
    · exact ⟨trivial, trivial⟩
    · exact ⟨trivial, trivial⟩
    · exact ⟨trivial, trivial⟩
  | execute cp draw identity leaseId intent =>
    exact ControlPlane.execute_follows hidle ⟨hnodup, hfresh⟩ cp fuel identity leaseId intent
  | replay receiptId =>
    exact spends_of_plain ((ControlPlane.replay_issues receiptId).mono fun _ => StoreOp.IsRead.plain)
      hidle _

/-- A session clears each of its calls before the next. -/
theorem session_follows {cmds : List Command} (hcmds : ∀ cmd ∈ cmds, cmd.Direct)
    (hnodup : (cmds.flatMap Command.hexes).Nodup) (fuel : Nat) (hidle : φ.owed = none)
    (hfresh : ∀ x ∈ cmds.flatMap Command.hexes, x ∈ φ.fresh) :
    (session fuel cmds).Follows ledgerProtocol Cleared φ := by
  induction cmds generalizing φ with
  | nil => exact hidle
  | cons cmd cmds ih =>
    rw [List.flatMap_cons] at hnodup hfresh
    obtain ⟨hself, hrest, hdisjoint⟩ := List.nodup_append.mp hnodup
    have hcall := Command.follows (hcmds cmd List.mem_cons_self) hself fuel hidle
      fun x hx => hfresh x (List.mem_append_left _ hx)
    refine Prog.follows_bind (Q := fun r φ' => ∃ reply, r = .ok reply ∧ Spends φ cmd.hexes reply φ')
      (Prog.follows_attempt hcall fun reply φ' hspends => ⟨reply, rfl, hspends⟩) ?_ ?_
    · rintro a φ' ⟨reply, -, hspends⟩
      refine Prog.follows_bind (ih (fun c hc => hcmds c (List.mem_cons_of_mem _ hc)) hrest hspends.1
        (hspends.fresh (fun x hx hused => hdisjoint x hused x hx rfl)
          fun x hx => hfresh x (List.mem_append_right _ hx))) ?_ ?_
      · exact fun _ _ hcleared => hcleared
      · exact fun _ _ hcleared => hcleared
    · rintro e φ' ⟨reply, hreply, -⟩
      cases hreply

theorem executeProposal_follows (hidle : φ.owed = none) {draw : Draw} (hready : draw.Ready φ)
    (cp : ControlPlane) (fuel : Nat) (identity : IdentityContext) (leaseId : String)
    (proposal : PlannerProposal) (authorizedTargetId intentId : String) (requestedAt : DateTime) :
    (executeProposal cp fuel draw identity leaseId proposal authorizedTargetId intentId
      requestedAt).Follows ledgerProtocol Cleared φ := by
  unfold executeProposal
  refine Prog.follows_bind (follows_of_plain (store.call_issues _ ⟨trivial, trivial⟩) hidle) ?_ ?_
  · rintro found _ rfl
    cases found with
    | none => exact hidle
    | some target =>
      refine Prog.follows_bind (follows_of_plain (store.lift_issues _ _) hidle) ?_ ?_
      · rintro intent _ rfl
        refine Prog.follows_bind (ControlPlane.execute_follows hidle hready cp fuel identity leaseId
          intent) (fun receipt φ' hspends => ?_) fun _ _ hspends => hspends.1
        refine Prog.follows_bind (follows_of_plain
          ((ControlPlane.replay_issues receipt.receiptId).mono fun _ => StoreOp.IsRead.plain)
          hspends.1) ?_ ?_
        · rintro _ _ rfl
          exact hspends.1
        · rintro _ _ rfl
          exact hspends.1
      · rintro e _ rfl
        exact hidle
  · rintro e _ rfl
    exact hidle

theorem CloudDemo.IsSeeding.plain {o : StoreOp} (ho : CloudDemo.IsSeeding o) : o.IsPlain := by
  rcases ho.read_or_put with hread | hput
  · exact hread.isRead.plain
  · exact ⟨hput.neutral, ho.storable⟩

theorem DemoRun.follows (demo : DemoRun) (hidle : φ.owed = none)
    (hready : demo.draw.Ready φ) : demo.program.Follows ledgerProtocol Cleared φ := by
  obtain ⟨target, hall⟩ := CloudDemo.exists_seededByAll
  rcases demo.program_cases hall with ⟨e, heq⟩ | ⟨evidence, hseeds, heq⟩
  · rw [heq]
    exact hidle
  · rw [heq]
    refine Prog.follows_bind (follows_of_plain ((CloudDemo.prepare_issues hseeds demo.now
      demo.scenarioId demo.case).mono fun _ => CloudDemo.IsSeeding.plain) hidle) ?_ ?_
    · rintro ctx _ rfl
      refine Prog.follows_tryCatch (Q := Cleared) ?_ (fun _ _ hcleared => hcleared) ?_
      · have hready' : (demo.ids.drawAt ctx.now).Ready _ := ⟨hready.nodup, hready.fresh⟩
        exact Prog.follows_bind (executeProposal_follows hidle hready' _ _ _ _ _ _ _ _)
          (fun _ _ hcleared => hcleared) fun _ _ hcleared => hcleared
      · intro e φ' hcleared
        cases e with
        | _ => exact hcleared
    · rintro e _ rfl
      exact hidle

/-- Every client follows the protocol, and ends owing nothing. -/
theorem Client.follows {client : Client} (hclient : client.Direct) (hnodup : client.hexes.Nodup)
    (hidle : φ.owed = none) (hfresh : ∀ x ∈ client.hexes, x ∈ φ.fresh) :
    client.program.Follows ledgerProtocol Cleared φ := by
  cases client with
  | session fuel cmds => exact session_follows hclient hnodup fuel hidle hfresh
  | proposal cp fuel draw identity leaseId plan authorizedTargetId intentId requestedAt =>
    exact executeProposal_follows hidle ⟨hnodup, hfresh⟩ cp fuel identity leaseId plan
      authorizedTargetId intentId requestedAt
  | request demo => exact demo.follows hidle ⟨hnodup, hfresh⟩

end Follows

/-! ## Every interleaving -/

section Interleavings

variable [PyRuntime] {σ ι : Type} {h : Handler RuntimeStore PyError σ} {view : σ → StoreView}
  [DecidableEq ι]

/-- Clients over one store, none of them started. -/
def clientPool (clients : ι → Client) (s : σ) :
    Pool RuntimeStore PyError σ ι fun i => (clients i).Result where
  state := s
  threads i := (clients i).program

/-- Books and phases go on together. -/
theorem booked_runSchedule (himp : Implements h view) {α : ι → Type} {before : String → RunState}
    {pool : Pool RuntimeStore PyError σ ι α} {φ : ι → LedgerPhase}
    (hbooked : Booked before (view pool.state) φ)
    (hfollows : ∀ i, (pool.threads i).Follows ledgerProtocol Cleared (φ i)) (sched : List ι) :
    ∃ φ' : ι → LedgerPhase, Booked before (view (Pool.runSchedule h sched pool).state) φ' ∧
      ∀ i, ((Pool.runSchedule h sched pool).threads i).Follows ledgerProtocol Cleared (φ' i) :=
  Pool.follows_runSchedule (J := fun s φ => Booked before (view s) φ)
    (fun _ _ _ o hs ho => booked_step himp o hs ho) sched hbooked hfollows

omit [DecidableEq ι] in
/-- Who owes a receipt is about to store it. -/
theorem owed_iff_next {α : ι → Type} {pool : Pool RuntimeStore PyError σ ι α}
    {φ : ι → LedgerPhase} {i : ι}
    (hi : (pool.threads i).Follows ledgerProtocol Cleared (φ i)) (runId resultHash : String) :
    (φ i).owed = some (runId, resultHash) ↔
      ∃ receipt, pool.next i = some (.putReceipt receipt) ∧ Settles receipt runId resultHash := by
  constructor
  · intro howed
    have hopen : ∀ r : Except PyError (α i), ¬ Cleared r (φ i) := by
      intro r hcleared
      rw [Cleared, howed] at hcleared
      cases hcleared
    obtain ⟨o, hnext⟩ := Pool.next_isSome_of_follows hi hopen
    have hallowed := Pool.allowed_of_next hi hnext
    rcases hphase : φ i with ⟨fresh, owed⟩
    rw [hphase] at howed hallowed
    obtain rfl : owed = some (runId, resultHash) := howed
    cases o with
    | putReceipt receipt => exact ⟨receipt, hnext, hallowed.2⟩
    | _ => exact hallowed.elim
  · rintro ⟨receipt, hnext, hrun, hallow, hhash⟩
    have hallowed := Pool.allowed_of_next hi hnext
    rcases hphase : φ i with ⟨fresh, _ | ⟨runId', resultHash'⟩⟩
    · rw [hphase] at hallowed
      have hblock : receipt.decision = "BLOCK" := hallowed.2.2.1
      rw [hallow] at hblock
      exact absurd hblock (by decide)
    · rw [hphase] at hallowed
      obtain ⟨-, hrun', -, hhash'⟩ := hallowed
      rw [← hrun, ← hrun', Option.some.inj (hhash.symm.trans hhash')]

/-- Runs move forward, whoever runs beside them and wherever a client stops.  Any clients, with
    `uuid4` values that do not repeat, interleaved in any way over an empty store: at every point of
    every schedule the store keeps the books of one ledger.  Its ALLOW receipts are those of the
    runs that were acted on, except for the runs whose client is about to store the receipt, and
    there is one such client for each.  Whatever happens later, no run goes back: an action stays,
    and is only ever followed by its own ALLOW receipt, and a receipt stays as it is. -/
theorem interleaved_runs_move_forward (himp : Implements h view) (clients : ι → Client)
    (hclients : ∀ i, (clients i).Direct) (hnodup : ∀ i, (clients i).hexes.Nodup)
    (hapart : ∀ i j, i ≠ j → List.Disjoint (clients i).hexes (clients j).hexes) {s : σ}
    (hempty : view s = StoreView.empty) (sched more : List ι) :
    ∃ before after : String → RunState,
      Books (view (Pool.runSchedule h sched (clientPool clients s)).state) before ∧
      Books (view (Pool.runSchedule h (sched ++ more) (clientPool clients s)).state) after ∧
      (∀ runId, (before runId).Leads (after runId)) ∧
      (∀ runId resultHash, before runId = .acted resultHash ↔
        ∃! i, ∃ receipt, (Pool.runSchedule h sched (clientPool clients s)).next i =
          some (.putReceipt receipt) ∧ Settles receipt runId resultHash) := by
  let start : ι → LedgerPhase := fun i => ⟨{x | x ∈ (clients i).hexes}, none⟩
  have hstart : Booked (fun _ => .unused) (view s) start := by
    rw [hempty]
    refine ⟨fun _ => .unused, Books.empty, ?_, fun _ => trivial⟩
    constructor
    · exact fun _ _ _ => rfl
    · intro i x _ runId receipt hclosed
      cases hclosed
    · intro i j x hx hx'
      by_contra hij
      exact hapart i j hij hx hx'
    · intro runId resultHash
      constructor
      · intro hacted
        cases hacted
      · rintro ⟨i, hnone⟩
        cases hnone
    · intro i j runId h h' hnone
      cases hnone
  have hclear : ∀ i, ((clientPool clients s).threads i).Follows ledgerProtocol Cleared (start i) :=
    fun i => Client.follows (hclients i) (hnodup i) rfl fun _ hx => hx
  obtain ⟨φ, ⟨before, hbooks, hφ, -⟩, hfollows⟩ := booked_runSchedule himp hstart hclear sched
  obtain ⟨-, ⟨after, hbooks', -, hleads⟩, -⟩ := booked_runSchedule himp
    ⟨before, hbooks, hφ, fun runId => RunState.Leads.refl _⟩ hfollows more
  rw [← Pool.runSchedule_append] at hbooks'
  refine ⟨before, after, hbooks, hbooks', hleads, fun runId resultHash => ?_⟩
  refine (hφ.owed runId resultHash).trans ⟨?_, ?_⟩
  · rintro ⟨i, howed⟩
    refine ⟨i, (owed_iff_next (hfollows i) runId resultHash).mp howed, fun j hj => ?_⟩
    exact hφ.once j i runId _ _ ((owed_iff_next (hfollows j) runId resultHash).mpr hj) howed
  · rintro ⟨i, hi, -⟩
    exact ⟨i, (owed_iff_next (hfollows i) runId resultHash).mpr hi⟩

end Interleavings

/-- A caller that executes an intent and replays the receipt, beside a request of the service: after
    a few calls of both, and after some more of the service. -/
theorem a_caller_beside_a_request_moves_forward :
    let now : DateTime := ⟨1787838300000000, 0⟩
    let intent : ActionIntent :=
      { intentId := "intent-s1", agentId := "agent-maint-01", actionType := CloudDemo.action
        targetId := "pump-A", targetHash := "", parameters := [("work_order", .str "WO-1")]
        requestedAt := now, intentHash := "" }
    let caller : Client :=
      .session 5 [.execute CloudDemo.controlPlane ⟨now, now, "1", "2", "3"⟩
        (CloudDemo.identity "s1") "lease-001" intent, .replay "rcpt-2"]
    let service : Client :=
      .request { fuel := 5, ids := ⟨"4", "5", "6"⟩, case := "allow", now, scenarioId := "s2" }
    let pool := clientPool (fun c => if c then caller else service) ({} : MemoryStore)
    let sched := [true, false, false, true, false]
    let more := List.replicate 20 false
    ∃ before after : String → RunState,
      Books (Pool.runSchedule MemoryStore.handle sched pool).state.view before ∧
      Books (Pool.runSchedule MemoryStore.handle (sched ++ more) pool).state.view after ∧
      ∀ runId, (before runId).Leads (after runId) := by
  intro now intent caller service pool sched more
  have hclients : ∀ c : Bool, (if c then caller else service).Direct := by
    intro c
    cases c with
    | false => trivial
    | true =>
      intro cmd hcmd
      rcases List.mem_cons.mp hcmd with rfl | hcmd
      · trivial
      · rw [List.mem_singleton.mp hcmd]
        trivial
  have hnodup : ∀ c : Bool, (if c then caller else service).hexes.Nodup := by
    intro c
    cases c with
    | false => exact (by decide : ["4", "5", "6"].Nodup)
    | true => exact (by decide : ["1", "2", "3"].Nodup)
  have hapart : ∀ c c' : Bool, c ≠ c' →
      List.Disjoint (if c then caller else service).hexes (if c' then caller else service).hexes := by
    have hdisjoint : ∀ x ∈ ["1", "2", "3"], x ∉ ["4", "5", "6"] := by decide
    intro c c' hne
    cases c with
    | false =>
      cases c' with
      | false => exact absurd rfl hne
      | true => exact fun x hx hx' => hdisjoint x hx' hx
    | true =>
      cases c' with
      | false => exact fun x hx hx' => hdisjoint x hx hx'
      | true => exact absurd rfl hne
  obtain ⟨before, after, hbooks, hbooks', hleads, -⟩ := interleaved_runs_move_forward
    memoryStore_implements _ hclients hnodup hapart memoryStore_empty_view sched more
  exact ⟨before, after, hbooks, hbooks', hleads⟩

end PoiexGoc
