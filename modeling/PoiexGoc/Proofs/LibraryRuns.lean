/-
  Programs over a client LIBRARY.

  1. `handleOver_agrees` — an operation that the library takes (`Accepted`) does over the library
     what it does over the document map.

  2. `run_handleOver` — so does a program all of whose operations are taken: the same result, and
     the documents it ends with.

  3. `runSchedule_handleOver` — and so do any programs, however interleaved, as long as every
     operation on the way is taken.

  What is proved of `FirestoreStore.handle` holds so of every library that keeps what it accepts.
-/
import PoiexGoc.Lib.Interleave
import PoiexGoc.Proofs.DocumentFrames
import PoiexGoc.Proofs.ReplayReports
import PoiexGoc.Runtime.FirestoreLibrary

namespace PoiexGoc

open Py Effect

namespace FirestoreStore

/-- Nothing is found where there is no document. -/
theorem get_of_absent {fs : FirestoreStore} {kind docId : String} {c : FirestoreClient}
    (habsent : c.docs.lookup (fs.docKey kind docId) = none) : fs.get kind docId c = .ok none := by
  rw [get, habsent]

theorem getDecoded_of_absent {α : Type} {fs : FirestoreStore} {kind docId : String}
    {c : FirestoreClient} (habsent : c.docs.lookup (fs.docKey kind docId) = none)
    (fromDoc : PyValue → Except PyError α) : fs.getDecoded kind docId fromDoc c = .ok none := by
  rw [getDecoded, get_of_absent habsent]
  rfl

variable {σ : Type} {lib : Library σ} {docs : σ → FirestoreClient} {limits : Library.Limits}

theorem putOver_agrees (hkeeps : lib.Keeps docs limits) (fs : FirestoreStore) (kind docId : String)
    {payload : PyDict} (hdoc : limits.accepts (fs.docKey kind docId) payload) (s : σ) :
    (fs.putOver lib kind docId payload s).1 = .ok () ∧
      docs (fs.putOver lib kind docId payload s).2 = (fs.put kind docId payload (docs s)).2 :=
  hkeeps.set_stores _ _ _ hdoc

theorem getOver_agrees (hkeeps : lib.Keeps docs limits) (fs : FirestoreStore) {kind docId : String}
    (hkey : limits.addresses (fs.docKey kind docId)) (s : σ) :
    (fs.getOver lib kind docId s).1 = fs.get kind docId (docs s) ∧
      docs (fs.getOver lib kind docId s).2 = docs s := by
  obtain ⟨hanswer, hdocs⟩ := hkeeps.get_finds (fs.docKey kind docId) s hkey
  refine ⟨?_, hdocs⟩
  simp only [getOver, get, hanswer, ok_bind]
  cases (docs s).docs.lookup (fs.docKey kind docId) with
  | none => rfl
  | some data => rfl

theorem getDecodedOver_agrees {α : Type} (hkeeps : lib.Keeps docs limits) (fs : FirestoreStore)
    {kind docId : String} (hkey : limits.addresses (fs.docKey kind docId))
    (fromDoc : PyValue → Except PyError α) (s : σ) :
    (fs.getDecodedOver lib kind docId fromDoc s).1 = fs.getDecoded kind docId fromDoc (docs s) ∧
      docs (fs.getDecodedOver lib kind docId fromDoc s).2 = docs s := by
  obtain ⟨hanswer, hdocs⟩ := getOver_agrees hkeeps fs hkey s
  rw [getDecoded_eq]
  exact ⟨congrArg (· >>= decodeFound fromDoc) hanswer, hdocs⟩

variable [PyRuntime]

theorem hasSyntheticAction_of_absent {fs : FirestoreStore} {runId : String} {c : FirestoreClient}
    (habsent : c.docs.lookup (fs.docKey "synthetic_actions" runId) = none) (expectedHash : String) :
    fs.hasSyntheticAction runId expectedHash c = .ok false := by
  rw [hasSyntheticAction, get_of_absent habsent]
  rfl

/-- The library takes the operation: it can address what is read, and accepts what is stored. -/
structure Accepted (fs : FirestoreStore) (limits : Library.Limits) (o : StoreOp) : Prop where
  addressed : o.IsRead → limits.addresses (fs.opKey o)
  accepted : ∀ payload, written o = some payload → limits.accepts (fs.opKey o) payload

theorem accepted_unlimited (fs : FirestoreStore) (o : StoreOp) :
    fs.Accepted FirestoreClient.unlimited o :=
  ⟨fun _ => trivial, fun _ _ => trivial⟩

/-- What is found is a document, so the library can address it. -/
theorem Accepted.of_finds (hkeeps : lib.Keeps docs limits) {fs : FirestoreStore} {s : σ}
    {o : StoreOp} (ho : ControlPlane.FindsStored (fs.view (docs s)) o) : fs.Accepted limits o := by
  have hheld : (docs s).docs.lookup (fs.opKey o) ≠ none := by
    intro hnone
    cases o with
    | getAgent | getLease | getAuthorityProvenance | getEvidence | getTarget | getReceipt =>
      obtain ⟨x, hx⟩ := ho
      cases (getDecoded_of_absent hnone _).symm.trans hx
    | hasSyntheticAction runId resultHash =>
      cases (hasSyntheticAction_of_absent hnone resultHash).symm.trans ho
    | _ => exact ho
  refine ⟨fun _ => hkeeps.held_addressed _ _ hheld, fun payload hpayload => ?_⟩
  rw [written_of_isRead ho.isRead] at hpayload
  cases hpayload

/-- Case by case on the operation: puts go to the library's `set`, gets to its `get`, and an action
    without a hash to neither. -/
theorem handleOver_agrees (hkeeps : lib.Keeps docs limits) (fs : FirestoreStore) {o : StoreOp}
    (ho : fs.Accepted limits o) (s : σ) :
    (fs.handleOver lib o s).1 = (fs.handle o (docs s)).1 ∧
      docs (fs.handleOver lib o s).2 = (fs.handle o (docs s)).2 := by
  cases o with
  | putAgent | putLease | putAuthorityProvenance | putEvidence | putTarget | putReceipt =>
    exact putOver_agrees hkeeps fs _ _ (ho.accepted _ rfl) s
  | getAgent | getLease | getAuthorityProvenance | getEvidence | getTarget | getReceipt =>
    exact getDecodedOver_agrees hkeeps fs (ho.addressed trivial) _ s
  | executeSyntheticAction runId payload =>
    simp only [handleOver, handle, executeSyntheticActionOver, executeSyntheticAction]
    cases hhash : canonicalHash (syntheticResult runId payload) with
    | error e => exact ⟨rfl, rfl⟩
    | ok resultHash =>
      have hwritten : written (.executeSyntheticAction runId payload) =
          some (storedAction runId payload resultHash) := by
        rw [written, hhash]
      obtain ⟨hstored, hdocs⟩ := putOver_agrees hkeeps fs "synthetic_actions" runId
        (ho.accepted _ hwritten) s
      refine ⟨?_, hdocs⟩
      show Except.map (fun _ => resultHash) (fs.putOver lib _ _ _ s).1 = .ok resultHash
      rw [hstored]
      rfl
  | hasSyntheticAction runId expectedHash =>
    have hkey : limits.addresses (fs.docKey "synthetic_actions" runId) := ho.addressed trivial
    obtain ⟨hanswer, hdocs⟩ := getOver_agrees hkeeps fs hkey s
    refine ⟨?_, hdocs⟩
    show (fs.hasSyntheticActionOver lib runId expectedHash s).1 =
      fs.hasSyntheticAction runId expectedHash (docs s)
    rw [hasSyntheticAction_eq]
    exact congrArg (· >>= confirms expectedHash) hanswer

/-- A run whose operations are all taken is the run over the document map. -/
theorem run_handleOver {α : Type} (hkeeps : lib.Keeps docs limits) (fs : FirestoreStore)
    {p : StoreM α} {s : σ} (hops : ∀ o ∈ p.ops fs.handle (docs s), fs.Accepted limits o) :
    (p.run (fs.handleOver lib) s).1 = (p.run fs.handle (docs s)).1 ∧
      docs (p.run (fs.handleOver lib) s).2 = (p.run fs.handle (docs s)).2 := by
  refine Prog.run_agrees (R := fun s c => docs s = c) ?_ hops rfl
  rintro o s c ho rfl
  exact handleOver_agrees hkeeps fs ho s

/-- A schedule whose calls are all taken is the schedule over the document map. -/
theorem runSchedule_handleOver {ι : Type} [DecidableEq ι] {α : ι → Type}
    (hkeeps : lib.Keeps docs limits) (fs : FirestoreStore) {sched : List ι}
    {threads : (i : ι) → StoreM (α i)} {s : σ}
    (hcalls : ∀ e ∈ Pool.events (fs.handleOver lib) sched ⟨s, threads⟩, fs.Accepted limits e.2) :
    (Pool.runSchedule (fs.handleOver lib) sched ⟨s, threads⟩).threads =
        (Pool.runSchedule fs.handle sched ⟨docs s, threads⟩).threads ∧
      docs (Pool.runSchedule (fs.handleOver lib) sched ⟨s, threads⟩).state =
        (Pool.runSchedule fs.handle sched ⟨docs s, threads⟩).state ∧
      Pool.events (fs.handleOver lib) sched ⟨s, threads⟩ =
        Pool.events fs.handle sched ⟨docs s, threads⟩ := by
  refine Pool.runSchedule_agrees (R := fun s c => docs s = c) ?_ hcalls rfl
  rintro o s c ho rfl
  exact handleOver_agrees hkeeps fs ho s

end FirestoreStore

end PoiexGoc
