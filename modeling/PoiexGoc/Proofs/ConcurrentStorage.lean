/-
  STORAGE CHOICE under concurrency.

  1. Every interleaving of clients on a backend is the same interleaving on the view of it: the same
     calls in the same order, the same programs left, and the view the calls leave
     (`runSchedule_view`).

  2. The empty `MemoryStore` and the empty documents have the same view, so no client can tell them
     apart, whatever the others do in between and whatever library holds the documents
     (`storage_choice_never_changes_concurrent_replies`).

  Records are values here (`Runtime.Store`).  In Python the local store hands out the very record it
  keeps, so this is about clients that leave a record as it is once they have put it or got it.  A
  promotion and a demo request do not: on a local store another client may see their change to the
  agent or the lease before it is put.
-/
import PoiexGoc.Proofs.ClientCalls
import PoiexGoc.Proofs.LibraryRuns

namespace PoiexGoc

open Py Effect

section Clients

variable [PyRuntime] {ι : Type} [DecidableEq ι] {α : ι → Type}

/-- A schedule on a backend is the same schedule on its view. -/
theorem runSchedule_view {σ : Type} {h : Handler RuntimeStore PyError σ} {view : σ → StoreView}
    (href : Refines h view) {clients : (i : ι) → StoreM (α i)}
    (hclients : ∀ i, (clients i).Issues StoreOp.Storable) (sched : List ι) (s : σ) :
    (Pool.runSchedule h sched ⟨s, clients⟩).threads =
        (Pool.runSchedule StoreView.handle sched ⟨view s, clients⟩).threads ∧
      view (Pool.runSchedule h sched ⟨s, clients⟩).state =
        (Pool.runSchedule StoreView.handle sched ⟨view s, clients⟩).state ∧
      Pool.events h sched ⟨s, clients⟩ =
        Pool.events StoreView.handle sched ⟨view s, clients⟩ := by
  have hstep : ∀ (o : StoreOp) (s : σ) (v : StoreView), o.Storable → view s = v →
      (h o s).1 = (StoreView.handle o v).1 ∧ view (h o s).2 = (StoreView.handle o v).2 := by
    rintro o s v ho rfl
    exact href o s ho
  exact Pool.runSchedule_simulation (R := fun s v => view s = v) hstep hclients rfl

/-- Storage choice never changes what concurrent clients see.  Any programs over the storage
    contract that put only self-consistent targets, interleaved in any way, make the same calls in
    the same order on an empty local store and on an empty document store whose library takes these
    calls, and each of them is left with the same outcome, or with the same rest of its program. -/
theorem storage_choice_never_changes_concurrent_replies {σ : Type} {lib : Library σ}
    {docs : σ → FirestoreClient} {limits : Library.Limits} (hlib : lib.Keeps docs limits)
    (fs : FirestoreStore) (clients : (i : ι) → StoreM (α i))
    (hclients : ∀ i, (clients i).Issues StoreOp.Storable) (sched : List ι) {s : σ}
    (hempty : docs s = {})
    (htaken : ∀ e ∈ Pool.events (fs.handleOver lib) sched ⟨s, clients⟩, fs.Accepted limits e.2) :
    Pool.events MemoryStore.handle sched ⟨{}, clients⟩ =
        Pool.events (fs.handleOver lib) sched ⟨s, clients⟩ ∧
      (Pool.runSchedule MemoryStore.handle sched ⟨{}, clients⟩).threads =
        (Pool.runSchedule (fs.handleOver lib) sched ⟨s, clients⟩).threads ∧
      (Pool.runSchedule MemoryStore.handle sched ⟨{}, clients⟩).state.view =
        fs.view (docs (Pool.runSchedule (fs.handleOver lib) sched ⟨s, clients⟩).state) := by
  obtain ⟨hthreads, hview, hevents⟩ := runSchedule_view memoryStore_refines hclients sched {}
  obtain ⟨hthreads', hview', hevents'⟩ :=
    runSchedule_view (firestoreStore_refines fs) hclients sched {}
  obtain ⟨hlibThreads, hlibDocs, hlibEvents⟩ :=
    FirestoreStore.runSchedule_handleOver hlib fs htaken
  rw [memoryStore_empty_view] at hthreads hview hevents
  rw [firestoreStore_empty_view] at hthreads' hview' hevents'
  rw [hempty] at hlibThreads hlibDocs hlibEvents
  refine ⟨?_, ?_, ?_⟩
  · exact (hevents.trans hevents'.symm).trans hlibEvents.symm
  · exact (hthreads.trans hthreads'.symm).trans hlibThreads.symm
  · rw [hlibDocs]
    exact hview.trans hview'.symm

end Clients

/-- A caller that registers an agent and its lease and asks for an action, beside one that reads the
    agent and the receipt. -/
theorem storage_choice_beside_a_reader :
    let fs : FirestoreStore := ⟨"poiex_goc_v0_1", by decide⟩
    let now : DateTime := ⟨1787838300000000, 0⟩
    let intent : ActionIntent :=
      { intentId := "intent-s1", agentId := "agent-maint-01", actionType := CloudDemo.action
        targetId := "pump-A", targetHash := "", parameters := [("work_order", .str "WO-1")]
        requestedAt := now, intentHash := "" }
    let acting : List Command :=
      [.operation (.putAgent CloudDemo.agent), .operation (.putLease (CloudDemo.lease now)),
       .execute CloudDemo.controlPlane ⟨now, now, "0a", "0b", "0c"⟩ (CloudDemo.identity "s1")
        "lease-001" intent]
    let reading : List Command := [.operation (.getAgent "agent-maint-01"), .replay "rcpt-0b"]
    let clients : Bool → Client := fun c => .session 2 (if c then acting else reading)
    let sched := [false, true, true, false, true, true, true, true, true, false]
    Pool.events MemoryStore.handle sched ⟨{}, fun c => (clients c).program⟩ =
        Pool.events (fs.handleOver FirestoreClient.library) sched
          ⟨{}, fun c => (clients c).program⟩ ∧
      (Pool.runSchedule MemoryStore.handle sched ⟨{}, fun c => (clients c).program⟩).threads =
        (Pool.runSchedule (fs.handleOver FirestoreClient.library) sched
          ⟨{}, fun c => (clients c).program⟩).threads := by
  intro fs now intent acting reading clients sched
  have hdirect : ∀ c, (clients c).Direct := by
    rintro (_ | _) cmd hcmd
    · simp only [reading, Bool.false_eq_true, if_false, List.mem_cons, List.not_mem_nil,
        or_false] at hcmd
      rcases hcmd with rfl | rfl
      · exact Or.inr trivial
      · trivial
    · simp only [acting, if_true, List.mem_cons, List.not_mem_nil, or_false] at hcmd
      rcases hcmd with rfl | rfl | rfl
      · exact Or.inl ⟨trivial, trivial⟩
      · exact Or.inl ⟨trivial, trivial⟩
      · trivial
  have hsame := storage_choice_never_changes_concurrent_replies FirestoreClient.library_keeps fs _
    (fun c => Client.program_storable (hdirect c)) sched rfl fun e _ => fs.accepted_unlimited e.2
  exact ⟨hsame.1, hsame.2.1⟩

end PoiexGoc
