/-
  READING ONE'S OWN WRITES.

  Several clients share one document store and overwrite each other's documents.  What a client
  computes is still what it computes alone, as long as it never READS what another client has
  written, or could not tell that from what it has written itself:
  1. `lastWriter` — which client wrote a document last, by the events so far;
  2. `Untouched` — the documents nobody but one client has written since it wrote them itself;
  3. `Shaped` — documents that every client writes in the same shape, so that one it has `Wrote`
     keeps the shape whoever overwrites it;
  4. `inStep_of_shaped` — a client that reads untouched documents, or documents it has written whose
     shape is all it can tell, is in step with its solo run from the initial store.

  Nothing is said about the documents it does not read, or about writes after its last read.
-/
import PoiexGoc.Lib.Interleave
import PoiexGoc.Proofs.DocumentFrames

namespace PoiexGoc

open Py Effect

namespace FirestoreStore

variable [PyRuntime]

/-- Only reads look at what is stored: the answer of a write is the same in every store. -/
theorem handle_answer_of_write (fs : FirestoreStore) {o : StoreOp} (ho : ¬ o.IsRead)
    (c c' : FirestoreClient) : (fs.handle o c).1 = (fs.handle o c').1 := by
  cases o with
  | getAgent | getLease | getAuthorityProvenance | getEvidence | getTarget | getReceipt
  | hasSyntheticAction => exact absurd trivial ho
  | executeSyntheticAction runId payload =>
    simp only [handle, executeSyntheticAction]
    cases canonicalHash (syntheticResult runId payload) with
    | error e => rfl
    | ok resultHash => rfl
  | _ => rfl

/-- A document the operation does not write is as before. -/
theorem lookup_handle_of_unwritten (fs : FirestoreStore) {o : StoreOp} {key : String × String}
    (hkey : ¬ ((written o).isSome ∧ fs.opKey o = key)) (c : FirestoreClient) :
    (fs.handle o c).2.docs.lookup key = c.docs.lookup key := by
  rw [handle_state]
  cases hpayload : written o with
  | none => rfl
  | some payload =>
    have hne : key ≠ fs.opKey o := by
      rintro rfl
      exact hkey ⟨by rw [hpayload]; rfl, rfl⟩
    exact lookup_write_of_ne hne _

variable {ι : Type} {fs : FirestoreStore}

/-- The client that wrote the document last. -/
def lastWriter (fs : FirestoreStore) (key : String × String) (past : List (ι × StoreOp)) :
    Option ι :=
  past.foldl (fun last e => if (written e.2).isSome ∧ fs.opKey e.2 = key then some e.1 else last)
    none

theorem lastWriter_snoc (fs : FirestoreStore) (key : String × String) (past : List (ι × StoreOp))
    (e : ι × StoreOp) :
    lastWriter fs key (past ++ [e]) =
      if (written e.2).isSome ∧ fs.opKey e.2 = key then some e.1 else lastWriter fs key past := by
  rw [lastWriter, List.foldl_append]
  rfl

/-- The last writer has written.  Induction on the events, from the last one. -/
theorem exists_of_lastWriter {key : String × String} {past : List (ι × StoreOp)} {j : ι}
    (hlast : lastWriter fs key past = some j) :
    ∃ o, (j, o) ∈ past ∧ (written o).isSome ∧ fs.opKey o = key := by
  induction past using List.reverseRecOn with
  | nil => cases hlast
  | append_singleton past e ih =>
    rw [lastWriter_snoc] at hlast
    by_cases hwrites : (written e.2).isSome ∧ fs.opKey e.2 = key
    · rw [if_pos hwrites] at hlast
      obtain rfl := Option.some.inj hlast
      exact ⟨e.2, List.mem_append_right _ (List.mem_singleton.mpr rfl), hwrites⟩
    · rw [if_neg hwrites] at hlast
      obtain ⟨o, ho, hwritten⟩ := ih hlast
      exact ⟨o, List.mem_append_left _ ho, hwritten⟩

/-- No other client has written the document since client `i` wrote it, or since the start. -/
def Untouched (fs : FirestoreStore) (i : ι) (past : List (ι × StoreOp)) (key : String × String) :
    Prop :=
  ∀ j ∈ lastWriter fs key past, j = i

/-- An operation of the client itself keeps it in agreement with the solo run: a write makes its
    document untouched again, and nothing else changes. -/
theorem agree_of_own {i : ι} {past : List (ι × StoreOp)} (o : StoreOp) {c c' : FirestoreClient}
    (hagree : AgreeOn (Untouched fs i past) c c') :
    AgreeOn (Untouched fs i (past ++ [(i, o)])) (fs.handle o c).2 (fs.handle o c').2 := by
  intro key huntouched
  by_cases hwrites : (written o).isSome ∧ fs.opKey o = key
  · obtain ⟨payload, hpayload⟩ := Option.isSome_iff_exists.mp hwrites.1
    rw [handle_state, handle_state, hpayload, ← hwrites.2, lookup_write_self, lookup_write_self]
  · have hbefore : Untouched fs i past key := by
      intro j hj
      refine huntouched j ?_
      rw [lastWriter_snoc, if_neg hwrites]
      exact hj
    rw [fs.lookup_handle_of_unwritten hwrites, fs.lookup_handle_of_unwritten hwrites]
    exact hagree key hbefore

/-- An operation of another client moves the store only where it makes a document touched. -/
theorem agree_of_other {i : ι} {past : List (ι × StoreOp)} {e : ι × StoreOp} (he : e.1 ≠ i)
    {c c' : FirestoreClient} (hagree : AgreeOn (Untouched fs i past) c c') :
    AgreeOn (Untouched fs i (past ++ [e])) (fs.handle e.2 c).2 c' := by
  intro key huntouched
  have hwrites : ¬ ((written e.2).isSome ∧ fs.opKey e.2 = key) := by
    intro hwrites
    refine he (huntouched e.1 ?_)
    rw [lastWriter_snoc, if_pos hwrites]
    exact rfl
  have hbefore : Untouched fs i past key := by
    intro j hj
    refine huntouched j ?_
    rw [lastWriter_snoc, if_neg hwrites]
    exact hj
  rw [fs.lookup_handle_of_unwritten hwrites]
  exact hagree key hbefore

/-! ## Documents that all clients write in one shape -/

/-- The client has written the document. -/
def Wrote (fs : FirestoreStore) (i : ι) (past : List (ι × StoreOp)) (key : String × String) :
    Prop :=
  ∃ o, (i, o) ∈ past ∧ (written o).isSome ∧ fs.opKey o = key

/-- The document is there, in its shape. -/
def Shaped (shape : String × String → PyDict → Prop) (key : String × String)
    (c : FirestoreClient) : Prop :=
  ∃ payload, c.docs.lookup key = some (.dict payload) ∧ shape key payload

variable {shape : String × String → PyDict → Prop}

/-- What the operation writes, it writes in the shape of its document. -/
def KeepsShape (fs : FirestoreStore) (shape : String × String → PyDict → Prop) (o : StoreOp) :
    Prop :=
  ∀ payload ∈ written o, shape (fs.opKey o) payload

theorem shaped_of_write {o : StoreOp} (ho : KeepsShape fs shape o) (hwrites : (written o).isSome)
    (c : FirestoreClient) : Shaped shape (fs.opKey o) (fs.handle o c).2 := by
  obtain ⟨payload, hpayload⟩ := Option.isSome_iff_exists.mp hwrites
  refine ⟨payload, ?_, ho payload hpayload⟩
  rw [handle_state, hpayload, lookup_write_self]

theorem Shaped.keep {key : String × String} {c : FirestoreClient} (hc : Shaped shape key c)
    {o : StoreOp} (ho : KeepsShape fs shape o) : Shaped shape key (fs.handle o c).2 := by
  by_cases hwrites : (written o).isSome ∧ fs.opKey o = key
  · rw [← hwrites.2]
    exact shaped_of_write ho hwrites.1 c
  · obtain ⟨payload, hdoc, hshape⟩ := hc
    exact ⟨payload, (fs.lookup_handle_of_unwritten hwrites c).trans hdoc, hshape⟩

/-- The store and that of the solo run agree on the untouched documents, and the documents the
    client has written have their shape in both. -/
structure AgreeUpTo (fs : FirestoreStore) (shape : String × String → PyDict → Prop) (i : ι)
    (past : List (ι × StoreOp)) (c c' : FirestoreClient) : Prop where
  untouched : AgreeOn (Untouched fs i past) c c'
  shaped : ∀ key, Wrote fs i past key → Shaped shape key c ∧ Shaped shape key c'

theorem AgreeUpTo.own {i : ι} {past : List (ι × StoreOp)} {o : StoreOp} {c c' : FirestoreClient}
    (hagree : AgreeUpTo fs shape i past c c') (ho : KeepsShape fs shape o) :
    AgreeUpTo fs shape i (past ++ [(i, o)]) (fs.handle o c).2 (fs.handle o c').2 := by
  refine ⟨agree_of_own o hagree.untouched, fun key hwrote => ?_⟩
  obtain ⟨o', hmem, hwrites, hkey⟩ := hwrote
  rcases List.mem_append.mp hmem with hpast | hlast
  · obtain ⟨hc, hc'⟩ := hagree.shaped key ⟨o', hpast, hwrites, hkey⟩
    exact ⟨hc.keep ho, hc'.keep ho⟩
  · obtain rfl : o' = o := congrArg Prod.snd (List.mem_singleton.mp hlast)
    rw [← hkey]
    exact ⟨shaped_of_write ho hwrites c, shaped_of_write ho hwrites c'⟩

theorem AgreeUpTo.other {i : ι} {past : List (ι × StoreOp)} {e : ι × StoreOp}
    {c c' : FirestoreClient} (hagree : AgreeUpTo fs shape i past c c') (he : e.1 ≠ i) (ho : KeepsShape fs shape e.2) :
    AgreeUpTo fs shape i (past ++ [e]) (fs.handle e.2 c).2 c' := by
  refine ⟨agree_of_other he hagree.untouched, fun key hwrote => ?_⟩
  obtain ⟨o', hmem, hwrites, hkey⟩ := hwrote
  rcases List.mem_append.mp hmem with hpast | hlast
  · obtain ⟨hc, hc'⟩ := hagree.shaped key ⟨o', hpast, hwrites, hkey⟩
    exact ⟨hc.keep ho, hc'⟩
  · exact absurd (congrArg Prod.fst (List.mem_singleton.mp hlast)).symm he

variable [DecidableEq ι] {α : ι → Type}

/-- A client that reads untouched documents, or documents it has written and of which it can tell
    the shape only, is in step with its solo run. -/
theorem inStep_of_shaped
    {A : (o : StoreOp) → Except PyError o.Result → Except PyError o.Result → Prop}
    (hrefl : ∀ o r, A o r r) {i : ι} {sched : List ι}
    {pool : Pool RuntimeStore PyError FirestoreClient ι α}
    (halike : (pool.threads i).Indifferent A)
    (writes : ∀ e ∈ Pool.events fs.handle sched pool, KeepsShape fs shape e.2)
    (reads : ∀ past o rest, Pool.events fs.handle sched pool = past ++ (i, o) :: rest → o.IsRead →
      Untouched fs i past (fs.opKey o) ∨ (Wrote fs i past (fs.opKey o) ∧
        ∀ c c', Shaped shape (fs.opKey o) c → Shaped shape (fs.opKey o) c' →
          A o (fs.handle o c).1 (fs.handle o c').1)) :
    Pool.InStep fs.handle (AgreeUpTo fs shape i (Pool.events fs.handle sched pool)) i
      ((pool.threads i).run fs.handle pool.state)
      ((pool.threads i).turns fs.handle pool.state - sched.count i)
      (Pool.runSchedule fs.handle sched pool) := by
  have hmem : ∀ past e rest, Pool.events fs.handle sched pool = past ++ e :: rest →
      e ∈ Pool.events fs.handle sched pool := by
    intro past e rest heq
    rw [heq]
    exact List.mem_append_right _ List.mem_cons_self
  have hnothing : AgreeUpTo fs shape i [] pool.state pool.state :=
    ⟨AgreeOn.refl _ _, fun key ⟨o, ho, _⟩ => absurd ho List.not_mem_nil⟩
  refine Pool.thread_agrees_alike
    (R := fun past : List (ι × RuntimeStore.Op) => AgreeUpTo fs shape i past) halike ?_ ?_
    (Pool.InStep.start hnothing)
  · intro past o rest heq c c' hagree
    refine ⟨?_, hagree.own (writes _ (hmem past _ rest heq))⟩
    have hsame : (fs.handle o c).1 = (fs.handle o c').1 →
        A o (fs.handle o c).1 (fs.handle o c').1 := fun hans => hans ▸ hrefl o _
    by_cases ho : o.IsRead
    · rcases reads past o rest heq ho with huntouched | ⟨hwrote, htells⟩
      · exact hsame (fs.handle_answer (hagree.untouched _ huntouched))
      · obtain ⟨hc, hc'⟩ := hagree.shaped _ hwrote
        exact htells c c' hc hc'
    · exact hsame (fs.handle_answer_of_write ho c c')
  · intro past e rest heq he c c' hagree
    exact hagree.other he (writes e (hmem past e rest heq))

end FirestoreStore

end PoiexGoc
