/-
  SERIALIZABILITY of one write among threads that read what it writes once.

  1. `Cells` — a store is a family of cells, and an operation is about one of them: it sees that cell
     and changes that cell only.

  2. `Once` — a program reaches an operation of a kind at most once on every path, with the rules
     for sequences.

  3. The threads keep apart (`OneWriter`): each stays in its footprint, what a thread changes is in
     no other thread's footprint, and the cell of the one foreign write is read at most once by each
     thread and changed by none.  When the write happens, a thread has read that cell or it has not
     (`once_or_unread`).  In the first case it ends as it does alone from the initial state, in the
     second as it does alone from the state after the write (`asFrom_of_split`).

  4. So every complete schedule is equivalent to a SERIAL one, in which each thread runs without
     interruption: the threads of the first kind, the write, the threads of the second kind
     (`one_write_is_serializable`).
-/
import Mathlib.Data.Fintype.Defs
import Mathlib.Data.Finset.Dedup
import PoiexGoc.Lib.Interleave

namespace Effect

variable {S : Signature} {ε σ κ ν α β ι : Type}

/-! ## Cells -/

/-- Operations see and change one cell each. -/
structure Cells (h : Handler S ε σ) (cell : S.Op → κ) (content : σ → κ → ν) : Prop where
  answer : ∀ o s t, content s (cell o) = content t (cell o) → (h o s).1 = (h o t).1
  own : ∀ o s t, content s (cell o) = content t (cell o) →
    content (h o s).2 (cell o) = content (h o t).2 (cell o)
  other : ∀ o s k, k ≠ cell o → content (h o s).2 k = content s k

/-- The operation changes no cell. -/
def Silent (h : Handler S ε σ) (content : σ → κ → ν) (o : S.Op) : Prop :=
  ∀ s, content (h o s).2 = content s

/-- The two states have the same content in the cells of `K`. -/
def Agree (content : σ → κ → ν) (K : κ → Prop) (s t : σ) : Prop :=
  ∀ k, K k → content s k = content t k

section Cells

variable {h : Handler S ε σ} {cell : S.Op → κ} {content : σ → κ → ν} {K : κ → Prop} {s t : σ}

theorem Agree.mono {K' : κ → Prop} (hK : ∀ k, K' k → K k) (hst : Agree content K s t) :
    Agree content K' s t :=
  fun k hk => hst k (hK k hk)

/-- An operation inside the agreement answers alike and keeps it. -/
theorem Cells.agree_own (hcells : Cells h cell content) {o : S.Op} (ho : K (cell o))
    (hst : Agree content K s t) :
    (h o s).1 = (h o t).1 ∧ Agree content K (h o s).2 (h o t).2 := by
  refine ⟨hcells.answer o s t (hst _ ho), fun k hk => ?_⟩
  by_cases hkey : k = cell o
  · subst hkey
    exact hcells.own o s t (hst _ ho)
  · rw [hcells.other o s k hkey, hcells.other o t k hkey]
    exact hst k hk

/-- An operation that changes nothing, or a cell outside, keeps the agreement. -/
theorem Cells.agree_other (hcells : Cells h cell content) {o : S.Op}
    (ho : Silent h content o ∨ ¬ K (cell o)) (hst : Agree content K s t) :
    Agree content K (h o s).2 t := by
  intro k hk
  rcases ho with hsilent | hout
  · rw [hsilent s]
    exact hst k hk
  · have hkey : k ≠ cell o := by
      rintro rfl
      exact hout hk
    rw [hcells.other o s k hkey]
    exact hst k hk

/-- A cell keeps its content under an operation that changes nothing, or another cell. -/
theorem Cells.content_keep (hcells : Cells h cell content) {o : S.Op} {k : κ}
    (ho : Silent h content o ∨ k ≠ cell o) (s : σ) : content (h o s).2 k = content s k := by
  rcases ho with hsilent | hkey
  · rw [hsilent s]
  · exact hcells.other o s k hkey

end Cells

/-! ## Programs that make a kind of call once -/

namespace Prog

/-- On every path at most one call satisfies `Q`. -/
def Once (Q : S.Op → Prop) : Prog S ε α → Prop
  | done _ => True
  | call o k => ∀ r, (k r).Once Q ∧ (Q o → (k r).Issues fun o' => ¬ Q o')

variable {Q : S.Op → Prop}

theorem once_of_never {p : Prog S ε α} (hp : p.Issues fun o => ¬ Q o) : p.Once Q := by
  induction p with
  | done r => trivial
  | call o k ih => exact fun r => ⟨ih r (hp.2 r), fun ho => absurd ho hp.1⟩

theorem once_perform (o : S.Op) : (perform o : Prog S ε (S.Res o)).Once Q :=
  fun _ => ⟨trivial, fun _ => trivial⟩

/-- A sequence whose second part makes no such call. -/
theorem once_bind_left {p : Prog S ε α} {f : α → Prog S ε β} (hp : p.Once Q)
    (hf : ∀ a, (f a).Issues fun o => ¬ Q o) : (p >>= f).Once Q := by
  induction p with
  | done r =>
    cases r with
    | ok a => exact once_of_never (hf a)
    | error e => trivial
  | call o k ih => exact fun r => ⟨ih r (hp r).1, fun ho => issues_bind ((hp r).2 ho) hf⟩

/-- A sequence whose first part makes no such call. -/
theorem once_bind_right {p : Prog S ε α} {f : α → Prog S ε β} (hp : p.Issues fun o => ¬ Q o)
    (hf : ∀ a, (f a).Once Q) : (p >>= f).Once Q := by
  induction p with
  | done r =>
    cases r with
    | ok a => exact hf a
    | error e => trivial
  | call o k ih => exact fun r => ⟨ih r (hp.2 r), fun ho => absurd ho hp.1⟩

/-- A sequence whose parts call operations of disjoint kinds. -/
theorem once_bind_disjoint {P P' : S.Op → Prop} {p : Prog S ε α} {f : α → Prog S ε β}
    (hdisjoint : (∀ o, P o → ¬ Q o) ∨ ∀ o, P' o → ¬ Q o) (hp : p.Issues P) (hponce : p.Once Q)
    (hf : ∀ a, (f a).Issues P') (hfonce : ∀ a, (f a).Once Q) : (p >>= f).Once Q := by
  rcases hdisjoint with hfirst | hsecond
  · exact once_bind_right (hp.mono hfirst) hfonce
  · exact once_bind_left hponce fun a => (hf a).mono hsecond

end Prog

namespace Pool

variable {α : ι → Type} [DecidableEq ι] {h : Handler S ε σ}

/-- A bound on a program's calls bounds what is left of it. -/
theorem issues_runSchedule {P : S.Op → Prop} {i : ι} {pool : Pool S ε σ ι α} (sched : List ι)
    (hi : (pool.threads i).Issues P) : ((runSchedule h sched pool).threads i).Issues P := by
  induction sched generalizing pool with
  | nil => exact hi
  | cons j sched ih =>
    refine ih ?_
    by_cases hij : i = j
    · subst hij
      cases hc : pool.threads i with
      | done r => rw [step_of_done hc, hc]; trivial
      | call o k =>
        rw [hc] at hi
        rw [step_threads_self hc]
        exact hi.2 _
    · rw [step_threads_ne h pool hij]
      exact hi

/-- After a schedule the one call of a thread has been made, or is still to come.  Induction on the
    schedule; once the call is made, the rest of the program has none. -/
theorem once_or_unread {Q : S.Op → Prop} {i : ι} {sched : List ι} {pool : Pool S ε σ ι α}
    (hi : (pool.threads i).Once Q) :
    ((runSchedule h sched pool).threads i).Issues (fun o => ¬ Q o) ∨
      ∀ o, (i, o) ∈ events h sched pool → ¬ Q o := by
  induction sched generalizing pool with
  | nil => exact Or.inr fun _ ho => nomatch ho
  | cons j sched ih =>
    by_cases hij : i = j
    · subst hij
      cases hc : pool.threads i with
      | done r =>
        refine Or.inl ?_
        rw [threads_eq_of_done (i :: sched) hc]
        trivial
      | call o k =>
        rw [hc] at hi
        have hnext := hi (h o pool.state).1
        rw [← step_threads_self hc] at hnext
        by_cases hQ : Q o
        · exact Or.inl (issues_runSchedule sched (hnext.2 hQ))
        · rcases ih hnext.1 with hnever | hunread
          · exact Or.inl hnever
          · refine Or.inr fun o' ho' => ?_
            rcases mem_events_cons.mp ho' with ⟨hhead, -⟩ | hrest
            · rw [next_of_call hc] at hhead
              have ho : o = o' := Option.some.inj hhead
              exact ho ▸ hQ
            · exact hunread o' hrest
    · rw [← step_threads_ne h pool hij] at hi
      rcases ih hi with hnever | hunread
      · exact Or.inl hnever
      · refine Or.inr fun o' ho' => ?_
        rcases mem_events_cons.mp ho' with ⟨-, hhead⟩ | hrest
        · exact absurd hhead hij
        · exact hunread o' hrest

/-! ## One writer -/

/-- Threads over cells.  Thread `w` makes one call `u` and is done; every other thread stays in its
    footprint, changes nothing in the footprint of another one, and neither changes the cell of `u`
    nor calls an operation about it twice. -/
structure OneWriter (h : Handler S ε σ) (cell : S.Op → κ) (content : σ → κ → ν) (w : ι) (u : S.Op)
    (foot : ι → κ → Prop) (threads : (i : ι) → Prog S ε (α i)) : Prop where
  writer : ∃ k, threads w = .call u k ∧ ∀ r, ∃ r', k r = .done r'
  own : ∀ i, i ≠ w → (threads i).Issues fun o => foot i (cell o)
  apart : ∀ i j, i ≠ w → j ≠ w → i ≠ j →
    (threads j).Issues fun o => Silent h content o ∨ ¬ foot i (cell o)
  once : ∀ i, i ≠ w → (threads i).Once fun o => cell o = cell u
  reads : ∀ i, i ≠ w → (threads i).Issues fun o => Silent h content o ∨ cell o ≠ cell u

section OneWriter

variable {cell : S.Op → κ} {content : σ → κ → ν} {w : ι} {u : S.Op} {foot : ι → κ → Prop}
  {pool : Pool S ε σ ι α}

/-- The footprint of a thread without the cell of the write. -/
def Private (foot : ι → κ → Prop) (cell : S.Op → κ) (u : S.Op) (i : ι) (k : κ) : Prop :=
  foot i k ∧ k ≠ cell u

/-- Nobody but the writer makes calls where it has no turn, or has made its own. -/
theorem not_writer_of_notMem (h : Handler S ε σ) (pool : Pool S ε σ ι α) {sched : List ι}
    (hsched : w ∉ sched) {e : ι × S.Op} (he : e ∈ events h sched pool) : e.1 ≠ w := by
  rintro rfl
  exact hsched (mem_of_mem_events he)

/-- The schedule up to the turn of the writer, and after it. -/
structure Split (h : Handler S ε σ) (w : ι) (pool : Pool S ε σ ι α) (pre post : List ι) : Prop where
  before : w ∉ pre
  after : ∀ e ∈ events h post ((runSchedule h pre pool).step h w), e.1 ≠ w

theorem OneWriter.threads_writer (hw : OneWriter h cell content w u foot pool.threads)
    {pre : List ι} (hpre : w ∉ pre) :
    ∃ k, (runSchedule h pre pool).threads w = .call u k ∧ ∀ r, ∃ r', k r = .done r' := by
  have hstay := threads_eq_of_silent (i := w) fun e he => not_writer_of_notMem h pool hpre he
  rw [hstay]
  exact hw.writer

/-- The writer is done with its turn. -/
theorem OneWriter.split (hw : OneWriter h cell content w u foot pool.threads) {pre : List ι}
    (hpre : w ∉ pre) (post : List ι) : Split h w pool pre post := by
  refine ⟨hpre, ?_⟩
  obtain ⟨k, hcall, hk⟩ := hw.threads_writer hpre
  obtain ⟨r, hr⟩ := hk (h u (runSchedule h pre pool).state).1
  rintro ⟨j, o⟩ he (rfl : j = w)
  exact not_mem_events_of_done ((step_threads_self hcall).trans hr) o he

/-- The cell of the write is left alone by everybody else. -/
theorem content_eq_of_reads (hcells : Cells h cell content) {sched : List ι}
    (hreads : ∀ i, i ≠ w → (pool.threads i).Issues fun o => Silent h content o ∨ cell o ≠ cell u)
    (hsched : ∀ e ∈ events h sched pool, e.1 ≠ w) :
    content (runSchedule h sched pool).state (cell u) = content pool.state (cell u) := by
  refine schedule_invariant (I := fun s => content s (cell u) = content pool.state (cell u)) rfl ?_
  rintro ⟨j, o⟩ he s hs
  have ho := issues_of_mem_events (hreads j (hsched _ he)) he
  exact (hcells.content_keep (ho.imp_right Ne.symm) s).trans hs

omit [DecidableEq ι] in
theorem InStep.mono {R R' : σ → σ → Prop} (hR : ∀ {s t}, R s t → R' s t) {i : ι}
    {solo : Except ε (α i) × σ} {n : Nat} (hstep : InStep h R i solo n pool) :
    InStep h R' i solo n pool := by
  obtain ⟨t, hst, hrest⟩ := hstep
  exact ⟨t, hR hst, hrest⟩

/-- A thread stays in step under calls of its own inside `K`, and of others outside. -/
theorem agree_runSchedule (hcells : Cells h cell content) {K : κ → Prop} {i : ι} {sched : List ι}
    {solo : Except ε (α i) × σ} {n : Nat}
    (hown : ∀ o, (i, o) ∈ events h sched pool → K (cell o))
    (hother : ∀ e ∈ events h sched pool, e.1 ≠ i → Silent h content e.2 ∨ ¬ K (cell e.2))
    (hpool : InStep h (Agree content K) i solo n pool) :
    InStep h (Agree content K) i solo (n - sched.count i) (runSchedule h sched pool) :=
  thread_agrees (fun o _ _ ho hst => hcells.agree_own (hown o ho) hst)
    (fun e he hne _ _ hst => hcells.agree_other (hother e he hne) hst) hpool

/-- The calls of the other threads, apart from the writer. -/
theorem OneWriter.other_events (hw : OneWriter h cell content w u foot pool.threads) {i : ι}
    (hi : i ≠ w) (before sched : List ι)
    (hsched : ∀ e ∈ events h sched (runSchedule h before pool), e.1 ≠ w) :
    ∀ e ∈ events h sched (runSchedule h before pool), e.1 ≠ i →
      Silent h content e.2 ∨ ¬ foot i (cell e.2) := by
  rintro ⟨j, o⟩ he hji
  exact issues_of_mem_events
    (issues_runSchedule before (hw.apart i j hi (hsched _ he) (Ne.symm hji))) he

theorem OneWriter.own_events (hw : OneWriter h cell content w u foot pool.threads) {i : ι}
    (hi : i ≠ w) (before sched : List ι) {o : S.Op}
    (ho : (i, o) ∈ events h sched (runSchedule h before pool)) : foot i (cell o) :=
  issues_of_mem_events (issues_runSchedule before (hw.own i hi)) ho

theorem count_split {i : ι} (hi : i ≠ w) (pre post : List ι) (n : Nat) :
    n - pre.count i - post.count i = n - (pre ++ w :: post).count i := by
  rw [List.count_append, List.count_cons_of_ne (Ne.symm hi), Nat.sub_sub]

/-- Before the write a thread is in step with its solo run. -/
theorem OneWriter.agree_unwritten (hcells : Cells h cell content)
    (hw : OneWriter h cell content w u foot pool.threads) {i : ι} (hi : i ≠ w) {pre : List ι}
    (hpre : w ∉ pre) :
    InStep h (Agree content (foot i)) i ((pool.threads i).run h pool.state)
      ((pool.threads i).turns h pool.state - pre.count i) (runSchedule h pre pool) :=
  agree_runSchedule hcells (fun _ ho => hw.own_events hi [] pre ho)
    (hw.other_events hi [] pre fun _ he => not_writer_of_notMem h pool hpre he)
    (InStep.start fun _ _ => rfl)

/-- A thread that makes no call about the cell of the write after it ends as it does alone from the
    initial state. -/
theorem OneWriter.asFrom_initial (hcells : Cells h cell content)
    (hw : OneWriter h cell content w u foot pool.threads) {i : ι} (hi : i ≠ w) {pre post : List ι}
    (hpre : w ∉ pre)
    (hnever : ((runSchedule h pre pool).threads i).Issues fun o => ¬ cell o = cell u) :
    InStep h (Agree content (Private foot cell u i)) i ((pool.threads i).run h pool.state)
      ((pool.threads i).turns h pool.state - (pre ++ w :: post).count i)
      (runSchedule h (pre ++ w :: post) pool) := by
  have hsplit := hw.split hpre post
  obtain ⟨k, hcall, -⟩ := hw.threads_writer hpre
  -- the write is outside of what the thread still needs
  have hwrite : InStep h (Agree content (Private foot cell u i)) i _ _
      ((runSchedule h pre pool).step h w) :=
    (hw.agree_unwritten hcells hi hpre).step_other hi (next_of_call hcall) fun t hst =>
      hcells.agree_other (Or.inr fun h => h.2 rfl) (hst.mono fun _ hk => hk.1)
  rw [runSchedule_append, ← count_split hi]
  have hnever' := hnever
  rw [← step_threads_ne h (runSchedule h pre pool) hi] at hnever'
  refine agree_runSchedule hcells (fun o ho => ?_) (fun e he hne => ?_) hwrite
  · have hfoot : foot i (cell o) := by
      apply hw.own_events hi (pre ++ [w]) post
      rw [runSchedule_append]
      exact ho
    exact ⟨hfoot, issues_of_mem_events hnever' ho⟩
  · have hrest := hw.other_events hi (pre ++ [w]) post
    rw [runSchedule_append] at hrest
    exact (hrest hsplit.after e he hne).imp_right fun hout hprivate => hout hprivate.1

/-- A thread that makes no call about the cell of the write before it ends as it does alone from the
    state after the write. -/
theorem OneWriter.asFrom_written (hcells : Cells h cell content)
    (hw : OneWriter h cell content w u foot pool.threads) {i : ι} (hi : i ≠ w) {pre post : List ι}
    (hpre : w ∉ pre) (hunread : ∀ o, (i, o) ∈ events h pre pool → ¬ cell o = cell u) :
    InStep h (Agree content (Private foot cell u i)) i
      ((pool.threads i).run h (h u pool.state).2)
      ((pool.threads i).turns h (h u pool.state).2 - (pre ++ w :: post).count i)
      (runSchedule h (pre ++ w :: post) pool) := by
  have hsplit := hw.split hpre post
  obtain ⟨k, hcall, -⟩ := hw.threads_writer hpre
  -- before the write, in step with the solo run outside of the cell, which the solo run leaves alone
  have hbefore : InStep h (fun s t => Agree content (Private foot cell u i) s t ∧
        content t (cell u) = content (h u pool.state).2 (cell u)) i
      ((pool.threads i).run h (h u pool.state).2)
      ((pool.threads i).turns h (h u pool.state).2 - pre.count i) (runSchedule h pre pool) := by
    refine thread_agrees (fun o s t ho hst => ?_) (fun e he hne s t hst => ?_) (InStep.start ?_)
    · have hcell := hunread o ho
      obtain ⟨hans, hagree⟩ := hcells.agree_own ⟨hw.own_events hi [] pre ho, hcell⟩ hst.1
      exact ⟨hans, hagree, (hcells.other o t _ (Ne.symm hcell)).trans hst.2⟩
    · have hout := hw.other_events hi [] pre (fun e he => not_writer_of_notMem h pool hpre he) e he hne
      exact ⟨hcells.agree_other (hout.imp_right fun hout hprivate => hout hprivate.1) hst.1, hst.2⟩
    · exact ⟨fun k hk => (hcells.other u pool.state k hk.2).symm, rfl⟩
  -- the write closes the gap
  have hcell := content_eq_of_reads hcells hw.reads fun e he =>
    not_writer_of_notMem h pool hpre he
  have hclose : ∀ t, Agree content (Private foot cell u i) (runSchedule h pre pool).state t ∧
      content t (cell u) = content (h u pool.state).2 (cell u) →
      Agree content (foot i) (h u (runSchedule h pre pool).state).2 t := by
    intro t hst key hkey
    by_cases heq : key = cell u
    · rw [heq, hst.2]
      exact hcells.own u _ _ hcell
    · rw [hcells.other u _ _ heq]
      exact hst.1 key ⟨hkey, heq⟩
  have hwrite := hbefore.step_other hi (next_of_call hcall) fun t hst => hclose t hst
  rw [runSchedule_append, ← count_split hi]
  refine InStep.mono (fun hst => hst.mono fun _ hk => hk.1)
    (agree_runSchedule hcells (fun o ho => ?_) ?_ hwrite)
  · apply hw.own_events hi (pre ++ [w]) post
    rw [runSchedule_append]
    exact ho
  · have hrest := hw.other_events hi (pre ++ [w]) post
    rw [runSchedule_append] at hrest
    exact hrest hsplit.after

/-! ## Serial schedules -/

/-- Each thread of the list in turn, without interruption. -/
def serial (turns : ι → Nat) (order : List ι) : List ι :=
  order.flatMap fun i => List.replicate (turns i) i

omit [DecidableEq ι] in
theorem serial_append (turns : ι → Nat) (before after : List ι) :
    serial turns (before ++ after) = serial turns before ++ serial turns after :=
  List.flatMap_append

omit [DecidableEq ι] in
theorem mem_of_mem_serial {turns : ι → Nat} {order : List ι} {i : ι} (hi : i ∈ serial turns order) :
    i ∈ order := by
  obtain ⟨j, hj, hij⟩ := List.mem_flatMap.mp hi
  rw [(List.mem_replicate.mp hij).2]
  exact hj

theorem turns_le_count_serial {turns : ι → Nat} {order : List ι} {i : ι} (hi : i ∈ order) :
    turns i ≤ (serial turns order).count i := by
  obtain ⟨before, after, rfl⟩ := List.append_of_mem hi
  have hself : (serial turns (i :: after)).count i = turns i + (serial turns after).count i := by
    show (List.replicate (turns i) i ++ serial turns after).count i = _
    rw [List.count_append, List.count_replicate_self]
  rw [serial_append, List.count_append, hself]
  omega

/-- Every thread other than the writer ends as it does alone from its `start`. -/
def AsFrom (h : Handler S ε σ) (cell : S.Op → κ) (content : σ → κ → ν) (w : ι) (u : S.Op)
    (foot : ι → κ → Prop) (pool : Pool S ε σ ι α) (start : ι → σ) (sched : List ι) : Prop :=
  ∀ i, i ≠ w → InStep h (Agree content (Private foot cell u i)) i ((pool.threads i).run h (start i))
    ((pool.threads i).turns h (start i) - sched.count i) (runSchedule h sched pool)

open Classical in
/-- The state a thread starts from, by whether the write comes before it. -/
noncomputable def startOf (h : Handler S ε σ) (u : S.Op) (pool : Pool S ε σ ι α)
    (late : ι → Prop) (i : ι) : σ :=
  if late i then (h u pool.state).2 else pool.state

/-- Every thread has made its call about the cell of the write before it, or has not. -/
theorem OneWriter.asFrom_of_split (hcells : Cells h cell content)
    (hw : OneWriter h cell content w u foot pool.threads) {pre : List ι} (hpre : w ∉ pre)
    (post : List ι) :
    ∃ late : ι → Prop, AsFrom h cell content w u foot pool (startOf h u pool late)
      (pre ++ w :: post) := by
  refine ⟨fun i => ¬ ((runSchedule h pre pool).threads i).Issues fun o => ¬ cell o = cell u,
    fun i hi => ?_⟩
  by_cases hnever : ((runSchedule h pre pool).threads i).Issues fun o => ¬ cell o = cell u
  · rw [startOf, if_neg (not_not.mpr hnever)]
    exact hw.asFrom_initial hcells hi hpre hnever
  · rw [startOf, if_pos hnever]
    exact hw.asFrom_written hcells hi hpre ((once_or_unread (hw.once i hi)).resolve_left hnever)

/-- The serial schedule of the early threads, the writer and the late threads. -/
theorem OneWriter.asFrom_serial (hcells : Cells h cell content)
    (hw : OneWriter h cell content w u foot pool.threads) {late : ι → Prop} {early rest : List ι}
    (hearly : ∀ i, i ≠ w → (i ∈ early ↔ ¬ late i)) (hwearly : w ∉ early) {turns : ι → Nat}
    (hturns : ∀ i, i ≠ w → turns i = (pool.threads i).turns h (startOf h u pool late i)) :
    AsFrom h cell content w u foot pool (startOf h u pool late)
      (serial turns early ++ w :: serial turns rest) := by
  have hpre : w ∉ serial turns early := fun hmem => hwearly (mem_of_mem_serial hmem)
  intro i hi
  by_cases hlate : late i
  · -- a late thread has no turn before the write
    rw [startOf, if_pos hlate]
    refine hw.asFrom_written hcells hi hpre fun o ho => ?_
    have hmem := (hearly i hi).mp (mem_of_mem_serial (mem_of_mem_events ho))
    exact absurd hlate hmem
  · -- an early thread is finished before the write
    have hstart : startOf h u pool late i = pool.state := if_neg hlate
    rw [hstart]
    refine hw.asFrom_initial hcells hi hpre ?_
    have halone := hw.agree_unwritten hcells hi hpre
    have hcount : (pool.threads i).turns h pool.state ≤ (serial turns early).count i := by
      rw [← hstart, ← hturns i hi]
      exact turns_le_count_serial ((hearly i hi).mpr hlate)
    rw [Nat.sub_eq_zero_of_le hcount] at halone
    rw [outcome_eq_some.mp halone.outcome_of_turns]
    trivial

/-! ## What a complete schedule leaves -/

/-- The writer's own outcome and its cell are the same in every schedule that gives it a turn. -/
theorem OneWriter.writer_done (hcells : Cells h cell content)
    (hw : OneWriter h cell content w u foot pool.threads) {sched : List ι} (hmem : w ∈ sched) :
    ∃ r, (∀ k, pool.threads w = .call u k → k (h u pool.state).1 = .done r) ∧
      (runSchedule h sched pool).threads w = .done r ∧
      content (runSchedule h sched pool).state (cell u) = content (h u pool.state).2 (cell u) := by
  obtain ⟨pre, post, rfl, hpre⟩ := List.eq_append_cons_of_mem hmem
  obtain ⟨k, hcall, hk⟩ := hw.writer
  have hstay : (runSchedule h pre pool).threads w = .call u k := by
    rw [threads_eq_of_silent fun e he => not_writer_of_notMem h pool hpre he]
    exact hcall
  have hcell := content_eq_of_reads hcells hw.reads fun e he =>
    not_writer_of_notMem h pool hpre he
  have hans := hcells.answer u _ _ hcell
  obtain ⟨r, hr⟩ := hk (h u pool.state).1
  have hdone : ((runSchedule h pre pool).step h w).threads w = .done r := by
    rw [step_threads_self hstay, hans, hr]
  refine ⟨r, fun k' hk' => ?_, ?_, ?_⟩
  · rw [hcall] at hk'
    cases hk'
    exact hr
  · rw [runSchedule_append]
    exact threads_eq_of_done post hdone
  · rw [runSchedule_append]
    have hreads : ∀ i, i ≠ w → (((runSchedule h pre pool).step h w).threads i).Issues
        fun o => Silent h content o ∨ cell o ≠ cell u := by
      intro i hi
      rw [step_threads_ne h _ hi]
      exact issues_runSchedule pre (hw.reads i hi)
    refine (content_eq_of_reads hcells hreads (hw.split hpre post).after).trans ?_
    rw [step_state_of_call hstay]
    exact hcells.own u _ _ hcell

/-- A cell of no footprint, other than that of the write, is left alone. -/
theorem OneWriter.content_elsewhere (hcells : Cells h cell content)
    (hw : OneWriter h cell content w u foot pool.threads) {key : κ} (hcell : key ≠ cell u)
    (hfoot : ∀ i, i ≠ w → ¬ foot i key) (sched : List ι) :
    content (runSchedule h sched pool).state key = content pool.state key := by
  refine schedule_invariant (I := fun s => content s key = content pool.state key) rfl ?_
  rintro ⟨j, o⟩ he s hs
  refine (hcells.other o s key ?_).trans hs
  by_cases hj : j = w
  · subst hj
    obtain ⟨k, hcall, hk⟩ := hw.writer
    have honly : (pool.threads j).Issues fun o => o = u := by
      rw [hcall]
      refine ⟨rfl, fun r => ?_⟩
      obtain ⟨r', hr'⟩ := hk r
      rw [hr']
      trivial
    have ho : o = u := issues_of_mem_events (P := fun o' => o' = u) honly he
    rw [ho]
    exact hcell
  · rintro rfl
    exact hfoot j hj (issues_of_mem_events (hw.own j hj) he)

/-- Two complete schedules whose threads start alike end alike. -/
theorem OneWriter.eq_of_asFrom (hcells : Cells h cell content)
    (hext : ∀ s t, content s = content t → s = t)
    (hw : OneWriter h cell content w u foot pool.threads) {start : ι → σ} {sched sched' : List ι}
    (hfrom : AsFrom h cell content w u foot pool start sched)
    (hfrom' : AsFrom h cell content w u foot pool start sched')
    (hdone : ∀ i, (runSchedule h sched pool).outcome i ≠ none)
    (hdone' : ∀ i, (runSchedule h sched' pool).outcome i ≠ none)
    (hmem : w ∈ sched) (hmem' : w ∈ sched') :
    runSchedule h sched pool = runSchedule h sched' pool := by
  obtain ⟨r, hr, hthread, hcell⟩ := hw.writer_done hcells hmem
  obtain ⟨r', hr', hthread', hcell'⟩ := hw.writer_done hcells hmem'
  obtain ⟨k, hcall, -⟩ := hw.writer
  have hsame : r = r' := by
    have heq := (hr k hcall).symm.trans (hr' k hcall)
    cases heq
    rfl
  have hstate : (runSchedule h sched pool).state = (runSchedule h sched' pool).state := by
    refine hext _ _ (funext fun key => ?_)
    by_cases hkey : key = cell u
    · rw [hkey, hcell, hcell']
    · by_cases howned : ∃ i, i ≠ w ∧ foot i key
      · -- a cell of a thread's footprint is as its solo run leaves it
        obtain ⟨i, hi, hfoot⟩ := howned
        obtain ⟨ri, hri⟩ := Option.ne_none_iff_exists'.mp (hdone i)
        obtain ⟨ri', hri'⟩ := Option.ne_none_iff_exists'.mp (hdone' i)
        rw [((hfrom i hi).finished hri).2 key ⟨hfoot, hkey⟩,
          ((hfrom' i hi).finished hri').2 key ⟨hfoot, hkey⟩]
      · have hfoot : ∀ i, i ≠ w → ¬ foot i key := fun i hi hf => howned ⟨i, hi, hf⟩
        rw [hw.content_elsewhere hcells hkey hfoot, hw.content_elsewhere hcells hkey hfoot]
  have hthreads : (runSchedule h sched pool).threads = (runSchedule h sched' pool).threads := by
    funext i
    by_cases hi : i = w
    · subst hi
      rw [hthread, hthread', hsame]
    · obtain ⟨ri, hri⟩ := Option.ne_none_iff_exists'.mp (hdone i)
      obtain ⟨ri', hri'⟩ := Option.ne_none_iff_exists'.mp (hdone' i)
      rw [outcome_eq_some.mp hri, outcome_eq_some.mp hri', ((hfrom i hi).finished hri).1,
        ((hfrom' i hi).finished hri').1]
  exact congrArg₂ Pool.mk hstate hthreads

/-- A thread that is finished ended as it does alone, from the initial state or from the one after
    the write. -/
theorem OneWriter.outcome_before_or_after (hcells : Cells h cell content)
    (hw : OneWriter h cell content w u foot pool.threads) {i : ι} (hi : i ≠ w) {sched : List ι}
    {r : Except ε (α i)} (hr : (runSchedule h sched pool).outcome i = some r) :
    r = ((pool.threads i).run h pool.state).1 ∨
      r = ((pool.threads i).run h (h u pool.state).2).1 := by
  by_cases hmem : w ∈ sched
  · obtain ⟨pre, post, rfl, hpre⟩ := List.eq_append_cons_of_mem hmem
    obtain ⟨late, hfrom⟩ := hw.asFrom_of_split hcells hpre post
    have hend := ((hfrom i hi).finished hr).1
    by_cases hl : late i
    · rw [startOf, if_pos hl] at hend
      exact Or.inr hend
    · rw [startOf, if_neg hl] at hend
      exact Or.inl hend
  · exact Or.inl ((hw.agree_unwritten hcells hi hmem).finished hr).1

open Classical in
/-- One write is serializable: what a complete schedule leaves, of the shared state and of every
    thread, some serial schedule of the same threads leaves. -/
theorem one_write_is_serializable [Fintype ι] (hcells : Cells h cell content)
    (hext : ∀ s t, content s = content t → s = t)
    (hw : OneWriter h cell content w u foot pool.threads) {sched : List ι}
    (hdone : ∀ i, (runSchedule h sched pool).outcome i ≠ none) :
    ∃ (order : List ι) (turns : ι → Nat), order.Nodup ∧ (∀ i, i ∈ order) ∧
      runSchedule h (serial turns order) pool = runSchedule h sched pool := by
  have hmem : w ∈ sched := by
    by_contra hnot
    obtain ⟨k, hcall, -⟩ := hw.threads_writer hnot
    obtain ⟨r, hr⟩ := Option.ne_none_iff_exists'.mp (hdone w)
    rw [outcome_eq_some, hcall] at hr
    cases hr
  obtain ⟨pre, post, rfl, hpre⟩ := List.eq_append_cons_of_mem hmem
  obtain ⟨late, hfrom⟩ := hw.asFrom_of_split hcells hpre post
  let early : List ι := (Finset.univ.filter fun i => i ≠ w ∧ ¬ late i).toList
  let rest : List ι := (Finset.univ.filter fun i => i ≠ w ∧ late i).toList
  let turns : ι → Nat := fun i =>
    if i = w then 1 else (pool.threads i).turns h (startOf h u pool late i)
  have hearly : ∀ i, i ∈ early ↔ i ≠ w ∧ ¬ late i := fun i => by simp [early]
  have hrest : ∀ i, i ∈ rest ↔ i ≠ w ∧ late i := fun i => by simp [rest]
  have hturns : ∀ i, i ≠ w → turns i = (pool.threads i).turns h (startOf h u pool late i) :=
    fun i hi => if_neg hi
  have hserial : serial turns (early ++ w :: rest) =
      serial turns early ++ w :: serial turns rest := by
    have hone : turns w = 1 := if_pos rfl
    rw [serial_append]
    show _ ++ (List.replicate (turns w) w ++ serial turns rest) = _
    rw [hone]
    rfl
  have hall : ∀ i, i ∈ early ++ w :: rest := by
    intro i
    by_cases hi : i = w
    · simp [hi]
    · by_cases hl : late i
      · exact List.mem_append_right _ (List.mem_cons_of_mem _ ((hrest i).mpr ⟨hi, hl⟩))
      · exact List.mem_append_left _ ((hearly i).mpr ⟨hi, hl⟩)
  have hfrom' : AsFrom h cell content w u foot pool (startOf h u pool late)
      (serial turns (early ++ w :: rest)) := by
    rw [hserial]
    exact hw.asFrom_serial hcells (fun i hi => (hearly i).trans ⟨fun hh => hh.2, fun hh => ⟨hi, hh⟩⟩)
      (fun hh => ((hearly w).mp hh).1 rfl) hturns
  have hmem' : w ∈ serial turns (early ++ w :: rest) := by
    rw [hserial]
    exact List.mem_append_right _ List.mem_cons_self
  have hdone' : ∀ i, (runSchedule h (serial turns (early ++ w :: rest)) pool).outcome i ≠ none := by
    intro i
    by_cases hi : i = w
    · subst hi
      obtain ⟨r, -, hthread, -⟩ := hw.writer_done hcells hmem'
      rw [outcome_eq_some.mpr hthread]
      exact Option.some_ne_none r
    · have hstep := hfrom' i hi
      rw [Nat.sub_eq_zero_of_le ((hturns i hi).symm.le.trans (turns_le_count_serial (hall i)))]
        at hstep
      rw [hstep.outcome_of_turns]
      exact Option.some_ne_none _
  refine ⟨early ++ w :: rest, turns, ?_, hall,
    hw.eq_of_asFrom hcells hext hfrom' hfrom hdone' hdone hmem' hmem⟩
  rw [List.nodup_append, List.nodup_cons]
  refine ⟨Finset.nodup_toList _, ⟨fun hh => ((hrest w).mp hh).1 rfl, Finset.nodup_toList _⟩, ?_⟩
  rintro i hi j hj rfl
  rcases List.mem_cons.mp hj with rfl | hj
  · exact ((hearly i).mp hi).1 rfl
  · exact ((hearly i).mp hi).2 ((hrest i).mp hj).2

end OneWriter

end Pool

end Effect
