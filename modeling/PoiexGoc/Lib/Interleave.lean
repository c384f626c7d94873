/-
  INTERLEAVINGS of programs over one shared state.

  A `Pool` holds the shared state and one program per thread; a schedule is the list of threads
  in the order in which they take their next step, and one step is one call of the handler — the
  granularity at which a storage backend is atomic.  A thread that is finished ignores its turns,
  so "every interleaving" is "every schedule".

  The arguments a concurrency proof keeps repeating are made here, once:

  1. AGREEMENT with a solo run (`InStep`).  A thread depends on the shared state only through the
     part it reads.  If its own operations answer alike on the shared state and on the state of a
     solo run and keep the two related, and the events of the other threads keep them related too,
     then the thread ends as its solo run does (`thread_agrees`).  The relation may depend on the
     events so far, and the answers need only be ones the thread does not tell apart
     (`thread_agrees_alike`).

  2. RELIANCE on an invariant of the shared state (`meets_runSchedule`): what a program does when
     its answers can be relied on, it does in every schedule that keeps the invariant.  One step
     may change the invariant (`meets_across`).

  3. A thread that alone makes calls makes its sequential run (`run_of_alone`).

  4. SIMULATION: two handlers that agree on the calls a schedule makes take the threads through the
     same calls (`runSchedule_agrees`).
-/
import Mathlib.Logic.Function.Basic
import PoiexGoc.Lib.Effect

namespace Effect

variable {S : Signature} {ε σ τ ι : Type} {α : ι → Type}

/-- Threads over one shared state. -/
structure Pool (S : Signature) (ε σ ι : Type) (α : ι → Type) where
  state : σ
  threads : (i : ι) → Prog S ε (α i)

namespace Pool

/-- The call a thread is about to make; `none` once it is finished. -/
def next (pool : Pool S ε σ ι α) (i : ι) : Option S.Op :=
  match pool.threads i with
  | .done _ => none
  | .call o _ => some o

/-- The result of a finished thread. -/
def outcome (pool : Pool S ε σ ι α) (i : ι) : Option (Except ε (α i)) :=
  match pool.threads i with
  | .done r => some r
  | .call _ _ => none

theorem outcome_eq_some {pool : Pool S ε σ ι α} {i : ι} {r : Except ε (α i)} :
    pool.outcome i = some r ↔ pool.threads i = .done r := by
  unfold outcome
  constructor
  · intro hr
    split at hr
    · rename_i r' heq
      rw [heq, Option.some.inj hr]
    · cases hr
  · intro hr
    rw [hr]

theorem outcome_congr {pool : Pool S ε σ ι α} {pool' : Pool S ε τ ι α}
    (hthreads : pool.threads = pool'.threads) (i : ι) : pool.outcome i = pool'.outcome i := by
  unfold outcome
  rw [hthreads]

theorem next_of_call {pool : Pool S ε σ ι α} {i : ι} {o : S.Op}
    {k : Except ε (S.Res o) → Prog S ε (α i)} (hi : pool.threads i = .call o k) :
    pool.next i = some o := by
  unfold next
  rw [hi]

theorem next_eq_some {pool : Pool S ε σ ι α} {i : ι} {o : S.Op} :
    pool.next i = some o ↔ ∃ k, pool.threads i = .call o k := by
  unfold next
  constructor
  · intro hnext
    split at hnext
    · cases hnext
    · rename_i o' k heq
      rw [← Option.some.inj hnext]
      exact ⟨k, heq⟩
  · rintro ⟨k, hi⟩
    rw [hi]

theorem next_eq_none {pool : Pool S ε σ ι α} {i : ι} :
    pool.next i = none ↔ ∃ r, pool.threads i = .done r := by
  unfold next
  constructor
  · intro hnext
    split at hnext
    · rename_i r heq
      exact ⟨r, heq⟩
    · cases hnext
  · rintro ⟨r, hi⟩
    rw [hi]

variable [DecidableEq ι]

/-- One step of thread `i`: its next call, answered by the handler. -/
def step (h : Handler S ε σ) (pool : Pool S ε σ ι α) (i : ι) : Pool S ε σ ι α :=
  match pool.threads i with
  | .done _ => pool
  | .call o k =>
    ⟨(h o pool.state).2, Function.update pool.threads i (k (h o pool.state).1)⟩

/-- The pool after a schedule. -/
def runSchedule (h : Handler S ε σ) : List ι → Pool S ε σ ι α → Pool S ε σ ι α
  | [], pool => pool
  | i :: sched, pool => runSchedule h sched (pool.step h i)

/-- The calls a schedule makes, each with the thread that makes it. -/
def events (h : Handler S ε σ) : List ι → Pool S ε σ ι α → List (ι × S.Op)
  | [], _ => []
  | i :: sched, pool => (pool.next i).toList.map (Prod.mk i) ++ events h sched (pool.step h i)

/-! ## One step -/

theorem step_of_done {h : Handler S ε σ} {pool : Pool S ε σ ι α} {i : ι} {r : Except ε (α i)}
    (hi : pool.threads i = .done r) : pool.step h i = pool := by
  unfold step
  rw [hi]

theorem step_of_call {h : Handler S ε σ} {pool : Pool S ε σ ι α} {i : ι} {o : S.Op}
    {k : Except ε (S.Res o) → Prog S ε (α i)} (hi : pool.threads i = .call o k) :
    pool.step h i =
      ⟨(h o pool.state).2, Function.update pool.threads i (k (h o pool.state).1)⟩ := by
  unfold step
  rw [hi]

/-- A step leaves the programs of the other threads alone. -/
theorem step_threads_ne (h : Handler S ε σ) (pool : Pool S ε σ ι α) {i j : ι} (hij : i ≠ j) :
    (pool.step h j).threads i = pool.threads i := by
  cases hj : pool.threads j with
  | done r => rw [step_of_done hj]
  | call o k => rw [step_of_call hj]; exact Function.update_of_ne hij _ _

theorem step_threads_self {h : Handler S ε σ} {pool : Pool S ε σ ι α} {i : ι} {o : S.Op}
    {k : Except ε (S.Res o) → Prog S ε (α i)} (hi : pool.threads i = .call o k) :
    (pool.step h i).threads i = k (h o pool.state).1 := by
  rw [step_of_call hi]
  exact Function.update_self i _ _

theorem step_state_of_call {h : Handler S ε σ} {pool : Pool S ε σ ι α} {i : ι} {o : S.Op}
    {k : Except ε (S.Res o) → Prog S ε (α i)} (hi : pool.threads i = .call o k) :
    (pool.step h i).state = (h o pool.state).2 := by
  rw [step_of_call hi]

theorem step_of_idle {h : Handler S ε σ} {pool : Pool S ε σ ι α} {i : ι}
    (hnext : pool.next i = none) : pool.step h i = pool := by
  obtain ⟨r, hi⟩ := next_eq_none.mp hnext
  exact step_of_done hi

theorem events_of_idle {h : Handler S ε σ} {i : ι} {sched : List ι} {pool : Pool S ε σ ι α}
    (hnext : pool.next i = none) : events h (i :: sched) pool = events h sched pool := by
  rw [events, hnext, step_of_idle hnext]
  rfl

theorem events_of_next {h : Handler S ε σ} {i : ι} {sched : List ι} {pool : Pool S ε σ ι α}
    {o : S.Op} (hnext : pool.next i = some o) :
    events h (i :: sched) pool = (i, o) :: events h sched (pool.step h i) := by
  rw [events, hnext]
  rfl

/-- The event of one step, split on whether the thread still runs. -/
theorem mem_events_cons {h : Handler S ε σ} {i : ι} {sched : List ι} {pool : Pool S ε σ ι α}
    {e : ι × S.Op} :
    e ∈ events h (i :: sched) pool ↔
      (pool.next i = some e.2 ∧ e.1 = i) ∨ e ∈ events h sched (pool.step h i) := by
  rw [events, List.mem_append, List.mem_map]
  constructor
  · rintro (⟨o, ho, rfl⟩ | he)
    · exact Or.inl ⟨Option.mem_toList.mp ho, rfl⟩
    · exact Or.inr he
  · rintro (⟨hnext, hi⟩ | he)
    · exact Or.inl ⟨e.2, Option.mem_toList.mpr hnext, by rw [← hi]⟩
    · exact Or.inr he

/-- The event of the first step is one of the schedule. -/
theorem mem_events_of_head {h : Handler S ε σ} {i : ι} {sched : List ι} {pool : Pool S ε σ ι α}
    {e : ι × S.Op} (he : e ∈ events h [i] pool) : e ∈ events h (i :: sched) pool := by
  rcases mem_events_cons.mp he with hhere | hnone
  · exact mem_events_cons.mpr (Or.inl hhere)
  · cases hnone

/-! ## Schedules -/

theorem runSchedule_append (h : Handler S ε σ) (pre post : List ι) (pool : Pool S ε σ ι α) :
    runSchedule h (pre ++ post) pool = runSchedule h post (runSchedule h pre pool) := by
  induction pre generalizing pool with
  | nil => rfl
  | cons i pre ih => exact ih (pool.step h i)

theorem events_append (h : Handler S ε σ) (pre post : List ι) (pool : Pool S ε σ ι α) :
    events h (pre ++ post) pool =
      events h pre pool ++ events h post (runSchedule h pre pool) := by
  induction pre generalizing pool with
  | nil => rfl
  | cons i pre ih =>
    rw [List.cons_append, events, events, ih (pool.step h i), List.append_assoc]
    rfl

/-- A thread that makes no call in a schedule still has its program afterwards. -/
theorem threads_eq_of_silent {h : Handler S ε σ} {i : ι} {sched : List ι}
    {pool : Pool S ε σ ι α} (silent : ∀ e ∈ events h sched pool, e.1 ≠ i) :
    (runSchedule h sched pool).threads i = pool.threads i := by
  induction sched generalizing pool with
  | nil => rfl
  | cons j sched ih =>
    have hrest := @ih (pool.step h j) fun e he => silent e (mem_events_cons.mpr (Or.inr he))
    refine hrest.trans ?_
    by_cases hij : i = j
    · subst hij
      cases hi : pool.threads i with
      | done r => rw [step_of_done hi, hi]
      | call o k =>
        exact absurd rfl (silent (i, o) (mem_events_cons.mpr (Or.inl ⟨next_of_call hi, rfl⟩)))
    · exact step_threads_ne h pool hij

/-- A finished thread stays finished with the same result. -/
theorem threads_eq_of_done {h : Handler S ε σ} {i : ι} {r : Except ε (α i)} (sched : List ι)
    {pool : Pool S ε σ ι α} (hi : pool.threads i = .done r) :
    (runSchedule h sched pool).threads i = .done r := by
  induction sched generalizing pool with
  | nil => exact hi
  | cons j sched ih =>
    refine ih ?_
    by_cases hij : i = j
    · subst hij
      rw [step_of_done hi, hi]
    · rw [step_threads_ne h pool hij, hi]

/-! ## Invariants and agreement with a solo run -/

/-- A property of the shared state kept by every event of a schedule holds after it. -/
theorem schedule_invariant {h : Handler S ε σ} {I : σ → Prop} {sched : List ι}
    {pool : Pool S ε σ ι α} (hI : I pool.state)
    (keep : ∀ e ∈ events h sched pool, ∀ s, I s → I (h e.2 s).2) :
    I (runSchedule h sched pool).state := by
  induction sched generalizing pool with
  | nil => exact hI
  | cons j sched ih =>
    refine ih ?_ fun e he => keep e (mem_events_cons.mpr (Or.inr he))
    cases hj : pool.threads j with
    | done r => rw [step_of_done hj]; exact hI
    | call o k =>
      rw [step_state_of_call hj]
      exact keep (j, o) (mem_events_cons.mpr (Or.inl ⟨next_of_call hj, rfl⟩)) _ hI

/-- The shared state and the state `t` of a solo run, in step: they are related, running the rest
    of thread `i` alone from `t` is the whole solo run, and takes `n` more turns. -/
def InStep (h' : Handler S ε τ) (R : σ → τ → Prop) (i : ι) (solo : Except ε (α i) × τ) (n : Nat)
    (pool : Pool S ε σ ι α) : Prop :=
  ∃ t, R pool.state t ∧ (pool.threads i).run h' t = solo ∧ (pool.threads i).turns h' t = n

omit [DecidableEq ι] in
/-- A thread starts in step with its own solo run. -/
theorem InStep.start {h' : Handler S ε τ} {R : σ → τ → Prop} {i : ι} {pool : Pool S ε σ ι α}
    {t : τ} (hR : R pool.state t) :
    InStep h' R i ((pool.threads i).run h' t) ((pool.threads i).turns h' t) pool :=
  ⟨t, hR, rfl, rfl⟩

/-- A step of the thread itself: the solo run makes it too, with an answer that the thread does not
    tell apart. -/
theorem InStep.step_self {h : Handler S ε σ} {h' : Handler S ε τ} {R R' : σ → τ → Prop} {i : ι}
    {A : (o : S.Op) → Except ε (S.Res o) → Except ε (S.Res o) → Prop}
    {solo : Except ε (α i) × τ} {n : Nat} {pool : Pool S ε σ ι α} {o : S.Op}
    (hpool : InStep h' R i solo n pool) (halike : (pool.threads i).Indifferent A)
    (hnext : pool.next i = some o)
    (own : ∀ t, R pool.state t →
      A o (h o pool.state).1 (h' o t).1 ∧ R' (h o pool.state).2 (h' o t).2) :
    InStep h' R' i solo (n - 1) (pool.step h i) := by
  obtain ⟨t, hR, hsolo, hturns⟩ := hpool
  obtain ⟨k, hi⟩ := next_eq_some.mp hnext
  obtain ⟨hans, hR'⟩ := own t hR
  rw [hi] at hsolo hturns halike
  have hrest : k (h o pool.state).1 = k (h' o t).1 := halike.1 _ _ hans
  refine ⟨(h' o t).2, ?_, ?_, ?_⟩
  · rw [step_state_of_call hi]
    exact hR'
  · rw [step_threads_self hi, hrest]
    exact hsolo
  · rw [step_threads_self hi, hrest, ← hturns]
    rfl

/-- A step of another thread: the solo run waits. -/
theorem InStep.step_other {h : Handler S ε σ} {h' : Handler S ε τ} {R R' : σ → τ → Prop}
    {i j : ι} {solo : Except ε (α i) × τ} {n : Nat} {pool : Pool S ε σ ι α} {o : S.Op}
    (hpool : InStep h' R i solo n pool) (hij : i ≠ j) (hnext : pool.next j = some o)
    (env : ∀ t, R pool.state t → R' (h o pool.state).2 t) :
    InStep h' R' i solo n (pool.step h j) := by
  obtain ⟨t, hR, hsolo, hturns⟩ := hpool
  obtain ⟨k, hj⟩ := next_eq_some.mp hnext
  refine ⟨t, ?_, ?_, ?_⟩
  · rw [step_state_of_call hj]
    exact env t hR
  · rw [step_threads_ne h pool hij]
    exact hsolo
  · rw [step_threads_ne h pool hij]
    exact hturns

omit [DecidableEq ι] in
/-- A finished thread has no turns left. -/
theorem InStep.turns_of_done {h' : Handler S ε τ} {R : σ → τ → Prop} {i : ι}
    {solo : Except ε (α i) × τ} {n : Nat} {pool : Pool S ε σ ι α}
    (hpool : InStep h' R i solo n pool) (hnext : pool.next i = none) : n = 0 := by
  obtain ⟨t, -, -, hturns⟩ := hpool
  obtain ⟨r, hi⟩ := next_eq_none.mp hnext
  rw [hi] at hturns
  exact hturns.symm

/-- Answers a thread does not tell apart, it does not tell apart later. -/
theorem indifferent_step {h : Handler S ε σ} {pool : Pool S ε σ ι α} {i : ι}
    {A : (o : S.Op) → Except ε (S.Res o) → Except ε (S.Res o) → Prop}
    (hi : (pool.threads i).Indifferent A) (j : ι) : ((pool.step h j).threads i).Indifferent A := by
  by_cases hij : i = j
  · subst hij
    cases hc : pool.threads i with
    | done r =>
      rw [step_of_done hc]
      exact hi
    | call o k =>
      rw [hc] at hi
      rw [step_threads_self hc]
      exact hi.2 _
  · rw [step_threads_ne h pool hij]
    exact hi

/-- Agreement with the solo run, by a relation that may depend on the events so far.  Induction on
    the schedule: a step of `i` advances both runs, with answers that `i` does not tell apart, and
    `own` keeps them related; a step of another thread moves the shared state only and `env` keeps
    it related to where the solo run stands. -/
theorem thread_agrees_alike {h : Handler S ε σ} {h' : Handler S ε τ}
    {A : (o : S.Op) → Except ε (S.Res o) → Except ε (S.Res o) → Prop}
    {R : List (ι × S.Op) → σ → τ → Prop} {i : ι} {sched : List ι} {pool : Pool S ε σ ι α}
    {solo : Except ε (α i) × τ} {n : Nat} (halike : (pool.threads i).Indifferent A)
    (own : ∀ past o rest, events h sched pool = past ++ (i, o) :: rest → ∀ s t, R past s t →
      A o (h o s).1 (h' o t).1 ∧ R (past ++ [(i, o)]) (h o s).2 (h' o t).2)
    (env : ∀ past e rest, events h sched pool = past ++ e :: rest → e.1 ≠ i → ∀ s t,
      R past s t → R (past ++ [e]) (h e.2 s).2 t)
    (hpool : InStep h' (R []) i solo n pool) :
    InStep h' (R (events h sched pool)) i solo (n - sched.count i) (runSchedule h sched pool) := by
  induction sched generalizing pool n R with
  | nil => exact hpool
  | cons j sched ih =>
    cases hnext : pool.next j with
    | none =>
      -- a turn of a finished thread: nothing happens
      have hevents : events h (j :: sched) pool = events h sched pool := events_of_idle hnext
      have hstay : (runSchedule h (j :: sched) pool) = runSchedule h sched pool :=
        congrArg (runSchedule h sched) (step_of_idle hnext)
      rw [hevents] at own env ⊢
      rw [hstay]
      have hrest := ih halike own env hpool
      by_cases hij : i = j
      · subst hij
        have hn : n = 0 := hpool.turns_of_done hnext
        rw [hn, Nat.zero_sub] at hrest ⊢
        exact hrest
      · rw [List.count_cons_of_ne (Ne.symm hij)]
        exact hrest
    | some o =>
      have hevents : events h (j :: sched) pool = (j, o) :: events h sched (pool.step h j) :=
        events_of_next hnext
      rw [hevents] at own env ⊢
      have hrest := fun n' => @ih (fun past => R ((j, o) :: past)) (pool.step h j) n'
        (indifferent_step halike j)
        (fun past o' rest heq => own ((j, o) :: past) o' rest (congrArg _ heq))
        (fun past e rest heq => env ((j, o) :: past) e rest (congrArg _ heq))
      by_cases hij : i = j
      · subst hij
        have hcount : n - (sched.count i + 1) = n - 1 - sched.count i := by omega
        rw [List.count_cons_self, hcount]
        exact hrest (n - 1) (hpool.step_self halike hnext fun t hR => own [] o _ rfl _ t hR)
      · rw [List.count_cons_of_ne (Ne.symm hij)]
        exact hrest n (hpool.step_other hij hnext fun t hR =>
          env [] (j, o) _ rfl (Ne.symm hij) _ t hR)

/-- Agreement with the solo run, by one relation for the whole schedule. -/
theorem thread_agrees {h : Handler S ε σ} {h' : Handler S ε τ} {R : σ → τ → Prop} {i : ι}
    {sched : List ι} {pool : Pool S ε σ ι α} {solo : Except ε (α i) × τ} {n : Nat}
    (own : ∀ o s t, (i, o) ∈ events h sched pool → R s t →
      (h o s).1 = (h' o t).1 ∧ R (h o s).2 (h' o t).2)
    (env : ∀ e ∈ events h sched pool, e.1 ≠ i → ∀ s t, R s t → R (h e.2 s).2 t)
    (hpool : InStep h' R i solo n pool) :
    InStep h' R i solo (n - sched.count i) (runSchedule h sched pool) := by
  have hmem : ∀ past e rest, events h sched pool = past ++ e :: rest →
      e ∈ events h sched pool := by
    intro past e rest heq
    rw [heq]
    exact List.mem_append_right _ List.mem_cons_self
  have hsame : (pool.threads i).Indifferent fun _ r r' => r = r' :=
    Prog.indifferent_of_issues ((Prog.issues_any _).mono fun _ _ _ _ heq => heq)
  exact thread_agrees_alike (R := fun _ => R) hsame
    (fun past o rest heq s t => own o s t (hmem past _ rest heq))
    (fun past e rest heq => env e (hmem past e rest heq)) hpool

/-- Two handlers that answer alike and keep the states related on the calls a schedule makes take
    the threads through the same calls.  The first step is one call of the scheduled thread: it is among
    the calls, so both handlers hand the thread the same rest of its program. -/
theorem runSchedule_agrees {h : Handler S ε σ} {h' : Handler S ε τ} {P : S.Op → Prop}
    {R : σ → τ → Prop}
    (step : ∀ o s t, P o → R s t → (h o s).1 = (h' o t).1 ∧ R (h o s).2 (h' o t).2)
    {sched : List ι} {threads : (i : ι) → Prog S ε (α i)} {s : σ}
    (hcalls : ∀ e ∈ events h sched ⟨s, threads⟩, P e.2) {t : τ} (hst : R s t) :
    (runSchedule h sched ⟨s, threads⟩).threads = (runSchedule h' sched ⟨t, threads⟩).threads ∧
      R (runSchedule h sched ⟨s, threads⟩).state (runSchedule h' sched ⟨t, threads⟩).state ∧
      events h sched ⟨s, threads⟩ = events h' sched ⟨t, threads⟩ := by
  induction sched generalizing s t threads with
  | nil => exact ⟨rfl, hst, rfl⟩
  | cons i sched ih =>
    have hrest : ∀ e ∈ events h sched (Pool.step h ⟨s, threads⟩ i), P e.2 :=
      fun e he => hcalls e (mem_events_cons.mpr (Or.inr he))
    cases hi : threads i with
    | done r =>
      have hstep : Pool.step h ⟨s, threads⟩ i = ⟨s, threads⟩ := step_of_done hi
      have hstep' : Pool.step h' ⟨t, threads⟩ i = ⟨t, threads⟩ := step_of_done hi
      rw [hstep] at hrest
      obtain ⟨hthreads, hR, hevents⟩ := ih hrest hst
      refine ⟨?_, ?_, ?_⟩
      · rw [runSchedule, runSchedule, hstep, hstep']
        exact hthreads
      · rw [runSchedule, runSchedule, hstep, hstep']
        exact hR
      · rw [events, events, hstep, hstep', hevents]
        rfl
    | call o k =>
      have ho : P o := hcalls (i, o) (mem_events_cons.mpr (Or.inl ⟨next_of_call hi, rfl⟩))
      obtain ⟨hans, hnext⟩ := step o s t ho hst
      have hstep : Pool.step h ⟨s, threads⟩ i =
          ⟨(h o s).2, Function.update threads i (k (h o s).1)⟩ := step_of_call hi
      have hstep' : Pool.step h' ⟨t, threads⟩ i =
          ⟨(h' o t).2, Function.update threads i (k (h o s).1)⟩ := by
        rw [hans]
        exact step_of_call hi
      rw [hstep] at hrest
      obtain ⟨hthreads, hR, hevents⟩ := ih hrest hnext
      refine ⟨?_, ?_, ?_⟩
      · rw [runSchedule, runSchedule, hstep, hstep']
        exact hthreads
      · rw [runSchedule, runSchedule, hstep, hstep']
        exact hR
      · rw [events, events, hstep, hstep', hevents]
        rfl

/-! ## Threads that rely on an invariant of the shared state -/

/-- While the shared state keeps an invariant `J` under which the calls of thread `i` are answered
    as `A` says, thread `i` still meets what its program met. -/
theorem meets_runSchedule {h : Handler S ε σ} {A : (o : S.Op) → Except ε (S.Res o) → Prop}
    {P : S.Op → Prop} {J : σ → Prop} {i : ι} {Q : Except ε (α i) → Prop} {sched : List ι}
    {pool : Pool S ε σ ι α} (hJ : J pool.state)
    (keep : ∀ e ∈ events h sched pool, ∀ s, J s → J (h e.2 s).2)
    (answers : ∀ o s, (i, o) ∈ events h sched pool → J s → A o (h o s).1)
    (hi : (pool.threads i).Meets A P Q) : ((runSchedule h sched pool).threads i).Meets A P Q := by
  induction sched generalizing pool with
  | nil => exact hi
  | cons j sched ih =>
    refine @ih (pool.step h j) ?_ (fun e he => keep e (mem_events_cons.mpr (Or.inr he)))
      (fun o s ho => answers o s (mem_events_cons.mpr (Or.inr ho))) ?_
    · exact @schedule_invariant _ _ _ _ _ _ h J [j] pool hJ fun e he =>
        keep e (mem_events_of_head he)
    · by_cases hij : i = j
      · subst hij
        -- a step of `i`: its call is answered under `J`
        cases hc : pool.threads i with
        | done r => rw [step_of_done hc, hc]; rw [hc] at hi; exact hi
        | call o k =>
          have hmem : (i, o) ∈ events h (i :: sched) pool :=
            mem_events_cons.mpr (Or.inl ⟨next_of_call hc, rfl⟩)
          rw [hc] at hi
          rw [step_threads_self hc]
          exact hi.2 _ (answers o _ hmem hJ)
      · rw [step_threads_ne h pool hij]
        exact hi

/-- Every event of such a thread is a call its program may make under these answers. -/
theorem meets_of_mem_events {h : Handler S ε σ} {A : (o : S.Op) → Except ε (S.Res o) → Prop}
    {P : S.Op → Prop} {J : σ → Prop} {i : ι} {Q : Except ε (α i) → Prop} {sched : List ι}
    {pool : Pool S ε σ ι α} (hJ : J pool.state)
    (keep : ∀ e ∈ events h sched pool, ∀ s, J s → J (h e.2 s).2)
    (answers : ∀ o s, (i, o) ∈ events h sched pool → J s → A o (h o s).1)
    (hi : (pool.threads i).Meets A P Q) {o : S.Op} (he : (i, o) ∈ events h sched pool) : P o := by
  induction sched generalizing pool with
  | nil => cases he
  | cons j sched ih =>
    rcases mem_events_cons.mp he with ⟨hnext, hij⟩ | he
    · have hij : i = j := hij
      subst hij
      obtain ⟨k, hcall⟩ := next_eq_some.mp hnext
      rw [hcall] at hi
      exact hi.1
    · have hJ' : J (pool.step h j).state :=
        @schedule_invariant _ _ _ _ _ _ h J [j] pool hJ fun e he => keep e (mem_events_of_head he)
      exact @ih (pool.step h j) hJ' (fun e he => keep e (mem_events_cons.mpr (Or.inr he)))
        (fun o s ho => answers o s (mem_events_cons.mpr (Or.inr ho)))
        (@meets_runSchedule _ _ _ _ _ _ h A P J i Q [j] pool hJ
          (fun e he => keep e (mem_events_of_head he))
          (fun o s ho => answers o s (mem_events_of_head ho)) hi) he

/-- The same when one step of another thread changes the invariant: up to that step the shared
    state keeps `J`, the step takes `J` to `J'`, and from then on it keeps `J'`. -/
theorem meets_across {h : Handler S ε σ} {A : (o : S.Op) → Except ε (S.Res o) → Prop}
    {P : S.Op → Prop} {J J' : σ → Prop} {i j : ι} {Q : Except ε (α i) → Prop}
    {pre post : List ι} {pool : Pool S ε σ ι α} {u : S.Op} (hij : i ≠ j) (hJ : J pool.state)
    (keep : ∀ e ∈ events h pre pool, ∀ s, J s → J (h e.2 s).2)
    (answers : ∀ o s, (i, o) ∈ events h pre pool → J s → A o (h o s).1)
    (hnext : (runSchedule h pre pool).next j = some u) (carry : ∀ s, J s → J' (h u s).2)
    (keep' : ∀ e ∈ events h post ((runSchedule h pre pool).step h j), ∀ s, J' s → J' (h e.2 s).2)
    (answers' : ∀ o s, (i, o) ∈ events h post ((runSchedule h pre pool).step h j) → J' s →
      A o (h o s).1)
    (hi : (pool.threads i).Meets A P Q) :
    ((runSchedule h (pre ++ j :: post) pool).threads i).Meets A P Q ∧
      ∀ o, (i, o) ∈ events h (pre ++ j :: post) pool → P o := by
  have hJpre := schedule_invariant hJ keep
  have hmid := meets_runSchedule hJ keep answers hi
  have hJ' : J' ((runSchedule h pre pool).step h j).state := by
    obtain ⟨k, hj⟩ := next_eq_some.mp hnext
    rw [step_state_of_call hj]
    exact carry _ hJpre
  rw [← step_threads_ne h (runSchedule h pre pool) hij] at hmid
  constructor
  · rw [runSchedule_append]
    show ((runSchedule h post ((runSchedule h pre pool).step h j)).threads i).Meets A P Q
    exact meets_runSchedule hJ' keep' answers' hmid
  · intro o ho
    rw [events_append] at ho
    rcases List.mem_append.mp ho with hpre | hrest
    · exact meets_of_mem_events hJ keep answers hi hpre
    · rcases mem_events_cons.mp hrest with ⟨-, heq⟩ | hpost
      · exact absurd heq hij
      · exact meets_of_mem_events hJ' keep' answers' hmid hpost

/-- Every event of a thread is a call its program may make. -/
theorem issues_of_mem_events {h : Handler S ε σ} {P : S.Op → Prop} {i : ι} {o : S.Op}
    {sched : List ι} {pool : Pool S ε σ ι α} (hi : (pool.threads i).Issues P)
    (he : (i, o) ∈ events h sched pool) : P o :=
  meets_of_mem_events (J := fun _ => True) trivial (fun _ _ _ _ => trivial)
    (fun _ _ _ _ => trivial) (hi.meets fun _ _ => True) he

/-- Simulation: so do handlers that agree on every operation the threads can call, in every
    schedule. -/
theorem runSchedule_simulation {h : Handler S ε σ} {h' : Handler S ε τ} {P : S.Op → Prop}
    {R : σ → τ → Prop}
    (step : ∀ o s t, P o → R s t → (h o s).1 = (h' o t).1 ∧ R (h o s).2 (h' o t).2)
    {sched : List ι} {threads : (i : ι) → Prog S ε (α i)} (hissues : ∀ i, (threads i).Issues P)
    {s : σ} {t : τ} (hst : R s t) :
    (runSchedule h sched ⟨s, threads⟩).threads = (runSchedule h' sched ⟨t, threads⟩).threads ∧
      R (runSchedule h sched ⟨s, threads⟩).state (runSchedule h' sched ⟨t, threads⟩).state ∧
      events h sched ⟨s, threads⟩ = events h' sched ⟨t, threads⟩ :=
  runSchedule_agrees step (fun e he => issues_of_mem_events (hissues e.1) he) hst

/-- A thread that calls something in `B` has called something in `A` before, when its program calls
    that first. -/
theorem opened_of_events {h : Handler S ε σ} {A B : S.Op → Prop} {i : ι} {o : S.Op}
    {sched : List ι} {pool : Pool S ε σ ι α} {past rest : List (ι × S.Op)}
    (hi : (pool.threads i).Opens A B) (heq : events h sched pool = past ++ (i, o) :: rest)
    (ho : B o) : ∃ o', (i, o') ∈ past ∧ A o' := by
  induction sched generalizing pool past with
  | nil => exact absurd heq.symm (List.append_ne_nil_of_right_ne_nil _ (List.cons_ne_nil _ _))
  | cons j sched ih =>
    cases hcall : pool.threads j with
    | done r =>
      rw [events_of_idle (next_eq_none.mpr ⟨r, hcall⟩)] at heq
      exact ih hi heq
    | call o' k =>
      rw [events_of_next (next_of_call hcall)] at heq
      by_cases hij : j = i
      · subst hij
        rw [hcall] at hi
        cases past with
        | nil =>
          obtain ⟨⟨-, rfl⟩, -⟩ := List.cons_eq_cons.mp heq
          exact absurd ho hi.1
        | cons e past =>
          obtain ⟨rfl, hrest⟩ := List.cons_eq_cons.mp heq
          rcases hi.2 with hA | hlater
          · exact ⟨o', List.mem_cons_self, hA⟩
          · have hopens : ((pool.step h j).threads j).Opens A B := by
              rw [step_threads_self hcall]
              exact hlater _
            obtain ⟨first, hmem, hA⟩ := ih hopens hrest
            exact ⟨first, List.mem_cons_of_mem _ hmem, hA⟩
      · have hopens : ((pool.step h j).threads i).Opens A B := by
          rw [step_threads_ne h pool (Ne.symm hij)]
          exact hi
        cases past with
        | nil => exact absurd (congrArg Prod.fst (List.cons_eq_cons.mp heq).1) hij
        | cons e past =>
          obtain ⟨-, hrest⟩ := List.cons_eq_cons.mp heq
          obtain ⟨first, hmem, hA⟩ := ih hopens hrest
          exact ⟨first, List.mem_cons_of_mem _ hmem, hA⟩

/-- Only scheduled threads make calls. -/
theorem mem_of_mem_events {h : Handler S ε σ} {sched : List ι} {pool : Pool S ε σ ι α}
    {e : ι × S.Op} (he : e ∈ events h sched pool) : e.1 ∈ sched := by
  induction sched generalizing pool with
  | nil => cases he
  | cons j sched ih =>
    rcases mem_events_cons.mp he with ⟨-, hj⟩ | he
    · rw [hj]
      exact List.mem_cons_self
    · exact List.mem_cons_of_mem _ (ih he)

/-- A finished thread makes no further call. -/
theorem not_mem_events_of_done {h : Handler S ε σ} {i : ι} {r : Except ε (α i)}
    {sched : List ι} {pool : Pool S ε σ ι α} (hi : pool.threads i = .done r) (o : S.Op) :
    (i, o) ∉ events h sched pool := by
  intro he
  have hissues : (pool.threads i).Issues fun _ => False := by
    rw [hi]
    trivial
  exact issues_of_mem_events hissues he

omit [DecidableEq ι] in
/-- Once the thread is finished, being in step says that its result is the solo result and that
    the shared state is related to the state the solo run ended in. -/
theorem InStep.finished {h' : Handler S ε τ} {R : σ → τ → Prop} {i : ι}
    {solo : Except ε (α i) × τ} {n : Nat} {pool : Pool S ε σ ι α} {r : Except ε (α i)}
    (hstep : InStep h' R i solo n pool) (hdone : pool.outcome i = some r) :
    r = solo.1 ∧ R pool.state solo.2 := by
  obtain ⟨t, hR, hsolo, -⟩ := hstep
  rw [outcome_eq_some.mp hdone] at hsolo
  exact ⟨by rw [← hsolo]; rfl, by rw [← hsolo]; exact hR⟩

/-- A thread that alone makes calls in a schedule, and is finished after it, has made its
    sequential run. -/
theorem run_of_alone {h : Handler S ε σ} {i : ι} {r : Except ε (α i)} {sched : List ι}
    {pool : Pool S ε σ ι α} (alone : ∀ e ∈ events h sched pool, e.1 = i)
    (hdone : (runSchedule h sched pool).outcome i = some r) :
    (pool.threads i).run h pool.state = (r, (runSchedule h sched pool).state) := by
  have hstart : InStep h (fun s t => s = t) i ((pool.threads i).run h pool.state)
      ((pool.threads i).turns h pool.state) pool := InStep.start rfl
  have hagree := thread_agrees (fun o s t _ hst => ⟨by rw [hst], by rw [hst]⟩)
    (fun e he hne => absurd (alone e he) hne) hstart
  obtain ⟨hr, hstate⟩ := hagree.finished hdone
  exact Prod.ext hr.symm hstate.symm

omit [DecidableEq ι] in
/-- A thread that has had its turns is finished. -/
theorem InStep.outcome_of_turns {h' : Handler S ε τ} {R : σ → τ → Prop} {i : ι}
    {solo : Except ε (α i) × τ} {pool : Pool S ε σ ι α} (hstep : InStep h' R i solo 0 pool) :
    pool.outcome i = some solo.1 := by
  obtain ⟨t, -, hsolo, hturns⟩ := hstep
  cases hi : pool.threads i with
  | done r =>
    rw [hi] at hsolo
    rw [outcome_eq_some, hi, ← hsolo]
    rfl
  | call o k =>
    rw [hi] at hturns
    cases hturns

end Pool

end Effect
