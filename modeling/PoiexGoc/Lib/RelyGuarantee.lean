/-
  RELY and GUARANTEE for threads over one shared state.

  `Relies` follows a program that makes the same number of calls whatever it is answered.  Where the
  answers decide which calls are made, the number is only bounded:

  1. `Assures` — as long as the other threads keep the facts, the program calls operations of its
     GUARANTEE only, at most so many of them, and ends with a result and a state as they should be.

  2. The rules — sequences and guarded programs are taken apart as usual, and their bounds add up
     (`assures_bind`, `assures_tryCatch`).

  3. The PARALLEL rule — when what each thread guarantees keeps the facts of all the others, every
     thread of a pool assures what it assures on its own, in every interleaving
     (`assures_runSchedule`).  It has ended once it has had its turns (`ended_of_assures`), and its
     outcome is as it should be from then on (`outcome_of_assures`).

  4. One INVARIANT of the state for all threads is the simplest such agreement: where it holds, calls
     are answered as the programs rely on, and the calls they make keep it (`invariant_runSchedule`).
-/
import PoiexGoc.Lib.Rely

namespace Effect

variable {S : Signature} {ε σ ι κ α β : Type} {h : Handler S ε σ} {fact : κ → σ → Prop}
  {P : S.Op → Prop}

/-- The result is a value, in `R` of the state. -/
def Returns (R : α → σ → Prop) (r : Except ε α) (s : σ) : Prop := ∃ a, r = .ok a ∧ R a s

/-- What holds as long as the facts that hold now still do. -/
def Stable (fact : κ → σ → Prop) (J : σ → Prop) : Prop := ∀ s s', Keeps fact s s' → J s → J s'

/-- A condition on the value alone says nothing about the state. -/
theorem Stable.and_left {J : σ → Prop} (hJ : Stable fact J) (p : Prop) :
    Stable fact fun s => p ∧ J s :=
  fun s s' hkeep hs => ⟨hs.1, hJ s s' hkeep hs.2⟩

namespace Prog

/-- Whatever the other threads do between the calls, as long as they keep the facts, the program
    makes at most `n` calls, of operations in `P`, and ends with a result and a state in `Q`. -/
def Assures (h : Handler S ε σ) (fact : κ → σ → Prop) (P : S.Op → Prop)
    (Q : Except ε α → σ → Prop) : Prog S ε α → Nat → σ → Prop
  | done r, _, s => ∀ s', Keeps fact s s' → Q r s'
  | call _ _, 0, _ => False
  | call o k, n + 1, s =>
    P o ∧ ∀ s', Keeps fact s s' → (k (h o s').1).Assures h fact P Q n (h o s').2

variable {n m : Nat} {s : σ}

/-- Other threads may move before the program goes on. -/
theorem Assures.keeps {Q : Except ε α → σ → Prop} {p : Prog S ε α} {s' : σ}
    (hp : p.Assures h fact P Q n s) (hkeep : Keeps fact s s') : p.Assures h fact P Q n s' := by
  cases p with
  | done r => exact fun s'' hs'' => hp s'' (hkeep.trans hs'')
  | call o k =>
    cases n with
    | zero => exact hp.elim
    | succ n => exact ⟨hp.1, fun s'' hs'' => hp.2 s'' (hkeep.trans hs'')⟩

/-- A bound may be exceeded by no more than a larger one. -/
theorem Assures.le {Q : Except ε α → σ → Prop} {p : Prog S ε α} (hp : p.Assures h fact P Q n s)
    (hle : n ≤ m) : p.Assures h fact P Q m s := by
  induction p generalizing n m s with
  | done r => exact hp
  | call o k ih =>
    cases n with
    | zero => exact hp.elim
    | succ n =>
      obtain ⟨m, rfl⟩ : ∃ m', m = m' + 1 := ⟨m - 1, by omega⟩
      exact ⟨hp.1, fun s' hkeep => ih _ (hp.2 s' hkeep) (Nat.le_of_succ_le_succ hle)⟩

theorem Assures.mono {Q Q' : Except ε α → σ → Prop} (hQ : ∀ r s, Q r s → Q' r s)
    {p : Prog S ε α} (hp : p.Assures h fact P Q n s) : p.Assures h fact P Q' n s := by
  induction p generalizing n s with
  | done r => exact fun s' hkeep => hQ r s' (hp s' hkeep)
  | call o k ih =>
    cases n with
    | zero => exact hp.elim
    | succ n => exact ⟨hp.1, fun s' hkeep => ih _ (hp.2 s' hkeep)⟩

theorem assures_pure {R : α → σ → Prop} {a : α} (ha : Stable fact (R a)) (hs : R a s) :
    (done (.ok a) : Prog S ε α).Assures h fact P (Returns R) n s :=
  fun s' hkeep => ⟨a, rfl, ha s s' hkeep hs⟩

theorem assures_throw {E : ε → Prop} {e : ε} (he : E e) :
    (done (.error e) : Prog S ε α).Assures h fact P (Raises E) n s :=
  fun _ _ => ⟨e, rfl, he⟩

/-- A call that is made where `J` holds, and is answered in `R` of the state it leaves. -/
theorem assures_perform {o : S.Op} (ho : P o) {J : σ → Prop} (hJ : Stable fact J) (hs : J s)
    {R : S.Res o → σ → Prop} (hR : ∀ a, Stable fact (R a))
    (step : ∀ s', J s' → Returns R (h o s').1 (h o s').2) :
    (perform o : Prog S ε (S.Res o)).Assures h fact P (Returns R) 1 s := by
  refine ⟨ho, fun s' hkeep => ?_⟩
  obtain ⟨a, hans, ha⟩ := step s' (hJ s s' hkeep hs)
  intro s'' hkeep'
  exact ⟨a, hans, hR a _ s'' hkeep' ha⟩

theorem assures_bind {R : α → σ → Prop} {Q : Except ε β → σ → Prop} {p : Prog S ε α}
    {f : α → Prog S ε β} (hp : p.Assures h fact P (Returns R) n s)
    (rest : ∀ a s', R a s' → (f a).Assures h fact P Q m s') :
    (p >>= f).Assures h fact P Q (m + n) s := by
  induction p generalizing n s with
  | done r =>
    obtain ⟨a, rfl, ha⟩ := hp s (Keeps.refl s)
    exact (rest a s ha).le (Nat.le_add_right m n)
  | call o k ih =>
    cases n with
    | zero => exact hp.elim
    | succ n => exact ⟨hp.1, fun s' hkeep => ih _ (hp.2 s' hkeep)⟩

/-- An exception skips the rest of a sequence. -/
theorem assures_bind_error {E : ε → Prop} {p : Prog S ε α}
    (hp : p.Assures h fact P (Raises E) n s) (f : α → Prog S ε β) :
    (p >>= f).Assures h fact P (Raises E) n s := by
  induction p generalizing n s with
  | done r =>
    obtain ⟨e, rfl, he⟩ := hp s (Keeps.refl s)
    exact fun _ _ => ⟨e, rfl, he⟩
  | call o k ih =>
    cases n with
    | zero => exact hp.elim
    | succ n => exact ⟨hp.1, fun s' hkeep => ih _ (hp.2 s' hkeep)⟩

/-- A value leaves a guarded program. -/
theorem assures_tryCatch {R : α → σ → Prop} {p : Prog S ε α}
    (hp : p.Assures h fact P (Returns R) n s) (f : ε → Prog S ε α) :
    (p.tryCatch f).Assures h fact P (Returns R) n s := by
  induction p generalizing n s with
  | done r =>
    obtain ⟨a, rfl, -⟩ := hp s (Keeps.refl s)
    exact hp
  | call o k ih =>
    cases n with
    | zero => exact hp.elim
    | succ n => exact ⟨hp.1, fun s' hkeep => ih _ (hp.2 s' hkeep)⟩

/-- An exception of the guarded program is handled. -/
theorem assures_tryCatch_error {E : ε → Prop} {Q : Except ε α → σ → Prop} {p : Prog S ε α}
    {f : ε → Prog S ε α} (hp : p.Assures h fact P (Raises E) n s)
    (rest : ∀ e s', E e → (f e).Assures h fact P Q m s') :
    (p.tryCatch f).Assures h fact P Q (m + n) s := by
  induction p generalizing n s with
  | done r =>
    obtain ⟨e, rfl, he⟩ := hp s (Keeps.refl s)
    exact (rest e s he).le (Nat.le_add_right m n)
  | call o k ih =>
    cases n with
    | zero => exact hp.elim
    | succ n => exact ⟨hp.1, fun s' hkeep => ih _ (hp.2 s' hkeep)⟩

/-- With its exception as a value, a program ends as before. -/
theorem assures_attempt {Q : Except ε α → σ → Prop} {p : Prog S ε α}
    (hp : p.Assures h fact P Q n s) : p.attempt.Assures h fact P (Returns Q) n s := by
  induction p generalizing n s with
  | done r => exact fun s' hkeep => ⟨r, rfl, hp s' hkeep⟩
  | call o k ih =>
    cases n with
    | zero => exact hp.elim
    | succ n => exact ⟨hp.1, fun s' hkeep => ih _ (hp.2 s' hkeep)⟩

end Prog

namespace Pool

variable {α : ι → Type} [DecidableEq ι] {fact : ι → κ → σ → Prop} {P : ι → S.Op → Prop}
  {Q : (i : ι) → Except ε (α i) → σ → Prop} {n : ι → Nat}

/-- Every thread assures its `Q` from the state the pool is in. -/
def AllAssure (h : Handler S ε σ) (fact : ι → κ → σ → Prop) (P : ι → S.Op → Prop)
    (Q : (i : ι) → Except ε (α i) → σ → Prop) (n : ι → Nat) (pool : Pool S ε σ ι α) : Prop :=
  ∀ i, (pool.threads i).Assures h (fact i) (P i) (Q i) (n i) pool.state

/-- A step of one thread is a move of the others' environment, and one call less for itself. -/
theorem AllAssure.step
    (compatible : ∀ i j, i ≠ j → ∀ o s, P j o → Keeps (fact i) s (h o s).2)
    {pool : Pool S ε σ ι α} (hpool : pool.AllAssure h fact P Q n) (j : ι) :
    ∀ i, ((pool.step h j).threads i).Assures h (fact i) (P i) (Q i) (n i - [j].count i)
      (pool.step h j).state := by
  intro i
  cases hj : pool.threads j with
  | done r =>
    rw [step_of_done hj]
    by_cases hij : i = j
    · subst hij
      have hi := hpool i
      rw [hj] at hi ⊢
      exact hi
    · rw [List.count_cons_of_ne (Ne.symm hij), List.count_nil, Nat.sub_zero]
      exact hpool i
  | call o k =>
    have hassures := hpool j
    rw [hj] at hassures
    cases hn : n j with
    | zero =>
      rw [hn] at hassures
      exact hassures.elim
    | succ m =>
      rw [hn] at hassures
      rw [step_state_of_call hj]
      by_cases hij : i = j
      · subst hij
        rw [step_threads_self hj, hn, List.count_singleton_self, Nat.add_sub_cancel]
        exact hassures.2 _ (Keeps.refl _)
      · rw [step_threads_ne h pool hij, List.count_cons_of_ne (Ne.symm hij), List.count_nil,
          Nat.sub_zero]
        exact (hpool i).keeps (compatible i j hij o pool.state hassures.1)

/-- Threads whose guarantees keep each other's facts assure together what each assures alone.
    Induction on the schedule. -/
theorem assures_runSchedule
    (compatible : ∀ i j, i ≠ j → ∀ o s, P j o → Keeps (fact i) s (h o s).2)
    {pool : Pool S ε σ ι α} (hpool : pool.AllAssure h fact P Q n) (sched : List ι) :
    ∀ i, ((runSchedule h sched pool).threads i).Assures h (fact i) (P i) (Q i)
      (n i - sched.count i) (runSchedule h sched pool).state := by
  induction sched generalizing pool n with
  | nil => exact hpool
  | cons j sched ih =>
    intro i
    have hrest := @ih (fun i => n i - [j].count i) _ (hpool.step compatible j) i
    rw [Nat.sub_sub, ← List.count_append] at hrest
    exact hrest

/-- A thread has ended when it has had its turns. -/
theorem ended_of_assures
    (compatible : ∀ i j, i ≠ j → ∀ o s, P j o → Keeps (fact i) s (h o s).2)
    {pool : Pool S ε σ ι α} (hpool : pool.AllAssure h fact P Q n) {sched : List ι} {i : ι}
    (hturns : n i ≤ sched.count i) : ∃ r, (runSchedule h sched pool).outcome i = some r := by
  have hend := assures_runSchedule compatible hpool sched i
  rw [Nat.sub_eq_zero_of_le hturns] at hend
  cases hi : (runSchedule h sched pool).threads i with
  | done r => exact ⟨r, outcome_eq_some.mpr hi⟩
  | call o k =>
    rw [hi] at hend
    exact hend.elim

/-- A thread that has ended keeps what it assured, whatever the others do afterwards. -/
theorem outcome_of_assures
    (compatible : ∀ i j, i ≠ j → ∀ o s, P j o → Keeps (fact i) s (h o s).2)
    {pool : Pool S ε σ ι α} (hpool : pool.AllAssure h fact P Q n) (sched more : List ι) {i : ι}
    {r : Except ε (α i)} (hdone : (runSchedule h sched pool).outcome i = some r) :
    Q i r (runSchedule h (sched ++ more) pool).state := by
  have hend := assures_runSchedule compatible hpool (sched ++ more) i
  rw [runSchedule_append] at hend ⊢
  rw [threads_eq_of_done more (outcome_eq_some.mp hdone)] at hend
  exact hend _ (Keeps.refl _)

/-- Every thread meets its `Q` with calls in its `P`, relying on answers in `A`. -/
def AllMeet (A : (o : S.Op) → Except ε (S.Res o) → Prop) (P : ι → S.Op → Prop)
    (Q : (i : ι) → Except ε (α i) → Prop) (pool : Pool S ε σ ι α) : Prop :=
  ∀ i, (pool.threads i).Meets A (P i) (Q i)

/-- Threads that rely on an invariant, and whose calls keep it, go on doing both in every
    interleaving.  Induction on the schedule. -/
theorem invariant_runSchedule {A : (o : S.Op) → Except ε (S.Res o) → Prop}
    {Q : (i : ι) → Except ε (α i) → Prop} {J : σ → Prop}
    (keep : ∀ i o s, P i o → J s → J (h o s).2) (answers : ∀ i o s, P i o → J s → A o (h o s).1)
    {pool : Pool S ε σ ι α} (hJ : J pool.state) (hpool : pool.AllMeet A P Q) (sched : List ι) :
    J (runSchedule h sched pool).state ∧ (runSchedule h sched pool).AllMeet A P Q ∧
      ∀ e ∈ events h sched pool, P e.1 e.2 := by
  induction sched generalizing pool with
  | nil => exact ⟨hJ, hpool, fun e he => nomatch he⟩
  | cons j sched ih =>
    have hj := hpool j
    cases hc : pool.threads j with
    | done r =>
      have hstep : pool.step h j = pool := step_of_done hc
      have hrest := ih hJ hpool
      rw [← hstep] at hrest
      refine ⟨hrest.1, hrest.2.1, fun e he => ?_⟩
      rcases mem_events_cons.mp he with ⟨hnext, -⟩ | he
      · obtain ⟨k, hcall⟩ := next_eq_some.mp hnext
        cases hc.symm.trans hcall
      · exact hrest.2.2 e he
    | call o k =>
      rw [hc] at hj
      have hJ' : J (pool.step h j).state := by
        rw [step_state_of_call hc]
        exact keep j o _ hj.1 hJ
      have hpool' : (pool.step h j).AllMeet A P Q := by
        intro i
        by_cases hij : i = j
        · subst hij
          rw [step_threads_self hc]
          exact hj.2 _ (answers i o _ hj.1 hJ)
        · rw [step_threads_ne h pool hij]
          exact hpool i
      obtain ⟨hend, hmeet, hevents⟩ := ih hJ' hpool'
      refine ⟨hend, hmeet, fun e he => ?_⟩
      rcases mem_events_cons.mp he with ⟨hnext, heq⟩ | he
      · obtain ⟨k', hcall⟩ := next_eq_some.mp hnext
        obtain rfl : o = e.2 := (Prog.call.inj (hc.symm.trans hcall)).1
        rw [heq]
        exact hj.1
      · exact hevents e he

end Pool

end Effect
