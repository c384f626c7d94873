/-
  Programs that RELY on facts of the shared state.

  Between two calls of a thread the other threads may change the state, but there are facts they
  never make false (`Keeps`).  A program relies on them when, whatever else happens between its
  calls, it ends after a fixed number of calls with a result as it should be (`Relies`):
  * a call may use the facts that are known, and what it establishes is known from then on
    (`relies_perform`);
  * sequences and guarded programs are taken apart as usual, and their calls add up
    (`relies_bind`, `relies_bind_error`, `relies_tryCatch_error`);
  * in a pool whose other threads keep the facts, the thread ends as its program does, in EVERY
    interleaving (`relies_outcome`, `outcome_of_relies`).
-/
import PoiexGoc.Lib.Interleave

namespace Effect

variable {S : Signature} {ε σ ι κ α β : Type} {h : Handler S ε σ} {fact : κ → σ → Prop}

/-- No fact is lost. -/
def Keeps (fact : κ → σ → Prop) (s s' : σ) : Prop := ∀ k, fact k s → fact k s'

theorem Keeps.refl (s : σ) : Keeps fact s s := fun _ hk => hk

theorem Keeps.trans {s s' s'' : σ} (hs : Keeps fact s s') (hs' : Keeps fact s' s'') :
    Keeps fact s s'' :=
  fun k hk => hs' k (hs k hk)

/-- The facts of the list hold. -/
def Knows (fact : κ → σ → Prop) (known : List κ) (s : σ) : Prop := ∀ k ∈ known, fact k s

theorem Knows.nil (s : σ) : Knows fact [] s := fun _ hk => nomatch hk

theorem Knows.cons {known : List κ} {k : κ} {s : σ} (hk : fact k s) (hs : Knows fact known s) :
    Knows fact (k :: known) s := by
  intro k' hk'
  rcases List.mem_cons.mp hk' with rfl | hmem
  · exact hk
  · exact hs k' hmem

theorem Knows.keeps {known : List κ} {s s' : σ} (hs : Knows fact known s)
    (hkeep : Keeps fact s s') : Knows fact known s' :=
  fun k hk => hkeep k (hs k hk)

/-- The result is a value in `P`, and the facts are known. -/
def Yields (fact : κ → σ → Prop) (P : α → Prop) (known : List κ) (r : Except ε α) (s : σ) : Prop :=
  ∃ a, r = .ok a ∧ P a ∧ Knows fact known s

/-- The result is an exception in `E`. -/
def Raises (E : ε → Prop) (r : Except ε α) (_ : σ) : Prop := ∃ e, r = .error e ∧ E e

namespace Prog

/-- Whatever the other threads do between the calls, as long as they keep the facts, the program
    ends after `n` calls with a result and a state in `Q`. -/
def Relies (h : Handler S ε σ) (fact : κ → σ → Prop) (Q : Except ε α → σ → Prop) :
    Nat → Prog S ε α → σ → Prop
  | 0, done r, s => ∀ s', Keeps fact s s' → Q r s'
  | n + 1, call o k, s => ∀ s', Keeps fact s s' → (k (h o s').1).Relies h fact Q n (h o s').2
  | _, _, _ => False

variable {n m : Nat} {s : σ}

/-- Other threads may move before the program goes on. -/
theorem Relies.keeps {Q : Except ε α → σ → Prop} {p : Prog S ε α} {s' : σ}
    (hp : p.Relies h fact Q n s) (hkeep : Keeps fact s s') : p.Relies h fact Q n s' := by
  cases n with
  | zero =>
    cases p with
    | done r => exact fun s'' hs'' => hp s'' (hkeep.trans hs'')
    | call o k => exact hp.elim
  | succ n =>
    cases p with
    | done r => exact hp.elim
    | call o k => exact fun s'' hs'' => hp s'' (hkeep.trans hs'')

theorem relies_pure {P : α → Prop} {known : List κ} {a : α} (ha : P a)
    (hs : Knows fact known s) :
    (done (.ok a) : Prog S ε α).Relies h fact (Yields fact P known) 0 s :=
  fun _ hkeep => ⟨a, rfl, ha, hs.keeps hkeep⟩

theorem relies_throw {E : ε → Prop} {e : ε} (he : E e) :
    (done (.error e) : Prog S ε α).Relies h fact (Raises E) 0 s :=
  fun _ _ => ⟨e, rfl, he⟩

/-- A call that is answered in `P` wherever the known facts hold, and knows more afterwards. -/
theorem relies_perform {o : S.Op} {known known' : List κ} {P : S.Res o → Prop}
    (hs : Knows fact known s)
    (step : ∀ s', Knows fact known s' → Yields fact P known' (h o s').1 (h o s').2) :
    (perform o : Prog S ε (S.Res o)).Relies h fact (Yields fact P known') 1 s := by
  intro s' hkeep
  obtain ⟨a, hans, ha, hknown⟩ := step s' (hs.keeps hkeep)
  intro s'' hkeep'
  exact ⟨a, hans, ha, hknown.keeps hkeep'⟩

theorem relies_bind {P : α → Prop} {known : List κ} {Q : Except ε β → σ → Prop}
    {p : Prog S ε α} {f : α → Prog S ε β} (hp : p.Relies h fact (Yields fact P known) n s)
    (rest : ∀ a s', P a → Knows fact known s' → (f a).Relies h fact Q m s') :
    (p >>= f).Relies h fact Q (m + n) s := by
  induction n generalizing p s with
  | zero =>
    cases p with
    | done r =>
      obtain ⟨a, rfl, ha, hknown⟩ := hp s (Keeps.refl s)
      exact rest a s ha hknown
    | call o k => exact hp.elim
  | succ n ih =>
    cases p with
    | done r => exact hp.elim
    | call o k => exact fun s' hkeep => ih (hp s' hkeep)

/-- An exception skips the rest of a sequence. -/
theorem relies_bind_error {E : ε → Prop} {p : Prog S ε α}
    (hp : p.Relies h fact (Raises E) n s) (f : α → Prog S ε β) :
    (p >>= f).Relies h fact (Raises E) n s := by
  induction n generalizing p s with
  | zero =>
    cases p with
    | done r =>
      obtain ⟨e, rfl, he⟩ := hp s (Keeps.refl s)
      exact fun _ _ => ⟨e, rfl, he⟩
    | call o k => exact hp.elim
  | succ n ih =>
    cases p with
    | done r => exact hp.elim
    | call o k => exact fun s' hkeep => ih (hp s' hkeep)

/-- An exception of the guarded program is handled. -/
theorem relies_tryCatch_error {E : ε → Prop} {Q : Except ε α → σ → Prop} {p : Prog S ε α}
    {f : ε → Prog S ε α} (hp : p.Relies h fact (Raises E) n s)
    (rest : ∀ e s', E e → (f e).Relies h fact Q m s') :
    (p.tryCatch f).Relies h fact Q (m + n) s := by
  induction n generalizing p s with
  | zero =>
    cases p with
    | done r =>
      obtain ⟨e, rfl, he⟩ := hp s (Keeps.refl s)
      exact rest e s he
    | call o k => exact hp.elim
  | succ n ih =>
    cases p with
    | done r => exact hp.elim
    | call o k => exact fun s' hkeep => ih (hp s' hkeep)

/-- The sequential run is one of the interleavings. -/
theorem Relies.run {Q : Except ε α → σ → Prop} {p : Prog S ε α} (hp : p.Relies h fact Q n s) :
    Q (p.run h s).1 (p.run h s).2 ∧ p.turns h s = n := by
  induction n generalizing p s with
  | zero =>
    cases p with
    | done r => exact ⟨hp s (Keeps.refl s), rfl⟩
    | call o k => exact hp.elim
  | succ n ih =>
    cases p with
    | done r => exact hp.elim
    | call o k =>
      obtain ⟨hQ, hturns⟩ := ih (hp s (Keeps.refl s))
      exact ⟨hQ, congrArg (· + 1) hturns⟩

end Prog

namespace Pool

variable {α : ι → Type} [DecidableEq ι]

/-- Induction on the schedule: a step of `i` is a step of its program, and a step of another thread
    keeps the facts. -/
theorem relies_runSchedule {i : ι} {Q : Except ε (α i) → σ → Prop} {sched : List ι} {n : Nat}
    {pool : Pool S ε σ ι α}
    (others : ∀ e ∈ events h sched pool, e.1 ≠ i → ∀ s, Keeps fact s (h e.2 s).2)
    (hi : (pool.threads i).Relies h fact Q n pool.state) :
    ((runSchedule h sched pool).threads i).Relies h fact Q (n - sched.count i)
      (runSchedule h sched pool).state := by
  induction sched generalizing pool n with
  | nil => exact hi
  | cons j sched ih =>
    have hrest := fun n' => @ih n' (pool.step h j)
      fun e he => others e (mem_events_cons.mpr (Or.inr he))
    by_cases hij : i = j
    · subst hij
      rw [List.count_cons_self]
      cases n with
      | zero =>
        cases hp : pool.threads i with
        | call o k => rw [hp] at hi; exact hi.elim
        | done r =>
          -- it has ended before: a turn too many changes nothing
          have hstay := hrest 0
          rw [step_of_done hp, Nat.zero_sub] at hstay
          rw [Nat.zero_sub]
          show Prog.Relies h fact Q 0 ((runSchedule h sched (pool.step h i)).threads i)
            (runSchedule h sched (pool.step h i)).state
          rw [step_of_done hp]
          exact hstay hi
      | succ n =>
        rw [Nat.add_sub_add_right]
        refine hrest n ?_
        cases hp : pool.threads i with
        | done r => rw [hp] at hi; exact hi.elim
        | call o k =>
          rw [hp] at hi
          rw [step_state_of_call hp, step_threads_self hp]
          exact hi _ (Keeps.refl _)
    · rw [List.count_cons_of_ne (Ne.symm hij)]
      refine hrest n ?_
      -- another thread moves: the program stays where it is, the facts stay true
      rw [step_threads_ne h pool hij]
      cases hnext : pool.next j with
      | none =>
        rw [step_of_idle hnext]
        exact hi
      | some o =>
        obtain ⟨k, hj⟩ := next_eq_some.mp hnext
        rw [step_state_of_call hj]
        exact hi.keeps (others (j, o) (mem_events_cons.mpr (Or.inl ⟨hnext, rfl⟩)) (Ne.symm hij) _)

/-- The thread ends as its program does. -/
theorem relies_outcome {i : ι} {Q : Except ε (α i) → σ → Prop} {sched : List ι} {n : Nat}
    {pool : Pool S ε σ ι α} {r : Except ε (α i)}
    (others : ∀ e ∈ events h sched pool, e.1 ≠ i → ∀ s, Keeps fact s (h e.2 s).2)
    (hi : (pool.threads i).Relies h fact Q n pool.state)
    (hdone : (runSchedule h sched pool).outcome i = some r) :
    Q r (runSchedule h sched pool).state := by
  have hend := relies_runSchedule others hi
  rw [outcome_eq_some.mp hdone] at hend
  cases hn : n - sched.count i with
  | zero =>
    rw [hn] at hend
    exact hend _ (Keeps.refl _)
  | succ m =>
    rw [hn] at hend
    exact hend.elim

/-- And it has ended when it has had its turns. -/
theorem outcome_of_relies {i : ι} {Q : Except ε (α i) → σ → Prop} {sched : List ι} {n : Nat}
    {pool : Pool S ε σ ι α}
    (others : ∀ e ∈ events h sched pool, e.1 ≠ i → ∀ s, Keeps fact s (h e.2 s).2)
    (hi : (pool.threads i).Relies h fact Q n pool.state) (hturns : n ≤ sched.count i) :
    ∃ r, (runSchedule h sched pool).outcome i = some r := by
  have hend := relies_runSchedule others hi
  rw [Nat.sub_eq_zero_of_le hturns] at hend
  cases hp : (runSchedule h sched pool).threads i with
  | done r => exact ⟨r, outcome_eq_some.mpr hp⟩
  | call o k =>
    rw [hp] at hend
    exact hend.elim

end Pool

end Effect
