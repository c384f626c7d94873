/-
  SNAPSHOTS: what a thread has seen that looks at everything once.

  Between the calls of a thread the others change the shared state, so its answers come from different
  states.  If it makes at most one call about each cell, they still are the answers of ONE content:
  each cell as it was when the thread looked at it.

  1. `Mixes` — contents can be put together cell by cell, and an operation is answered by the content
     its cell was taken from.

  2. `exists_snapshot` — in every interleaving, and whatever the other threads do: the thread has the
     result it has on some content whose cells are all from states the schedule passes through.

  3. A thread that comes back to a cell may see it twice, but still in states the schedule passes
     through (`meets_passing`), and its later calls in later ones (`first_call`).
-/
import PoiexGoc.Lib.Serializability

namespace Effect

variable {S : Signature} {ε σ τ κ ι β : Type}

theorem Prog.eval_congr {ans ans' : (o : S.Op) → Except ε (S.Res o)} {P : S.Op → Prop}
    (hans : ∀ o, P o → ans o = ans' o) {p : Prog S ε β} (hp : p.Issues P) :
    p.eval ans = p.eval ans' := by
  induction p with
  | done r => rfl
  | call o k ih =>
    rw [Prog.eval, Prog.eval, hans o hp.1]
    exact ih _ (hp.2 _)

/-- A content put together of others, cell by cell, answers as they do. -/
def Mixes (answers : τ → (o : S.Op) → Except ε (S.Res o)) (cell : S.Op → κ)
    (mix : (κ → τ) → τ) : Prop :=
  ∀ source o, answers (mix source) o = answers (source (cell o)) o

namespace Pool

variable {α : ι → Type} [DecidableEq ι] {h : Handler S ε σ}

/-- The schedule passes through the state. -/
def Passes (h : Handler S ε σ) (sched : List ι) (pool : Pool S ε σ ι α) (s : σ) : Prop :=
  ∃ pre post, pre ++ post = sched ∧ (runSchedule h pre pool).state = s

theorem passes_start (h : Handler S ε σ) (sched : List ι) (pool : Pool S ε σ ι α) :
    Passes h sched pool pool.state :=
  ⟨[], sched, rfl, rfl⟩

theorem Passes.cons {sched : List ι} {pool : Pool S ε σ ι α} {j : ι} {s : σ}
    (hs : Passes h sched (pool.step h j) s) : Passes h (j :: sched) pool s := by
  obtain ⟨pre, post, rfl, hstate⟩ := hs
  exact ⟨j :: pre, post, rfl, hstate⟩

variable [DecidableEq κ] {answers : τ → (o : S.Op) → Except ε (S.Res o)} {cell : S.Op → κ}
  {mix : (κ → τ) → τ} {view : σ → τ} {P : S.Op → Prop}

/-- A thread that makes at most one call about each cell ends as it does on a snapshot.  Induction on
    the schedule: the call it makes now sees its cell in the present state, and the rest of the
    thread, which does not come back to that cell, has a snapshot of later states. -/
theorem exists_snapshot (hmix : Mixes answers cell mix)
    (hview : ∀ o s, P o → (h o s).1 = answers (view s) o) {pool : Pool S ε σ ι α} {i : ι}
    (hissues : (pool.threads i).Issues P)
    (honce : ∀ k, (pool.threads i).Once fun o => cell o = k) {sched : List ι} {r : Except ε (α i)}
    (hdone : (runSchedule h sched pool).outcome i = some r) :
    ∃ source : κ → τ, (∀ k, ∃ s, Passes h sched pool s ∧ source k = view s) ∧
      r = (pool.threads i).eval (answers (mix source)) := by
  induction sched generalizing pool with
  | nil =>
    have hend : pool.threads i = .done r := outcome_eq_some.mp hdone
    refine ⟨fun _ => view pool.state, fun _ => ⟨_, passes_start h [] pool, rfl⟩, ?_⟩
    rw [hend]
    rfl
  | cons j sched ih =>
    by_cases hij : i = j
    · subst hij
      cases hc : pool.threads i with
      | done r' =>
        have hend := threads_eq_of_done (h := h) (i :: sched) hc
        rw [outcome_eq_some.mp hdone] at hend
        refine ⟨fun _ => view pool.state, fun _ => ⟨_, passes_start h _ pool, rfl⟩, ?_⟩
        exact Prog.done.inj hend
      | call o k =>
        rw [hc] at hissues honce
        have hself := step_threads_self (h := h) hc
        obtain ⟨source, hsource, hr⟩ := @ih (pool.step h i) (hself ▸ hissues.2 _)
          (fun key => hself ▸ (honce key _).1) hdone
        refine ⟨Function.update source (cell o) (view pool.state), fun key => ?_, ?_⟩
        · by_cases hkey : key = cell o
          · rw [hkey, Function.update_self]
            exact ⟨_, passes_start h _ pool, rfl⟩
          · rw [Function.update_of_ne hkey]
            obtain ⟨s, hs, hsrc⟩ := hsource key
            exact ⟨s, hs.cons, hsrc⟩
        · have hnow : answers (mix (Function.update source (cell o) (view pool.state))) o =
              (h o pool.state).1 := by
            rw [hmix, Function.update_self, hview o pool.state hissues.1]
          -- the rest does not look at this cell again
          have hrest : (k (h o pool.state).1).eval (answers (mix source)) =
              (k (h o pool.state).1).eval
                (answers (mix (Function.update source (cell o) (view pool.state)))) := by
            refine Prog.eval_congr (fun o' ho' => ?_) ((honce (cell o) _).2 rfl)
            rw [hmix, hmix, Function.update_of_ne ho']
          rw [hr, hself, Prog.eval, hnow, hrest]
    · have hother := step_threads_ne h pool hij
      obtain ⟨source, hsource, hr⟩ := @ih (pool.step h j) (hother ▸ hissues)
        (fun key => hother ▸ honce key) hdone
      refine ⟨source, fun key => ?_, ?_⟩
      · obtain ⟨s, hs, hsrc⟩ := hsource key
        exact ⟨s, hs.cons, hsrc⟩
      · rw [hr, hother]

omit [DecidableEq κ] in
/-- A thread is answered by the states the schedule passes through. -/
theorem meets_passing {A : (o : S.Op) → Except ε (S.Res o) → Prop} {P : S.Op → Prop} {i : ι}
    {Q : Except ε (α i) → Prop} {sched : List ι} {pool : Pool S ε σ ι α}
    (answers : ∀ o s, Passes h sched pool s → P o → A o (h o s).1)
    (hi : (pool.threads i).Meets A P Q) : ((runSchedule h sched pool).threads i).Meets A P Q := by
  induction sched generalizing pool with
  | nil => exact hi
  | cons j sched ih =>
    refine @ih (pool.step h j) (fun o s hs => answers o s hs.cons) ?_
    by_cases hij : i = j
    · subst hij
      cases hc : pool.threads i with
      | done r =>
        rw [step_of_done hc, hc]
        rw [hc] at hi
        exact hi
      | call o k =>
        rw [hc] at hi
        rw [step_threads_self hc]
        exact hi.2 _ (answers o _ (passes_start h _ pool) hi.1)
    · rw [step_threads_ne h pool hij]
      exact hi

/-- A thread that has ended has made the call it stood at. -/
theorem first_call {i : ι} {sched : List ι} {pool : Pool S ε σ ι α} {o : S.Op}
    {k : Except ε (S.Res o) → Prog S ε (α i)} (hcall : pool.threads i = .call o k)
    {r : Except ε (α i)} (hdone : (runSchedule h sched pool).outcome i = some r) :
    ∃ pre post, pre ++ i :: post = sched ∧ (runSchedule h pre pool).threads i = .call o k := by
  induction sched generalizing pool with
  | nil =>
    have hend : pool.threads i = .done r := outcome_eq_some.mp hdone
    cases hcall.symm.trans hend
  | cons j sched ih =>
    by_cases hij : i = j
    · subst hij
      exact ⟨[], sched, rfl, hcall⟩
    · have hwaiting : (pool.step h j).threads i = .call o k := by
        rw [step_threads_ne h pool hij]
        exact hcall
      obtain ⟨pre, post, rfl, hstands⟩ := ih hwaiting hdone
      exact ⟨j :: pre, post, rfl, hstands⟩

end Pool

end Effect
