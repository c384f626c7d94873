/-
  TYPESTATE: the order in which a program makes its calls.

  A `Protocol` says, phase by phase, which calls are allowed, and which phase the answer of a call
  leads to.  A program FOLLOWS it from a phase when every call it can make is allowed where it
  makes it, whatever the answers (`Follows`); a phase may carry data, such as what is still owed.

  1. The rules follow the monad: `follows_bind`, `follows_tryCatch`, `follows_attempt`.  A program
     whose calls keep a phase stays in it (`follows_of_issues`).

  2. In a pool every thread has a phase of its own.  What one allowed call keeps, of the shared
     state and all the phases together, holds after every schedule, and every thread still follows
     the protocol from its phase (`follows_runSchedule`).

  3. So the phase of a thread says what it can do next (`allowed_of_next`), and one whose phase is
     not a final one is not finished (`next_isSome_of_follows`).
-/
import PoiexGoc.Lib.Interleave

namespace Effect

variable {S : Signature} {ε σ Φ ι : Type}

/-- The calls each phase allows, and the phase an answer leads to. -/
structure Protocol (S : Signature) (ε Φ : Type) where
  allowed : Φ → S.Op → Prop
  next : Φ → (o : S.Op) → Except ε (S.Res o) → Φ

namespace Prog

variable {α β : Type} {P : Protocol S ε Φ} {φ : Φ}

/-- Every call is allowed in the phase it is made in, and the program ends in `Q`. -/
def Follows (P : Protocol S ε Φ) (Q : Except ε α → Φ → Prop) : Prog S ε α → Φ → Prop
  | done r, φ => Q r φ
  | call o k, φ => P.allowed φ o ∧ ∀ r, (k r).Follows P Q (P.next φ o r)

theorem Follows.mono {Q Q' : Except ε α → Φ → Prop} {p : Prog S ε α} (hp : p.Follows P Q φ)
    (hQ : ∀ r φ', Q r φ' → Q' r φ') : p.Follows P Q' φ := by
  induction p generalizing φ with
  | done r => exact hQ r φ hp
  | call o k ih => exact ⟨hp.1, fun r => ih r (hp.2 r)⟩

theorem follows_bind {Q : Except ε α → Φ → Prop} {Q' : Except ε β → Φ → Prop} {p : Prog S ε α}
    {f : α → Prog S ε β} (hp : p.Follows P Q φ)
    (hok : ∀ a φ', Q (.ok a) φ' → (f a).Follows P Q' φ')
    (herror : ∀ e φ', Q (.error e) φ' → Q' (.error e) φ') : (p >>= f).Follows P Q' φ := by
  induction p generalizing φ with
  | done r =>
    cases r with
    | ok a => exact hok a φ hp
    | error e => exact herror e φ hp
  | call o k ih => exact ⟨hp.1, fun r => ih r (hp.2 r)⟩

theorem follows_tryCatch {Q Q' : Except ε α → Φ → Prop} {p : Prog S ε α} {f : ε → Prog S ε α}
    (hp : p.Follows P Q φ) (hok : ∀ a φ', Q (.ok a) φ' → Q' (.ok a) φ')
    (herror : ∀ e φ', Q (.error e) φ' → (f e).Follows P Q' φ') :
    (p.tryCatch f).Follows P Q' φ := by
  induction p generalizing φ with
  | done r =>
    cases r with
    | ok a => exact hok a φ hp
    | error e => exact herror e φ hp
  | call o k ih => exact ⟨hp.1, fun r => ih r (hp.2 r)⟩

theorem follows_attempt {Q : Except ε α → Φ → Prop} {Q' : Except ε (Except ε α) → Φ → Prop}
    {p : Prog S ε α} (hp : p.Follows P Q φ) (hQ : ∀ r φ', Q r φ' → Q' (.ok r) φ') :
    p.attempt.Follows P Q' φ := by
  induction p generalizing φ with
  | done r => exact hQ r φ hp
  | call o k ih => exact ⟨hp.1, fun r => ih r (hp.2 r)⟩

/-- Calls that a phase allows and that keep it. -/
theorem follows_of_issues {p : Prog S ε α}
    (hp : p.Issues fun o => P.allowed φ o ∧ ∀ r, P.next φ o r = φ) :
    p.Follows P (fun _ φ' => φ' = φ) φ := by
  induction p with
  | done r => rfl
  | call o k ih =>
    refine ⟨hp.1.1, fun r => ?_⟩
    rw [hp.1.2 r]
    exact ih r (hp.2 r)

end Prog

namespace Pool

variable {α : ι → Type} {P : Protocol S ε Φ} {pool : Pool S ε σ ι α}

/-- What a thread does next is allowed in its phase. -/
theorem allowed_of_next {i : ι} {Q : Except ε (α i) → Φ → Prop} {φ : Φ} {o : S.Op}
    (hi : (pool.threads i).Follows P Q φ) (hnext : pool.next i = some o) : P.allowed φ o := by
  obtain ⟨k, hcall⟩ := next_eq_some.mp hnext
  rw [hcall] at hi
  exact hi.1

/-- A thread that may not end in its phase has a call to make. -/
theorem next_isSome_of_follows {i : ι} {Q : Except ε (α i) → Φ → Prop} {φ : Φ}
    (hi : (pool.threads i).Follows P Q φ) (hopen : ∀ r, ¬ Q r φ) : ∃ o, pool.next i = some o := by
  cases hcall : pool.threads i with
  | done r =>
    rw [hcall] at hi
    exact absurd hi (hopen r)
  | call o k => exact ⟨o, next_of_call hcall⟩

variable [DecidableEq ι] {h : Handler S ε σ} {J : σ → (ι → Φ) → Prop}
  {Q : (i : ι) → Except ε (α i) → Φ → Prop} {φ : ι → Φ}

/-- Induction on the schedule: the call of one thread moves its own phase only. -/
theorem follows_runSchedule
    (step : ∀ s φ i o, J s φ → P.allowed (φ i) o →
      J (h o s).2 (Function.update φ i (P.next (φ i) o (h o s).1)))
    (sched : List ι) (hJ : J pool.state φ)
    (hfollows : ∀ i, (pool.threads i).Follows P (Q i) (φ i)) :
    ∃ φ' : ι → Φ, J (runSchedule h sched pool).state φ' ∧
      ∀ i, ((runSchedule h sched pool).threads i).Follows P (Q i) (φ' i) := by
  induction sched generalizing pool φ with
  | nil => exact ⟨φ, hJ, hfollows⟩
  | cons j sched ih =>
    cases hcall : pool.threads j with
    | done r =>
      rw [runSchedule, step_of_done hcall]
      exact ih hJ hfollows
    | call o k =>
      have hj := hfollows j
      rw [hcall] at hj
      refine @ih (pool.step h j) (Function.update φ j (P.next (φ j) o (h o pool.state).1)) ?_
        fun i => ?_
      · rw [step_state_of_call hcall]
        exact step _ _ _ _ hJ hj.1
      · by_cases hij : i = j
        · subst hij
          rw [step_threads_self hcall, Function.update_self]
          exact hj.2 _
        · rw [step_threads_ne h pool hij, Function.update_of_ne hij]
          exact hfollows i

end Pool

end Effect
