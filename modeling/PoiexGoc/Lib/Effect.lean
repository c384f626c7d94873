/-
  Programs over an effect SIGNATURE, and the handlers that run them.

  A program of `Prog S ε α` either is finished, with a value or an exception, or calls one
  operation of the signature and continues with whatever the call answered — an answer may be an
  exception too, so `tryCatch` sees what a handler raises.  Nothing is said about what the
  operations DO: that is a `Handler` over a state, and one program runs under many handlers (two
  storage backends, an abstract model of them, a scheduler that interleaves several programs).

  What is proved here is what every such use needs, once:
  * `run_bind`, `run_tryCatch` — sequential runs follow the monad;
  * `Issues` — a syntactic bound on the operations a program can call, with its rules;
  * `Meets` — what it calls and returns when the answers it gets can be relied on;
  * `Indifferent` — which answers it does not tell apart;
  * `Opens` — what it calls first;
  * `run_simulation` — handlers that agree step by step agree on whole programs;
  * `run_agrees` — handlers need only agree on the operations a run performs (`ops`);
  * `run_invariant` — a property kept by every operation is kept by every program;
  * `run_of_reads` — a program that only reads is the pure function `eval` of the answers;
  * `withFault` — a handler one of whose writes fails.
-/

namespace Effect

/-- An effect signature: the operations and the type each of them answers with. -/
structure Signature where
  Op : Type
  Res : Op → Type

/-- A program: finished with a result, or one call and a continuation for its answer. -/
inductive Prog (S : Signature) (ε α : Type) : Type where
  | done (r : Except ε α) : Prog S ε α
  | call (o : S.Op) (k : Except ε (S.Res o) → Prog S ε α) : Prog S ε α

/-- What an operation answers and which state it leaves.  A raising operation still names the
    state it leaves behind: exceptions do not roll anything back. -/
abbrev Handler (S : Signature) (ε σ : Type) := (o : S.Op) → σ → Except ε (S.Res o) × σ

variable {S : Signature} {ε σ τ α β γ : Type}

namespace Prog

/-! ## The monad of programs -/

/-- Sequencing: an exception of the first program skips the second. -/
def bind : Prog S ε α → (α → Prog S ε β) → Prog S ε β
  | done (.ok a), f => f a
  | done (.error e), _ => done (.error e)
  | call o k, f => call o fun r => (k r).bind f

/-- Run the second program on the exception of the first, if it raises one. -/
def tryCatch : Prog S ε α → (ε → Prog S ε α) → Prog S ε α
  | done (.ok a), _ => done (.ok a)
  | done (.error e), f => f e
  | call o k, f => call o fun r => (k r).tryCatch f

/-- One call whose answer is the result of the program. -/
def perform (o : S.Op) : Prog S ε (S.Res o) := call o done

instance : Monad (Prog S ε) where
  pure a := done (.ok a)
  bind := bind

instance : MonadExceptOf ε (Prog S ε) where
  throw e := done (.error e)
  tryCatch := tryCatch

@[simp] theorem done_ok_bind (a : α) (f : α → Prog S ε β) :
    (done (.ok a) >>= f : Prog S ε β) = f a := rfl

@[simp] theorem done_error_bind (e : ε) (f : α → Prog S ε β) :
    (done (.error e) >>= f : Prog S ε β) = done (.error e) := rfl

@[simp] theorem call_bind (o : S.Op) (k : Except ε (S.Res o) → Prog S ε α)
    (f : α → Prog S ε β) : (call o k >>= f : Prog S ε β) = call o fun r => k r >>= f := rfl

theorem bind_pure' (p : Prog S ε α) : (p >>= fun a => done (.ok a)) = p := by
  induction p with
  | done r => cases r <;> rfl
  | call o k ih =>
    rw [call_bind]
    congr 1
    funext r
    exact ih r

theorem bind_assoc' (p : Prog S ε α) (f : α → Prog S ε β) (g : β → Prog S ε γ) :
    (p >>= f) >>= g = p >>= fun a => f a >>= g := by
  induction p with
  | done r => cases r <;> rfl
  | call o k ih =>
    rw [call_bind, call_bind, call_bind]
    congr 1
    funext r
    exact ih r

instance : LawfulMonad (Prog S ε) :=
  LawfulMonad.mk' _ (fun p => bind_pure' p) (fun _ _ => rfl) bind_assoc'

/-! ## Running a program under a handler -/

/-- The sequential run: every call is answered by the handler, in order. -/
def run (h : Handler S ε σ) : Prog S ε α → σ → Except ε α × σ
  | done r, s => (r, s)
  | call o k, s => (k (h o s).1).run h (h o s).2

@[simp] theorem run_done (h : Handler S ε σ) (r : Except ε α) (s : σ) :
    (done r : Prog S ε α).run h s = (r, s) := rfl

@[simp] theorem run_call (h : Handler S ε σ) (o : S.Op)
    (k : Except ε (S.Res o) → Prog S ε α) (s : σ) :
    (call o k).run h s = (k (h o s).1).run h (h o s).2 := rfl

/-- A run of a sequence is the run of the first part, then of the rest from where it ended. -/
theorem run_bind (h : Handler S ε σ) (p : Prog S ε α) (f : α → Prog S ε β) (s : σ) :
    (p >>= f).run h s =
      match p.run h s with
      | (.ok a, s') => (f a).run h s'
      | (.error e, s') => (.error e, s') := by
  induction p generalizing s with
  | done r => cases r <;> rfl
  | call o k ih => exact ih (h o s).1 (h o s).2

theorem run_bind_ok {h : Handler S ε σ} {p : Prog S ε α} {s s' : σ} {a : α}
    (hp : p.run h s = (.ok a, s')) (f : α → Prog S ε β) :
    (p >>= f).run h s = (f a).run h s' := by
  rw [run_bind, hp]

theorem run_bind_error {h : Handler S ε σ} {p : Prog S ε α} {s s' : σ} {e : ε}
    (hp : p.run h s = (.error e, s')) (f : α → Prog S ε β) :
    (p >>= f).run h s = (.error e, s') := by
  rw [run_bind, hp]

/-- A sequence returns when both parts do, one after the other. -/
theorem run_bind_eq_ok {h : Handler S ε σ} {p : Prog S ε α} {f : α → Prog S ε β} {s t : σ} {b : β} :
    (p >>= f).run h s = (.ok b, t) ↔
      ∃ a s', p.run h s = (.ok a, s') ∧ (f a).run h s' = (.ok b, t) := by
  constructor
  · intro hrun
    rw [run_bind] at hrun
    match hp : p.run h s with
    | (.ok a, s') =>
      rw [hp] at hrun
      exact ⟨a, s', rfl, hrun⟩
    | (.error e, s') =>
      rw [hp] at hrun
      cases hrun
  · rintro ⟨a, s', hp, hf⟩
    exact (run_bind_ok hp f).trans hf

/-- A guarded run: the handler of exceptions starts in the state the exception left. -/
theorem run_tryCatch (h : Handler S ε σ) (p : Prog S ε α) (f : ε → Prog S ε α) (s : σ) :
    (p.tryCatch f).run h s =
      match p.run h s with
      | (.ok a, s') => (.ok a, s')
      | (.error e, s') => (f e).run h s' := by
  induction p generalizing s with
  | done r => cases r <;> rfl
  | call o k ih => exact ih (h o s).1 (h o s).2

/-- The program with its exception as a value. -/
def attempt : Prog S ε α → Prog S ε (Except ε α)
  | done r => done (.ok r)
  | call o k => call o fun r => (k r).attempt

theorem run_attempt (h : Handler S ε σ) (p : Prog S ε α) (s : σ) :
    p.attempt.run h s = (.ok (p.run h s).1, (p.run h s).2) := by
  induction p generalizing s with
  | done r => rfl
  | call o k ih => exact ih (h o s).1 (h o s).2

/-- How many calls the sequential run makes. -/
def turns (h : Handler S ε σ) : Prog S ε α → σ → Nat
  | done _, _ => 0
  | call o k, s => (k (h o s).1).turns h (h o s).2 + 1

/-- The operations the sequential run performs, in order. -/
def ops (h : Handler S ε σ) : Prog S ε α → σ → List S.Op
  | done _, _ => []
  | call o k, s => o :: (k (h o s).1).ops h (h o s).2

/-! ## The operations a program can call -/

/-- Every call the program can make, whatever the answers, satisfies `P`. -/
def Issues (P : S.Op → Prop) : Prog S ε α → Prop
  | done _ => True
  | call o k => P o ∧ ∀ r, (k r).Issues P

@[simp] theorem issues_perform (P : S.Op → Prop) (o : S.Op) :
    (perform o : Prog S ε (S.Res o)).Issues P ↔ P o :=
  ⟨fun h => h.1, fun h => ⟨h, fun _ => trivial⟩⟩

theorem issues_bind {P : S.Op → Prop} {p : Prog S ε α} {f : α → Prog S ε β}
    (hp : p.Issues P) (hf : ∀ a, (f a).Issues P) : (p >>= f).Issues P := by
  induction p with
  | done r =>
    cases r with
    | ok a => exact hf a
    | error e => trivial
  | call o k ih => exact ⟨hp.1, fun r => ih r (hp.2 r)⟩

theorem issues_tryCatch {P : S.Op → Prop} {p : Prog S ε α} {f : ε → Prog S ε α}
    (hp : p.Issues P) (hf : ∀ e, (f e).Issues P) : (p.tryCatch f).Issues P := by
  induction p with
  | done r =>
    cases r with
    | ok a => trivial
    | error e => exact hf e
  | call o k ih => exact ⟨hp.1, fun r => ih r (hp.2 r)⟩

theorem issues_attempt {P : S.Op → Prop} {p : Prog S ε α} (hp : p.Issues P) :
    p.attempt.Issues P := by
  induction p with
  | done r => trivial
  | call o k ih => exact ⟨hp.1, fun r => ih r (hp.2 r)⟩

theorem issues_any (p : Prog S ε α) : p.Issues fun _ => True := by
  induction p with
  | done r => trivial
  | call o k ih => exact ⟨trivial, ih⟩

theorem Issues.mono {P Q : S.Op → Prop} (hPQ : ∀ o, P o → Q o) {p : Prog S ε α}
    (hp : p.Issues P) : p.Issues Q := by
  induction p with
  | done r => trivial
  | call o k ih => exact ⟨hPQ o hp.1, fun r => ih r (hp.2 r)⟩

/-! ## What a program does when its answers can be relied on -/

/-- Relying on answers in `A`, the program calls operations in `P` only and ends with a result in
    `Q`. -/
def Meets (A : (o : S.Op) → Except ε (S.Res o) → Prop) (P : S.Op → Prop)
    (Q : Except ε α → Prop) : Prog S ε α → Prop
  | done r => Q r
  | call o k => P o ∧ ∀ r, A o r → (k r).Meets A P Q

section Meets

variable {A : (o : S.Op) → Except ε (S.Res o) → Prop} {P : S.Op → Prop}

theorem Issues.meets (A : (o : S.Op) → Except ε (S.Res o) → Prop) {p : Prog S ε α}
    (hp : p.Issues P) : p.Meets A P fun _ => True := by
  induction p with
  | done r => trivial
  | call o k ih => exact ⟨hp.1, fun r _ => ih r (hp.2 r)⟩

theorem meets_perform {o : S.Op} (hP : P o) : (perform o : Prog S ε (S.Res o)).Meets A P (A o) :=
  ⟨hP, fun _ hr => hr⟩

theorem meets_bind {Q : Except ε α → Prop} {Q' : Except ε β → Prop} {p : Prog S ε α}
    {f : α → Prog S ε β} (hp : p.Meets A P Q) (hok : ∀ a, Q (.ok a) → (f a).Meets A P Q')
    (herror : ∀ e, Q (.error e) → Q' (.error e)) : (p >>= f).Meets A P Q' := by
  induction p with
  | done r =>
    cases r with
    | ok a => exact hok a hp
    | error e => exact herror e hp
  | call o k ih => exact ⟨hp.1, fun r hr => ih r (hp.2 r hr)⟩

/-- What is only asked of a returned value is not asked of an exception. -/
theorem meets_bind_ok {Q : Except ε α → Prop} {R : β → Prop} {p : Prog S ε α}
    {f : α → Prog S ε β} (hp : p.Meets A P Q)
    (hok : ∀ a, Q (.ok a) → (f a).Meets A P fun r => ∀ b, r = .ok b → R b) :
    (p >>= f).Meets A P fun r => ∀ b, r = .ok b → R b := by
  refine meets_bind hp hok fun e _ b hb => ?_
  cases hb

theorem meets_tryCatch {Q Q' : Except ε α → Prop} {p : Prog S ε α} {f : ε → Prog S ε α}
    (hp : p.Meets A P Q) (hok : ∀ a, Q (.ok a) → Q' (.ok a))
    (herror : ∀ e, Q (.error e) → (f e).Meets A P Q') : (p.tryCatch f).Meets A P Q' := by
  induction p with
  | done r =>
    cases r with
    | ok a => exact hok a hp
    | error e => exact herror e hp
  | call o k ih => exact ⟨hp.1, fun r hr => ih r (hp.2 r hr)⟩

theorem Meets.mono {P' : S.Op → Prop} {Q Q' : Except ε α → Prop} (hP : ∀ o, P o → P' o)
    (hQ : ∀ r, Q r → Q' r) {p : Prog S ε α} (hp : p.Meets A P Q) : p.Meets A P' Q' := by
  induction p with
  | done r => exact hQ r hp
  | call o k ih => exact ⟨hP o hp.1, fun r hr => ih r (hp.2 r hr)⟩

/-- Stronger answers may be relied on. -/
theorem Meets.rely {A' : (o : S.Op) → Except ε (S.Res o) → Prop} {Q : Except ε α → Prop}
    (hA : ∀ o r, A' o r → A o r) {p : Prog S ε α} (hp : p.Meets A P Q) : p.Meets A' P Q := by
  induction p with
  | done r => exact hp
  | call o k ih => exact ⟨hp.1, fun r hr => ih r (hp.2 r (hA o r hr))⟩

theorem Meets.and {P' : S.Op → Prop} {Q Q' : Except ε α → Prop} {p : Prog S ε α}
    (hp : p.Meets A P Q) (hp' : p.Meets A P' Q') :
    p.Meets A (fun o => P o ∧ P' o) fun r => Q r ∧ Q' r := by
  induction p with
  | done r => exact ⟨hp, hp'⟩
  | call o k ih => exact ⟨⟨hp.1, hp'.1⟩, fun r hr => ih r (hp.2 r hr) (hp'.2 r hr)⟩

/-- With its exception as a value, a program ends as before. -/
theorem meets_attempt {Q : Except ε α → Prop} {p : Prog S ε α} (hp : p.Meets A P Q) :
    p.attempt.Meets A P fun r => ∃ a, r = .ok a ∧ Q a := by
  induction p with
  | done r => exact ⟨r, rfl, hp⟩
  | call o k ih => exact ⟨hp.1, fun r hr => ih r (hp.2 r hr)⟩

end Meets

/-! ## Answers a program does not tell apart -/

/-- After answers that `A` relates the program goes on in the same way. -/
def Indifferent (A : (o : S.Op) → Except ε (S.Res o) → Except ε (S.Res o) → Prop) :
    Prog S ε α → Prop
  | done _ => True
  | call o k => (∀ r r', A o r r' → k r = k r') ∧ ∀ r, (k r).Indifferent A

section Indifferent

variable {A : (o : S.Op) → Except ε (S.Res o) → Except ε (S.Res o) → Prop}

theorem indifferent_bind {p : Prog S ε α} {f : α → Prog S ε β} (hp : p.Indifferent A)
    (hf : ∀ a, (f a).Indifferent A) : (p >>= f).Indifferent A := by
  induction p with
  | done r =>
    cases r with
    | ok a => exact hf a
    | error e => trivial
  | call o k ih =>
    refine ⟨fun r r' hr => ?_, fun r => ih r (hp.2 r)⟩
    show (k r >>= f) = (k r' >>= f)
    rw [hp.1 r r' hr]

theorem indifferent_tryCatch {p : Prog S ε α} {f : ε → Prog S ε α} (hp : p.Indifferent A)
    (hf : ∀ e, (f e).Indifferent A) : (p.tryCatch f).Indifferent A := by
  induction p with
  | done r =>
    cases r with
    | ok a => trivial
    | error e => exact hf e
  | call o k ih =>
    refine ⟨fun r r' hr => ?_, fun r => ih r (hp.2 r)⟩
    show (k r).tryCatch f = (k r').tryCatch f
    rw [hp.1 r r' hr]

/-- One call: what follows it may look at the answer, as long as it makes nothing of the
    difference. -/
theorem indifferent_perform_bind {o : S.Op} {f : S.Res o → Prog S ε β}
    (halike : ∀ r r', A o r r' → (done r >>= f : Prog S ε β) = done r' >>= f)
    (hf : ∀ a, (f a).Indifferent A) : (perform o >>= f).Indifferent A := by
  refine ⟨halike, fun r => ?_⟩
  cases r with
  | ok a => exact hf a
  | error e => trivial

/-- Answers that are related only when they are the same cannot be told apart. -/
theorem indifferent_of_issues {p : Prog S ε α}
    (hp : p.Issues fun o => ∀ r r', A o r r' → r = r') : p.Indifferent A := by
  induction p with
  | done r => trivial
  | call o k ih => exact ⟨fun r r' hr => congrArg k (hp.1 r r' hr), fun r => ih r (hp.2 r)⟩

end Indifferent

/-! ## What a program calls first -/

/-- Before it returns a value, and before it calls an operation in `B`, the program calls one in
    `A`. -/
def Opens (A B : S.Op → Prop) : Prog S ε α → Prop
  | done r => ∀ a, r ≠ .ok a
  | call o k => ¬ B o ∧ (A o ∨ ∀ r, (k r).Opens A B)

section Opens

variable {A B : S.Op → Prop}

theorem opens_perform {o : S.Op} (hA : A o) (hB : ¬ B o) :
    (perform o : Prog S ε (S.Res o)).Opens A B := ⟨hB, Or.inl hA⟩

/-- What comes after the first part does not matter. -/
theorem Opens.bind {p : Prog S ε α} (hp : p.Opens A B) (f : α → Prog S ε β) :
    (p >>= f).Opens A B := by
  induction p with
  | done r =>
    cases r with
    | ok a => exact absurd rfl (hp a)
    | error e => exact fun b hb => nomatch hb
  | call o k ih => exact ⟨hp.1, hp.2.imp id fun hk r => ih r (hk r)⟩

/-- A first part that calls nothing in `B` may come before. -/
theorem opens_bind {p : Prog S ε α} {f : α → Prog S ε β} (hp : p.Issues fun o => ¬ B o)
    (hf : ∀ a, (f a).Opens A B) : (p >>= f).Opens A B := by
  induction p with
  | done r =>
    cases r with
    | ok a => exact hf a
    | error e => exact fun b hb => nomatch hb
  | call o k ih => exact ⟨hp.1, Or.inr fun r => ih r (hp.2 r)⟩

end Opens

/-! ## What handlers carry over from operations to programs -/

/-- Simulation: two handlers whose operations answer alike and keep the states related give every
    program the same result and related final states. -/
theorem run_simulation {h : Handler S ε σ} {h' : Handler S ε τ} {P : S.Op → Prop}
    {R : σ → τ → Prop}
    (step : ∀ o s t, P o → R s t → (h o s).1 = (h' o t).1 ∧ R (h o s).2 (h' o t).2)
    {p : Prog S ε α} (hp : p.Issues P) {s : σ} {t : τ} (hst : R s t) :
    (p.run h s).1 = (p.run h' t).1 ∧ R (p.run h s).2 (p.run h' t).2 := by
  induction p generalizing s t with
  | done r => exact ⟨rfl, hst⟩
  | call o k ih =>
    obtain ⟨hans, hnext⟩ := step o s t hp.1 hst
    rw [run_call, run_call, hans]
    exact ih _ (hp.2 _) hnext

/-- Simulation along one run: it is enough that the handlers agree on the operations performed. -/
theorem run_agrees {h : Handler S ε σ} {h' : Handler S ε τ} {P : S.Op → Prop}
    {R : σ → τ → Prop}
    (step : ∀ o s t, P o → R s t → (h o s).1 = (h' o t).1 ∧ R (h o s).2 (h' o t).2)
    {p : Prog S ε α} {s : σ} {t : τ} (hops : ∀ o ∈ p.ops h' t, P o) (hst : R s t) :
    (p.run h s).1 = (p.run h' t).1 ∧ R (p.run h s).2 (p.run h' t).2 := by
  induction p generalizing s t with
  | done r => exact ⟨rfl, hst⟩
  | call o k ih =>
    obtain ⟨ho, hrest⟩ := List.forall_mem_cons.mp hops
    obtain ⟨hans, hnext⟩ := step o s t ho hst
    rw [run_call, run_call, hans]
    exact ih _ hrest hnext

/-- The operations of a run are among those the program can call. -/
theorem Issues.ops {P : S.Op → Prop} {p : Prog S ε α} (hp : p.Issues P) (h : Handler S ε σ)
    (s : σ) : ∀ o ∈ p.ops h s, P o := by
  induction p generalizing s with
  | done r => exact fun o ho => absurd ho List.not_mem_nil
  | call o k ih => exact List.forall_mem_cons.mpr ⟨hp.1, ih _ (hp.2 _) _⟩

/-- So are those of a run whose answers can be relied on, among the ones the program calls then. -/
theorem Meets.ops {A : (o : S.Op) → Except ε (S.Res o) → Prop} {P : S.Op → Prop}
    {Q : Except ε α → Prop} {h : Handler S ε σ} {I : σ → Prop}
    (step : ∀ o s, P o → I s → A o (h o s).1 ∧ I (h o s).2) {p : Prog S ε α} (hp : p.Meets A P Q)
    {s : σ} (hs : I s) : ∀ o ∈ p.ops h s, P o := by
  induction p generalizing s with
  | done r => exact fun o ho => absurd ho List.not_mem_nil
  | call o k ih =>
    obtain ⟨hanswer, hnext⟩ := step o s hp.1 hs
    exact List.forall_mem_cons.mpr ⟨hp.1, ih _ (hp.2 _ hanswer) hnext⟩

/-- A property of states that every permitted operation keeps is kept by every program. -/
theorem run_invariant {h : Handler S ε σ} {P : S.Op → Prop} {I : σ → Prop}
    (step : ∀ o s, P o → I s → I (h o s).2) {p : Prog S ε α} (hp : p.Issues P) {s : σ}
    (hs : I s) : I (p.run h s).2 := by
  induction p generalizing s with
  | done r => exact hs
  | call o k ih => exact ih _ (hp.2 _) (step o s hp.1 hs)

/-! ## Programs that only read -/

/-- The result of a program when each call has one fixed answer. -/
def eval (ans : (o : S.Op) → Except ε (S.Res o)) : Prog S ε α → Except ε α
  | done r => r
  | call o k => (k (ans o)).eval ans

@[simp] theorem eval_done (ans : (o : S.Op) → Except ε (S.Res o)) (r : Except ε α) :
    (done r : Prog S ε α).eval ans = r := rfl

@[simp] theorem eval_pure (ans : (o : S.Op) → Except ε (S.Res o)) (a : α) :
    (pure a : Prog S ε α).eval ans = .ok a := rfl

@[simp] theorem eval_perform (ans : (o : S.Op) → Except ε (S.Res o)) (o : S.Op) :
    (perform o : Prog S ε (S.Res o)).eval ans = ans o := rfl

@[simp] theorem eval_bind (ans : (o : S.Op) → Except ε (S.Res o)) (p : Prog S ε α)
    (f : α → Prog S ε β) :
    (p >>= f).eval ans = p.eval ans >>= fun a => (f a).eval ans := by
  induction p with
  | done r => cases r <;> rfl
  | call o k ih => exact ih (ans o)

/-- A program whose calls leave the state alone runs as the pure function of their answers. -/
theorem run_of_reads {h : Handler S ε σ} {P : S.Op → Prop} {s : σ}
    {ans : (o : S.Op) → Except ε (S.Res o)} (reads : ∀ o, P o → h o s = (ans o, s))
    {p : Prog S ε α} (hp : p.Issues P) : p.run h s = (p.eval ans, s) := by
  induction p with
  | done r => rfl
  | call o k ih =>
    rw [run_call, reads o hp.1]
    exact ih _ (hp.2 _)

end Prog

/-! ## One write that fails -/

/-- The handler with a fault: after `n` more writes, the next one raises `e` in the place of taking
    effect.  A spent fault is `none`. -/
def withFault (writes : S.Op → Bool) (e : ε) (h : Handler S ε σ) : Handler S ε (Option Nat × σ) :=
  fun o fs =>
    match h o fs.2 with
    | (.error e', s') => (.error e', (fs.1, s'))
    | (.ok a, s') =>
      if writes o then
        match fs.1 with
        | none => (.ok a, (none, s'))
        | some 0 => (.error e, (none, fs.2))
        | some (n + 1) => (.ok a, (some n, s'))
      else (.ok a, (fs.1, s'))

section Fault

variable {writes : S.Op → Bool} {e : ε} {h : Handler S ε σ} {o : S.Op} {s : σ}

/-- An operation that raises by itself raises before its write. -/
theorem withFault_raises {e' : ε} (hraise : (h o s).1 = .error e') (f : Option Nat) :
    withFault writes e h o (f, s) = (.error e', (f, (h o s).2)) := by
  unfold withFault
  split
  · rename_i e'' s' heq
    rw [heq] at hraise ⊢
    rw [Except.error.inj hraise]
  · rename_i a s' heq
    rw [heq] at hraise
    cases hraise

theorem withFault_reads (hreads : writes o = false) (f : Option Nat) :
    withFault writes e h o (f, s) = ((h o s).1, (f, (h o s).2)) := by
  unfold withFault
  split
  · rename_i e' s' heq
    rw [heq]
  · rename_i a s' heq
    rw [hreads, heq]
    rfl

theorem withFault_fails {a : S.Res o} (hwrites : writes o = true) (hok : (h o s).1 = .ok a) :
    withFault writes e h o (some 0, s) = (.error e, (none, s)) := by
  unfold withFault
  split
  · rename_i e' s' heq
    rw [heq] at hok
    cases hok
  · rw [hwrites]
    rfl

theorem withFault_passes {a : S.Res o} (hwrites : writes o = true) (hok : (h o s).1 = .ok a)
    (n : Nat) : withFault writes e h o (some (n + 1), s) = (.ok a, (some n, (h o s).2)) := by
  unfold withFault
  split
  · rename_i e' s' heq
    rw [heq] at hok
    cases hok
  · rename_i a' s' heq
    rw [heq] at hok ⊢
    rw [hwrites, Except.ok.inj hok]
    rfl

/-- A program that writes nothing does not meet the fault. -/
theorem Prog.run_withFault_of_reads {p : Prog S ε α} (hp : p.Issues fun o => writes o = false)
    (f : Option Nat) (s : σ) :
    p.run (withFault writes e h) (f, s) = ((p.run h s).1, (f, (p.run h s).2)) := by
  induction p generalizing s with
  | done r => rfl
  | call o k ih =>
    rw [run_call, run_call, withFault_reads hp.1]
    exact ih _ (hp.2 _) _

end Fault

end Effect
