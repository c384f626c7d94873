/-
  The LAST WRITE decides: events that happen to a state one after the other, and one thing observed
  of it, which some of the events set and the others leave alone.

  1. `lastSet` — what the last of the events that set it sets it to; nothing sets it afterwards
     (`lastSet_eq_some_iff`).

  2. `observe_foldl` — that is what is observed after all of them; and what was observed before them,
     when none sets it.
-/
import Mathlib.Data.List.Basic

namespace LastWrite

variable {σ ε β γ : Type}

def lastSet (sets : ε → Option β) (events : List ε) : Option β := (events.filterMap sets).getLast?

theorem lastSet_cons (sets : ε → Option β) (e : ε) (events : List ε) :
    lastSet sets (e :: events) = (lastSet sets events).or (sets e) := by
  unfold lastSet
  cases hset : sets e with
  | none => rw [List.filterMap_cons_none hset, Option.or_none]
  | some b =>
    rw [List.filterMap_cons_some hset]
    cases events.filterMap sets with
    | nil => rfl
    | cons b' bs =>
      rw [List.getLast?_cons_cons, List.getLast?_cons]
      rfl

theorem lastSet_map (sets : ε → Option β) (g : β → γ) (events : List ε) :
    lastSet (fun e => (sets e).map g) events = (lastSet sets events).map g := by
  induction events with
  | nil => rfl
  | cons e events ih =>
    rw [lastSet_cons, lastSet_cons, ih]
    cases lastSet sets events with
    | none => rfl
    | some b => rfl

/-- Induction on the events: either a later one sets it, or this one is the last. -/
theorem lastSet_eq_some_iff {sets : ε → Option β} {events : List ε} {b : β} :
    lastSet sets events = some b ↔
      ∃ pre e post, events = pre ++ e :: post ∧ sets e = some b ∧ lastSet sets post = none := by
  induction events with
  | nil => exact iff_of_false nofun fun ⟨pre, e, post, h, _⟩ => by cases pre <;> cases h
  | cons e events ih =>
    rw [lastSet_cons, Option.or_eq_some_iff, ih]
    constructor
    · rintro (⟨pre, e', post, rfl, hset, hpost⟩ | ⟨hnone, hset⟩)
      · exact ⟨e :: pre, e', post, rfl, hset, hpost⟩
      · exact ⟨[], e, events, rfl, hset, hnone⟩
    · rintro ⟨pre, e', post, heq, hset, hpost⟩
      cases pre with
      | nil =>
        obtain ⟨rfl, rfl⟩ := List.cons.inj heq
        exact .inr ⟨hpost, hset⟩
      | cons e'' pre =>
        obtain ⟨rfl, rfl⟩ := List.cons.inj heq
        exact .inl ⟨pre, e', post, rfl, hset, hpost⟩

theorem lastSet_eq_none_iff {sets : ε → Option β} {events : List ε} :
    lastSet sets events = none ↔ ∀ e ∈ events, sets e = none := by
  rw [lastSet, List.getLast?_eq_none_iff, List.filterMap_eq_nil_iff]

/-- What is observed after the events. -/
theorem observe_foldl (observe : σ → β) (sets : ε → Option β) (I : σ → Prop)
    {step : σ → ε → σ} {events : List ε}
    (hset : ∀ e ∈ events, ∀ s, I s → observe (step s e) = (sets e).getD (observe s))
    (hkeep : ∀ e ∈ events, ∀ s, I s → I (step s e)) {s : σ} (hs : I s) :
    observe (events.foldl step s) = (lastSet sets events).getD (observe s) := by
  induction events generalizing s with
  | nil => rfl
  | cons e events ih =>
    rw [List.foldl_cons, ih (fun e' he' => hset e' (List.mem_cons_of_mem _ he'))
      (fun e' he' => hkeep e' (List.mem_cons_of_mem _ he')) (hkeep e List.mem_cons_self s hs),
      hset e List.mem_cons_self s hs, lastSet_cons]
    cases lastSet sets events with
    | none => rfl
    | some b => rfl

end LastWrite
