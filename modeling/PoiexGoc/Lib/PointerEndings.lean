/-
  HOW FOLLOWING PARENT POINTERS ENDS.

  Pointers are functional, so there is one way to follow them, and it ends in one of three ways:
  it comes back to a key (`Cyclic`), it gets to a key without a record (`Dangling`), or it gets to a
  record without a parent (`RootedAt`).  These are properties of the pointers alone.

  1. A key the pointers leave no more is the only such key on the way, and there is no cycle on the
     way to it (`stuck_unique`, `not_cycle_of_stuck`).

  2. A chase from an empty visited set tells the three apart (`cyclic_iff`, `dangling_iff`,
     `rootedAt_iff`): its ending is how following the pointers ends.
-/
import Mathlib.Logic.Relation
import PoiexGoc.Lib.ParentChain

namespace ParentChain

open Relation

/-! ## Functional relations -/

section Functional

variable {α : Type} {r : α → α → Prop} (hr : Relator.RightUnique r)

include hr

theorem stuck_unique {a t t' : α} (ht : ∀ u, ¬ r t u) (ht' : ∀ u, ¬ r t' u)
    (hat : ReflTransGen r a t) (hat' : ReflTransGen r a t') : t = t' := by
  rcases hat.total_of_right_unique hr hat' with hreach | hreach
  · rcases hreach.cases_head with heq | ⟨u, hstep, -⟩
    · exact heq
    · exact absurd hstep (ht u)
  · rcases hreach.cases_head with heq | ⟨u, hstep, -⟩
    · exact heq.symm
    · exact absurd hstep (ht' u)

/-- What a cycle reaches is on the cycle. -/
theorem cycle_of_reached {c d : α} (hcycle : TransGen r c c) (hreach : ReflTransGen r c d) :
    TransGen r d d := by
  induction hreach with
  | refl => exact hcycle
  | tail _ hstep ih =>
    obtain ⟨u, hstep', hback⟩ := TransGen.head'_iff.mp ih
    rw [← hr hstep hstep'] at hback
    exact TransGen.tail' hback hstep

theorem not_cycle_of_stuck {a t c : α} (ht : ∀ u, ¬ r t u) (hat : ReflTransGen r a t)
    (hac : ReflTransGen r a c) : ¬ TransGen r c c := by
  intro hcycle
  have hct : TransGen r t t := by
    rcases hat.total_of_right_unique hr hac with hreach | hreach
    · rcases hreach.cases_head with rfl | ⟨u, hstep, -⟩
      · exact hcycle
      · exact absurd hstep (ht u)
    · exact cycle_of_reached hr hcycle hreach
  obtain ⟨u, hstep, -⟩ := TransGen.head'_iff.mp hct
  exact ht u hstep

end Functional

/-! ## The three ways -/

variable {κ ν : Type} (look : κ → Option ν) (parent : ν → Option κ)

/-- The record under `k` names `p` as its parent. -/
def Step (k p : κ) : Prop := ∃ v, look k = some v ∧ parent v = some p

/-- Following the pointers from `k` comes back to a key it has passed. -/
def Cyclic (k : κ) : Prop :=
  ∃ c, ReflTransGen (Step look parent) k c ∧ TransGen (Step look parent) c c

/-- It gets to a key without a record. -/
def Dangling (k : κ) : Prop := ∃ c, ReflTransGen (Step look parent) k c ∧ look c = none

/-- It gets to the key `c`, whose record `v` has no parent. -/
def RootedAt (k c : κ) (v : ν) : Prop :=
  ReflTransGen (Step look parent) k c ∧ look c = some v ∧ parent v = none

variable {look parent}

theorem step_rightUnique : Relator.RightUnique (Step look parent) := by
  rintro k p q ⟨v, hv, hp⟩ ⟨w, hw, hq⟩
  rw [Option.some.inj (hv.symm.trans hw)] at hp
  exact Option.some.inj (hp.symm.trans hq)

theorem stuck_of_missing {k : κ} (hk : look k = none) (u : κ) : ¬ Step look parent k u := by
  rintro ⟨v, hv, -⟩
  cases hk.symm.trans hv

theorem stuck_of_root {k : κ} {v : ν} (hk : look k = some v) (hv : parent v = none) (u : κ) :
    ¬ Step look parent k u := by
  rintro ⟨w, hw, hp⟩
  rw [← Option.some.inj (hk.symm.trans hw), hv] at hp
  cases hp

section Exclusive

variable {k : κ}

theorem not_cyclic_of_dangling (hdangling : Dangling look parent k) : ¬ Cyclic look parent k := by
  rintro ⟨c, hreach, hcycle⟩
  obtain ⟨t, ht, hnone⟩ := hdangling
  exact not_cycle_of_stuck step_rightUnique (stuck_of_missing hnone) ht hreach hcycle

theorem not_cyclic_of_rootedAt {c : κ} {v : ν} (hroot : RootedAt look parent k c v) :
    ¬ Cyclic look parent k := by
  rintro ⟨d, hreach, hcycle⟩
  exact not_cycle_of_stuck step_rightUnique (stuck_of_root hroot.2.1 hroot.2.2) hroot.1 hreach
    hcycle

theorem not_dangling_of_rootedAt {c : κ} {v : ν} (hroot : RootedAt look parent k c v) :
    ¬ Dangling look parent k := by
  rintro ⟨d, hreach, hnone⟩
  have heq := stuck_unique step_rightUnique (stuck_of_missing hnone)
    (stuck_of_root hroot.2.1 hroot.2.2) hreach hroot.1
  rw [heq, hroot.2.1] at hnone
  cases hnone

/-- The root is determined. -/
theorem RootedAt.unique {c c' : κ} {v v' : ν} (hroot : RootedAt look parent k c v)
    (hroot' : RootedAt look parent k c' v') : c = c' ∧ v = v' := by
  have heq := stuck_unique step_rightUnique (stuck_of_root hroot.2.1 hroot.2.2)
    (stuck_of_root hroot'.2.1 hroot'.2.2) hroot.1 hroot'.1
  refine ⟨heq, ?_⟩
  have hlook := hroot.2.1
  rw [heq, hroot'.2.1] at hlook
  exact (Option.some.inj hlook).symm

end Exclusive

/-! ## What a chase says about them -/

variable [DecidableEq κ] {visited : Finset κ} {k : κ} {path : List (κ × ν)} {ending : Ending κ}

/-- Coming back is coming back to a key visited before the chase, or around a cycle. -/
theorem Chases.reaches_revisit (hchases : Chases look parent visited k path ending) {c : κ}
    (hending : ending = .revisit c) :
    ReflTransGen (Step look parent) k c ∧ (c ∈ visited ∨ TransGen (Step look parent) c c) := by
  induction hchases with
  | visited hk =>
    cases hending
    exact ⟨.refl, Or.inl hk⟩
  | missing _ _ => cases hending
  | root _ _ _ => cases hending
  | link hk hlook hparent _ ih =>
    obtain ⟨hreach, hback⟩ := ih hending
    have hstep : Step look parent _ _ := ⟨_, hlook, hparent⟩
    refine ⟨hreach.head hstep, ?_⟩
    rcases hback with hvisited | hcycle
    · rcases Finset.mem_insert.mp hvisited with rfl | hvisited
      · exact Or.inr (TransGen.head' hstep hreach)
      · exact Or.inl hvisited
    · exact Or.inr hcycle

theorem Chases.reaches_missing (hchases : Chases look parent visited k path ending) {c : κ}
    (hending : ending = .missing c) : ReflTransGen (Step look parent) k c := by
  induction hchases with
  | visited _ => cases hending
  | missing _ _ =>
    cases hending
    exact .refl
  | root _ _ _ => cases hending
  | link _ hlook hparent _ ih => exact (ih hending).head ⟨_, hlook, hparent⟩

theorem Chases.reaches_of_mem (hchases : Chases look parent visited k path ending) {e : κ × ν}
    (he : e ∈ path) : ReflTransGen (Step look parent) k e.1 := by
  induction hchases with
  | visited _ => cases he
  | missing _ _ => cases he
  | root _ _ _ =>
    rw [List.mem_singleton.mp he]
  | link _ hlook hparent _ ih =>
    rcases List.mem_cons.mp he with rfl | he
    · exact .refl
    · exact (ih he).head ⟨_, hlook, hparent⟩

/-- The last record of a path to a root is the one the pointers get to. -/
theorem Chases.reaches_root (hchases : Chases look parent visited k path ending)
    (hending : ending = .root) :
    ∃ c v, path.getLast? = some (c, v) ∧ RootedAt look parent k c v := by
  induction hchases with
  | visited _ => cases hending
  | missing _ _ => cases hending
  | root _ hlook hparent => exact ⟨_, _, rfl, .refl, hlook, hparent⟩
  | @link visited k p v rest ending _ hlook hparent _ ih =>
    obtain ⟨c, w, hlast, hreach, hrecord⟩ := ih hending
    obtain ⟨e, es, rfl⟩ := List.exists_cons_of_ne_nil (l := rest) (by
      rintro rfl
      cases hlast)
    exact ⟨c, w, List.getLast?_cons_cons.trans hlast, hreach.head ⟨_, hlook, hparent⟩, hrecord⟩

/-- A chase ends in one of the three ways, and following the pointers ends so. -/
theorem Chases.ends (hchases : Chases look parent ∅ k path ending) :
    (∃ c, ending = .revisit c ∧ Cyclic look parent k) ∨
    (∃ c, ending = .missing c ∧ ReflTransGen (Step look parent) k c ∧ look c = none) ∨
    (ending = .root ∧ ∃ c v, path.getLast? = some (c, v) ∧ RootedAt look parent k c v) := by
  cases hend : ending with
  | revisit c =>
    obtain ⟨hreach, hvisited | hcycle⟩ := hchases.reaches_revisit hend
    · exact absurd hvisited (Finset.notMem_empty c)
    · exact Or.inl ⟨c, rfl, c, hreach, hcycle⟩
  | missing c =>
    exact Or.inr (Or.inl ⟨c, rfl, hchases.reaches_missing hend, hchases.look_of_missing hend⟩)
  | root => exact Or.inr (Or.inr ⟨rfl, hchases.reaches_root hend⟩)

theorem Chases.cyclic_iff (hchases : Chases look parent ∅ k path ending) :
    Cyclic look parent k ↔ ∃ c, ending = .revisit c := by
  constructor
  · intro hcyclic
    rcases hchases.ends with ⟨c, hend, -⟩ | ⟨c, -, hreach, hnone⟩ | ⟨-, c, v, -, hroot⟩
    · exact ⟨c, hend⟩
    · exact absurd hcyclic (not_cyclic_of_dangling ⟨c, hreach, hnone⟩)
    · exact absurd hcyclic (not_cyclic_of_rootedAt hroot)
  · rintro ⟨c, rfl⟩
    rcases hchases.ends with ⟨-, -, hcyclic⟩ | ⟨_, hend, -⟩ | ⟨hend, -⟩
    · exact hcyclic
    · cases hend
    · cases hend

theorem Chases.dangling_iff (hchases : Chases look parent ∅ k path ending) :
    Dangling look parent k ↔ ∃ c, ending = .missing c := by
  constructor
  · intro hdangling
    rcases hchases.ends with ⟨c, -, hcyclic⟩ | ⟨c, hend, -⟩ | ⟨-, c, v, -, hroot⟩
    · exact absurd hcyclic (not_cyclic_of_dangling hdangling)
    · exact ⟨c, hend⟩
    · exact absurd hdangling (not_dangling_of_rootedAt hroot)
  · rintro ⟨c, rfl⟩
    exact ⟨c, hchases.reaches_missing rfl, hchases.look_of_missing rfl⟩

theorem Chases.rootedAt_iff (hchases : Chases look parent ∅ k path ending) {c : κ} {v : ν} :
    RootedAt look parent k c v ↔ ending = .root ∧ path.getLast? = some (c, v) := by
  constructor
  · intro hroot
    rcases hchases.ends with ⟨_, -, hcyclic⟩ | ⟨d, -, hreach, hnone⟩ | ⟨hend, d, w, hlast, hroot'⟩
    · exact absurd hcyclic (not_cyclic_of_rootedAt hroot)
    · exact absurd ⟨d, hreach, hnone⟩ (not_dangling_of_rootedAt hroot)
    · obtain ⟨rfl, rfl⟩ := hroot.unique hroot'
      exact ⟨hend, hlast⟩
  · rintro ⟨hend, hlast⟩
    obtain ⟨d, w, hlast', hroot⟩ := hchases.reaches_root hend
    obtain ⟨rfl, rfl⟩ := Prod.mk.inj (Option.some.inj (hlast.symm.trans hlast'))
    exact hroot

/-- A root is a record of the path without a parent. -/
theorem Chases.rootedAt_iff_mem (hchases : Chases look parent ∅ k path ending) {c : κ} {v : ν} :
    RootedAt look parent k c v ↔ (c, v) ∈ path ∧ parent v = none := by
  constructor
  · intro hroot
    have hlast := (hchases.rootedAt_iff.mp hroot).2
    exact ⟨List.mem_of_getLast? hlast, hroot.2.2⟩
  · rintro ⟨hmem, hparent⟩
    exact ⟨hchases.reaches_of_mem hmem, hchases.look_of_mem hmem, hparent⟩

end ParentChain
