/-
  Lists up to ORDER, and up to a relation between their elements.

  1. `Reordered r l l'`: some permutation of `l` is related to `l'` element by element.  A function
     that does not tell related elements apart maps reordered lists to permutations of each other
     (`Reordered.map_perm`), and so does one whose values are lists up to order
     (`Reordered.flatMap_perm`).

  2. Sorting by a key that no two elements share gives one list for all orders
     (`insertionSort_eq_of_perm`), and so does sorting by the elements themselves
     (`insertionSort_eq_iff_perm`).
-/
import Mathlib.Data.List.Perm.Basic
import Mathlib.Data.List.Sort

namespace Reordering

variable {α β κ : Type}

/-- Some permutation of the first list is related to the second one, element by element. -/
def Reordered (r : α → α → Prop) : List α → List α → Prop :=
  Relation.Comp List.Perm (List.Forall₂ r)

/-- What does not tell related elements apart is mapped over both lists alike, up to order. -/
theorem Reordered.map_perm {r : α → α → Prop} {l l' : List α} (h : Reordered r l l') {f : α → β}
    (hf : ∀ a a', r a a' → f a = f a') : (l.map f).Perm (l'.map f) := by
  obtain ⟨between, hperm, hrelated⟩ := h
  have hsame : between.map f = l'.map f := by
    induction hrelated generalizing l with
    | nil => rfl
    | cons hr _ ih => rw [List.map_cons, List.map_cons, hf _ _ hr, ih (List.Perm.refl _)]
  rw [← hsame]
  exact hperm.map f

/-- The same for values that are lists, up to order themselves. -/
theorem Reordered.flatMap_perm {r : α → α → Prop} {l l' : List α} (h : Reordered r l l')
    {f : α → List β} (hf : ∀ a a', r a a' → (f a).Perm (f a')) :
    (l.flatMap f).Perm (l'.flatMap f) := by
  obtain ⟨between, hperm, hrelated⟩ := h
  have hsame : (between.flatMap f).Perm (l'.flatMap f) := by
    clear hperm
    induction hrelated with
    | nil => exact List.Perm.refl _
    | cons hr _ ih =>
      rw [List.flatMap_cons, List.flatMap_cons]
      exact (hf _ _ hr).append ih
  exact (hperm.flatMap_right f).trans hsame

/-- With distinct keys there is one list sorted by key. -/
theorem insertionSort_eq_of_perm [LinearOrder κ] {key : α → κ} {l l' : List α} (h : l.Perm l')
    (hkeys : (l.map key).Nodup) :
    (l.insertionSort fun a b => key a ≤ key b) = l'.insertionSort fun a b => key a ≤ key b := by
  have htotal : Std.Total (fun a b : α => key a ≤ key b) := ⟨fun a b => le_total _ _⟩
  have htrans : IsTrans α (fun a b => key a ≤ key b) := ⟨fun _ _ _ => le_trans⟩
  have hsorted : ((l.insertionSort fun a b => key a ≤ key b)).Perm
      (l'.insertionSort fun a b => key a ≤ key b) :=
    ((List.perm_insertionSort _ l).trans h).trans (List.perm_insertionSort _ l').symm
  refine hsorted.eq_of_pairwise ?_ (List.pairwise_insertionSort _ l)
    (List.pairwise_insertionSort _ l')
  intro a b ha hb hab hba
  have hal : a ∈ l := (List.mem_insertionSort _).mp ha
  have hbl : b ∈ l := h.mem_iff.mpr ((List.mem_insertionSort _).mp hb)
  exact List.inj_on_of_nodup_map hkeys hal hbl (le_antisymm hab hba)

/-- Sorted by themselves, lists are equal exactly when they are permutations of each other. -/
theorem insertionSort_eq_iff_perm [LinearOrder κ] {l l' : List κ} :
    l.insertionSort (· ≤ ·) = l'.insertionSort (· ≤ ·) ↔ l.Perm l' := by
  constructor
  · intro heq
    have hsorted := List.perm_insertionSort (· ≤ ·) l
    rw [heq] at hsorted
    exact hsorted.symm.trans (List.perm_insertionSort (· ≤ ·) l')
  · intro hperm
    refine List.Perm.eq_of_pairwise' (List.pairwise_insertionSort _ l)
      (List.pairwise_insertionSort _ l') ?_
    exact ((List.perm_insertionSort _ l).trans hperm).trans (List.perm_insertionSort _ l').symm

end Reordering
