/-
  WEAK DUALITY for covering problems.

  Elements must be covered, candidates cover elements (with repetition) at a cost, and a selection
  is any multiset of candidates.  A weighting of the elements is feasible for a candidate when the
  weights of what it covers, counted with repetition, stay within its cost.  Then the total weight
  of a set of elements bounds the cost of every selection that covers the set from below: in the
  selection's coverings each element of the set occurs at least once, so counting by element gives
  at most what counting by candidate gives.
-/
import Mathlib.Algebra.Order.BigOperators.Group.Multiset
import Mathlib.Algebra.BigOperators.Group.Finset.Defs
import Mathlib.Data.Multiset.Bind

namespace Covering

variable {κ ι M : Type} (covers : κ → Multiset ι)

/-- Every element of the set is covered by a selected candidate. -/
def Covers (selection : Multiset κ) (elements : Finset ι) : Prop :=
  ∀ i ∈ elements, ∃ c ∈ selection, i ∈ covers c

/-- An element no candidate covers is covered by no selection of them. -/
theorem not_covers_of_uncovered {candidates : Set κ} {selection : Multiset κ}
    {elements : Finset ι} {i : ι} (hi : i ∈ elements) (huncovered : ∀ c ∈ candidates, i ∉ covers c)
    (hselection : ∀ c ∈ selection, c ∈ candidates) : ¬ Covers covers selection elements := by
  intro hcovers
  obtain ⟨c, hc, hic⟩ := hcovers i hi
  exact huncovered c (hselection c hc) hic

variable [AddCommMonoid M]

/-- The weight of what a candidate covers, repetitions included. -/
def load (weight : ι → M) (c : κ) : M := ((covers c).map weight).sum

/-- Counting the coverings of a selection by candidate. -/
theorem sum_map_load (weight : ι → M) (selection : Multiset κ) :
    (selection.map (load covers weight)).sum = ((selection.bind covers).map weight).sum := by
  rw [Multiset.map_bind, Multiset.sum_bind]
  rfl

variable [PartialOrder M] [AddLeftMono M]

/-- Dropping elements drops weight. -/
theorem sum_map_le_of_le {weight : ι → M} (hweight : ∀ i, 0 ≤ weight i) {part whole : Multiset ι}
    (hle : part ≤ whole) : (part.map weight).sum ≤ (whole.map weight).sum := by
  obtain ⟨rest, rfl⟩ := Multiset.le_iff_exists_add.mp hle
  have hnonneg : 0 ≤ (rest.map weight).sum := by
    apply Multiset.sum_nonneg
    intro x hx
    obtain ⟨i, -, rfl⟩ := Multiset.mem_map.mp hx
    exact hweight i
  rw [Multiset.map_add, Multiset.sum_add]
  exact le_add_of_nonneg_right hnonneg

/-- The weight of what a candidate covers, without repetitions, is at most its load. -/
theorem sum_distinct_le_load [DecidableEq ι] {weight : ι → M} (hweight : ∀ i, 0 ≤ weight i)
    (c : κ) : ∑ i ∈ (covers c).toFinset, weight i ≤ load covers weight c :=
  sum_map_le_of_le hweight (Multiset.dedup_le (covers c))

/-- The weight of a covered set is at most the load of the selection that covers it. -/
theorem weight_le_load {weight : ι → M} (hweight : ∀ i, 0 ≤ weight i) {selection : Multiset κ}
    {elements : Finset ι} (hcovers : Covers covers selection elements) :
    (elements.val.map weight).sum ≤ (selection.map (load covers weight)).sum := by
  have hsubset : elements.val ⊆ selection.bind covers := by
    intro i hi
    obtain ⟨c, hc, hic⟩ := hcovers i hi
    exact Multiset.mem_bind.mpr ⟨c, hc, hic⟩
  rw [sum_map_load]
  exact sum_map_le_of_le hweight ((Multiset.le_iff_subset elements.nodup).mpr hsubset)

/-- Weak duality. -/
theorem weight_le_cost {weight : ι → M} (hweight : ∀ i, 0 ≤ weight i) {cost : κ → M}
    {selection : Multiset κ} (hfeasible : ∀ c ∈ selection, load covers weight c ≤ cost c)
    {elements : Finset ι} (hcovers : Covers covers selection elements) :
    (elements.val.map weight).sum ≤ (selection.map cost).sum :=
  (weight_le_load covers hweight hcovers).trans (Multiset.sum_map_le_sum_map _ _ hfeasible)

end Covering
