/-
  SAMPLES of a function: points `(x, y)` taken at increasing arguments.

  1. `adjacent_iff_pairwise` — a transitive relation between neighbours is one between all pairs, so
     comparing neighbours is enough.

  2. Read as points, the values do not fall exactly when the sampled function is monotone
     (`values_ascend_iff`); such values rise somewhere exactly when the last one is above the first
     (`rises_iff`), and are constant otherwise (`constant_iff`).

  3. What two points witness, more points cannot take back, wherever they are taken (`Falls.mono`,
     `Rises.mono`).
-/
import Mathlib.Data.List.Chain
import Mathlib.Order.Lattice

namespace Samples

variable {α X Y : Type}

theorem isChain_iff_adjacent {R : α → α → Prop} {l : List α} :
    l.IsChain R ↔ ∀ p ∈ l.zip l.tail, R p.1 p.2 := by
  induction l with
  | nil => exact iff_of_true List.IsChain.nil fun p hp => nomatch hp
  | cons a l ih =>
    cases l with
    | nil => exact iff_of_true (List.IsChain.singleton a) fun p hp => nomatch hp
    | cons b l =>
      rw [List.isChain_cons_cons, ih]
      show _ ↔ ∀ p ∈ (a, b) :: (b :: l).zip l, R p.1 p.2
      rw [List.forall_mem_cons]
      rfl

/-- Neighbours are in the relation exactly when all pairs are. -/
theorem adjacent_iff_pairwise {R : α → α → Prop} [Trans R R R] {l : List α} :
    (∀ p ∈ l.zip l.tail, R p.1 p.2) ↔ l.Pairwise R :=
  isChain_iff_adjacent.symm.trans List.isChain_iff_pairwise

variable [LinearOrder X] [LinearOrder Y]

/-- A later point is below an earlier one. -/
def Falls (points : List (X × Y)) : Prop := ∃ p ∈ points, ∃ q ∈ points, p.1 < q.1 ∧ q.2 < p.2

/-- A later point is above an earlier one. -/
def Rises (points : List (X × Y)) : Prop := ∃ p ∈ points, ∃ q ∈ points, p.1 < q.1 ∧ p.2 < q.2

theorem Falls.mono {points points' : List (X × Y)} (h : Falls points)
    (hsub : points ⊆ points') : Falls points' := by
  obtain ⟨p, hp, q, hq, hfall⟩ := h
  exact ⟨p, hsub hp, q, hsub hq, hfall⟩

theorem Rises.mono {points points' : List (X × Y)} (h : Rises points)
    (hsub : points ⊆ points') : Rises points' := by
  obtain ⟨p, hp, q, hq, hrise⟩ := h
  exact ⟨p, hsub hp, q, hsub hq, hrise⟩

section Points

variable {points : List (X × Y)} (hkeys : (points.map Prod.fst).Pairwise (· < ·))

include hkeys

omit [LinearOrder Y] in
/-- Of two points the one with the smaller argument comes first. -/
theorem before_iff {i j : Nat} (hi : i < points.length) (hj : j < points.length) :
    points[i].1 < points[j].1 ↔ i < j := by
  have hlt : ∀ {i j : Nat} (hi : i < points.length) (hj : j < points.length), i < j →
      points[i].1 < points[j].1 := fun hi hj hij =>
    List.pairwise_iff_getElem.mp (List.pairwise_map.mp hkeys) _ _ hi hj hij
  constructor
  · intro hbelow
    by_contra hij
    rcases Nat.lt_or_eq_of_le (Nat.le_of_not_lt hij) with hji | rfl
    · exact absurd (hlt hj hi hji) (not_lt_of_gt hbelow)
    · exact absurd hbelow (lt_irrefl _)
  · exact hlt hi hj

/-- The values do not fall exactly when no later point is below an earlier one. -/
theorem values_ascend_iff : (points.map Prod.snd).Pairwise (· ≤ ·) ↔ ¬ Falls points := by
  rw [List.pairwise_map, List.pairwise_iff_getElem]
  constructor
  · rintro hascend ⟨p, hp, q, hq, hbefore, hfall⟩
    obtain ⟨i, hi, rfl⟩ := List.getElem_of_mem hp
    obtain ⟨j, hj, rfl⟩ := List.getElem_of_mem hq
    exact absurd (hascend i j hi hj ((before_iff hkeys hi hj).mp hbefore)) (not_le_of_gt hfall)
  · intro hnever i j hi hj hij
    by_contra hfall
    exact hnever ⟨points[i], List.getElem_mem hi, points[j], List.getElem_mem hj,
      (before_iff hkeys hi hj).mpr hij, not_le.mp hfall⟩

/-- Where no point falls, some point rises exactly when the last one is above the first. -/
theorem rises_iff (hnever : ¬ Falls points) (hne : points ≠ []) :
    Rises points ↔ (points.head hne).2 < (points.getLast hne).2 := by
  have hascend := List.pairwise_iff_getElem.mp
    (List.pairwise_map.mp ((values_ascend_iff hkeys).mpr hnever))
  have hpos : 0 < points.length := List.length_pos_iff.mpr hne
  have hle : ∀ {i j : Nat} (hi : i < points.length) (hj : j < points.length), i ≤ j →
      points[i].2 ≤ points[j].2 := by
    intro i j hi hj hij
    rcases Nat.lt_or_eq_of_le hij with hlt | rfl
    · exact hascend i j hi hj hlt
    · exact le_refl _
  rw [List.head_eq_getElem, List.getLast_eq_getElem]
  constructor
  · rintro ⟨p, hp, q, hq, -, hrise⟩
    obtain ⟨i, hi, rfl⟩ := List.getElem_of_mem hp
    obtain ⟨j, hj, rfl⟩ := List.getElem_of_mem hq
    calc points[0].2 ≤ points[i].2 := hle hpos hi (Nat.zero_le i)
      _ < points[j].2 := hrise
      _ ≤ points[points.length - 1].2 := hle hj (by omega) (by omega)
  · intro hrise
    refine ⟨points[0], List.getElem_mem hpos, points[points.length - 1], List.getElem_mem _, ?_,
      hrise⟩
    rw [before_iff hkeys hpos (by omega)]
    -- one point alone does not rise
    by_contra hone
    have hlast : points.length - 1 = 0 := by omega
    simp only [hlast] at hrise
    exact absurd hrise (lt_irrefl _)

/-- Where no point falls or rises, all have one value. -/
theorem constant_iff :
    ¬ Falls points ∧ ¬ Rises points ↔ ∀ p ∈ points, ∀ q ∈ points, p.2 = q.2 := by
  constructor
  · rintro ⟨hnever, hflat⟩
    have hlater : ∀ {i j : Nat} (hi : i < points.length) (hj : j < points.length), i < j →
        points[i].2 = points[j].2 := by
      intro i j hi hj hij
      have hbefore := (before_iff hkeys hi hj).mpr hij
      refine le_antisymm (not_lt.mp fun hfall => ?_) (not_lt.mp fun hrise => ?_)
      · exact hnever ⟨_, List.getElem_mem hi, _, List.getElem_mem hj, hbefore, hfall⟩
      · exact hflat ⟨_, List.getElem_mem hi, _, List.getElem_mem hj, hbefore, hrise⟩
    intro p hp q hq
    obtain ⟨i, hi, rfl⟩ := List.getElem_of_mem hp
    obtain ⟨j, hj, rfl⟩ := List.getElem_of_mem hq
    rcases Nat.lt_trichotomy i j with hij | rfl | hji
    · exact hlater hi hj hij
    · rfl
    · exact (hlater hj hi hji).symm
  · intro hconst
    constructor
    · rintro ⟨p, hp, q, hq, -, hfall⟩
      exact absurd (hconst q hq p hp) (ne_of_lt hfall)
    · rintro ⟨p, hp, q, hq, -, hrise⟩
      exact absurd (hconst p hp q hq) (ne_of_lt hrise)

end Points

end Samples
