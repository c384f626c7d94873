/-
  STRONG DUALITY for covering problems.

  A fractional cover takes an amount of every candidate such that each element is covered at least
  once in total.  Feasible weights bound its cost from below (`weight_le_fractional_cost`), and the
  bound is as good as weights can make it: when every fractional cover is dearer than a budget,
  some feasible weights prove it (`exists_weights_of_dear`).

  1. `farkas` — a linear functional that is nonpositive wherever finitely many others are is a
     nonnegative combination of these.  The induction is on the finite set: either the functional
     still follows without the new one, or some point refutes that, and projecting along this point
     makes the new one vanish.

  2. The problem `dearer than the budget` is made homogeneous with one more coordinate, the scale
     of the cover; the functional is this coordinate, and it is nonpositive wherever a cover of
     that scale is within the scaled budget.

  3. The combination is read off at the unit points: its coefficients are the weights, up to the
     coefficient of the budget.
-/
import Mathlib
import PoiexGoc.Lib.Covering

namespace LinearDuality

variable {𝕜 V ι : Type} [Field 𝕜] [LinearOrder 𝕜] [IsStrictOrderedRing 𝕜] [AddCommGroup V]
  [Module 𝕜 V]

/-- `b` is nonpositive wherever the functionals of the set are. -/
def Follows (s : Finset ι) (a : ι → V →ₗ[𝕜] 𝕜) (b : V →ₗ[𝕜] 𝕜) : Prop :=
  ∀ x, (∀ i ∈ s, a i x ≤ 0) → b x ≤ 0

/-- A functional that follows from none is zero. -/
theorem Follows.eq_zero {a : ι → V →ₗ[𝕜] 𝕜} {b : V →ₗ[𝕜] 𝕜} (hb : Follows ∅ a b) : b = 0 := by
  ext x
  have hle : b x ≤ 0 := hb x fun i hi => absurd hi (Finset.notMem_empty i)
  have hge : b (-x) ≤ 0 := hb (-x) fun i hi => absurd hi (Finset.notMem_empty i)
  rw [map_neg] at hge
  exact le_antisymm hle (neg_nonpos.mp hge)

/-- The functional composed with the projection along `x₀` onto the kernel of `f`, for a point with
    `f x₀ = 1`. -/
def along (f : V →ₗ[𝕜] 𝕜) (x₀ : V) (a : V →ₗ[𝕜] 𝕜) : V →ₗ[𝕜] 𝕜 := a - a x₀ • f

omit [LinearOrder 𝕜] [IsStrictOrderedRing 𝕜] in
theorem along_apply (f : V →ₗ[𝕜] 𝕜) (x₀ : V) (a : V →ₗ[𝕜] 𝕜) (x : V) :
    along f x₀ a x = a (x - f x • x₀) := by
  simp only [along, LinearMap.sub_apply, LinearMap.smul_apply, map_sub, map_smul, smul_eq_mul]
  rw [mul_comm]

section Step

variable [DecidableEq ι] {s : Finset ι} {j : ι} {a : ι → V →ₗ[𝕜] 𝕜} {b : V →ₗ[𝕜] 𝕜}

omit [IsStrictOrderedRing 𝕜] in
/-- After projecting, the functional follows without the new one. -/
theorem Follows.along (hb : Follows (insert j s) a b) {x₀ : V} (hx₀ : a j x₀ = 1) :
    Follows s (fun i => LinearDuality.along (a j) x₀ (a i)) (LinearDuality.along (a j) x₀ b) := by
  intro x hx
  rw [along_apply]
  apply hb
  intro i hi
  rcases Finset.mem_insert.mp hi with rfl | hi
  · -- the new functional vanishes on the projected point
    rw [map_sub, map_smul, hx₀, smul_eq_mul, mul_one, sub_self]
  · rw [← along_apply]
    exact hx i hi

/-- Where the new functional is needed, some point with value 1 under it satisfies the others and
    not `b`. -/
theorem Follows.exists_unit (hb : Follows (insert j s) a b) (hneeded : ¬ Follows s a b) :
    ∃ x₀, a j x₀ = 1 ∧ (∀ i ∈ s, a i x₀ ≤ 0) ∧ 0 ≤ b x₀ := by
  unfold Follows at hneeded
  obtain ⟨x, hx⟩ := not_forall.mp hneeded
  obtain ⟨hothers, hpos⟩ := Classical.not_imp.mp hx
  have hnew : 0 < a j x := by
    by_contra hle
    refine hpos (hb x fun i hi => ?_)
    rcases Finset.mem_insert.mp hi with rfl | hi
    · exact not_lt.mp hle
    · exact hothers i hi
  have hinv : 0 ≤ (a j x)⁻¹ := inv_nonneg.mpr hnew.le
  refine ⟨(a j x)⁻¹ • x, ?_, fun i hi => ?_, ?_⟩
  · rw [map_smul, smul_eq_mul, inv_mul_cancel₀ hnew.ne']
  · rw [map_smul, smul_eq_mul]
    exact mul_nonpos_of_nonneg_of_nonpos hinv (hothers i hi)
  · rw [map_smul, smul_eq_mul]
    exact mul_nonneg hinv (not_le.mp hpos).le

omit [LinearOrder 𝕜] [IsStrictOrderedRing 𝕜] in
/-- The coefficient of a new functional is free. -/
theorem sum_update (hj : j ∉ s) (a : ι → V →ₗ[𝕜] 𝕜) (coeff : ι → 𝕜) (r : 𝕜) :
    ∑ i ∈ insert j s, Function.update coeff j r i • a i = r • a j + ∑ i ∈ s, coeff i • a i := by
  rw [Finset.sum_insert hj, Function.update_self]
  congr 1
  refine Finset.sum_congr rfl fun i hi => ?_
  have hij : i ≠ j := by
    rintro rfl
    exact hj hi
  rw [Function.update_of_ne hij]

omit [IsStrictOrderedRing 𝕜] in
theorem update_nonneg {coeff : ι → 𝕜} (hcoeff : ∀ i, 0 ≤ coeff i) {r : 𝕜} (hr : 0 ≤ r) (i : ι) :
    0 ≤ Function.update coeff j r i := by
  by_cases hij : i = j
  · rw [hij, Function.update_self]
    exact hr
  · rw [Function.update_of_ne hij]
    exact hcoeff i

end Step

theorem farkas [DecidableEq ι] {s : Finset ι} {a : ι → V →ₗ[𝕜] 𝕜} {b : V →ₗ[𝕜] 𝕜}
    (hb : Follows s a b) :
    ∃ coeff : ι → 𝕜, (∀ i, 0 ≤ coeff i) ∧ b = ∑ i ∈ s, coeff i • a i := by
  induction s using Finset.induction_on generalizing a b with
  | empty => exact ⟨fun _ => 0, fun _ => le_rfl, by rw [hb.eq_zero, Finset.sum_empty]⟩
  | insert j s hj ih =>
    by_cases hneeded : Follows s a b
    · obtain ⟨coeff, hnonneg, hsum⟩ := ih hneeded
      refine ⟨Function.update coeff j 0, update_nonneg hnonneg le_rfl, ?_⟩
      rw [sum_update hj, zero_smul, zero_add, hsum]
    · obtain ⟨x₀, hunit, hothers, hpos⟩ := hb.exists_unit hneeded
      obtain ⟨coeff, hnonneg, hsum⟩ := ih (hb.along hunit)
      -- the coefficient of the new functional pays for what the projection took away
      have hle : ∑ i ∈ s, coeff i * a i x₀ ≤ 0 :=
        Finset.sum_nonpos fun i hi => mul_nonpos_of_nonneg_of_nonpos (hnonneg i) (hothers i hi)
      have hrest : 0 ≤ b x₀ - ∑ i ∈ s, coeff i * a i x₀ := sub_nonneg.mpr (hle.trans hpos)
      refine ⟨Function.update coeff j _, update_nonneg hnonneg hrest, ?_⟩
      rw [sum_update hj]
      ext y
      have hy := LinearMap.congr_fun hsum y
      simp only [LinearDuality.along, LinearMap.sub_apply, LinearMap.smul_apply,
        LinearMap.sum_apply, smul_eq_mul, mul_sub, Finset.sum_sub_distrib, ← mul_assoc,
        ← Finset.sum_mul] at hy
      simp only [LinearMap.add_apply, LinearMap.smul_apply, LinearMap.sum_apply, smul_eq_mul]
      linear_combination hy

end LinearDuality

namespace Covering

variable {κ ι : Type} [DecidableEq ι] (covers : κ → Multiset ι)

section Fractional

variable {𝕜 : Type} [Field 𝕜] [LinearOrder 𝕜] {candidates : Finset κ} {elements : Finset ι}

/-- An amount of each candidate that covers every element at least once in total; a candidate that
    lists an element twice covers it twice. -/
structure FractionalCover (candidates : Finset κ) (elements : Finset ι) (amount : κ → 𝕜) :
    Prop where
  nonneg : ∀ c ∈ candidates, 0 ≤ amount c
  covered : ∀ i ∈ elements, 1 ≤ ∑ c ∈ candidates, amount c * (covers c).count i

variable [IsStrictOrderedRing 𝕜]

/-- The weight of the elements a candidate covers is at most its load. -/
theorem sum_count_le_load {weight : ι → 𝕜} (hweight : ∀ i, 0 ≤ weight i) (elements : Finset ι)
    (c : κ) : ∑ i ∈ elements, weight i * (covers c).count i ≤ load covers weight c := by
  have hload : load covers weight c = ∑ i ∈ (covers c).toFinset, weight i * (covers c).count i := by
    rw [load, Finset.sum_multiset_map_count]
    exact Finset.sum_congr rfl fun i _ => by rw [nsmul_eq_mul, mul_comm]
  have hterm : ∀ i, 0 ≤ weight i * ((covers c).count i : 𝕜) :=
    fun i => mul_nonneg (hweight i) (Nat.cast_nonneg _)
  rw [hload]
  calc ∑ i ∈ elements, weight i * ((covers c).count i : 𝕜)
      ≤ ∑ i ∈ elements ∪ (covers c).toFinset, weight i * ((covers c).count i : 𝕜) :=
        Finset.sum_le_sum_of_subset_of_nonneg Finset.subset_union_left fun i _ _ => hterm i
    _ = ∑ i ∈ (covers c).toFinset, weight i * ((covers c).count i : 𝕜) := by
        refine (Finset.sum_subset Finset.subset_union_right fun i _ hi => ?_).symm
        rw [Multiset.count_eq_zero.mpr (fun h => hi (Multiset.mem_toFinset.mpr h)), Nat.cast_zero,
          mul_zero]

omit [LinearOrder 𝕜] [IsStrictOrderedRing 𝕜] in
/-- Weights of the elements only load a candidate with the elements it covers. -/
theorem load_eq_sum_count {weight : ι → 𝕜} (hzero : ∀ i, i ∉ elements → weight i = 0) (c : κ) :
    load covers weight c = ∑ i ∈ elements, weight i * (covers c).count i := by
  have hterm : ∀ i, (covers c).count i • weight i = weight i * (covers c).count i :=
    fun i => by rw [nsmul_eq_mul, mul_comm]
  rw [load, Finset.sum_multiset_map_count]
  calc ∑ i ∈ (covers c).toFinset, (covers c).count i • weight i
      = ∑ i ∈ (covers c).toFinset ∪ elements, (covers c).count i • weight i := by
        refine Finset.sum_subset Finset.subset_union_left fun i _ hi => ?_
        rw [Multiset.count_eq_zero.mpr (fun h => hi (Multiset.mem_toFinset.mpr h)), zero_smul]
    _ = ∑ i ∈ elements, (covers c).count i • weight i := by
        refine (Finset.sum_subset Finset.subset_union_right fun i _ hi => ?_).symm
        rw [hzero i hi, smul_zero]
    _ = ∑ i ∈ elements, weight i * (covers c).count i := Finset.sum_congr rfl fun i _ => hterm i

/-- Weak duality for fractional covers. -/
theorem weight_le_fractional_cost {weight : ι → 𝕜} (hweight : ∀ i, 0 ≤ weight i) {cost : κ → 𝕜}
    (hfeasible : ∀ c ∈ candidates, load covers weight c ≤ cost c) {amount : κ → 𝕜}
    (hcover : FractionalCover covers candidates elements amount) :
    ∑ i ∈ elements, weight i ≤ ∑ c ∈ candidates, amount c * cost c := by
  calc ∑ i ∈ elements, weight i
      ≤ ∑ i ∈ elements, weight i * ∑ c ∈ candidates, amount c * (covers c).count i :=
        Finset.sum_le_sum fun i hi => le_mul_of_one_le_right (hweight i) (hcover.covered i hi)
    _ = ∑ c ∈ candidates, amount c * ∑ i ∈ elements, weight i * (covers c).count i := by
        simp only [Finset.mul_sum]
        rw [Finset.sum_comm]
        exact Finset.sum_congr rfl fun c _ => Finset.sum_congr rfl fun i _ => by ring
    _ ≤ ∑ c ∈ candidates, amount c * cost c :=
        Finset.sum_le_sum fun c hc => mul_le_mul_of_nonneg_left
          ((sum_count_le_load covers hweight elements c).trans (hfeasible c hc))
          (hcover.nonneg c hc)

/-! ## Strong duality -/

/-- The constraints on an amount of each candidate and a scale: amounts are not negative, every
    element is covered up to the scale, and the cost is within the scaled budget. -/
def constraint (candidates : Finset κ) (cost : κ → 𝕜) (budget : 𝕜) :
    κ ⊕ ι ⊕ Unit → ((κ → 𝕜) × 𝕜 →ₗ[𝕜] 𝕜)
  | .inl c => -(LinearMap.proj c ∘ₗ LinearMap.fst 𝕜 (κ → 𝕜) 𝕜)
  | .inr (.inl i) => LinearMap.snd 𝕜 (κ → 𝕜) 𝕜 -
      ∑ c ∈ candidates, ((covers c).count i : 𝕜) • (LinearMap.proj c ∘ₗ LinearMap.fst 𝕜 (κ → 𝕜) 𝕜)
  | .inr (.inr ()) =>
      ∑ c ∈ candidates, cost c • (LinearMap.proj c ∘ₗ LinearMap.fst 𝕜 (κ → 𝕜) 𝕜) -
        budget • LinearMap.snd 𝕜 (κ → 𝕜) 𝕜

def constraints (candidates : Finset κ) (elements : Finset ι) : Finset (κ ⊕ ι ⊕ Unit) :=
  candidates.disjSum (elements.disjSum {()})

/-- When every cover is dearer than the budget, the constraints leave only scales up to zero. -/
theorem follows_of_dear {cost : κ → 𝕜} {budget : 𝕜}
    (hdear : ∀ amount, FractionalCover covers candidates elements amount →
      budget < ∑ c ∈ candidates, amount c * cost c) :
    LinearDuality.Follows (constraints candidates elements)
      (constraint covers candidates cost budget) (LinearMap.snd 𝕜 (κ → 𝕜) 𝕜) := by
  rintro ⟨amount, scale⟩ hx
  show scale ≤ 0
  by_contra hpos
  have hpos : 0 < scale := not_le.mp hpos
  have hamount : ∀ c ∈ candidates, 0 ≤ amount c := by
    intro c hc
    have hle := hx (.inl c) (by simp [constraints, hc])
    simpa [constraint] using hle
  have hcovered : ∀ i ∈ elements, scale ≤ ∑ c ∈ candidates, amount c * (covers c).count i := by
    intro i hi
    have hle := hx (.inr (.inl i)) (by simp [constraints, hi])
    simpa [constraint, LinearMap.sum_apply, mul_comm] using hle
  have hcost : ∑ c ∈ candidates, amount c * cost c ≤ budget * scale := by
    have hle := hx (.inr (.inr ())) (by simp [constraints])
    simpa [constraint, LinearMap.sum_apply, mul_comm] using hle
  -- dividing by the scale gives a cover within the budget
  have hcover : FractionalCover covers candidates elements fun c => amount c / scale := by
    refine ⟨fun c hc => div_nonneg (hamount c hc) hpos.le, fun i hi => ?_⟩
    have hsum : ∑ c ∈ candidates, amount c / scale * ((covers c).count i : 𝕜) =
        (∑ c ∈ candidates, amount c * ((covers c).count i : 𝕜)) / scale := by
      rw [Finset.sum_div]
      exact Finset.sum_congr rfl fun c _ => by ring
    rw [hsum, one_le_div hpos]
    exact hcovered i hi
  have hsum : ∑ c ∈ candidates, amount c / scale * cost c =
      (∑ c ∈ candidates, amount c * cost c) / scale := by
    rw [Finset.sum_div]
    exact Finset.sum_congr rfl fun c _ => by ring
  have hwithin := hdear _ hcover
  rw [hsum, lt_div_iff₀ hpos] at hwithin
  exact absurd hcost (not_le.mpr hwithin)

/-- The scale as a combination of the constraints, read off at the unit points. -/
theorem exists_combination {cost : κ → 𝕜} {budget : 𝕜} [DecidableEq κ]
    (hfollows : LinearDuality.Follows (constraints candidates elements)
      (constraint covers candidates cost budget) (LinearMap.snd 𝕜 (κ → 𝕜) 𝕜)) :
    ∃ (weight : ι → 𝕜) (price : 𝕜), (∀ i, 0 ≤ weight i) ∧ 0 ≤ price ∧
      ∑ i ∈ elements, weight i = 1 + price * budget ∧
      ∀ c ∈ candidates, ∑ i ∈ elements, weight i * (covers c).count i ≤ price * cost c := by
  obtain ⟨coeff, hnonneg, hsum⟩ := LinearDuality.farkas hfollows
  have hvalue : ∀ (amount : κ → 𝕜) (scale : 𝕜), scale =
      -∑ c ∈ candidates, coeff (.inl c) * amount c +
        (∑ i ∈ elements, coeff (.inr (.inl i)) *
            (scale - ∑ c ∈ candidates, (covers c).count i * amount c) +
          coeff (.inr (.inr ())) * (∑ c ∈ candidates, cost c * amount c - budget * scale)) := by
    intro amount scale
    have hpoint := LinearMap.congr_fun hsum (amount, scale)
    simpa [constraints, constraint, Finset.sum_disjSum, LinearMap.sum_apply] using hpoint
  refine ⟨fun i => coeff (.inr (.inl i)), coeff (.inr (.inr ())), fun i => hnonneg _, hnonneg _,
    ?_, fun c hc => ?_⟩
  · have hscale := hvalue 0 1
    simp only [Pi.zero_apply, mul_zero, Finset.sum_const_zero, sub_zero, mul_one, neg_zero] at hscale
    linarith
  · have hunit := hvalue (Pi.single c 1) 0
    have hsingle : ∀ f : κ → 𝕜, ∑ c' ∈ candidates, f c' * (Pi.single c 1 : κ → 𝕜) c' = f c := by
      intro f
      simp [Pi.single_apply, hc]
    simp only [hsingle, mul_zero, sub_zero, zero_sub, mul_neg, Finset.sum_neg_distrib] at hunit
    have hfree : 0 ≤ coeff (.inl c) := hnonneg _
    linarith

/-- Strong duality: where every fractional cover is dearer than the budget, feasible weights of the
    elements exceed it. -/
theorem exists_weights_of_dear [DecidableEq κ] (candidates : Finset κ) (elements : Finset ι)
    {cost : κ → 𝕜} (hcost : ∀ c ∈ candidates, 0 ≤ cost c) {budget : 𝕜} (hbudget : 0 ≤ budget)
    (hdear : ∀ amount, FractionalCover covers candidates elements amount →
      budget < ∑ c ∈ candidates, amount c * cost c) :
    ∃ weight : ι → 𝕜, (∀ i, 0 ≤ weight i) ∧ (∀ i, i ∉ elements → weight i = 0) ∧
      (∀ c ∈ candidates, load covers weight c ≤ cost c) ∧ budget < ∑ i ∈ elements, weight i := by
  obtain ⟨weight, price, hweight, hprice, htotal, hload⟩ :=
    exists_combination covers (follows_of_dear covers hdear)
  -- the weights times a factor that makes them feasible and leaves them above the budget
  suffices hfactor : ∃ r : 𝕜, 0 ≤ r ∧ (∀ c ∈ candidates, r * (price * cost c) ≤ cost c) ∧
      budget < r * (1 + price * budget) by
    obtain ⟨r, hr, hfits, hexceeds⟩ := hfactor
    have hinside : ∀ i ∈ elements, (if i ∈ elements then r * weight i else 0) = r * weight i :=
      fun i hi => if_pos hi
    refine ⟨fun i => if i ∈ elements then r * weight i else 0, fun i => ?_, fun i hi => if_neg hi,
      fun c hc => ?_, ?_⟩
    · show 0 ≤ if i ∈ elements then r * weight i else 0
      split
      · exact mul_nonneg hr (hweight i)
      · exact le_rfl
    · calc load covers (fun i => if i ∈ elements then r * weight i else 0) c
          = ∑ i ∈ elements, r * (weight i * (covers c).count i) := by
            rw [load_eq_sum_count covers fun i (hi : i ∉ elements) => if_neg hi]
            exact Finset.sum_congr rfl fun i hi => by rw [hinside i hi, mul_assoc]
        _ = r * ∑ i ∈ elements, weight i * (covers c).count i := by rw [Finset.mul_sum]
        _ ≤ r * (price * cost c) := mul_le_mul_of_nonneg_left (hload c hc) hr
        _ ≤ cost c := hfits c hc
    · rw [Finset.sum_congr rfl hinside, ← Finset.mul_sum, htotal]
      exact hexceeds
  rcases hprice.eq_or_lt with hfree | hpaid
  · -- the weights load no candidate, so any multiple of them is feasible
    subst hfree
    refine ⟨budget + 1, add_nonneg hbudget zero_le_one, fun c hc => ?_, ?_⟩
    · rw [zero_mul, mul_zero]
      exact hcost c hc
    · rw [zero_mul, add_zero, mul_one]
      exact lt_add_one budget
  · -- dividing by the price of the budget
    refine ⟨price⁻¹, inv_nonneg.mpr hpaid.le, fun c _ => ?_, ?_⟩
    · rw [← mul_assoc, inv_mul_cancel₀ hpaid.ne', one_mul]
    · rw [mul_add, ← mul_assoc, inv_mul_cancel₀ hpaid.ne', one_mul, mul_one]
      exact lt_add_of_pos_left budget (inv_pos.mpr hpaid)

end Fractional

end Covering
