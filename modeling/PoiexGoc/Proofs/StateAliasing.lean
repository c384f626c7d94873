/-
  The audit of coarse states is EXACT.

  1. `audits_eq` — on states with distinct ids the audits are those of the coarse states in order,
     each over the states that have it; no two of them share a state.

  2. The audit of one coarse state (`auditClass`) depends on the set of its members only
     (`auditClass_eq_of_perm`).  Its rival groups put two members together exactly when their kernels
     are the same mapping (`sameGroup_iff`), and it is safe exactly when one kernel is left
     (`auditClass_safe_iff`).

  3. `state_alias_audit_is_exact` — what the result says about every class, and that it says the
     same for every order of the states.
-/
import PoiexGoc.Runtime.FutureStateSufficiency

namespace PoiexGoc

open Py

namespace FutureStateSufficiency

open UnderlyingOperationalState

/-! ## Members -/

/-- The states with one coarse state. -/
def membersOf (states : List UnderlyingOperationalState) (coarse : String) :
    List UnderlyingOperationalState :=
  states.filter fun s => s.coarseState = coarse

theorem mem_membersOf {states : List UnderlyingOperationalState} {coarse : String}
    {s : UnderlyingOperationalState} :
    s ∈ membersOf states coarse ↔ s ∈ states ∧ s.coarseState = coarse := by
  rw [membersOf, List.mem_filter, decide_eq_true_iff]

theorem nodup_membersOf {states : List UnderlyingOperationalState}
    (hids : (states.map stateId).Nodup) (coarse : String) :
    ((membersOf states coarse).map stateId).Nodup :=
  hids.sublist (List.filter_sublist.map stateId)

/-- The members as the audit goes through them. -/
def inOrder (members : List UnderlyingOperationalState) : List UnderlyingOperationalState :=
  members.insertionSort fun a b => a.stateId ≤ b.stateId

theorem inOrder_perm (members : List UnderlyingOperationalState) :
    (inOrder members).Perm members := List.perm_insertionSort _ members

theorem mem_inOrder {members : List UnderlyingOperationalState} {s : UnderlyingOperationalState} :
    s ∈ inOrder members ↔ s ∈ members := List.mem_insertionSort _

theorem inOrder_eq_of_perm {members members' : List UnderlyingOperationalState}
    (hids : (members.map stateId).Nodup) (hperm : members.Perm members') :
    inOrder members = inOrder members' :=
  Reordering.insertionSort_eq_of_perm hperm hids

/-- The ids of the members, grouped by kernel. -/
def kernelGroups (members : List UnderlyingOperationalState) :
    List (List (String × String) × List String) :=
  Grouping.group kernelKey stateId (inOrder members)

/-- All members have the same kernel. -/
def OneKernel (members : List UnderlyingOperationalState) : Prop :=
  ∀ s ∈ members, ∀ t ∈ members, s.continuationKernel = t.continuationKernel

theorem card_kernels_le_one_iff {members : List UnderlyingOperationalState} :
    (members.map kernelKey).toFinset.card ≤ 1 ↔ OneKernel members := by
  rw [Finset.card_le_one]
  constructor
  · intro hone s hs t ht
    have hmem : ∀ u ∈ members, u.kernelKey ∈ (members.map kernelKey).toFinset :=
      fun u hu => List.mem_toFinset.mpr (List.mem_map_of_mem hu)
    exact kernelKey_eq_iff.mp (hone _ (hmem s hs) _ (hmem t ht))
  · intro hone k hk k' hk'
    obtain ⟨s, hs, rfl⟩ := List.mem_map.mp (List.mem_toFinset.mp hk)
    obtain ⟨t, ht, rfl⟩ := List.mem_map.mp (List.mem_toFinset.mp hk')
    exact kernelKey_eq_iff.mpr (hone s hs t ht)

theorem length_kernelGroups_le_one_iff (members : List UnderlyingOperationalState) :
    (kernelGroups members).length ≤ 1 ↔ OneKernel members := by
  have hcard : (kernelGroups members).length = ((inOrder members).map kernelKey).toFinset.card :=
    Grouping.length_groupInto_eq_card
  rw [hcard, card_kernels_le_one_iff]
  simp only [OneKernel, mem_inOrder]

/-! ## One coarse state -/

section Audits

variable [UnicodeTables]

/-- The audit of a coarse state does not depend on the order of its members. -/
theorem auditClass_eq_of_perm {members members' : List UnderlyingOperationalState}
    (hids : (members.map stateId).Nodup) (hperm : members.Perm members') (coarse : String) :
    auditClass coarse members = auditClass coarse members' := by
  have horder := inOrder_eq_of_perm hids hperm
  rw [inOrder, inOrder] at horder
  rw [auditClass, horder]
  rfl

theorem memberStateIds_perm (coarse : String) (members : List UnderlyingOperationalState) :
    (auditClass coarse members).memberStateIds.Perm (members.map stateId) :=
  (inOrder_perm members).map stateId

/-- The rival groups are the groups of the dict: sorting changes their order and the order of ids. -/
theorem mem_rivalKernelGroups {coarse : String} {members : List UnderlyingOperationalState}
    {group : List String} :
    group ∈ (auditClass coarse members).rivalKernelGroups ↔
      ∃ e ∈ kernelGroups members, group = e.2.insertionSort (· ≤ ·) := by
  show group ∈ List.map _ (List.insertionSort _ (kernelGroups members)) ↔ _
  rw [List.mem_map]
  constructor
  · rintro ⟨e, he, rfl⟩
    exact ⟨e, (List.mem_insertionSort _).mp he, rfl⟩
  · rintro ⟨e, he, rfl⟩
    exact ⟨e, (List.mem_insertionSort _).mpr he, rfl⟩

theorem rivalKernelGroups_perm (coarse : String) (members : List UnderlyingOperationalState) :
    (auditClass coarse members).rivalKernelGroups.flatten.Perm
      (auditClass coarse members).memberStateIds := by
  have hgroups : ((kernelGroups members).flatMap Prod.snd).Perm ((inOrder members).map stateId) :=
    Grouping.flatMap_group_perm
  exact (Grouping.flatten_sorted_perm (kernelGroups members)).trans hgroups

theorem rivalKernelGroup_ne_nil {coarse : String} {members : List UnderlyingOperationalState}
    {group : List String} (hgroup : group ∈ (auditClass coarse members).rivalKernelGroups) :
    group ≠ [] := by
  obtain ⟨⟨k, ids⟩, he, rfl⟩ := mem_rivalKernelGroups.mp hgroup
  obtain ⟨hk, hids⟩ := Grouping.mem_group.mp he
  obtain ⟨s, hs, hkey⟩ := List.mem_map.mp hk
  have hmem : s.stateId ∈ ids := by
    rw [hids]
    exact List.mem_map_of_mem (List.mem_filter.mpr ⟨hs, decide_eq_true hkey⟩)
  exact List.ne_nil_of_mem ((List.mem_insertionSort _).mpr hmem)

/-- Two members stand in one rival group exactly when their kernels are the same mapping. -/
theorem sameGroup_iff {coarse : String} {members : List UnderlyingOperationalState}
    (hids : (members.map stateId).Nodup) {s t : UnderlyingOperationalState} (hs : s ∈ members)
    (ht : t ∈ members) :
    (∃ group ∈ (auditClass coarse members).rivalKernelGroups,
        s.stateId ∈ group ∧ t.stateId ∈ group) ↔
      s.continuationKernel = t.continuationKernel := by
  have hids' : ((inOrder members).map stateId).Nodup :=
    ((inOrder_perm members).map stateId).nodup_iff.mpr hids
  have hgroups : (∃ e ∈ kernelGroups members, s.stateId ∈ e.2 ∧ t.stateId ∈ e.2) ↔
      s.kernelKey = t.kernelKey :=
    Grouping.exists_group_iff hids' (mem_inOrder.mpr hs) (mem_inOrder.mpr ht)
  rw [← kernelKey_eq_iff, ← hgroups]
  constructor
  · rintro ⟨group, hgroup, hsg, htg⟩
    obtain ⟨e, he, rfl⟩ := mem_rivalKernelGroups.mp hgroup
    exact ⟨e, he, (List.mem_insertionSort _).mp hsg, (List.mem_insertionSort _).mp htg⟩
  · rintro ⟨e, he, hsg, htg⟩
    exact ⟨_, mem_rivalKernelGroups.mpr ⟨e, he, rfl⟩, (List.mem_insertionSort _).mpr hsg,
      (List.mem_insertionSort _).mpr htg⟩

/-- A class is safe when one kernel is left, and unsafe otherwise. -/
theorem auditClass_safe_iff (coarse : String) (members : List UnderlyingOperationalState) :
    ((auditClass coarse members).status = "SAFE_FOR_DECLARED_KERNEL" ↔ OneKernel members) ∧
      ((auditClass coarse members).status = "STATE_ALIAS_UNSAFE" ↔ ¬ OneKernel members) := by
  have hstatus : (auditClass coarse members).status =
      if (kernelGroups members).length ≤ 1 then "SAFE_FOR_DECLARED_KERNEL"
      else "STATE_ALIAS_UNSAFE" := rfl
  rw [hstatus, ← length_kernelGroups_le_one_iff]
  by_cases hone : (kernelGroups members).length ≤ 1
  · rw [if_pos hone]
    exact ⟨iff_of_true rfl hone, iff_of_false (by decide) (not_not_intro hone)⟩
  · rw [if_neg hone]
    exact ⟨iff_of_false (by decide) hone, iff_of_true rfl hone⟩

/-! ## All coarse states -/

/-- The audits in the order of the coarse states. -/
def audits (states : List UnderlyingOperationalState) : List CoarseStateAudit :=
  ((Grouping.group coarseState id states).insertionSort fun a b => a.1 ≤ b.1).map
    fun g => auditClass g.1 g.2

theorem audits_eq (states : List UnderlyingOperationalState) :
    audits states = (sorted (states.map coarseState).toFinset).map
      fun coarse => auditClass coarse (membersOf states coarse) := by
  have hkeys : ∀ k, k ∈ sorted (states.map coarseState).toFinset ↔ k ∈ states.map coarseState :=
    fun k => mem_sorted.trans List.mem_toFinset
  rw [audits, Grouping.group, Grouping.insertionSort_groupInto (sorted_pairwise _) hkeys,
    List.map_map]
  apply List.map_congr_left
  intro coarse _
  show auditClass coarse (Grouping.collect coarseState [] _ states coarse) = _
  rw [Grouping.collect_append, List.map_id]
  rfl

theorem mem_audits {states : List UnderlyingOperationalState} {audit : CoarseStateAudit} :
    audit ∈ audits states ↔
      ∃ coarse ∈ states.map coarseState, auditClass coarse (membersOf states coarse) = audit := by
  rw [audits_eq, List.mem_map]
  simp only [mem_sorted, List.mem_toFinset]

/-- No state is lost, and none is in two classes. -/
theorem flatMap_memberStateIds_perm (states : List UnderlyingOperationalState) :
    ((audits states).flatMap CoarseStateAudit.memberStateIds).Perm (states.map stateId) := by
  have hgroups : ((Grouping.group coarseState id states).flatMap Prod.snd).Perm (states.map id) :=
    Grouping.flatMap_group_perm
  rw [List.map_id] at hgroups
  rw [audits, List.flatMap_map]
  refine ((List.perm_insertionSort _ _).flatMap_right _).trans ?_
  refine (List.Perm.flatMap_left _ fun g _ => memberStateIds_perm g.1 g.2).trans ?_
  rw [← List.map_flatMap]
  exact hgroups.map stateId

/-- What is reported over the audits. -/
def resultOf (classes : List CoarseStateAudit) : FutureStateSufficiencyResult :=
  { classes
    unsafeClassCount := classes.countP fun audit => audit.status = "STATE_ALIAS_UNSAFE"
    safeClassCount :=
      classes.length - classes.countP fun audit => audit.status = "STATE_ALIAS_UNSAFE"
    globalFutureExactnessClaimed := false
    negativeSeal := "PRESENT_EQUIVALENCE != FUTURE_ACTION_KERNEL_EQUIVALENCE"
    additionalNegativeSeals := ["FINITE_NO_COLLISION != FUTURE_EXACTNESS",
      "SAME_COMMON_FACTOR != SAME_FUTURE_KERNEL",
      "CENSORED_H != NEVER_EVENT",
      "SAFE_FOR_DECLARED_KERNEL != GLOBAL_FUTURE_EXACTNESS"] }

/-- States with distinct ids are audited, states that share an id are refused. -/
theorem auditFutureStateSufficiency_eq (states : List UnderlyingOperationalState) :
    auditFutureStateSufficiency states =
      if (states.map stateId).Nodup then .ok (resultOf (audits states))
      else .error (.valueError "duplicate state_id") := by
  have hnodup : (states.map stateId).toFinset.card = (states.map stateId).length ↔
      (states.map stateId).Nodup := card_toFinset_eq_length_iff
  rw [auditFutureStateSufficiency]
  by_cases hids : (states.map stateId).Nodup
  · rw [if_pos hids, if_neg (not_not_intro (hnodup.mpr hids))]
    rfl
  · rw [if_neg hids, if_pos (mt hnodup.mp hids)]

theorem audits_eq_of_perm {states states' : List UnderlyingOperationalState}
    (hids : (states.map stateId).Nodup) (hperm : states.Perm states') :
    audits states = audits states' := by
  have hcoarse : (states.map coarseState).toFinset = (states'.map coarseState).toFinset :=
    List.toFinset_eq_of_perm _ _ (hperm.map coarseState)
  rw [audits_eq, audits_eq, hcoarse]
  apply List.map_congr_left
  intro coarse _
  exact auditClass_eq_of_perm (nodup_membersOf hids coarse) (hperm.filter _) coarse

/-! ## The audit is exact -/

/-- What the audit of one coarse state says about the states. -/
structure ExactClass (states : List UnderlyingOperationalState) (audit : CoarseStateAudit) :
    Prop where
  members : ∀ s ∈ states, s.stateId ∈ audit.memberStateIds ↔ s.coarseState = audit.coarseState
  rivals_partition : audit.rivalKernelGroups.flatten.Perm audit.memberStateIds
  rivals_nonempty : ∀ group ∈ audit.rivalKernelGroups, group ≠ []
  rivals : ∀ s ∈ states, ∀ t ∈ states,
    s.stateId ∈ audit.memberStateIds → t.stateId ∈ audit.memberStateIds →
    ((∃ group ∈ audit.rivalKernelGroups, s.stateId ∈ group ∧ t.stateId ∈ group) ↔
      s.continuationKernel = t.continuationKernel)
  safe : audit.status = "SAFE_FOR_DECLARED_KERNEL" ↔
    ∀ s ∈ states, ∀ t ∈ states,
      s.stateId ∈ audit.memberStateIds → t.stateId ∈ audit.memberStateIds →
      s.continuationKernel = t.continuationKernel

/-- What the whole result says about the states. -/
structure ExactAudit (states : List UnderlyingOperationalState)
    (result : FutureStateSufficiencyResult) : Prop where
  coarseStates : result.classes.map CoarseStateAudit.coarseState =
    sorted (states.map coarseState).toFinset
  partition : (result.classes.flatMap CoarseStateAudit.memberStateIds).Perm (states.map stateId)
  classes : ∀ audit ∈ result.classes, ExactClass states audit
  unsafeCount : result.unsafeClassCount =
    result.classes.countP fun audit => audit.status = "STATE_ALIAS_UNSAFE"
  safeCount : result.safeClassCount =
    result.classes.countP fun audit => audit.status = "SAFE_FOR_DECLARED_KERNEL"
  counts : result.safeClassCount + result.unsafeClassCount = (states.map coarseState).toFinset.card

theorem exactClass {states : List UnderlyingOperationalState} (hids : (states.map stateId).Nodup)
    (coarse : String) : ExactClass states (auditClass coarse (membersOf states coarse)) := by
  have hmembers : ∀ s ∈ states,
      s.stateId ∈ (auditClass coarse (membersOf states coarse)).memberStateIds ↔
        s.coarseState = coarse := by
    intro s hs
    rw [(memberStateIds_perm coarse _).mem_iff, List.mem_map]
    constructor
    · rintro ⟨t, ht, hid⟩
      obtain ⟨htstates, hcoarse⟩ := mem_membersOf.mp ht
      rw [← List.inj_on_of_nodup_map hids htstates hs hid]
      exact hcoarse
    · intro hcoarse
      exact ⟨s, mem_membersOf.mpr ⟨hs, hcoarse⟩, rfl⟩
  refine ⟨hmembers, rivalKernelGroups_perm coarse _, fun group => rivalKernelGroup_ne_nil, ?_, ?_⟩
  · intro s hs t ht hsid htid
    exact sameGroup_iff (nodup_membersOf hids coarse)
      (mem_membersOf.mpr ⟨hs, (hmembers s hs).mp hsid⟩)
      (mem_membersOf.mpr ⟨ht, (hmembers t ht).mp htid⟩)
  · rw [(auditClass_safe_iff coarse _).1]
    constructor
    · intro hone s hs t ht hsid htid
      exact hone s (mem_membersOf.mpr ⟨hs, (hmembers s hs).mp hsid⟩)
        t (mem_membersOf.mpr ⟨ht, (hmembers t ht).mp htid⟩)
    · intro hone s hs t ht
      obtain ⟨hs, hscoarse⟩ := mem_membersOf.mp hs
      obtain ⟨ht, htcoarse⟩ := mem_membersOf.mp ht
      exact hone s hs t ht ((hmembers s hs).mpr hscoarse) ((hmembers t ht).mpr htcoarse)

/-- Every class is safe or unsafe. -/
theorem countP_safe_add_countP_unsafe (states : List UnderlyingOperationalState) :
    (audits states).length =
      (audits states).countP (fun audit => audit.status = "SAFE_FOR_DECLARED_KERNEL") +
        (audits states).countP fun audit => audit.status = "STATE_ALIAS_UNSAFE" := by
  rw [List.length_eq_countP_add_countP fun audit : CoarseStateAudit =>
    audit.status = "SAFE_FOR_DECLARED_KERNEL"]
  congr 1
  apply List.countP_congr
  intro audit haudit
  obtain ⟨coarse, -, rfl⟩ := mem_audits.mp haudit
  obtain ⟨hsafe, hunsafe⟩ := auditClass_safe_iff coarse (membersOf states coarse)
  rw [decide_eq_true_iff, decide_eq_true_iff, decide_eq_true_iff, hunsafe, hsafe]

/-- The audit of states with distinct ids is exact, and it is the same for every order of the
    states. -/
theorem state_alias_audit_is_exact {states : List UnderlyingOperationalState}
    (hids : (states.map stateId).Nodup) :
    ∃ result, auditFutureStateSufficiency states = .ok result ∧ ExactAudit states result ∧
      ∀ states', states'.Perm states → auditFutureStateSufficiency states' = .ok result := by
  have hsplit := countP_safe_add_countP_unsafe states
  have hresult : (resultOf (audits states)).classes = audits states := rfl
  have hlength : (audits states).length = (states.map coarseState).toFinset.card := by
    rw [audits_eq, List.length_map, ← Multiset.coe_card, coe_sorted]
    rfl
  refine ⟨resultOf (audits states), ?_, ?_, ?_⟩
  · rw [auditFutureStateSufficiency_eq, if_pos hids]
  · refine ⟨?_, flatMap_memberStateIds_perm states, ?_, rfl, ?_, ?_⟩
    · show (audits states).map CoarseStateAudit.coarseState = _
      rw [audits_eq, List.map_map]
      exact List.map_id _
    · intro audit haudit
      obtain ⟨coarse, -, rfl⟩ := mem_audits.mp haudit
      exact exactClass hids coarse
    · rw [hresult]
      show (audits states).length - (audits states).countP _ = _
      omega
    · show (audits states).length - (audits states).countP _ + (audits states).countP _ = _
      omega
  · intro states' hperm
    have hids' : (states'.map stateId).Nodup := (hperm.map stateId).nodup_iff.mpr hids
    rw [auditFutureStateSufficiency_eq, if_pos hids', audits_eq_of_perm hids' hperm]

end Audits

/-- Two pump states behind one coarse state, of which only one may go on. -/
theorem pump_states_are_audited_exactly :
    let x : UnderlyingOperationalState :=
      ⟨"x", "pump-ready", "READY", Finmap.singleton "continue" "ALLOW", ∅⟩
    let y : UnderlyingOperationalState :=
      ⟨"y", "pump-ready", "READY", Finmap.singleton "continue" "BLOCK", ∅⟩
    ∃ result, auditFutureStateSufficiency [x, y] = .ok result ∧ ExactAudit [x, y] result ∧
      ∀ states', states'.Perm [x, y] → auditFutureStateSufficiency states' = .ok result :=
  state_alias_audit_is_exact (by decide)

end FutureStateSufficiency

end PoiexGoc
