/-
  What the verdict on a coarse state is WORTH.

  1. Further states (`Withdraws`) — a class can only lose by them: rivals stay rivals, an unsafe
     class stays unsafe and its coordinates become fewer.  And it can always lose: one more state like
     one of its members, but for its kernel, leaves it unsafe and without a coordinate
     (`auditClass_rival`).  Both are put together in `further_states_only_withdraw`.

  2. Other coarse states (`relabelled`) — the audit finds nothing unsafe exactly when the labels
     determine the kernels, so it takes at least as many labels as there are kernels; the kernels
     themselves, as labels, are enough (`kernels_are_the_fewest_safe_labels`).
-/
import PoiexGoc.Proofs.ResidualCoordinates

namespace PoiexGoc

open Py

namespace FutureStateSufficiency

open UnderlyingOperationalState

/-! ## Further members -/

theorem membersOf_subset {states states' : List UnderlyingOperationalState} (hsub : states ⊆ states')
    (coarse : String) : membersOf states coarse ⊆ membersOf states' coarse := by
  intro s hs
  obtain ⟨hmem, hcoarse⟩ := mem_membersOf.mp hs
  exact mem_membersOf.mpr ⟨hsub hmem, hcoarse⟩

section Members

variable {members members' : List UnderlyingOperationalState}

theorem OneKernel.of_subset (hsub : members ⊆ members') (hone : OneKernel members') :
    OneKernel members :=
  fun s hs t ht => hone s (hsub hs) t (hsub ht)

theorem DefinedBy.of_subset {name : String} (hsub : members ⊆ members')
    (hdefined : DefinedBy members' name) : DefinedBy members name :=
  fun s hs => hdefined s (hsub hs)

theorem Determines.of_subset {names : List String} (hsub : members ⊆ members')
    (hdetermines : Determines members' names) : Determines members names :=
  fun s hs t ht => hdetermines s (hsub hs) t (hsub ht)

theorem length_kernelGroups_le (hsub : members ⊆ members') :
    (kernelGroups members).length ≤ (kernelGroups members').length := by
  have hcard : ∀ l, (kernelGroups l).length = ((inOrder l).map kernelKey).toFinset.card :=
    fun _ => Grouping.length_groupInto_eq_card
  rw [hcard, hcard]
  apply Finset.card_le_card
  intro k hk
  obtain ⟨s, hs, rfl⟩ := List.mem_map.mp (List.mem_toFinset.mp hk)
  have hs' : s ∈ inOrder members' := mem_inOrder.mpr (hsub (mem_inOrder.mp hs))
  exact List.mem_toFinset.mpr (List.mem_map_of_mem hs')

end Members

/-- The later audit of a coarse state says no more for it than the earlier one. -/
structure Withdraws (earlier later : CoarseStateAudit) : Prop where
  coarseState : later.coarseState = earlier.coarseState
  members : earlier.memberStateIds ⊆ later.memberStateIds
  outputs : earlier.presentOutputs ⊆ later.presentOutputs
  kernels : earlier.distinctKernelCount ≤ later.distinctKernelCount
  rivals : ∀ id ∈ earlier.memberStateIds, ∀ id' ∈ earlier.memberStateIds,
    (∃ group ∈ earlier.rivalKernelGroups, id ∈ group ∧ id' ∈ group) ↔
      ∃ group ∈ later.rivalKernelGroups, id ∈ group ∧ id' ∈ group
  stays : earlier.status = "STATE_ALIAS_UNSAFE" → later.status = "STATE_ALIAS_UNSAFE"
  coordinates : earlier.status = "STATE_ALIAS_UNSAFE" →
    later.minimalResidualCoordinates ⊆ earlier.minimalResidualCoordinates

/-- A state like another one, but for its id and its kernel. -/
def rivalOf (s : UnderlyingOperationalState) (id : String) (kernel : Dict String) :
    UnderlyingOperationalState :=
  { s with stateId := id, continuationKernel := kernel }

/-! ## Other coarse states -/

/-- The state with a label for its coarse state. -/
def relabelled (label : UnderlyingOperationalState → String) (state : UnderlyingOperationalState) :
    UnderlyingOperationalState :=
  { state with coarseState := label state }

theorem mem_membersOf_relabelled {states : List UnderlyingOperationalState}
    {label : UnderlyingOperationalState → String} {coarse : String}
    {state : UnderlyingOperationalState} :
    state ∈ membersOf (states.map (relabelled label)) coarse ↔
      ∃ s ∈ states, label s = coarse ∧ relabelled label s = state := by
  rw [mem_membersOf, List.mem_map]
  constructor
  · rintro ⟨⟨s, hs, rfl⟩, hcoarse⟩
    exact ⟨s, hs, hcoarse, rfl⟩
  · rintro ⟨s, hs, hcoarse, rfl⟩
    exact ⟨⟨s, hs, rfl⟩, hcoarse⟩

theorem kernelPyKey_injective : Function.Injective kernelPyKey := by
  intro key key' heq
  refine List.map_injective_iff.mpr ?_ (PyKey.tuple.inj heq)
  rintro ⟨k, v⟩ ⟨k', v'⟩ hitem
  obtain ⟨hk, hrest⟩ := List.cons.inj (PyKey.tuple.inj hitem)
  obtain ⟨hv, -⟩ := List.cons.inj hrest
  exact Prod.ext (PyKey.str.inj hk) (PyKey.str.inj hv)

/-! ## The audits -/

section Audits

variable [UnicodeTables]

theorem auditClass_withdraws {members members' : List UnderlyingOperationalState}
    (hids' : (members'.map stateId).Nodup) (hids : (members.map stateId).Nodup)
    (hsub : members ⊆ members') (coarse : String) :
    Withdraws (auditClass coarse members) (auditClass coarse members') := by
  have hmembers : ∀ id ∈ (auditClass coarse members).memberStateIds,
      ∃ s ∈ members, s.stateId = id := by
    intro id hid
    exact List.mem_map.mp ((memberStateIds_perm coarse members).mem_iff.mp hid)
  have hrivals := (auditClass_safe_iff coarse members).2
  have hrivals' := (auditClass_safe_iff coarse members').2
  refine ⟨rfl, ?_, ?_, length_kernelGroups_le hsub, ?_, ?_, ?_⟩
  · intro id hid
    obtain ⟨s, hs, rfl⟩ := hmembers id hid
    exact (memberStateIds_perm coarse members').mem_iff.mpr (List.mem_map_of_mem (hsub hs))
  · intro output houtput
    obtain ⟨s, hs, rfl⟩ := List.mem_map.mp (List.mem_toFinset.mp (mem_sorted.mp houtput))
    have hs' : s ∈ inOrder members' := mem_inOrder.mpr (hsub (mem_inOrder.mp hs))
    exact mem_sorted.mpr (List.mem_toFinset.mpr (List.mem_map_of_mem hs'))
  · intro id hid id' hid'
    obtain ⟨s, hs, rfl⟩ := hmembers id hid
    obtain ⟨t, ht, rfl⟩ := hmembers id' hid'
    rw [sameGroup_iff hids hs ht, sameGroup_iff hids' (hsub hs) (hsub ht)]
  · intro hstatus
    exact hrivals'.mpr fun hone => hrivals.mp hstatus (hone.of_subset hsub)
  · intro hstatus name hname
    obtain ⟨-, hdefined, hdetermines⟩ := mem_coordinates_of_class.mp hname
    exact mem_coordinates_of_class.mpr
      ⟨hrivals.mp hstatus, hdefined.of_subset hsub, hdetermines.of_subset hsub⟩

/-- Beside such a state the class is unsafe, and no coordinate tells the two apart. -/
theorem auditClass_rival {members : List UnderlyingOperationalState}
    {s : UnderlyingOperationalState} {id : String} {kernel : Dict String} (hs : s ∈ members)
    (hrival : rivalOf s id kernel ∈ members) (hkernel : kernel ≠ s.continuationKernel)
    (coarse : String) :
    (auditClass coarse members).status = "STATE_ALIAS_UNSAFE" ∧
      (auditClass coarse members).minimalResidualCoordinates = [] := by
  constructor
  · refine (auditClass_safe_iff coarse members).2.mpr fun hone => ?_
    exact hkernel (hone (rivalOf s id kernel) hrival s hs)
  · refine List.eq_nil_iff_forall_not_mem.mpr fun name hname => ?_
    obtain ⟨-, -, hdetermines⟩ := mem_coordinates_of_class.mp hname
    exact hkernel (hdetermines (rivalOf s id kernel) hrival s hs fun _ _ => rfl)

/-! ## All coarse states -/

/-- The coarse states that are found unsafe. -/
def unsafeStates (states : List UnderlyingOperationalState) : Finset String :=
  (states.map coarseState).toFinset.filter fun coarse =>
    (auditClass coarse (membersOf states coarse)).status = "STATE_ALIAS_UNSAFE"

theorem mem_unsafeStates {states : List UnderlyingOperationalState} {coarse : String} :
    coarse ∈ unsafeStates states ↔
      coarse ∈ states.map coarseState ∧ ¬ OneKernel (membersOf states coarse) := by
  rw [unsafeStates, Finset.mem_filter, List.mem_toFinset, (auditClass_safe_iff coarse _).2]

theorem countP_unsafe_eq (states : List UnderlyingOperationalState) :
    ((audits states).countP fun audit => audit.status = "STATE_ALIAS_UNSAFE") =
      (unsafeStates states).card := by
  rw [audits_eq, List.countP_map, unsafeStates, Finset.card_def, Finset.filter_val,
    ← Multiset.countP_eq_card_filter, ← coe_sorted, Multiset.coe_countP]
  rfl

theorem unsafeStates_subset {states states' : List UnderlyingOperationalState}
    (hsub : states ⊆ states') : unsafeStates states ⊆ unsafeStates states' := by
  intro coarse hcoarse
  obtain ⟨hmem, hrivals⟩ := mem_unsafeStates.mp hcoarse
  obtain ⟨s, hs, rfl⟩ := List.mem_map.mp hmem
  refine mem_unsafeStates.mpr ⟨List.mem_map_of_mem (hsub hs), fun hone => hrivals ?_⟩
  exact hone.of_subset (membersOf_subset hsub s.coarseState)

/-- An audit that returns has been given distinct ids, and returns the audits of its states. -/
theorem of_audit_eq_ok {states : List UnderlyingOperationalState}
    {result : FutureStateSufficiencyResult} (haudit : auditFutureStateSufficiency states = .ok result) :
    (states.map stateId).Nodup ∧ result = resultOf (audits states) := by
  rw [auditFutureStateSufficiency_eq] at haudit
  by_cases hids : (states.map stateId).Nodup
  · rw [if_pos hids] at haudit
    exact ⟨hids, (Except.ok.inj haudit).symm⟩
  · rw [if_neg hids] at haudit
    cases haudit

/-- What further states can change.  Let the audited states be among those of a later audit.  Then
    it finds at least as many classes unsafe, and of each class says no more than before.  And no
    verdict is safe from that: for every state, every id that is not used and every other kernel, the
    state with that id and that kernel leaves its class unsafe and without a coordinate. -/
theorem further_states_only_withdraw {states : List UnderlyingOperationalState}
    {result : FutureStateSufficiencyResult}
    (haudit : auditFutureStateSufficiency states = .ok result) :
    (∀ states' result', states ⊆ states' → auditFutureStateSufficiency states' = .ok result' →
      result.unsafeClassCount ≤ result'.unsafeClassCount ∧
      ∀ audit ∈ result.classes, ∃ audit' ∈ result'.classes, Withdraws audit audit') ∧
    ∀ s ∈ states, ∀ id, id ∉ states.map stateId → ∀ kernel, kernel ≠ s.continuationKernel →
      ∃ result', auditFutureStateSufficiency (rivalOf s id kernel :: states) = .ok result' ∧
        ∃ audit' ∈ result'.classes, audit'.coarseState = s.coarseState ∧
          audit'.status = "STATE_ALIAS_UNSAFE" ∧ audit'.minimalResidualCoordinates = [] := by
  obtain ⟨hids, rfl⟩ := of_audit_eq_ok haudit
  constructor
  · intro states' result' hsub haudit'
    obtain ⟨hids', rfl⟩ := of_audit_eq_ok haudit'
    constructor
    · show (audits states).countP _ ≤ (audits states').countP _
      rw [countP_unsafe_eq, countP_unsafe_eq]
      exact Finset.card_le_card (unsafeStates_subset hsub)
    · intro audit hmem
      obtain ⟨coarse, hcoarse, rfl⟩ := mem_audits.mp hmem
      obtain ⟨s, hs, rfl⟩ := List.mem_map.mp hcoarse
      refine ⟨_, mem_audits.mpr ⟨s.coarseState, List.mem_map_of_mem (hsub hs), rfl⟩, ?_⟩
      exact auditClass_withdraws (nodup_membersOf hids' _) (nodup_membersOf hids _)
        (membersOf_subset hsub _) _
  · intro s hs id hid kernel hkernel
    have hids' : ((rivalOf s id kernel :: states).map stateId).Nodup :=
      List.nodup_cons.mpr ⟨hid, hids⟩
    have hrival : rivalOf s id kernel ∈ membersOf (rivalOf s id kernel :: states) s.coarseState :=
      mem_membersOf.mpr ⟨List.mem_cons_self, rfl⟩
    have hmember : s ∈ membersOf (rivalOf s id kernel :: states) s.coarseState :=
      mem_membersOf.mpr ⟨List.mem_cons_of_mem _ hs, rfl⟩
    refine ⟨resultOf (audits (rivalOf s id kernel :: states)), ?_, _, mem_audits.mpr
      ⟨s.coarseState, List.mem_map_of_mem (List.mem_cons_of_mem _ hs), rfl⟩, rfl, ?_⟩
    · rw [auditFutureStateSufficiency_eq, if_pos hids']
    · exact auditClass_rival hmember hrival hkernel s.coarseState

end Audits

/-- One pump state is safe behind its coarse state, until another one is told apart by its kernel
    only. -/
theorem second_pump_state_withdraws_the_verdict :
    let x : UnderlyingOperationalState :=
      ⟨"x", "pump-ready", "READY", Finmap.singleton "continue" "ALLOW",
        Finmap.singleton "authority_epoch" "7"⟩
    let y := rivalOf x "y" (Finmap.singleton "continue" "BLOCK")
    ∃ result, auditFutureStateSufficiency [x] = .ok result ∧ result.unsafeClassCount = 0 ∧
      ∃ result', auditFutureStateSufficiency [y, x] = .ok result' ∧
        ∃ audit' ∈ result'.classes, audit'.coarseState = "pump-ready" ∧
          audit'.status = "STATE_ALIAS_UNSAFE" ∧ audit'.minimalResidualCoordinates = [] := by
  intro x y
  have hids : ([x].map stateId).Nodup := List.nodup_singleton _
  have haudit : auditFutureStateSufficiency [x] = .ok (resultOf (audits [x])) := by
    rw [auditFutureStateSufficiency_eq, if_pos hids]
  have hsafe : (resultOf (audits [x])).unsafeClassCount = 0 := by decide +kernel
  exact ⟨_, haudit, hsafe, (further_states_only_withdraw haudit).2 x (List.mem_singleton_self x) "y"
    (by decide) _ (by decide +kernel)⟩

/-! ## Labels -/

section Labels

variable [UnicodeTables]

/-- No class of the labels is unsafe exactly when the labels determine the kernels. -/
theorem unsafeStates_relabelled_eq_empty_iff {states : List UnderlyingOperationalState}
    {label : UnderlyingOperationalState → String} :
    unsafeStates (states.map (relabelled label)) = ∅ ↔
      ∀ s ∈ states, ∀ t ∈ states, label s = label t →
        s.continuationKernel = t.continuationKernel := by
  rw [Finset.eq_empty_iff_forall_notMem]
  constructor
  · intro hnone s hs t ht hlabel
    by_contra hdiffer
    refine hnone (label s) (mem_unsafeStates.mpr ⟨?_, fun hone => hdiffer ?_⟩)
    · rw [List.map_map]
      exact List.mem_map.mpr ⟨s, hs, rfl⟩
    · exact hone (relabelled label s) (mem_membersOf_relabelled.mpr ⟨s, hs, rfl, rfl⟩)
        (relabelled label t) (mem_membersOf_relabelled.mpr ⟨t, ht, hlabel.symm, rfl⟩)
  · intro hdetermines coarse hcoarse
    refine (mem_unsafeStates.mp hcoarse).2 fun s' hs' t' ht' => ?_
    obtain ⟨s, hs, hlabel, rfl⟩ := mem_membersOf_relabelled.mp hs'
    obtain ⟨t, ht, hlabel', rfl⟩ := mem_membersOf_relabelled.mp ht'
    exact hdetermines s hs t ht (hlabel.trans hlabel'.symm)

/-- The counts of the audit with labels for coarse states. -/
theorem audit_relabelled {states : List UnderlyingOperationalState}
    (hids : (states.map stateId).Nodup) (label : UnderlyingOperationalState → String) :
    ∃ result, auditFutureStateSufficiency (states.map (relabelled label)) = .ok result ∧
      result.unsafeClassCount = (unsafeStates (states.map (relabelled label))).card ∧
      result.safeClassCount = (states.map label).toFinset.card - result.unsafeClassCount := by
  have hids' : ((states.map (relabelled label)).map stateId).Nodup := by
    rw [List.map_map]
    exact hids
  have hlength : (audits (states.map (relabelled label))).length = (states.map label).toFinset.card := by
    rw [audits_eq, List.length_map, ← Multiset.coe_card, coe_sorted, List.map_map]
    rfl
  refine ⟨resultOf (audits (states.map (relabelled label))), ?_, countP_unsafe_eq _, ?_⟩
  · rw [auditFutureStateSufficiency_eq, if_pos hids']
  · rw [← hlength]
    rfl

/-- The kernels are the fewest safe labels.  However states with distinct ids are relabelled, the
    audit finds nothing unsafe exactly when the labels determine the kernels, and then it counts at
    least as many safe classes as there are kernels.  Some labels reach that number. -/
theorem kernels_are_the_fewest_safe_labels {states : List UnderlyingOperationalState}
    (hids : (states.map stateId).Nodup) :
    (∀ label, ∃ result, auditFutureStateSufficiency (states.map (relabelled label)) = .ok result ∧
      (result.unsafeClassCount = 0 ↔ ∀ s ∈ states, ∀ t ∈ states, label s = label t →
        s.continuationKernel = t.continuationKernel) ∧
      (result.unsafeClassCount = 0 →
        (states.map continuationKernel).toFinset.card ≤ result.safeClassCount)) ∧
    ∃ label result, auditFutureStateSufficiency (states.map (relabelled label)) = .ok result ∧
      result.unsafeClassCount = 0 ∧
      result.safeClassCount = (states.map continuationKernel).toFinset.card := by
  have hzero : ∀ label : UnderlyingOperationalState → String,
      (unsafeStates (states.map (relabelled label))).card = 0 ↔
        ∀ s ∈ states, ∀ t ∈ states, label s = label t →
          s.continuationKernel = t.continuationKernel := by
    intro label
    rw [Finset.card_eq_zero, unsafeStates_relabelled_eq_empty_iff]
  constructor
  · intro label
    obtain ⟨result, haudit, hcount, hsafe⟩ := audit_relabelled hids label
    refine ⟨result, haudit, ?_, fun hnone => ?_⟩
    · rw [hcount, hzero]
    · have hdetermines := (hzero label).mp (hcount.symm.trans hnone)
      have hcard := Grouping.card_values_le_card_labels hdetermines
      omega
  · -- the kernel, item by item, as a text
    let label : UnderlyingOperationalState → String := fun s => pyRepr (kernelPyKey s.kernelKey)
    have hlabel : ∀ s t, label s = label t ↔ s.continuationKernel = t.continuationKernel := by
      intro s t
      rw [← kernelKey_eq_iff]
      exact (pyRepr_injective.comp kernelPyKey_injective).eq_iff
    obtain ⟨result, haudit, hcount, hsafe⟩ := audit_relabelled hids label
    have hnone : result.unsafeClassCount = 0 :=
      hcount.trans ((hzero label).mpr fun s _ t _ => (hlabel s t).mp)
    have hle : (states.map continuationKernel).toFinset.card ≤ (states.map label).toFinset.card :=
      Grouping.card_values_le_card_labels fun s _ t _ => (hlabel s t).mp
    have hge : (states.map label).toFinset.card ≤ (states.map continuationKernel).toFinset.card :=
      Grouping.card_values_le_card_labels fun s _ t _ => (hlabel s t).mpr
    exact ⟨label, result, haudit, hnone, by omega⟩

end Labels

/-- The pump that may go on when its interlocks agree has two kernels: two labels are enough for it,
    and fewer are not. -/
theorem interlocked_pump_takes_two_labels :
    (∀ label, ∃ result,
      auditFutureStateSufficiency (interlockedPump.map (relabelled label)) = .ok result ∧
      (result.unsafeClassCount = 0 → 2 ≤ result.safeClassCount)) ∧
    ∃ label result,
      auditFutureStateSufficiency (interlockedPump.map (relabelled label)) = .ok result ∧
      result.unsafeClassCount = 0 ∧ result.safeClassCount = 2 := by
  have hkernels : (interlockedPump.map continuationKernel).toFinset.card = 2 := by decide +kernel
  obtain ⟨hall, label, result, haudit, hnone, hcount⟩ :=
    kernels_are_the_fewest_safe_labels (show (interlockedPump.map stateId).Nodup by decide)
  rw [hkernels] at hcount
  refine ⟨fun label => ?_, label, result, haudit, hnone, hcount⟩
  obtain ⟨result, haudit, -, hfewest⟩ := hall label
  rw [hkernels] at hfewest
  exact ⟨result, haudit, hfewest⟩

end FutureStateSufficiency

end PoiexGoc
