/-
  The RESIDUAL COORDINATES of a class.

  1. `Determines members names` — two members that agree on the coordinates `names` have the same
     kernel.  The search reports the coordinates that determine the kernels by themselves
     (`mem_minimalResidualCoordinates`).

  2. `refined_safe_iff` — such a coordinate is one whose values, used as coarse states, leave the
     audit nothing to object to; `residual_coordinates_repair_aliasing` puts this together with the
     audit of all states.

  3. `residual_search_tries_single_coordinates` — what the search finds for any members, and what it
     does not look for: coordinates that determine the kernels together only.
-/
import PoiexGoc.Proofs.StateAliasing

namespace PoiexGoc

open Py

namespace FutureStateSufficiency

open UnderlyingOperationalState

/-! ## One coordinate -/

/-- The value of a coordinate, where it is defined. -/
def valueOf (name : String) (state : UnderlyingOperationalState) : String :=
  (state.residualCoordinates.lookup name).getD ""

/-- Every member has the coordinate. -/
def DefinedBy (members : List UnderlyingOperationalState) (name : String) : Prop :=
  ∀ s ∈ members, name ∈ s.residualCoordinates

/-- Members that agree on the coordinates have the same kernel. -/
def Determines (members : List UnderlyingOperationalState) (names : List String) : Prop :=
  ∀ s ∈ members, ∀ t ∈ members,
    (∀ name ∈ names, s.residualCoordinates.lookup name = t.residualCoordinates.lookup name) →
      s.continuationKernel = t.continuationKernel

theorem lookup_of_definedBy {members : List UnderlyingOperationalState} {name : String}
    (hdefined : DefinedBy members name) {s : UnderlyingOperationalState} (hs : s ∈ members) :
    s.residualCoordinates.lookup name = some (valueOf name s) := by
  obtain ⟨value, hvalue⟩ := Finmap.mem_iff.mp (hdefined s hs)
  rw [valueOf, hvalue]
  rfl

theorem determines_singleton_iff {members : List UnderlyingOperationalState} {name : String}
    (hdefined : DefinedBy members name) :
    Determines members [name] ↔ ∀ s ∈ members, ∀ t ∈ members,
      valueOf name s = valueOf name t → s.continuationKernel = t.continuationKernel := by
  have hagree : ∀ s ∈ members, ∀ t ∈ members,
      (∀ n ∈ [name], s.residualCoordinates.lookup n = t.residualCoordinates.lookup n) ↔
        valueOf name s = valueOf name t := by
    intro s hs t ht
    rw [List.forall_mem_singleton, lookup_of_definedBy hdefined hs,
      lookup_of_definedBy hdefined ht, Option.some_inj]
  constructor
  · intro hdetermines s hs t ht hvalue
    exact hdetermines s hs t ht ((hagree s hs t ht).mpr hvalue)
  · intro hvalues s hs t ht hall
    exact hvalues s hs t ht ((hagree s hs t ht).mp hall)

theorem coordinateGroups_concat (key : String) (states : List UnderlyingOperationalState)
    (state : UnderlyingOperationalState) :
    coordinateGroups key (states ++ [state]) =
      (coordinateGroups key states).bind fun groups =>
        (state.residualCoordinates.lookup key).map fun value =>
          Grouping.setdefault value ∅ (insert state.kernelKey) groups := by
  rw [coordinateGroups, List.foldlM_append]
  show Option.bind _ _ = _
  congr 1
  funext groups
  rw [List.foldlM_cons]
  show Option.bind _ _ = _
  cases state.residualCoordinates.lookup key with
  | none => rfl
  | some value => rfl

/-- The loop breaks at a state without the coordinate, and otherwise groups the kernels by value. -/
theorem coordinateGroups_of_definedBy {members : List UnderlyingOperationalState} {name : String}
    (hdefined : DefinedBy members name) :
    coordinateGroups name members =
      some (Grouping.groupSet (valueOf name) kernelKey members) := by
  induction members using List.reverseRecOn with
  | nil => rfl
  | append_singleton members state ih =>
    have hinit : DefinedBy members name := fun s hs => hdefined s (List.mem_append_left _ hs)
    have hlast := lookup_of_definedBy hdefined (List.mem_append_right members
      (List.mem_singleton_self state))
    rw [coordinateGroups_concat, ih hinit, hlast, Grouping.groupSet, Grouping.groupInto_concat]
    rfl

theorem definedBy_of_coordinateGroups {members : List UnderlyingOperationalState} {name : String}
    {groups : List (String × Finset (List (String × String)))}
    (hgroups : coordinateGroups name members = some groups) : DefinedBy members name := by
  induction members using List.reverseRecOn generalizing groups with
  | nil => exact fun s hs => absurd hs List.not_mem_nil
  | append_singleton members state ih =>
    rw [coordinateGroups_concat] at hgroups
    obtain ⟨before, hbefore, hstep⟩ := Option.bind_eq_some_iff.mp hgroups
    obtain ⟨value, hvalue, -⟩ := Option.map_eq_some_iff.mp hstep
    intro s hs
    rcases List.mem_append.mp hs with hs | hs
    · exact ih hbefore s hs
    · rw [List.mem_singleton.mp hs]
      exact Finmap.mem_of_lookup_eq_some hvalue

/-- A coordinate is sufficient when all members have it and it determines the kernels. -/
theorem sufficientCoordinate_iff {members : List UnderlyingOperationalState} {name : String} :
    sufficientCoordinate members name = true ↔
      DefinedBy members name ∧ Determines members [name] := by
  by_cases hdefined : DefinedBy members name
  · have hsufficient : sufficientCoordinate members name =
        (Grouping.groupSet (valueOf name) kernelKey members).all
          fun g => decide (g.2.card = 1) := by
      rw [sufficientCoordinate, coordinateGroups_of_definedBy hdefined]
    rw [hsufficient, List.all_eq_true, determines_singleton_iff hdefined]
    simp only [decide_eq_true_iff]
    rw [Grouping.forall_card_eq_one_iff]
    simp only [kernelKey_eq_iff, hdefined, true_and]
  · refine iff_of_false ?_ fun h => hdefined h.1
    rw [sufficientCoordinate]
    cases hgroups : coordinateGroups name members with
    | none => exact Bool.false_ne_true
    | some groups => exact absurd (definedBy_of_coordinateGroups hgroups) hdefined

/-- What the search reports: nothing for a single kernel, and otherwise the coordinates that
    determine the kernels by themselves. -/
theorem mem_minimalResidualCoordinates {members : List UnderlyingOperationalState} {name : String} :
    name ∈ minimalResidualCoordinates members ↔
      ¬ OneKernel members ∧ DefinedBy members name ∧ Determines members [name] := by
  rw [minimalResidualCoordinates]
  by_cases hone : (members.map kernelKey).toFinset.card ≤ 1
  · rw [if_pos hone]
    exact iff_of_false List.not_mem_nil fun h => h.1 (card_kernels_le_one_iff.mp hone)
  · have hkernels : ¬ OneKernel members := mt card_kernels_le_one_iff.mpr hone
    rw [if_neg hone, List.mem_filter, sufficientCoordinate_iff, mem_sorted, List.mem_toFinset,
      List.mem_flatMap]
    constructor
    · rintro ⟨-, hsufficient⟩
      exact ⟨hkernels, hsufficient⟩
    · rintro ⟨-, hdefined, hdetermines⟩
      refine ⟨?_, hdefined, hdetermines⟩
      -- an unsafe class has a member, and every member has the coordinate
      cases members with
      | nil => exact absurd (fun s hs => absurd hs List.not_mem_nil) hkernels
      | cons s members =>
        have hs : s ∈ s :: members := List.mem_cons_self
        exact ⟨s, hs, mem_sorted.mpr (Finmap.mem_keys.mpr (hdefined s hs))⟩

/-! ## Refining the coarse states -/

/-- The state, with a label of its value of the coordinate for a coarse state. -/
def refinedBy (name : String) (label : String → String) (state : UnderlyingOperationalState) :
    UnderlyingOperationalState :=
  { state with coarseState := label (valueOf name state) }

theorem mem_membersOf_refinedBy {members : List UnderlyingOperationalState} {name : String}
    {label : String → String} {coarse : String} {state : UnderlyingOperationalState} :
    state ∈ membersOf (members.map (refinedBy name label)) coarse ↔
      ∃ s ∈ members, label (valueOf name s) = coarse ∧ refinedBy name label s = state := by
  rw [mem_membersOf, List.mem_map]
  constructor
  · rintro ⟨⟨s, hs, rfl⟩, hcoarse⟩
    exact ⟨s, hs, hcoarse, rfl⟩
  · rintro ⟨s, hs, hcoarse, rfl⟩
    exact ⟨⟨s, hs, rfl⟩, hcoarse⟩

section Audits

variable [UnicodeTables]

theorem audits_safe_iff {states : List UnderlyingOperationalState} :
    (∀ audit ∈ audits states, audit.status = "SAFE_FOR_DECLARED_KERNEL") ↔
      ∀ coarse, OneKernel (membersOf states coarse) := by
  constructor
  · intro hsafe coarse s hs
    have hcoarse : coarse ∈ states.map coarseState := by
      obtain ⟨hmem, rfl⟩ := mem_membersOf.mp hs
      exact List.mem_map_of_mem hmem
    have haudit := hsafe _ (mem_audits.mpr ⟨coarse, hcoarse, rfl⟩)
    exact (auditClass_safe_iff coarse _).1.mp haudit s hs
  · intro hone audit haudit
    obtain ⟨coarse, -, rfl⟩ := mem_audits.mp haudit
    exact (auditClass_safe_iff coarse _).1.mpr (hone coarse)

/-- The refined states are audited, and found safe exactly when the values of the coordinate
    determine the kernels. -/
theorem refined_safe_iff {members : List UnderlyingOperationalState}
    (hids : (members.map stateId).Nodup) {label : String → String}
    (hlabel : Function.Injective label) {name : String} :
    (∃ refined,
        auditFutureStateSufficiency (members.map (refinedBy name label)) = .ok refined ∧
        ∀ audit ∈ refined.classes, audit.status = "SAFE_FOR_DECLARED_KERNEL") ↔
      ∀ s ∈ members, ∀ t ∈ members,
        valueOf name s = valueOf name t → s.continuationKernel = t.continuationKernel := by
  have hids' : ((members.map (refinedBy name label)).map stateId).Nodup := by
    rw [List.map_map]
    exact hids
  rw [auditFutureStateSufficiency_eq, if_pos hids']
  have hsafe : (∃ refined,
        (.ok (resultOf (audits (members.map (refinedBy name label)))) :
          Except PyError FutureStateSufficiencyResult) = .ok refined ∧
        ∀ audit ∈ refined.classes, audit.status = "SAFE_FOR_DECLARED_KERNEL") ↔
      ∀ coarse, OneKernel (membersOf (members.map (refinedBy name label)) coarse) := by
    rw [← audits_safe_iff]
    constructor
    · rintro ⟨refined, hrefined, hall⟩
      rw [← Except.ok.inj hrefined] at hall
      exact hall
    · intro hall
      exact ⟨_, rfl, hall⟩
  rw [hsafe]
  constructor
  · intro hone s hs t ht hvalue
    exact hone (label (valueOf name s))
      (refinedBy name label s) (mem_membersOf_refinedBy.mpr ⟨s, hs, rfl, rfl⟩)
      (refinedBy name label t) (mem_membersOf_refinedBy.mpr ⟨t, ht, congrArg label hvalue.symm, rfl⟩)
  · intro hvalues coarse s' hs' t' ht'
    obtain ⟨s, hs, hcoarse, rfl⟩ := mem_membersOf_refinedBy.mp hs'
    obtain ⟨t, ht, hcoarse', rfl⟩ := mem_membersOf_refinedBy.mp ht'
    exact hvalues s hs t ht (hlabel (hcoarse.trans hcoarse'.symm))

/-- The coordinates reported for a class, in terms of its members. -/
theorem mem_coordinates_of_class {coarse : String} {members : List UnderlyingOperationalState}
    {name : String} :
    name ∈ (auditClass coarse members).minimalResidualCoordinates ↔
      ¬ OneKernel members ∧ DefinedBy members name ∧ Determines members [name] := by
  show name ∈ minimalResidualCoordinates (inOrder members) ↔ _
  rw [mem_minimalResidualCoordinates]
  simp only [OneKernel, DefinedBy, Determines, mem_inOrder]

/-- The states that a class names as its members. -/
def classMembers (states : List UnderlyingOperationalState) (audit : CoarseStateAudit) :
    List UnderlyingOperationalState :=
  states.filter fun s => s.stateId ∈ audit.memberStateIds

theorem classMembers_auditClass {states : List UnderlyingOperationalState}
    (hids : (states.map stateId).Nodup) (coarse : String) :
    classMembers states (auditClass coarse (membersOf states coarse)) =
      membersOf states coarse := by
  apply List.filter_congr
  intro s hs
  exact decide_eq_decide.mpr ((exactClass hids coarse).members s hs)

/-- The reported coordinates repair the aliasing.  For every class of the audit of states with
    distinct ids: a safe class is reported without coordinates, and for an unsafe one a coordinate is
    reported exactly when all members have it and the audit of the members, with labels of its values
    for coarse states, finds every class safe. -/
theorem residual_coordinates_repair_aliasing {states : List UnderlyingOperationalState}
    (hids : (states.map stateId).Nodup) {label : String → String}
    (hlabel : Function.Injective label) :
    ∃ result, auditFutureStateSufficiency states = .ok result ∧
      ∀ audit ∈ result.classes,
        (audit.status = "SAFE_FOR_DECLARED_KERNEL" → audit.minimalResidualCoordinates = []) ∧
        (audit.status = "STATE_ALIAS_UNSAFE" → ∀ name,
          name ∈ audit.minimalResidualCoordinates ↔
            (∀ s ∈ classMembers states audit, name ∈ s.residualCoordinates) ∧
            ∃ refined, auditFutureStateSufficiency
                ((classMembers states audit).map (refinedBy name label)) = .ok refined ∧
              ∀ part ∈ refined.classes, part.status = "SAFE_FOR_DECLARED_KERNEL") := by
  refine ⟨resultOf (audits states), ?_, ?_⟩
  · rw [auditFutureStateSufficiency_eq, if_pos hids]
  intro audit haudit
  obtain ⟨coarse, -, rfl⟩ := mem_audits.mp haudit
  obtain ⟨hsafe, hunsafe⟩ := auditClass_safe_iff coarse (membersOf states coarse)
  constructor
  · intro hstatus
    refine List.eq_nil_iff_forall_not_mem.mpr fun name hname => ?_
    exact (mem_coordinates_of_class.mp hname).1 (hsafe.mp hstatus)
  · intro hstatus name
    have hrivals : ¬ OneKernel (membersOf states coarse) := hunsafe.mp hstatus
    rw [mem_coordinates_of_class, classMembers_auditClass hids,
      refined_safe_iff (nodup_membersOf hids coarse) hlabel]
    constructor
    · rintro ⟨-, hdefined, hdetermines⟩
      exact ⟨hdefined, (determines_singleton_iff hdefined).mp hdetermines⟩
    · rintro ⟨hdefined, hvalues⟩
      exact ⟨hrivals, hdefined, (determines_singleton_iff hdefined).mpr hvalues⟩

end Audits

/-- Two pump states with different kernels, told apart by the epoch of their authority. -/
theorem pump_epoch_repairs_aliasing :
    let x : UnderlyingOperationalState :=
      ⟨"x", "pump-ready", "READY", Finmap.singleton "continue" "ALLOW",
        Finmap.singleton "authority_epoch" "7"⟩
    let y : UnderlyingOperationalState :=
      ⟨"y", "pump-ready", "READY", Finmap.singleton "continue" "BLOCK",
        Finmap.singleton "authority_epoch" "6"⟩
    ∃ result, auditFutureStateSufficiency [x, y] = .ok result ∧
      ∀ audit ∈ result.classes,
        (audit.status = "SAFE_FOR_DECLARED_KERNEL" → audit.minimalResidualCoordinates = []) ∧
        (audit.status = "STATE_ALIAS_UNSAFE" → ∀ name,
          name ∈ audit.minimalResidualCoordinates ↔
            (∀ s ∈ classMembers [x, y] audit, name ∈ s.residualCoordinates) ∧
            ∃ refined, auditFutureStateSufficiency
                ((classMembers [x, y] audit).map (refinedBy name id)) = .ok refined ∧
              ∀ part ∈ refined.classes, part.status = "SAFE_FOR_DECLARED_KERNEL") :=
  residual_coordinates_repair_aliasing (by decide) Function.injective_id

/-! ## Coordinates that repair together only -/

/-- The search finds what a single coordinate can do, for any members: each reported coordinate is
    defined by all of them and determines the kernels by itself; the reported coordinates together
    determine the kernels exactly when there is one kernel or such a single coordinate; and rivals
    are left without a coordinate exactly when there is none. -/
theorem residual_search_tries_single_coordinates (members : List UnderlyingOperationalState) :
    (∀ name ∈ minimalResidualCoordinates members,
      DefinedBy members name ∧ Determines members [name]) ∧
    (Determines members (minimalResidualCoordinates members) ↔
      OneKernel members ∨ ∃ name, DefinedBy members name ∧ Determines members [name]) ∧
    (¬ OneKernel members → (minimalResidualCoordinates members = [] ↔
      ¬ ∃ name, DefinedBy members name ∧ Determines members [name])) := by
  have hempty : ¬ OneKernel members → (minimalResidualCoordinates members = [] ↔
      ¬ ∃ name, DefinedBy members name ∧ Determines members [name]) := by
    intro hrivals
    constructor
    · rintro hnil ⟨name, hsufficient⟩
      have hname := mem_minimalResidualCoordinates.mpr ⟨hrivals, hsufficient⟩
      rw [hnil] at hname
      exact List.not_mem_nil hname
    · intro hnone
      refine List.eq_nil_iff_forall_not_mem.mpr fun name hname => hnone ⟨name, ?_⟩
      exact (mem_minimalResidualCoordinates.mp hname).2
  refine ⟨fun name hname => (mem_minimalResidualCoordinates.mp hname).2, ?_, hempty⟩
  constructor
  · intro hdetermines
    by_contra hneither
    obtain ⟨hrivals, hnone⟩ := not_or.mp hneither
    rw [(hempty hrivals).mpr hnone] at hdetermines
    exact hrivals fun s hs t ht => hdetermines s hs t ht fun name hname =>
      absurd hname List.not_mem_nil
  · rintro (hone | ⟨name, hdefined, hdetermines⟩) s hs t ht hagree
    · exact hone s hs t ht
    · by_cases hone : OneKernel members
      · exact hone s hs t ht
      · refine hdetermines s hs t ht fun n hn => ?_
        rw [List.mem_singleton.mp hn]
        exact hagree name (mem_minimalResidualCoordinates.mpr ⟨hone, hdefined, hdetermines⟩)

/-- A state with two interlocks. -/
def interlocked (stateId a b verdict : String) : UnderlyingOperationalState :=
  { stateId
    coarseState := "pump-ready"
    presentOutput := "READY"
    continuationKernel := Finmap.singleton "continue" verdict
    residualCoordinates := (Finmap.singleton "interlock-a" a).insert "interlock-b" b }

/-- A pump that may go on when its interlocks agree. -/
def interlockedPump : List UnderlyingOperationalState :=
  [interlocked "s1" "on" "on" "ALLOW", interlocked "s2" "on" "off" "BLOCK",
   interlocked "s3" "off" "on" "BLOCK", interlocked "s4" "off" "off" "ALLOW"]

/-- Each of the four states of the pump has both coordinates, together they determine the kernel,
    and no coordinate is reported. -/
theorem interlocks_are_not_searched_together :
    ¬ ∀ (members : List UnderlyingOperationalState) (names : List String),
      (∀ name ∈ names, DefinedBy members name) → Determines members names →
        Determines members (minimalResidualCoordinates members) := by
  intro hjoint
  have hdefined : ∀ name ∈ ["interlock-a", "interlock-b"], ∀ s ∈ interlockedPump,
      name ∈ s.residualCoordinates := by decide +kernel
  have hdetermines : ∀ s ∈ interlockedPump, ∀ t ∈ interlockedPump,
      (∀ name ∈ ["interlock-a", "interlock-b"],
        s.residualCoordinates.lookup name = t.residualCoordinates.lookup name) →
      s.continuationKernel = t.continuationKernel := by decide +kernel
  have hnone : minimalResidualCoordinates interlockedPump = [] := by decide +kernel
  have hone := hjoint interlockedPump ["interlock-a", "interlock-b"] hdefined hdetermines
  rw [hnone] at hone
  have hsame := hone (interlocked "s1" "on" "on" "ALLOW") List.mem_cons_self
    (interlocked "s2" "on" "off" "BLOCK") (List.mem_cons_of_mem _ List.mem_cons_self)
    fun _ hname => absurd hname List.not_mem_nil
  exact absurd hsame (by decide +kernel)

end FutureStateSufficiency

end PoiexGoc
