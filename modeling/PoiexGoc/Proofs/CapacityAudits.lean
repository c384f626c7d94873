/-
  CAPACITY audits: what the three lists mean, and what a wider envelope does to them.

  A series is a sample of the image rank as a function of the scale (`points`), at increasing scales.

  1. Comparing neighbours and comparing the ends is all the audit does, and it is enough: the lists
     are those of the samples that never fall and somewhere rise, that are constant, and that
     somewhere fall (`capacity_audit_is_exact`).

  2. Testing more scales moves an action one way only: from flat to growing, and from either to not
     monotone.  And no report of growth is safe from it (`growth_may_be_withdrawn`).
-/
import Mathlib.Data.List.MinMax
import PoiexGoc.Lib.Reordering
import PoiexGoc.Lib.Samples
import PoiexGoc.Runtime.ActionCapacity

namespace PoiexGoc

open Py Samples

namespace ActionCapacitySeries

variable (item : ActionCapacitySeries)

/-- The tested scales, each with its image rank. -/
def points : List (Int × Int) := item.scales.zip item.imageRanks

theorem map_fst_points : item.points.map Prod.fst = item.scales :=
  List.map_fst_zip (Nat.le_of_eq item.sameLength)

theorem map_snd_points : item.points.map Prod.snd = item.imageRanks :=
  List.map_snd_zip (Nat.le_of_eq item.sameLength.symm)

theorem points_ne_nil : item.points ≠ [] := by
  intro hnil
  have hscales := item.map_fst_points
  rw [hnil] at hscales
  exact item.nonempty hscales.symm

theorem scales_ascend : (item.points.map Prod.fst).Pairwise (· < ·) := by
  rw [map_fst_points]
  exact adjacent_iff_pairwise.mp item.increasing

theorem monotone_iff : item.monotone = true ↔ ¬ Falls item.points := by
  rw [← values_ascend_iff item.scales_ascend, map_snd_points, ← adjacent_iff_pairwise]
  simp only [monotone, List.all_eq_true, decide_eq_true_eq]

theorem grows_iff (hnever : ¬ Falls item.points) : item.grows = true ↔ Rises item.points := by
  rw [rises_iff item.scales_ascend hnever item.points_ne_nil]
  have hhead : (item.points.head item.points_ne_nil).2 =
      item.imageRanks.head item.imageRanks_ne_nil := by
    rw [← List.head_map (f := Prod.snd) (by simpa using item.points_ne_nil)]
    simp only [map_snd_points]
  have hlast : (item.points.getLast item.points_ne_nil).2 =
      item.imageRanks.getLast item.imageRanks_ne_nil := by
    rw [← List.getLast_map (f := Prod.snd) (by simpa using item.points_ne_nil)]
    simp only [map_snd_points]
  rw [hhead, hlast, grows, decide_eq_true_eq]

/-- A sample that neither falls nor rises has one rank. -/
theorem flat_iff :
    ¬ Falls item.points ∧ ¬ Rises item.points ↔
      ∀ rank ∈ item.imageRanks, ∀ rank' ∈ item.imageRanks, rank = rank' := by
  rw [constant_iff item.scales_ascend, ← map_snd_points]
  constructor
  · intro hconst rank hrank rank' hrank'
    obtain ⟨p, hp, rfl⟩ := List.mem_map.mp hrank
    obtain ⟨q, hq, rfl⟩ := List.mem_map.mp hrank'
    exact hconst p hp q hq
  · exact fun hconst p hp q hq =>
      hconst _ (List.mem_map_of_mem hp) _ (List.mem_map_of_mem hq)

end ActionCapacitySeries

namespace ActionCapacity

open ActionCapacitySeries

variable {items items' : List ActionCapacitySeries}

/-! ## The loop -/

/-- Each series is appended to the list of its kind. -/
theorem foldl_add (items : List ActionCapacitySeries) (lists : Sorting) :
    items.foldl Sorting.add lists =
      ⟨lists.growing ++ (items.filter fun item => item.monotone && item.grows).map actionId,
        lists.flat ++ (items.filter fun item => item.monotone && !item.grows).map actionId,
        lists.nonmonotone ++ (items.filter fun item => !item.monotone).map actionId⟩ := by
  induction items generalizing lists with
  | nil => simp only [List.foldl_nil, List.filter_nil, List.map_nil, List.append_nil]
  | cons item items ih =>
    rw [List.foldl_cons, ih, Sorting.add]
    cases hmono : item.monotone with
    | false => simp [hmono]
    | true =>
      cases hgrows : item.grows with
      | false => simp [hmono, hgrows]
      | true => simp [hmono, hgrows]

/-- The series in the order the loop sees them. -/
def inOrder (items : List ActionCapacitySeries) : List ActionCapacitySeries :=
  items.insertionSort fun a b => a.actionId ≤ b.actionId

theorem mem_inOrder {item : ActionCapacitySeries} : item ∈ inOrder items ↔ item ∈ items :=
  List.mem_insertionSort _

/-- Where ids are distinct they ascend, in every part of the order. -/
theorem ids_ascend (hids : (items.map actionId).Nodup) (kind : ActionCapacitySeries → Bool) :
    (((inOrder items).filter kind).map actionId).Pairwise (· < ·) := by
  have hsorted : ((inOrder items).map actionId).Pairwise (· ≤ ·) := by
    rw [List.pairwise_map]
    have htotal : Std.Total (fun a b : ActionCapacitySeries => a.actionId ≤ b.actionId) :=
      ⟨fun a b => le_total _ _⟩
    have htrans : IsTrans ActionCapacitySeries (fun a b => a.actionId ≤ b.actionId) :=
      ⟨fun _ _ _ => le_trans⟩
    exact List.pairwise_insertionSort _ items
  have hnodup : ((inOrder items).map actionId).Nodup :=
    ((List.perm_insertionSort _ items).map actionId).nodup_iff.mpr hids
  have hlt : ((inOrder items).map actionId).Pairwise (· < ·) :=
    hsorted.imp₂ (fun _ _ hle hne => lt_of_le_of_ne hle hne) hnodup
  exact hlt.sublist (List.filter_sublist.map actionId)

/-! ## The report -/

/-- The report of the audit, list by list. -/
def report (items : List ActionCapacitySeries) : ActionCapacityAudit where
  distinctActionCount := items.length
  growingDirectionCountInTestedEnvelope :=
    (((inOrder items).filter fun item => item.monotone && item.grows).map actionId).length
  growingActions := ((inOrder items).filter fun item => item.monotone && item.grows).map actionId
  boundedOrFlatActions :=
    ((inOrder items).filter fun item => item.monotone && !item.grows).map actionId
  nonmonotoneActions := ((inOrder items).filter fun item => !item.monotone).map actionId
  unboundedCapacityClaimed := false
  negativeSeal := "DISTINCT_ACTION_CLASSES != MULTIPLE_GROWING_CONTROL_DIRECTIONS"
  additionalNegativeSeals := ["FINITE_ENVELOPE_GROWTH != UNBOUNDED_CAPACITY",
    "LARGE_STATE_SPACE != LARGE_EFFECTIVE_CONTROL_CAPACITY"]

theorem auditActionCapacity_eq (hids : (items.map actionId).Nodup) :
    auditActionCapacity items = .ok (report items) := by
  unfold auditActionCapacity
  rw [if_neg (not_not_intro (card_toFinset_eq_length_iff.mpr hids)), foldl_add]
  simp only [List.nil_append]
  rfl

theorem auditActionCapacity_duplicate (hids : ¬ (items.map actionId).Nodup) :
    auditActionCapacity items = .error (.valueError "duplicate action_id") := by
  unfold auditActionCapacity
  rw [if_pos fun hcard => hids (card_toFinset_eq_length_iff.mp hcard)]

theorem mem_growing {id : String} :
    id ∈ (report items).growingActions ↔
      ∃ item ∈ items, item.actionId = id ∧ ¬ Falls item.points ∧ Rises item.points := by
  simp only [report, List.mem_map, List.mem_filter, mem_inOrder, Bool.and_eq_true]
  constructor
  · rintro ⟨item, ⟨hmem, hmono, hgrows⟩, rfl⟩
    have hnever := item.monotone_iff.mp hmono
    exact ⟨item, hmem, rfl, hnever, (item.grows_iff hnever).mp hgrows⟩
  · rintro ⟨item, hmem, rfl, hnever, hrises⟩
    exact ⟨item, ⟨hmem, item.monotone_iff.mpr hnever, (item.grows_iff hnever).mpr hrises⟩, rfl⟩

theorem mem_flat {id : String} :
    id ∈ (report items).boundedOrFlatActions ↔
      ∃ item ∈ items, item.actionId = id ∧ ¬ Falls item.points ∧ ¬ Rises item.points := by
  simp only [report, List.mem_map, List.mem_filter, mem_inOrder, Bool.and_eq_true,
    Bool.not_eq_true']
  constructor
  · rintro ⟨item, ⟨hmem, hmono, hgrows⟩, rfl⟩
    have hnever := item.monotone_iff.mp hmono
    refine ⟨item, hmem, rfl, hnever, fun hrises => ?_⟩
    rw [(item.grows_iff hnever).mpr hrises] at hgrows
    cases hgrows
  · rintro ⟨item, hmem, rfl, hnever, hflat⟩
    refine ⟨item, ⟨hmem, item.monotone_iff.mpr hnever, ?_⟩, rfl⟩
    exact Bool.eq_false_iff.mpr fun hgrows => hflat ((item.grows_iff hnever).mp hgrows)

theorem mem_nonmonotone {id : String} :
    id ∈ (report items).nonmonotoneActions ↔
      ∃ item ∈ items, item.actionId = id ∧ Falls item.points := by
  simp only [report, List.mem_map, List.mem_filter, mem_inOrder, Bool.not_eq_true']
  constructor
  · rintro ⟨item, ⟨hmem, hmono⟩, rfl⟩
    refine ⟨item, hmem, rfl, not_not.mp fun hnever => ?_⟩
    rw [item.monotone_iff.mpr hnever] at hmono
    cases hmono
  · rintro ⟨item, hmem, rfl, hfalls⟩
    exact ⟨item, ⟨hmem, Bool.eq_false_iff.mpr fun hmono => item.monotone_iff.mp hmono hfalls⟩, rfl⟩

/-- The three lists together have one entry for each series. -/
theorem length_lists (items : List ActionCapacitySeries) :
    (report items).growingActions.length + (report items).boundedOrFlatActions.length +
      (report items).nonmonotoneActions.length = items.length := by
  have hcount : ∀ l : List ActionCapacitySeries,
      (l.filter fun item => item.monotone && item.grows).length +
        (l.filter fun item => item.monotone && !item.grows).length +
        (l.filter fun item => !item.monotone).length = l.length := by
    intro l
    induction l with
    | nil => rfl
    | cons item l ih =>
      cases hmono : item.monotone with
      | false =>
        simp only [List.filter_cons, hmono, Bool.false_and, Bool.not_false, if_true,
          Bool.false_eq_true, if_false, List.length_cons]
        omega
      | true =>
        cases hgrows : item.grows with
        | false =>
          simp only [List.filter_cons, hmono, hgrows, Bool.true_and, Bool.not_false, Bool.not_true,
            if_true, Bool.false_eq_true, if_false, List.length_cons]
          omega
        | true =>
          simp only [List.filter_cons, hmono, hgrows, Bool.true_and, Bool.not_true,
            if_true, Bool.false_eq_true, if_false, List.length_cons]
          omega
  simp only [report, List.length_map]
  rw [hcount, inOrder, List.length_insertionSort]

/-- What a report says of the series: the rank of a growing action never falls as the scale grows,
    and somewhere rises; that of a flat one is constant; that of the others somewhere falls.  Every
    list is in order, every series is in one of them, and nothing unbounded is claimed. -/
structure Reports (items : List ActionCapacitySeries) (audit : ActionCapacityAudit) : Prop where
  growing : ∀ id, id ∈ audit.growingActions ↔
    ∃ item ∈ items, item.actionId = id ∧ ¬ Falls item.points ∧ Rises item.points
  flat : ∀ id, id ∈ audit.boundedOrFlatActions ↔ ∃ item ∈ items, item.actionId = id ∧
    ∀ rank ∈ item.imageRanks, ∀ rank' ∈ item.imageRanks, rank = rank'
  nonmonotone : ∀ id, id ∈ audit.nonmonotoneActions ↔
    ∃ item ∈ items, item.actionId = id ∧ Falls item.points
  ordered : audit.growingActions.Pairwise (· < ·) ∧ audit.boundedOrFlatActions.Pairwise (· < ·) ∧
    audit.nonmonotoneActions.Pairwise (· < ·)
  counted : audit.distinctActionCount = items.length ∧
    audit.growingDirectionCountInTestedEnvelope = audit.growingActions.length ∧
    audit.growingActions.length + audit.boundedOrFlatActions.length +
      audit.nonmonotoneActions.length = items.length
  bounded : audit.unboundedCapacityClaimed = false

theorem report_reports (hids : (items.map actionId).Nodup) : Reports items (report items) where
  growing _ := mem_growing
  flat id := by
    rw [mem_flat]
    constructor
    · rintro ⟨item, hmem, hid, hflat⟩
      exact ⟨item, hmem, hid, item.flat_iff.mp hflat⟩
    · rintro ⟨item, hmem, hid, hconst⟩
      exact ⟨item, hmem, hid, item.flat_iff.mpr hconst⟩
  nonmonotone _ := mem_nonmonotone
  ordered := ⟨ids_ascend hids _, ids_ascend hids _, ids_ascend hids _⟩
  counted := ⟨rfl, rfl, length_lists items⟩
  bounded := rfl

/-- The capacity audit is exact.  It raises when an action id repeats.  Otherwise its report says of
    the series what `Reports` says, and it is the same report for every order of them. -/
theorem capacity_audit_is_exact (items : List ActionCapacitySeries) :
    (¬ (items.map actionId).Nodup →
      auditActionCapacity items = .error (.valueError "duplicate action_id")) ∧
    ((items.map actionId).Nodup → ∃ audit, Reports items audit ∧
      ∀ items', items'.Perm items → auditActionCapacity items' = .ok audit) := by
  refine ⟨auditActionCapacity_duplicate, fun hids => ⟨report items, report_reports hids, ?_⟩⟩
  intro items' hperm
  have hids' : (items'.map actionId).Nodup := (hperm.map actionId).nodup_iff.mpr hids
  have horder : inOrder items' = inOrder items := Reordering.insertionSort_eq_of_perm hperm hids'
  rw [auditActionCapacity_eq hids', report, report, horder, hperm.length_eq]

/-! ## Wider envelopes -/

/-- The same action, tested at more scales: above the old ones, below them or between. -/
structure Widens (item wider : ActionCapacitySeries) : Prop where
  sameAction : wider.actionId = item.actionId
  points : item.points ⊆ wider.points

theorem Widens.refl (item : ActionCapacitySeries) : Widens item item :=
  ⟨rfl, List.Subset.refl _⟩

/-- The series with rank 0 at one more scale. -/
def collapse (item : ActionCapacitySeries) : ActionCapacitySeries where
  actionId := item.actionId
  scales := item.scales ++ [item.scales.foldr max 0 + 1]
  imageRanks := item.imageRanks ++ [0]
  nonempty := List.append_ne_nil_of_left_ne_nil item.nonempty _
  sameLength := by
    rw [List.length_append, List.length_append, item.sameLength]
    rfl
  positive := by
    intro scale hmem
    rcases List.mem_append.mp hmem with hold | hnew
    · exact item.positive scale hold
    · have hle : ∀ l : List Int, 0 ≤ l.foldr max 0 := by
        intro l
        induction l with
        | nil => exact le_refl _
        | cons a l ih => exact le_trans ih (le_max_right _ _)
      rw [List.mem_singleton.mp hnew]
      exact Int.lt_add_one_of_le (hle _)
  nonnegative := by
    intro rank hmem
    rcases List.mem_append.mp hmem with hold | hnew
    · exact item.nonnegative rank hold
    · rw [List.mem_singleton.mp hnew]
  increasing := by
    refine adjacent_iff_pairwise.mpr (List.pairwise_append.mpr ⟨?_, List.pairwise_singleton _ _, ?_⟩)
    · exact adjacent_iff_pairwise.mp item.increasing
    · intro scale hmem beyond hbeyond
      rw [List.mem_singleton.mp hbeyond]
      exact Int.lt_add_one_of_le (List.le_max_of_le' 0 hmem (le_refl scale))

theorem points_collapse (item : ActionCapacitySeries) :
    (collapse item).points = item.points ++ [(item.scales.foldr max 0 + 1, 0)] :=
  List.zip_append item.sameLength

theorem widens_collapse (item : ActionCapacitySeries) : Widens item (collapse item) := by
  refine ⟨rfl, ?_⟩
  rw [points_collapse]
  exact List.subset_append_left _ _

/-- A rank that has grown can be lost. -/
theorem falls_collapse {item : ActionCapacitySeries} (hrises : Rises item.points) :
    Falls (collapse item).points := by
  obtain ⟨p, hp, q, hq, -, hrise⟩ := hrises
  have hscale : q.1 ∈ item.scales := item.map_fst_points ▸ List.mem_map_of_mem hq
  have hrank : 0 ≤ p.2 := item.nonnegative _ (item.map_snd_points ▸ List.mem_map_of_mem hp)
  rw [points_collapse]
  refine ⟨q, List.mem_append_left _ hq, _, List.mem_append_right _ (List.mem_singleton_self _), ?_, ?_⟩
  · exact Int.lt_add_one_of_le (List.le_max_of_le' 0 hscale (le_refl q.1))
  · exact lt_of_le_of_lt hrank hrise

/-- A wider envelope is about the same actions. -/
theorem ids_of_widens (hwider : List.Forall₂ Widens items items') :
    items'.map actionId = items.map actionId := by
  induction hwider with
  | nil => rfl
  | cons hhead _ ih => rw [List.map_cons, List.map_cons, ih, hhead.sameAction]

theorem exists_wider (hwider : List.Forall₂ Widens items items') {item : ActionCapacitySeries}
    (hmem : item ∈ items) : ∃ wider ∈ items', Widens item wider := by
  induction hwider with
  | nil => cases hmem
  | cons hhead _ ih =>
    rcases List.mem_cons.mp hmem with rfl | hmem
    · exact ⟨_, List.mem_cons_self, hhead⟩
    · obtain ⟨wider, hwider, h⟩ := ih hmem
      exact ⟨wider, List.mem_cons_of_mem _ hwider, h⟩

theorem exists_narrower (hwider : List.Forall₂ Widens items items') {wider : ActionCapacitySeries}
    (hmem : wider ∈ items') : ∃ item ∈ items, Widens item wider := by
  induction hwider with
  | nil => cases hmem
  | cons hhead _ ih =>
    rcases List.mem_cons.mp hmem with rfl | hmem
    · exact ⟨_, List.mem_cons_self, hhead⟩
    · obtain ⟨item, hitem, h⟩ := ih hmem
      exact ⟨item, List.mem_cons_of_mem _ hitem, h⟩

/-- One action collapses, the others are left as they are. -/
def collapseOne (id : String) (item : ActionCapacitySeries) : ActionCapacitySeries :=
  if item.actionId = id then collapse item else item

/-- An action that is reported as growing is not monotone any more where it collapses. -/
theorem growth_may_be_withdrawn (items : List ActionCapacitySeries) (id : String) :
    List.Forall₂ Widens items (items.map (collapseOne id)) ∧
      (id ∈ (report items).growingActions →
        id ∈ (report (items.map (collapseOne id))).nonmonotoneActions) := by
  constructor
  · induction items with
    | nil => exact List.Forall₂.nil
    | cons item items ih =>
      refine List.Forall₂.cons ?_ ih
      rw [collapseOne]
      by_cases hid : item.actionId = id
      · rw [if_pos hid]
        exact widens_collapse item
      · rw [if_neg hid]
        exact Widens.refl item
  · intro hgrowing
    obtain ⟨item, hmem, hid, -, hrises⟩ := mem_growing.mp hgrowing
    refine mem_nonmonotone.mpr ⟨collapse item, List.mem_map.mpr ⟨item, hmem, if_pos hid⟩, hid, ?_⟩
    exact falls_collapse hrises

/-- What a wider envelope can change.  Let the same actions be tested at more scales.  The audit
    still reports, and an action moves one way only: what was not monotone stays so, what is flat
    was flat before, and what was growing grows or is not monotone.  No growth is safe from this:
    for every action that is reported as growing there is a wider envelope in which it is not. -/
theorem wider_envelopes_only_withdraw {audit : ActionCapacityAudit}
    (haudit : auditActionCapacity items = .ok audit) :
    (∀ items', List.Forall₂ Widens items items' → ∃ audit', auditActionCapacity items' = .ok audit' ∧
      (∀ id ∈ audit.nonmonotoneActions, id ∈ audit'.nonmonotoneActions) ∧
      (∀ id ∈ audit'.boundedOrFlatActions, id ∈ audit.boundedOrFlatActions) ∧
      ∀ id ∈ audit.growingActions,
        id ∈ audit'.growingActions ∨ id ∈ audit'.nonmonotoneActions) ∧
    ∀ id ∈ audit.growingActions, ∃ items' audit', List.Forall₂ Widens items items' ∧
      auditActionCapacity items' = .ok audit' ∧ id ∈ audit'.nonmonotoneActions := by
  have hids : (items.map actionId).Nodup := by
    by_contra hids
    rw [auditActionCapacity_duplicate hids] at haudit
    cases haudit
  rw [auditActionCapacity_eq hids] at haudit
  obtain rfl : report items = audit := Except.ok.inj haudit
  have hreport : ∀ {items'}, List.Forall₂ Widens items items' →
      auditActionCapacity items' = .ok (report items') := by
    intro items' hwider
    refine auditActionCapacity_eq ?_
    rw [ids_of_widens hwider]
    exact hids
  constructor
  · intro items' hwider
    refine ⟨report items', hreport hwider, fun id hid => ?_, fun id hid => ?_, fun id hid => ?_⟩
    · obtain ⟨item, hmem, rfl, hfalls⟩ := mem_nonmonotone.mp hid
      obtain ⟨wider, hmem', hwidens⟩ := exists_wider hwider hmem
      exact mem_nonmonotone.mpr ⟨wider, hmem', hwidens.sameAction, hfalls.mono hwidens.points⟩
    · obtain ⟨wider, hmem, rfl, hnever, hflat⟩ := mem_flat.mp hid
      obtain ⟨item, hmem', hwidens⟩ := exists_narrower hwider hmem
      exact mem_flat.mpr ⟨item, hmem', hwidens.sameAction.symm,
        fun hfalls => hnever (hfalls.mono hwidens.points), fun hrises => hflat (hrises.mono hwidens.points)⟩
    · obtain ⟨item, hmem, rfl, -, hrises⟩ := mem_growing.mp hid
      obtain ⟨wider, hmem', hwidens⟩ := exists_wider hwider hmem
      by_cases hfalls : Falls wider.points
      · exact Or.inr (mem_nonmonotone.mpr ⟨wider, hmem', hwidens.sameAction, hfalls⟩)
      · exact Or.inl (mem_growing.mpr
          ⟨wider, hmem', hwidens.sameAction, hfalls, hrises.mono hwidens.points⟩)
  · intro id hid
    obtain ⟨hwider, hfalls⟩ := growth_may_be_withdrawn items id
    exact ⟨_, _, hwider, hreport hwider, hfalls hid⟩

/-- A planner whose rank has doubled with every scale is reported as growing, and its next test may
    show otherwise. -/
theorem planner_growth_may_be_withdrawn :
    ∃ planner registry audit,
      create "planner" [8, 16, 32, 64] [7, 15, 31, 63] = .ok planner ∧
      create "registry" [8, 16, 32, 64] [2, 2, 2, 2] = .ok registry ∧
      auditActionCapacity [planner, registry] = .ok audit ∧
      audit.growingActions = ["planner"] ∧ audit.boundedOrFlatActions = ["registry"] ∧
      ∃ items' audit', List.Forall₂ Widens [planner, registry] items' ∧
        auditActionCapacity items' = .ok audit' ∧ "planner" ∈ audit'.nonmonotoneActions := by
  let planner : ActionCapacitySeries :=
    ⟨"planner", [8, 16, 32, 64], [7, 15, 31, 63], by decide, by decide, by decide, by decide,
      by decide⟩
  let registry : ActionCapacitySeries :=
    ⟨"registry", [8, 16, 32, 64], [2, 2, 2, 2], by decide, by decide, by decide, by decide,
      by decide⟩
  have haudit : auditActionCapacity [planner, registry] = .ok (report [planner, registry]) :=
    auditActionCapacity_eq (by decide)
  have hgrowing : (report [planner, registry]).growingActions = ["planner"] := by decide +kernel
  refine ⟨planner, registry, _, rfl, rfl, haudit, hgrowing, by decide +kernel, ?_⟩
  refine (wider_envelopes_only_withdraw haudit).2 "planner" ?_
  rw [hgrowing]
  exact List.mem_singleton_self _

end ActionCapacity

end PoiexGoc
