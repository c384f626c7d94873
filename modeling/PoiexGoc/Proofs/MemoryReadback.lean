/-
  MEMORY READBACK: what the audit reports, and when it is fooled.

  1. `auditMemoryReadback_eq` — the report of any witnesses is decided by two sets: the base states
     that occur, and those with joint evidence (`JointEvidence`), a pair of witnesses that differ in
     memory and in kernel.  Counting both per group is enough for such a pair
     (`Grouping.exists_differ_both`).

  2. `readback_is_reported_on_joint_evidence` — the report in these terms; reordering or repeating
     witnesses does not change it.

  3. `indifferent_memory_is_not_load_bearing_iff` — joint evidence is not a difference that memory
     makes: where every memory state shows the same kernels, the audit still reports readback as soon
     as one of them shows two.
-/
import PoiexGoc.Runtime.GovernanceHardening

namespace PoiexGoc

open Py

namespace MemoryReadback

variable {witnesses witnesses' : List MemoryReadbackWitness}

/-- Two witnesses of the base state differ in memory and in kernel. -/
def JointEvidence (witnesses : List MemoryReadbackWitness) (base : String) : Prop :=
  ∃ v ∈ witnesses, ∃ w ∈ witnesses, v.baseState = base ∧ w.baseState = base ∧
    v.memoryState ≠ w.memoryState ∧ v.futureKernel ≠ w.futureKernel

/-! ## The report -/

def grouped (witnesses : List MemoryReadbackWitness) :
    List (String × List MemoryReadbackWitness) :=
  Grouping.group MemoryReadbackWitness.baseState id witnesses

theorem mem_splitStates {base : String} :
    base ∈ splitStates (grouped witnesses) ↔ JointEvidence witnesses base := by
  rw [splitStates, List.mem_map]
  have hgroup : ∀ {e : String × List MemoryReadbackWitness} {w : MemoryReadbackWitness},
      e ∈ grouped witnesses → (w ∈ e.2 ↔ w ∈ witnesses ∧ w.baseState = e.1) := by
    rintro ⟨k, group⟩ w he
    obtain ⟨-, rfl⟩ := Grouping.mem_group.mp he
    rw [List.map_id, List.mem_filter, decide_eq_true_iff]
  constructor
  · rintro ⟨e, he, rfl⟩
    obtain ⟨he, hcounts⟩ := List.mem_filter.mp he
    obtain ⟨hmemory, hkernel⟩ := Bool.and_eq_true_iff.mp hcounts
    obtain ⟨v, hv, w, hw, hdiffer⟩ := Grouping.exists_differ_both
      (Grouping.two_le_card_iff.mp (of_decide_eq_true hmemory))
      (Grouping.two_le_card_iff.mp (of_decide_eq_true hkernel))
    obtain ⟨hv, hvbase⟩ := (hgroup he).mp hv
    obtain ⟨hw, hwbase⟩ := (hgroup he).mp hw
    exact ⟨v, hv, w, hw, hvbase, hwbase, hdiffer⟩
  · rintro ⟨v, hv, w, hw, hvbase, hwbase, hmemory, hkernel⟩
    have he : (base, _) ∈ grouped witnesses :=
      Grouping.mem_group.mpr ⟨hvbase ▸ List.mem_map_of_mem hv, rfl⟩
    have hv' := (hgroup he).mpr ⟨hv, hvbase⟩
    have hw' := (hgroup he).mpr ⟨hw, hwbase⟩
    refine ⟨_, List.mem_filter.mpr ⟨he, Bool.and_eq_true_iff.mpr ⟨?_, ?_⟩⟩, rfl⟩
    · exact decide_eq_true (Grouping.two_le_card_iff.mpr ⟨v, hv', w, hw', hmemory⟩)
    · exact decide_eq_true (Grouping.two_le_card_iff.mpr ⟨v, hv', w, hw', hkernel⟩)

theorem nodup_splitStates : (splitStates (grouped witnesses)).Nodup :=
  List.Nodup.sublist (List.filter_sublist.map Prod.fst) Grouping.nodup_keys_groupInto

/-- The base states that occur. -/
def testedSet (witnesses : List MemoryReadbackWitness) : Finset String :=
  (witnesses.map MemoryReadbackWitness.baseState).toFinset

/-- The base states with joint evidence. -/
def splitSet (witnesses : List MemoryReadbackWitness) : Finset String :=
  (splitStates (grouped witnesses)).toFinset

theorem mem_splitSet {base : String} : base ∈ splitSet witnesses ↔ JointEvidence witnesses base :=
  List.mem_toFinset.trans mem_splitStates

/-- The report for the two sets. -/
def reportOf (tested split : Finset String) : MemoryReadbackReport :=
  if split = ∅ then
    { status := "READBACK_NOT_DEMONSTRATED"
      loadBearingReadbackObserved := false
      testedBaseStates := sorted tested
      splitBaseStates := sorted split }
  else
    { status := "LOAD_BEARING_READBACK_OBSERVED"
      loadBearingReadbackObserved := true
      testedBaseStates := sorted tested
      splitBaseStates := sorted split }

theorem auditMemoryReadback_eq (hne : witnesses ≠ []) :
    auditMemoryReadback witnesses = .ok (reportOf (testedSet witnesses) (splitSet witnesses)) := by
  have htested : ((grouped witnesses).map Prod.fst).insertionSort (· ≤ ·) =
      sorted (testedSet witnesses) := by
    have hkeys : ((grouped witnesses).map Prod.fst).Nodup := Grouping.nodup_keys_groupInto
    rw [insertionSort_eq_sorted hkeys]
    congr 1
    ext base
    rw [testedSet, List.mem_toFinset, List.mem_toFinset]
    exact Grouping.mem_keys_groupInto
  have hsplit : (splitStates (grouped witnesses)).insertionSort (· ≤ ·) =
      sorted (splitSet witnesses) := insertionSort_eq_sorted nodup_splitStates
  rw [grouped] at htested hsplit
  rw [auditMemoryReadback, if_neg hne]
  simp only [htested, hsplit]
  by_cases hnone : splitStates (Grouping.group MemoryReadbackWitness.baseState id witnesses) = []
  · have hset : splitSet witnesses = ∅ := by
      rw [splitSet, grouped, hnone]
      rfl
    rw [if_neg (not_not_intro hnone), reportOf, if_pos hset, hset]
    rfl
  · have hset : splitSet witnesses ≠ ∅ := by
      intro hempty
      exact hnone (List.toFinset_eq_empty_iff _ |>.mp hempty)
    rw [if_pos hnone, reportOf, if_neg hset]

theorem reportOf_testedBaseStates (tested split : Finset String) :
    (reportOf tested split).testedBaseStates = sorted tested := by
  rw [reportOf]
  split <;> rfl

theorem reportOf_splitBaseStates (tested split : Finset String) :
    (reportOf tested split).splitBaseStates = sorted split := by
  rw [reportOf]
  split <;> rfl

/-- Readback is observed where something split, and not demonstrated otherwise. -/
theorem reportOf_status (tested split : Finset String) :
    ((reportOf tested split).status = "LOAD_BEARING_READBACK_OBSERVED" ↔ split.Nonempty) ∧
      ((reportOf tested split).status = "READBACK_NOT_DEMONSTRATED" ↔ split = ∅) := by
  have hdiffer : "READBACK_NOT_DEMONSTRATED" ≠ "LOAD_BEARING_READBACK_OBSERVED" := by decide
  rw [Finset.nonempty_iff_ne_empty, reportOf]
  by_cases hsplit : split = ∅
  · rw [if_pos hsplit]
    exact ⟨iff_of_false hdiffer (not_not_intro hsplit), iff_of_true rfl hsplit⟩
  · rw [if_neg hsplit]
    exact ⟨iff_of_true rfl hsplit, iff_of_false hdiffer.symm hsplit⟩

/-- The report is the same for all lists with the same witnesses. -/
theorem auditMemoryReadback_congr (hne : witnesses ≠ [])
    (hsame : ∀ w, w ∈ witnesses' ↔ w ∈ witnesses) :
    auditMemoryReadback witnesses' = auditMemoryReadback witnesses := by
  have hne' : witnesses' ≠ [] := by
    obtain ⟨w, hw⟩ := List.exists_mem_of_ne_nil _ hne
    exact List.ne_nil_of_mem ((hsame w).mpr hw)
  have htested : testedSet witnesses' = testedSet witnesses := by
    ext base
    simp only [testedSet, List.mem_toFinset, List.mem_map, hsame]
  have hsplit : splitSet witnesses' = splitSet witnesses := by
    ext base
    simp only [mem_splitSet, JointEvidence, hsame]
  rw [auditMemoryReadback_eq hne, auditMemoryReadback_eq hne', htested, hsplit]

/-- Readback is reported exactly on joint evidence; the base states that split, and those that were
    tested, are listed once and in order; and the report does not change when witnesses are reordered
    or repeated. -/
theorem readback_is_reported_on_joint_evidence (hne : witnesses ≠ []) :
    ∃ report, auditMemoryReadback witnesses = .ok report ∧
      (report.status = "LOAD_BEARING_READBACK_OBSERVED" ↔
        ∃ v ∈ witnesses, ∃ w ∈ witnesses, v.baseState = w.baseState ∧
          v.memoryState ≠ w.memoryState ∧ v.futureKernel ≠ w.futureKernel) ∧
      report.splitBaseStates.Pairwise (· < ·) ∧
      (∀ base, base ∈ report.splitBaseStates ↔ JointEvidence witnesses base) ∧
      report.testedBaseStates.Pairwise (· < ·) ∧
      (∀ base, base ∈ report.testedBaseStates ↔ ∃ w ∈ witnesses, w.baseState = base) ∧
      ∀ witnesses', (∀ w, w ∈ witnesses' ↔ w ∈ witnesses) →
        auditMemoryReadback witnesses' = .ok report := by
  refine ⟨_, auditMemoryReadback_eq hne, ?_, ?_, ?_, ?_, ?_, ?_⟩
  · rw [(reportOf_status _ _).1]
    constructor
    · rintro ⟨base, hbase⟩
      obtain ⟨v, hv, w, hw, hvbase, hwbase, hdiffer⟩ := mem_splitSet.mp hbase
      exact ⟨v, hv, w, hw, hvbase.trans hwbase.symm, hdiffer⟩
    · rintro ⟨v, hv, w, hw, hbase, hdiffer⟩
      exact ⟨w.baseState, mem_splitSet.mpr ⟨v, hv, w, hw, hbase, rfl, hdiffer⟩⟩
  · rw [reportOf_splitBaseStates]
    exact sorted_pairwise _
  · intro base
    rw [reportOf_splitBaseStates, mem_sorted, mem_splitSet]
  · rw [reportOf_testedBaseStates]
    exact sorted_pairwise _
  · intro base
    rw [reportOf_testedBaseStates, mem_sorted, testedSet, List.mem_toFinset, List.mem_map]
  · intro witnesses' hsame
    rw [auditMemoryReadback_congr hne hsame, auditMemoryReadback_eq hne]

/-- Two epochs of one current state, of which one blocks what the other allows. -/
theorem epochs_are_joint_evidence :
    let witnesses : List MemoryReadbackWitness :=
      [⟨"same-current", "epoch-7", ["ALLOW", "ALLOW"]⟩,
       ⟨"same-current", "epoch-8", ["BLOCK", "BLOCK"]⟩]
    ∃ report, auditMemoryReadback witnesses = .ok report ∧
      (report.status = "LOAD_BEARING_READBACK_OBSERVED" ↔
        ∃ v ∈ witnesses, ∃ w ∈ witnesses, v.baseState = w.baseState ∧
          v.memoryState ≠ w.memoryState ∧ v.futureKernel ≠ w.futureKernel) ∧
      report.splitBaseStates.Pairwise (· < ·) ∧
      (∀ base, base ∈ report.splitBaseStates ↔ JointEvidence witnesses base) ∧
      report.testedBaseStates.Pairwise (· < ·) ∧
      (∀ base, base ∈ report.testedBaseStates ↔ ∃ w ∈ witnesses, w.baseState = base) ∧
      ∀ witnesses', (∀ w, w ∈ witnesses' ↔ w ∈ witnesses) →
        auditMemoryReadback witnesses' = .ok report :=
  readback_is_reported_on_joint_evidence (List.cons_ne_nil _ _)

/-! ## Memory that makes no difference -/

/-- The kernels seen in a base state with a memory state. -/
def kernelsSeen (witnesses : List MemoryReadbackWitness) (base memory : String) :
    Finset (List String) :=
  ((witnesses.filter fun w => w.baseState = base ∧ w.memoryState = memory).map
    MemoryReadbackWitness.futureKernel).toFinset

theorem mem_kernelsSeen {base memory : String} {kernel : List String} :
    kernel ∈ kernelsSeen witnesses base memory ↔
      ∃ w ∈ witnesses, w.baseState = base ∧ w.memoryState = memory ∧ w.futureKernel = kernel := by
  simp only [kernelsSeen, List.mem_toFinset, List.mem_map, List.mem_filter, decide_eq_true_iff,
    and_assoc]

/-- In each base state, every memory state that occurs was seen with the same kernels. -/
def Indifferent (witnesses : List MemoryReadbackWitness) : Prop :=
  ∀ v ∈ witnesses, ∀ w ∈ witnesses, v.baseState = w.baseState →
    kernelsSeen witnesses v.baseState v.memoryState =
      kernelsSeen witnesses w.baseState w.memoryState

instance : Decidable (Indifferent witnesses) :=
  inferInstanceAs (Decidable (∀ v ∈ witnesses, ∀ w ∈ witnesses, _))

/-- The base state occurs with two memory states. -/
def VariesMemory (witnesses : List MemoryReadbackWitness) (base : String) : Prop :=
  ∃ v ∈ witnesses, ∃ w ∈ witnesses, v.baseState = base ∧ w.baseState = base ∧
    v.memoryState ≠ w.memoryState

/-- One memory state of the base state was seen with two kernels. -/
def Nondeterministic (witnesses : List MemoryReadbackWitness) (base : String) : Prop :=
  ∃ v ∈ witnesses, ∃ w ∈ witnesses, v.baseState = base ∧ w.baseState = base ∧
    v.memoryState = w.memoryState ∧ v.futureKernel ≠ w.futureKernel

/-- A kernel seen in the base state was seen with each of its memory states. -/
theorem Indifferent.seen (hsame : Indifferent witnesses) {v w : MemoryReadbackWitness}
    (hv : v ∈ witnesses) (hw : w ∈ witnesses) (hbase : v.baseState = w.baseState) :
    ∃ u ∈ witnesses, u.baseState = v.baseState ∧ u.memoryState = v.memoryState ∧
      u.futureKernel = w.futureKernel := by
  have hseen : w.futureKernel ∈ kernelsSeen witnesses w.baseState w.memoryState :=
    mem_kernelsSeen.mpr ⟨w, hw, rfl, rfl, rfl⟩
  rw [← hsame v hv w hw hbase] at hseen
  exact mem_kernelsSeen.mp hseen

/-- Where memory makes no difference, a base state has joint evidence exactly when it occurs with two
    memory states and is nondeterministic. -/
theorem jointEvidence_iff_of_indifferent (hsame : Indifferent witnesses) {base : String} :
    JointEvidence witnesses base ↔
      VariesMemory witnesses base ∧ Nondeterministic witnesses base := by
  constructor
  · rintro ⟨v, hv, w, hw, hvbase, hwbase, hmemory, hkernel⟩
    refine ⟨⟨v, hv, w, hw, hvbase, hwbase, hmemory⟩, ?_⟩
    -- the second kernel was seen with the first memory state, too
    obtain ⟨u, hu, hubase, humemory, hukernel⟩ := hsame.seen hv hw (hvbase.trans hwbase.symm)
    exact ⟨v, hv, u, hu, hvbase, hubase.trans hvbase, humemory.symm, hukernel ▸ hkernel⟩
  · rintro ⟨⟨v, hv, w, hw, hvbase, hwbase, hmemory⟩, a, ha, b, hb, habase, hbbase, hab, hkernel⟩
    obtain ⟨z, hz, hzbase, hzmemory⟩ : ∃ z ∈ witnesses, z.baseState = base ∧
        z.memoryState ≠ a.memoryState := by
      by_cases hva : v.memoryState = a.memoryState
      · exact ⟨w, hw, hwbase, fun hwa => hmemory (hva.trans hwa.symm)⟩
      · exact ⟨v, hv, hvbase, hva⟩
    -- another memory state shows the first kernel, and the memory state of `b` the second one
    obtain ⟨u, hu, hubase, humemory, hukernel⟩ := hsame.seen hz ha (hzbase.trans habase.symm)
    refine ⟨u, hu, b, hb, hubase.trans hzbase, hbbase, ?_, hukernel ▸ hkernel⟩
    intro hub
    exact hzmemory (humemory.symm.trans (hub.trans hab.symm))

/-- Where memory makes no difference, the audit says so exactly when no base state that occurs with
    two memory states is nondeterministic. -/
theorem indifferent_memory_is_not_load_bearing_iff (hne : witnesses ≠ [])
    (hsame : Indifferent witnesses) :
    ∃ report, auditMemoryReadback witnesses = .ok report ∧
      (report.status = "READBACK_NOT_DEMONSTRATED" ↔
        ∀ base, VariesMemory witnesses base → ¬ Nondeterministic witnesses base) := by
  refine ⟨_, auditMemoryReadback_eq hne, ?_⟩
  rw [(reportOf_status _ _).2, Finset.eq_empty_iff_forall_notMem]
  constructor
  · intro hnone base hvaries hnondet
    exact hnone base
      (mem_splitSet.mpr ((jointEvidence_iff_of_indifferent hsame).mpr ⟨hvaries, hnondet⟩))
  · intro hcondition base hbase
    obtain ⟨hvaries, hnondet⟩ :=
      (jointEvidence_iff_of_indifferent hsame).mp (mem_splitSet.mp hbase)
    exact hcondition base hvaries hnondet

/-- Two histories with one kernel. -/
theorem histories_are_not_load_bearing :
    let witnesses : List MemoryReadbackWitness :=
      [⟨"same-current", "history-A", ["ALLOW", "BLOCK"]⟩,
       ⟨"same-current", "history-B", ["ALLOW", "BLOCK"]⟩]
    ∃ report, auditMemoryReadback witnesses = .ok report ∧
      (report.status = "READBACK_NOT_DEMONSTRATED" ↔
        ∀ base, VariesMemory witnesses base → ¬ Nondeterministic witnesses base) :=
  indifferent_memory_is_not_load_bearing_iff (List.cons_ne_nil _ _) (by decide +kernel)

/-- Two histories that were both seen to allow and to block. -/
def nondeterministicHistories : List MemoryReadbackWitness :=
  [⟨"same-current", "history-A", ["ALLOW"]⟩, ⟨"same-current", "history-A", ["BLOCK"]⟩,
   ⟨"same-current", "history-B", ["ALLOW"]⟩, ⟨"same-current", "history-B", ["BLOCK"]⟩]

/-- Their memory makes no difference, and the audit reports readback. -/
theorem nondeterministic_histories_count_as_readback :
    ¬ ∀ witnesses : List MemoryReadbackWitness, witnesses ≠ [] → Indifferent witnesses →
      ∃ report, auditMemoryReadback witnesses = .ok report ∧
        report.status = "READBACK_NOT_DEMONSTRATED" := by
  intro hclaim
  obtain ⟨report, hreport, hstatus⟩ := hclaim nondeterministicHistories (List.cons_ne_nil _ _)
    (by decide +kernel)
  have hobserved : (auditMemoryReadback nondeterministicHistories).map
      MemoryReadbackReport.status = .ok "LOAD_BEARING_READBACK_OBSERVED" := by decide +kernel
  rw [hreport] at hobserved
  have hboth : "READBACK_NOT_DEMONSTRATED" = "LOAD_BEARING_READBACK_OBSERVED" :=
    hstatus.symm.trans (Except.ok.inj hobserved)
  exact absurd hboth (by decide)

end MemoryReadback

end PoiexGoc
