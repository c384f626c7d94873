/-
  EFFECT CLASSES: what the audit counts as independent actions.

  1. `auditActionIndependence_count` — the count is the number of distinct effect keys, and two
     actions have one effect key when they differ in their ids and in the order of their evidence
     only (`effectKey_eq_iff`).

  2. `auditActionIndependence_eq_of_perm` — the whole result is the same for every order of the
     actions: no two keys have one `repr`.

  3. `effect_class_count_iff` — the key keeps the repetitions of a piece of evidence.  The count is
     the number of distinct contracts exactly when no two actions of the list have one contract and
     repeat its evidence differently.
-/
import Mathlib.Algebra.Order.Ring.Nat
import Mathlib.Data.Finset.Card
import PoiexGoc.Runtime.ActionIndependence

namespace PoiexGoc

open Py

namespace ActionIndependence

open ActionContractSignature

/-- What the contract of an action demands and does: the evidence it requires is a set of kinds. -/
def contract (action : ActionContractSignature) : String × String × Finset String × String :=
  (action.authorityScope, action.targetType, action.requiredEvidence.toFinset,
    action.materialEffect)

/-- The actions differ in their ids and in the order of their evidence only. -/
structure Relabels (a b : ActionContractSignature) : Prop where
  authorityScope : a.authorityScope = b.authorityScope
  targetType : a.targetType = b.targetType
  requiredEvidence : a.requiredEvidence.Perm b.requiredEvidence
  materialEffect : a.materialEffect = b.materialEffect

/-! ## Keys -/

theorem effectKey_eq_iff {a b : ActionContractSignature} :
    a.effectKey = b.effectKey ↔ Relabels a b := by
  simp only [effectKey, Prod.mk.injEq, Reordering.insertionSort_eq_iff_perm]
  constructor
  · rintro ⟨hscope, htarget, hevidence, heffect⟩
    exact ⟨hscope, htarget, hevidence, heffect⟩
  · rintro ⟨hscope, htarget, hevidence, heffect⟩
    exact ⟨hscope, htarget, hevidence, heffect⟩

theorem effectPyKey_injective : Function.Injective effectPyKey := by
  rintro ⟨scope, target, evidence, effect⟩ ⟨scope', target', evidence', effect'⟩ heq
  have hstr : Function.Injective PyKey.str := fun _ _ h => PyKey.str.inj h
  simp only [effectPyKey, PyKey.tuple.injEq, List.cons.injEq, PyKey.str.injEq, and_true] at heq
  obtain ⟨rfl, rfl, hevidence, rfl⟩ := heq
  rw [hstr.list_map hevidence]

/-! ## The result -/

section Result

variable [UnicodeTables] {actions actions' : List ActionContractSignature}

/-- The number of classes is the number of distinct effect keys. -/
theorem auditActionIndependence_count (actions : List ActionContractSignature) :
    (auditActionIndependence actions).independentEffectClassCount =
      (actions.map effectKey).toFinset.card := by
  have hlength : (Grouping.group effectKey actionId actions).length =
      (actions.map effectKey).toFinset.card := Grouping.length_groupInto_eq_card
  show (List.map _ (List.insertionSort _ _)).length = _
  rw [List.length_map, List.length_insertionSort, hlength]

theorem auditActionIndependence_raw (actions : List ActionContractSignature) :
    (auditActionIndependence actions).rawActionCount = actions.length := by
  have hfold : ∀ (l : List ActionContractSignature) (n : Nat),
      l.foldl (fun n _ => n + 1) n = n + l.length := by
    intro l
    induction l with
    | nil => exact fun n => rfl
    | cons a l ih =>
      intro n
      rw [List.foldl_cons, ih, List.length_cons]
      omega
  show actions.foldl (fun n _ => n + 1) 0 = _
  rw [hfold, Nat.zero_add]

/-- Every action is in one class. -/
theorem sum_length_effectClasses (actions : List ActionContractSignature) :
    ((auditActionIndependence actions).effectClasses.map List.length).sum = actions.length := by
  have hall : ((Grouping.group effectKey actionId actions).flatMap Prod.snd).Perm
      (actions.map actionId) := Grouping.flatMap_group_perm
  have hclasses : (auditActionIndependence actions).effectClasses.flatten.Perm
      ((Grouping.group effectKey actionId actions).flatMap Prod.snd) :=
    Grouping.flatten_sorted_perm _
  rw [← List.length_flatten, (hclasses.trans hall).length_eq, List.length_map]

/-- Relabelling, reordering and repeating actions leaves their number of classes as it is. -/
theorem count_eq_of_relabels (hleft : ∀ a ∈ actions, ∃ a' ∈ actions', Relabels a a')
    (hright : ∀ a' ∈ actions', ∃ a ∈ actions, Relabels a a') :
    (auditActionIndependence actions').independentEffectClassCount =
      (auditActionIndependence actions).independentEffectClassCount := by
  rw [auditActionIndependence_count, auditActionIndependence_count]
  congr 1
  ext key
  rw [List.mem_toFinset, List.mem_toFinset, List.mem_map, List.mem_map]
  constructor
  · rintro ⟨a', ha', rfl⟩
    obtain ⟨a, ha, hrelabels⟩ := hright a' ha'
    exact ⟨a, ha, effectKey_eq_iff.mpr hrelabels⟩
  · rintro ⟨a, ha, rfl⟩
    obtain ⟨a', ha', hrelabels⟩ := hleft a ha
    exact ⟨a', ha', (effectKey_eq_iff.mpr hrelabels).symm⟩

/-- The classes, each with its key. -/
def sortedClasses (actions : List ActionContractSignature) : List (EffectKey × List String) :=
  ((Grouping.group effectKey actionId actions).map fun g =>
    (g.1, g.2.insertionSort (· ≤ ·))).insertionSort fun a b =>
      pyRepr (effectPyKey a.1) ≤ pyRepr (effectPyKey b.1)

/-- Whether the ids of a class are sorted before or after the classes makes no difference. -/
theorem effectClasses_eq (actions : List ActionContractSignature) :
    (auditActionIndependence actions).effectClasses = (sortedClasses actions).map Prod.snd := by
  have hsort := List.map_insertionSort
    (r := fun a b : EffectKey × List String => pyRepr (effectPyKey a.1) ≤ pyRepr (effectPyKey b.1))
    (s := fun a b : EffectKey × List String => pyRepr (effectPyKey a.1) ≤ pyRepr (effectPyKey b.1))
    (fun g => (g.1, g.2.insertionSort (· ≤ ·))) (Grouping.group effectKey actionId actions)
    fun _ _ _ _ => Iff.rfl
  rw [sortedClasses, ← hsort, List.map_map]
  rfl

/-- The result does not depend on the order of the actions. -/
theorem auditActionIndependence_eq_of_perm (hperm : actions'.Perm actions) :
    auditActionIndependence actions' = auditActionIndependence actions := by
  have hgroups : ((Grouping.group effectKey actionId actions').map fun g =>
      (g.1, g.2.insertionSort (· ≤ ·))).Perm
      ((Grouping.group effectKey actionId actions).map fun g =>
        (g.1, g.2.insertionSort (· ≤ ·))) := by
    refine Grouping.map_groupInto_perm (fun k => (hperm.map effectKey).mem_iff) fun k => ?_
    rw [Grouping.collect_append, Grouping.collect_append, Reordering.insertionSort_eq_iff_perm]
    exact (hperm.filter _).map actionId
  have hkeys : (((Grouping.group effectKey actionId actions').map fun g =>
      (g.1, g.2.insertionSort (· ≤ ·))).map
        fun g => pyRepr (effectPyKey g.1)).Nodup := by
    have hinjective : Function.Injective fun key => pyRepr (effectPyKey key) :=
      pyRepr_injective.comp effectPyKey_injective
    have hnodup : ((Grouping.group effectKey actionId actions').map Prod.fst).Nodup :=
      Grouping.nodup_keys_groupInto
    have hmap := hnodup.map hinjective
    rw [List.map_map] at hmap ⊢
    exact hmap
  have hclasses : (auditActionIndependence actions').effectClasses =
      (auditActionIndependence actions).effectClasses := by
    rw [effectClasses_eq, effectClasses_eq, sortedClasses, sortedClasses,
      Reordering.insertionSort_eq_of_perm hgroups hkeys]
  have hraw : (auditActionIndependence actions').rawActionCount =
      (auditActionIndependence actions).rawActionCount := by
    rw [auditActionIndependence_raw, auditActionIndependence_raw, hperm.length_eq]
  have hfields : ∀ acts : List ActionContractSignature, auditActionIndependence acts =
      ⟨(auditActionIndependence acts).rawActionCount,
        (auditActionIndependence acts).effectClasses.length,
        (auditActionIndependence acts).effectClasses,
        "ACTION_COUNT != INDEPENDENT_EFFECT_CLASS_COUNT"⟩ := fun _ => rfl
  rw [hfields actions', hfields actions, hclasses, hraw]

end Result

/-! ## Contracts -/

/-- The contract an effect key stands for. -/
def keyContract : EffectKey → String × String × Finset String × String
  | (scope, target, evidence, effect) => (scope, target, evidence.toFinset, effect)

theorem keyContract_effectKey (action : ActionContractSignature) :
    keyContract action.effectKey = contract action := by
  have hevidence : (action.requiredEvidence.insertionSort (· ≤ ·)).toFinset =
      action.requiredEvidence.toFinset :=
    List.toFinset_eq_of_perm _ _ (List.perm_insertionSort _ _)
  show (_, _, _, _) = (_, _, _, _)
  rw [hevidence]

/-- Actions with one contract repeat its evidence alike. -/
def RepeatsAlike (actions : List ActionContractSignature) : Prop :=
  ∀ a ∈ actions, ∀ b ∈ actions, contract a = contract b →
    a.requiredEvidence.Perm b.requiredEvidence

theorem relabels_of_contract {a b : ActionContractSignature} (hcontract : contract a = contract b)
    (hevidence : a.requiredEvidence.Perm b.requiredEvidence) : Relabels a b := by
  simp only [contract, Prod.mk.injEq] at hcontract
  obtain ⟨hscope, htarget, -, heffect⟩ := hcontract
  exact ⟨hscope, htarget, hevidence, heffect⟩

/-- There are as many keys as contracts exactly when no contract has two keys. -/
theorem card_effectKeys_eq_iff (actions : List ActionContractSignature) :
    (actions.map effectKey).toFinset.card = (actions.map contract).toFinset.card ↔
      RepeatsAlike actions := by
  have himage : (actions.map contract).toFinset =
      (actions.map effectKey).toFinset.image keyContract := by
    ext c
    rw [List.mem_toFinset, Finset.mem_image, List.mem_map]
    constructor
    · rintro ⟨a, ha, rfl⟩
      exact ⟨a.effectKey, List.mem_toFinset.mpr (List.mem_map_of_mem ha), keyContract_effectKey a⟩
    · rintro ⟨key, hkey, rfl⟩
      obtain ⟨a, ha, rfl⟩ := List.mem_map.mp (List.mem_toFinset.mp hkey)
      exact ⟨a, ha, (keyContract_effectKey a).symm⟩
  rw [himage, eq_comm, Finset.card_image_iff]
  have hmem : ∀ a ∈ actions, a.effectKey ∈ (↑(actions.map effectKey).toFinset : Set EffectKey) :=
    fun a ha => List.mem_toFinset.mpr (List.mem_map_of_mem ha)
  constructor
  · intro hinjective a ha b hb hcontract
    rw [← keyContract_effectKey, ← keyContract_effectKey] at hcontract
    exact (effectKey_eq_iff.mp (hinjective (hmem a ha) (hmem b hb) hcontract)).requiredEvidence
  · intro halike key hkey key' hkey' hcontract
    obtain ⟨a, ha, rfl⟩ := List.mem_map.mp (List.mem_toFinset.mp hkey)
    obtain ⟨b, hb, rfl⟩ := List.mem_map.mp (List.mem_toFinset.mp hkey')
    rw [keyContract_effectKey, keyContract_effectKey] at hcontract
    exact effectKey_eq_iff.mpr (relabels_of_contract hcontract (halike a ha b hb hcontract))

end ActionIndependence

end PoiexGoc
