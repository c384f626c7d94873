/-
  GROUPING by a key, as a loop over a dict that is filled in place does it:

      groups = {}
      for x in l:
          add(x, groups.setdefault(key(x), first))

  1. `setdefault` — one turn of the loop: the entry of the key is created or changed, every other
     entry stays (`mem_setdefault`).

  2. `mem_groupInto` — the whole loop: there is one entry for each key that occurs
     (`nodup_keys_groupInto`), and it holds what `collect` finds: the elements with this key, added
     one after the other in their order.

  3. `insertionSort_groupInto` — sorted by key, the entries are the keys in order with what was
     collected for each.  What an order of the elements leaves of a report is therefore decided by
     the set of keys and by the collected values.

  4. Two kinds of groups.  Lists that are appended to put two elements together exactly when they
     have one key (`exists_group_iff`), and lose none (`flatMap_group_perm`), also when they are
     sorted afterwards (`flatten_sorted_perm`).  Sets that are added to have all one element exactly
     when the key decides the value (`forall_card_eq_one_iff`).

  5. `exists_differ_both` — where two functions each take two values on a group, two of its elements
     differ in both.
-/
import Mathlib.Data.Finset.Card
import PoiexGoc.Lib.Reordering

namespace Grouping

variable {κ α β γ : Type} [DecidableEq κ]

/-- The entry of `k`, created with `first` if there is none, and changed in place. -/
def setdefault (k : κ) (first : γ) (change : γ → γ) : List (κ × γ) → List (κ × γ)
  | [] => [(k, change first)]
  | (k', g) :: groups =>
    if k' = k then (k', change g) :: groups else (k', g) :: setdefault k first change groups

/-- The loop over all elements. -/
def groupInto (key : α → κ) (first : γ) (add : α → γ → γ) (l : List α) : List (κ × γ) :=
  l.foldl (fun groups x => setdefault (key x) first (add x) groups) []

/-- What the elements with the key `k` add up to. -/
def collect (key : α → κ) (first : γ) (add : α → γ → γ) (l : List α) (k : κ) : γ :=
  (l.filter fun x => key x = k).foldl (fun g x => add x g) first

/-! ## One turn of the loop -/

section Turn

variable {k : κ} {first : γ} {change : γ → γ} {groups : List (κ × γ)}

theorem keys_setdefault :
    (setdefault k first change groups).map Prod.fst =
      if k ∈ groups.map Prod.fst then groups.map Prod.fst else groups.map Prod.fst ++ [k] := by
  induction groups with
  | nil => rfl
  | cons entry groups ih =>
    obtain ⟨k', g⟩ := entry
    by_cases hk : k' = k
    · rw [setdefault, if_pos hk, if_pos (by simp [hk])]
      rfl
    · rw [setdefault, if_neg hk, List.map_cons, ih]
      have hmem : k ∈ List.map Prod.fst ((k', g) :: groups) ↔ k ∈ groups.map Prod.fst := by
        rw [List.map_cons, List.mem_cons]
        exact or_iff_right (Ne.symm hk)
      by_cases hin : k ∈ groups.map Prod.fst
      · rw [if_pos hin, if_pos (hmem.mpr hin)]
        rfl
      · rw [if_neg hin, if_neg (hmem.not.mpr hin)]
        rfl

theorem nodup_keys_setdefault (hkeys : (groups.map Prod.fst).Nodup) :
    ((setdefault k first change groups).map Prod.fst).Nodup := by
  rw [keys_setdefault]
  by_cases hin : k ∈ groups.map Prod.fst
  · rw [if_pos hin]
    exact hkeys
  · rw [if_neg hin, List.nodup_append]
    refine ⟨hkeys, List.nodup_singleton k, fun a ha b hb => ?_⟩
    rintro rfl
    exact hin (List.mem_singleton.mp hb ▸ ha)

/-- The entry of the key is changed or created; the others stay. -/
theorem mem_setdefault (hkeys : (groups.map Prod.fst).Nodup) {k' : κ} {g : γ} :
    (k', g) ∈ setdefault k first change groups ↔
      (k' ≠ k ∧ (k', g) ∈ groups) ∨
      (k' = k ∧ ((∃ old, (k, old) ∈ groups ∧ g = change old) ∨
        (k ∉ groups.map Prod.fst ∧ g = change first))) := by
  induction groups with
  | nil => simp [setdefault]
  | cons entry groups ih =>
    obtain ⟨k₀, g₀⟩ := entry
    obtain ⟨hnot, hkeys⟩ := List.nodup_cons.mp hkeys
    by_cases hk : k₀ = k
    · -- the entry of the key stands here, and nowhere later
      subst hk
      have hlater : ∀ old, (k₀, old) ∉ groups := by
        intro old hold
        have hkey := List.mem_map_of_mem (f := Prod.fst) hold
        exact hnot hkey
      rw [setdefault, if_pos rfl]
      grind
    · rw [setdefault, if_neg hk, List.mem_cons, ih hkeys]
      grind

end Turn

/-! ## The whole loop -/

section Loop

variable {key : α → κ} {first : γ} {add : α → γ → γ} {l : List α}

theorem groupInto_concat (l : List α) (x : α) :
    groupInto key first add (l ++ [x]) =
      setdefault (key x) first (add x) (groupInto key first add l) := by
  rw [groupInto, List.foldl_append]
  rfl

theorem collect_concat (l : List α) (x : α) (k : κ) :
    collect key first add (l ++ [x]) k =
      if key x = k then add x (collect key first add l k) else collect key first add l k := by
  rw [collect, List.filter_append, List.foldl_append, List.filter_singleton]
  by_cases hk : key x = k
  · rw [if_pos hk, decide_eq_true hk]
    rfl
  · rw [if_neg hk, decide_eq_false hk]
    rfl

/-- Nothing is collected for a key that does not occur. -/
theorem collect_of_not_mem {k : κ} (hk : k ∉ l.map key) : collect key first add l k = first := by
  have hnone : (l.filter fun x => key x = k) = [] := by
    rw [List.filter_eq_nil_iff]
    intro x hx hkey
    exact hk (of_decide_eq_true hkey ▸ List.mem_map_of_mem hx)
  rw [collect, hnone]
  rfl

theorem mem_keys_groupInto {k : κ} :
    k ∈ (groupInto key first add l).map Prod.fst ↔ k ∈ l.map key := by
  induction l using List.reverseRecOn with
  | nil => exact Iff.rfl
  | append_singleton l x ih =>
    rw [groupInto_concat, keys_setdefault, List.map_append, List.mem_append, ← ih]
    have hlast : k ∈ List.map key [x] ↔ k = key x := List.mem_singleton
    by_cases hin : key x ∈ (groupInto key first add l).map Prod.fst
    · rw [if_pos hin, hlast, or_iff_left_of_imp]
      rintro rfl
      exact hin
    · rw [if_neg hin, List.mem_append, List.mem_singleton, hlast]

theorem nodup_keys_groupInto : ((groupInto key first add l).map Prod.fst).Nodup := by
  induction l using List.reverseRecOn with
  | nil => exact List.nodup_nil
  | append_singleton l x ih =>
    rw [groupInto_concat]
    exact nodup_keys_setdefault ih

/-- The entries are the keys that occur, each with what was collected for it. -/
theorem mem_groupInto {k : κ} {g : γ} :
    (k, g) ∈ groupInto key first add l ↔ k ∈ l.map key ∧ g = collect key first add l k := by
  induction l using List.reverseRecOn generalizing g with
  | nil => simp [groupInto]
  | append_singleton l x ih =>
    rw [groupInto_concat, mem_setdefault nodup_keys_groupInto, collect_concat, List.map_append,
      List.mem_append, mem_keys_groupInto, ih]
    have hlast : k ∈ List.map key [x] ↔ k = key x := List.mem_singleton
    rw [hlast]
    by_cases hk : k = key x
    · subst hk
      rw [if_pos rfl]
      by_cases hin : key x ∈ l.map key
      · -- the entry was there already
        have hold : (∃ old, (key x, old) ∈ groupInto key first add l ∧ g = add x old) ↔
            g = add x (collect key first add l (key x)) := by
          constructor
          · rintro ⟨old, hmem, rfl⟩
            rw [(ih.mp hmem).2]
          · rintro rfl
            exact ⟨_, ih.mpr ⟨hin, rfl⟩, rfl⟩
        rw [hold]
        simp only [ne_eq, not_true_eq_false, false_and, true_and, hin, or_false, false_or, or_true]
      · have hnone : ¬ ∃ old, (key x, old) ∈ groupInto key first add l ∧ g = add x old :=
          fun ⟨_, hmem, _⟩ => hin (ih.mp hmem).1
        rw [collect_of_not_mem hin]
        simp only [ne_eq, not_true_eq_false, false_and, true_and, hnone, hin, not_false_eq_true,
          or_true, false_or]
    · rw [if_neg (Ne.symm hk)]
      simp only [ne_eq, hk, not_false_eq_true, true_and, false_and, or_false]

/-- Without their order, the entries are what is collected for each key. -/
theorem groupInto_perm {ks : List κ} (hks : ks.Nodup) (hmem : ∀ k, k ∈ ks ↔ k ∈ l.map key) :
    (groupInto key first add l).Perm (ks.map fun k => (k, collect key first add l k)) := by
  have hleft : (groupInto key first add l).Nodup := List.Nodup.of_map Prod.fst nodup_keys_groupInto
  have hright : (ks.map fun k => (k, collect key first add l k)).Nodup :=
    hks.map fun _ _ heq => congrArg Prod.fst heq
  rw [List.perm_ext_iff_of_nodup hleft hright]
  rintro ⟨k, g⟩
  rw [mem_groupInto, List.mem_map (b := (k, g))]
  constructor
  · rintro ⟨hk, rfl⟩
    exact ⟨k, (hmem k).mpr hk, rfl⟩
  · rintro ⟨k', hk', heq⟩
    obtain ⟨rfl, rfl⟩ := Prod.mk.inj heq
    exact ⟨(hmem _).mp hk', rfl⟩

theorem length_groupInto {ks : List κ} (hks : ks.Nodup) (hmem : ∀ k, k ∈ ks ↔ k ∈ l.map key) :
    (groupInto key first add l).length = ks.length := by
  rw [(groupInto_perm hks hmem).length_eq, List.length_map]

/-- Lists with the same keys, for which the same is collected up to `f`, have the same entries up to
    `f` and up to order. -/
theorem map_groupInto_perm {δ : Type} {f : γ → δ} {l l' : List α}
    (hkeys : ∀ k, k ∈ l.map key ↔ k ∈ l'.map key)
    (hsame : ∀ k, f (collect key first add l k) = f (collect key first add l' k)) :
    ((groupInto key first add l).map fun e => (e.1, f e.2)).Perm
      ((groupInto key first add l').map fun e => (e.1, f e.2)) := by
  have hmem : ∀ k, k ∈ (l.map key).dedup ↔ k ∈ l.map key := fun _ => List.mem_dedup
  have hleft := @groupInto_perm _ _ _ _ key first add l _ (List.nodup_dedup _) hmem
  have hright := @groupInto_perm _ _ _ _ key first add l' _ (List.nodup_dedup _)
    fun k => (hmem k).trans (hkeys k)
  refine ((hleft.map _).trans ?_).trans (hright.map _).symm
  rw [List.map_map, List.map_map]
  refine List.Perm.of_eq (List.map_congr_left fun k _ => ?_)
  show (k, f _) = (k, f _)
  rw [hsame]

/-- There are as many entries as distinct keys. -/
theorem length_groupInto_eq_card :
    (groupInto key first add l).length = (l.map key).toFinset.card := by
  rw [List.card_toFinset]
  exact length_groupInto (List.nodup_dedup _) fun k => List.mem_dedup

/-- Sorted by key, the entries are the keys in order with what was collected for each. -/
theorem insertionSort_groupInto [LinearOrder κ] {ks : List κ} (hks : ks.Pairwise (· < ·))
    (hmem : ∀ k, k ∈ ks ↔ k ∈ l.map key) :
    ((groupInto key first add l).insertionSort fun a b => a.1 ≤ b.1) =
      ks.map fun k => (k, collect key first add l k) := by
  have hnodup : ks.Nodup := hks.imp ne_of_lt
  rw [Reordering.insertionSort_eq_of_perm (groupInto_perm hnodup hmem) nodup_keys_groupInto]
  apply List.Pairwise.insertionSort_eq
  rw [List.pairwise_map]
  exact hks.imp le_of_lt

end Loop

/-! ## Groups that are lists -/

section Lists

variable {key : α → κ} {value : α → β} {l : List α}

/-- `groups.setdefault(key(x), []).append(value(x))`. -/
def group (key : α → κ) (value : α → β) : List α → List (κ × List β) :=
  groupInto key [] fun x g => g ++ [value x]

theorem collect_append (k : κ) :
    collect key [] (fun x g => g ++ [value x]) l k =
      (l.filter fun x => key x = k).map value := by
  have hfold : ∀ m : List α, m.foldl (fun g x => g ++ [value x]) [] = m.map value := by
    intro m
    induction m using List.reverseRecOn with
    | nil => rfl
    | append_singleton m x ih =>
      rw [List.foldl_append, ih, List.map_append]
      rfl
  exact hfold _

theorem mem_group {k : κ} {g : List β} :
    (k, g) ∈ group key value l ↔
      k ∈ l.map key ∧ g = (l.filter fun x => key x = k).map value := by
  rw [group, mem_groupInto, collect_append]

/-- Two elements are in one group exactly when they have one key. -/
theorem exists_group_iff (hvalues : (l.map value).Nodup) {x y : α} (hx : x ∈ l) (hy : y ∈ l) :
    (∃ e ∈ group key value l, value x ∈ e.2 ∧ value y ∈ e.2) ↔ key x = key y := by
  have hinj := List.inj_on_of_nodup_map hvalues
  -- an element of a group has the group's key
  have hkey : ∀ {k : κ} {z : α}, z ∈ l →
      value z ∈ (l.filter fun x => key x = k).map value → key z = k := by
    intro k z hz hmem
    obtain ⟨z', hz', heq⟩ := List.mem_map.mp hmem
    obtain ⟨hz'l, hz'k⟩ := List.mem_filter.mp hz'
    rw [← hinj hz'l hz heq]
    exact of_decide_eq_true hz'k
  constructor
  · rintro ⟨⟨k, g⟩, hg, hxg, hyg⟩
    obtain ⟨-, rfl⟩ := mem_group.mp hg
    rw [hkey hx hxg, hkey hy hyg]
  · intro heq
    refine ⟨(key x, _), mem_group.mpr ⟨List.mem_map_of_mem hx, rfl⟩, ?_, ?_⟩
    · exact List.mem_map_of_mem (List.mem_filter.mpr ⟨hx, decide_eq_true rfl⟩)
    · exact List.mem_map_of_mem (List.mem_filter.mpr ⟨hy, decide_eq_true heq.symm⟩)

theorem flatMap_setdefault_perm (k : κ) (y : β) (groups : List (κ × List β)) :
    ((setdefault k [] (fun g => g ++ [y]) groups).flatMap Prod.snd).Perm
      (groups.flatMap Prod.snd ++ [y]) := by
  induction groups with
  | nil => exact List.Perm.refl _
  | cons entry groups ih =>
    obtain ⟨k', g⟩ := entry
    by_cases hk : k' = k
    · rw [setdefault, if_pos hk, List.flatMap_cons, List.flatMap_cons, List.append_assoc,
        List.append_assoc]
      exact List.perm_append_comm.append_left g
    · rw [setdefault, if_neg hk, List.flatMap_cons, List.flatMap_cons, List.append_assoc]
      exact ih.append_left g

/-- No element is lost, and none is put into two groups. -/
theorem flatMap_group_perm : ((group key value l).flatMap Prod.snd).Perm (l.map value) := by
  induction l using List.reverseRecOn with
  | nil => exact List.Perm.refl _
  | append_singleton l x ih =>
    rw [group, groupInto_concat, List.map_append]
    exact (flatMap_setdefault_perm _ _ _).trans (ih.append_right _)

omit [DecidableEq κ] in
/-- Sorting the groups, and each group by itself, keeps all elements. -/
theorem flatten_sorted_perm {r : κ × List β → κ × List β → Prop} {s : β → β → Prop}
    [DecidableRel r] [DecidableRel s] (groups : List (κ × List β)) :
    ((groups.insertionSort r).map fun g => g.2.insertionSort s).flatten.Perm
      (groups.flatMap Prod.snd) := by
  rw [← List.flatMap_def]
  have hgroups := (List.perm_insertionSort r groups).flatMap_right fun g => g.2.insertionSort s
  exact hgroups.trans (List.Perm.flatMap_left _ fun g _ => List.perm_insertionSort s g.2)

end Lists

/-! ## Values that differ -/

section Differing

variable [DecidableEq β] [DecidableEq γ] {f : α → β} {g : α → γ} {l : List α}

/-- A list has two values when two of its elements differ in theirs. -/
theorem two_le_card_iff :
    2 ≤ (l.map f).toFinset.card ↔ ∃ x ∈ l, ∃ y ∈ l, f x ≠ f y := by
  show 1 < _ ↔ _
  rw [Finset.one_lt_card]
  constructor
  · rintro ⟨a, ha, b, hb, hne⟩
    obtain ⟨x, hx, rfl⟩ := List.mem_map.mp (List.mem_toFinset.mp ha)
    obtain ⟨y, hy, rfl⟩ := List.mem_map.mp (List.mem_toFinset.mp hb)
    exact ⟨x, hx, y, hy, hne⟩
  · rintro ⟨x, hx, y, hy, hne⟩
    exact ⟨f x, List.mem_toFinset.mpr (List.mem_map_of_mem hx),
      f y, List.mem_toFinset.mpr (List.mem_map_of_mem hy), hne⟩

/-- Two values each way, and two elements differ both ways. -/
theorem exists_differ_both (hf : ∃ x ∈ l, ∃ y ∈ l, f x ≠ f y) (hg : ∃ x ∈ l, ∃ y ∈ l, g x ≠ g y) :
    ∃ x ∈ l, ∃ y ∈ l, f x ≠ f y ∧ g x ≠ g y := by
  obtain ⟨x, hx, y, hy, hfxy⟩ := hf
  by_cases hgxy : g x = g y
  · -- some element differs from both in `g`, and from one of them in `f`
    obtain ⟨z, hz, hgz⟩ : ∃ z ∈ l, g z ≠ g x := by
      obtain ⟨u, hu, v, hv, hguv⟩ := hg
      by_cases hgu : g u = g x
      · exact ⟨v, hv, fun hgv => hguv (hgu.trans hgv.symm)⟩
      · exact ⟨u, hu, hgu⟩
    by_cases hfz : f z = f x
    · exact ⟨z, hz, y, hy, fun h => hfxy (hfz.symm.trans h), fun h => hgz (h.trans hgxy.symm)⟩
    · exact ⟨z, hz, x, hx, hfz, hgz⟩
  · exact ⟨x, hx, y, hy, hfxy, hgxy⟩

/-- Elements with one label have one value: there are at least as many labels as values. -/
theorem card_values_le_card_labels (hdetermines : ∀ x ∈ l, ∀ y ∈ l, f x = f y → g x = g y) :
    (l.map g).toFinset.card ≤ (l.map f).toFinset.card := by
  -- the value of a label is the one of the first element with it
  let valueOf : β → Option γ := fun k => (l.find? fun x => f x = k).map g
  have hvalues : (l.map g).toFinset.image some ⊆ (l.map f).toFinset.image valueOf := by
    intro v hv
    obtain ⟨w, hw, rfl⟩ := Finset.mem_image.mp hv
    obtain ⟨x, hx, rfl⟩ := List.mem_map.mp (List.mem_toFinset.mp hw)
    refine Finset.mem_image.mpr ⟨f x, List.mem_toFinset.mpr (List.mem_map_of_mem hx), ?_⟩
    obtain ⟨y, hy⟩ : ∃ y, l.find? (fun y => f y = f x) = some y :=
      Option.isSome_iff_exists.mp (List.find?_isSome.mpr ⟨x, hx, decide_eq_true rfl⟩)
    have hlabel : decide (f y = f x) = true := List.find?_some (p := fun y => f y = f x) hy
    show (l.find? _).map g = _
    rw [hy, Option.map_some, hdetermines y (List.mem_of_find?_eq_some hy) x hx (of_decide_eq_true hlabel)]
  calc (l.map g).toFinset.card
      = ((l.map g).toFinset.image some).card :=
        (Finset.card_image_of_injective _ (Option.some_injective γ)).symm
    _ ≤ ((l.map f).toFinset.image valueOf).card := Finset.card_le_card hvalues
    _ ≤ (l.map f).toFinset.card := Finset.card_image_le

end Differing

/-! ## Groups that are sets -/

section Sets

variable [DecidableEq β] {key : α → κ} {value : α → β} {l : List α}

/-- `groups.setdefault(key(x), set()).add(value(x))`. -/
def groupSet (key : α → κ) (value : α → β) : List α → List (κ × Finset β) :=
  groupInto key ∅ fun x g => insert (value x) g

theorem collect_insert (k : κ) :
    collect key ∅ (fun x g => insert (value x) g) l k =
      ((l.filter fun x => key x = k).map value).toFinset := by
  have hfold : ∀ m : List α,
      m.foldl (fun g x => insert (value x) g) ∅ = (m.map value).toFinset := by
    intro m
    induction m using List.reverseRecOn with
    | nil => rfl
    | append_singleton m x ih =>
      rw [List.foldl_append, ih, List.map_append, List.toFinset_append]
      show insert (value x) _ = _
      rw [Finset.insert_eq, Finset.union_comm]
      rfl
  exact hfold _

/-- Every group has one element exactly when elements with one key have one value. -/
theorem forall_card_eq_one_iff :
    (∀ e ∈ groupSet key value l, e.2.card = 1) ↔
      ∀ x ∈ l, ∀ y ∈ l, key x = key y → value x = value y := by
  have hmem : ∀ {k : κ} {z : α}, z ∈ l → key z = k →
      value z ∈ ((l.filter fun x => key x = k).map value).toFinset := by
    intro k z hz hkey
    exact List.mem_toFinset.mpr
      (List.mem_map_of_mem (List.mem_filter.mpr ⟨hz, decide_eq_true hkey⟩))
  constructor
  · intro hone x hx y hy hkey
    have hgroup := hone _ (mem_groupInto.mpr ⟨List.mem_map_of_mem hx, rfl⟩)
    rw [collect_insert] at hgroup
    exact Finset.card_le_one.mp hgroup.le _ (hmem hx rfl) _ (hmem hy hkey.symm)
  · rintro hsame ⟨k, g⟩ hg
    obtain ⟨hk, rfl⟩ := mem_groupInto.mp hg
    obtain ⟨x, hx, hkey⟩ := List.mem_map.mp hk
    show (collect key (∅ : Finset β) _ l k).card = 1
    rw [collect_insert]
    refine le_antisymm (Finset.card_le_one.mpr ?_) (Finset.card_pos.mpr ⟨_, hmem hx hkey⟩)
    -- two elements of the group are values of elements with its key
    have hvalue : ∀ v ∈ ((l.filter fun x => key x = k).map value).toFinset, v = value x := by
      intro v hv
      obtain ⟨y, hy, rfl⟩ := List.mem_map.mp (List.mem_toFinset.mp hv)
      obtain ⟨hyl, hyk⟩ := List.mem_filter.mp hy
      exact hsame y hyl x hx ((of_decide_eq_true hyk).trans hkey.symm)
    intro v hv w hw
    rw [hvalue v hv, hvalue w hw]

end Sets

end Grouping
