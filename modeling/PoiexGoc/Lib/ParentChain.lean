/-
  Following PARENT POINTERS through a finite map.

  `look` reads a record under a key and `parent` names the key of the next record; neither is
  assumed to be acyclic, total or injective.  `chase` follows the pointers, remembering the keys
  it has visited, until it reaches a record without a parent, a key without a record, or a key it
  has seen before.  The fuel only bounds the recursion: `chase_isSome` says how much is enough.

  The declarative side is `RootPath k c`: `c` lists the records met on the way from `k` to a
  parentless record.  Pointers are functional, so such a path is UNIQUE (`RootPath.unique`), and a
  path that reached a root can therefore not have passed a key twice (`RootPath.nodup`): a cycle
  guard never rejects it (`chase_of_rootPath`).

  `Chases` is the chase as a relation, without the fuel.  Its four rules are what every fact about
  whole chases is proved by: what they read (`Chases.local`), what they do not read of a record
  (`Chases.map`), which keys they pass (`Chases.nodup`, `Chases.length_le`).
-/
import Mathlib.Data.Finset.Card
import Mathlib.Data.Finset.SDiff

namespace ParentChain

variable {κ ν : Type} {look : κ → Option ν} {parent : ν → Option κ}

/-- How following the pointers ends. -/
inductive Ending (κ : Type) where
  | root
  | missing (k : κ)
  | revisit (k : κ)
  deriving DecidableEq

/-- The records met from `k` on, in order, when the last of them has no parent. -/
inductive RootPath (look : κ → Option ν) (parent : ν → Option κ) : κ → List (κ × ν) → Prop
  | root {k : κ} {v : ν} (hlook : look k = some v) (hparent : parent v = none) :
      RootPath look parent k [(k, v)]
  | link {k p : κ} {v : ν} {rest : List (κ × ν)} (hlook : look k = some v)
      (hparent : parent v = some p) (hrest : RootPath look parent p rest) :
      RootPath look parent k ((k, v) :: rest)

/-! ## Paths to a root are unique and do not repeat a key -/

/-- Pointers are functional: the path from a key to a root is determined by the key. -/
theorem RootPath.unique {k : κ} {c d : List (κ × ν)} (hc : RootPath look parent k c)
    (hd : RootPath look parent k d) : c = d := by
  induction hc generalizing d with
  | root hlook hparent =>
    cases hd with
    | root hlook' _ => rw [Option.some.inj (hlook.symm.trans hlook')]
    | link hlook' hparent' _ =>
      rw [Option.some.inj (hlook.symm.trans hlook')] at hparent
      cases hparent.symm.trans hparent'
  | link hlook hparent _ ih =>
    cases hd with
    | root hlook' hparent' =>
      rw [Option.some.inj (hlook.symm.trans hlook')] at hparent
      cases hparent.symm.trans hparent'
    | link hlook' hparent' hrest' =>
      have hv := Option.some.inj (hlook.symm.trans hlook')
      rw [hv] at hparent ⊢
      rw [← Option.some.inj (hparent.symm.trans hparent')] at hrest'
      rw [ih hrest']

/-- Every key on the path starts a path of its own, a suffix of the whole. -/
theorem RootPath.suffix {k k' : κ} {c : List (κ × ν)} (hc : RootPath look parent k c)
    (hk' : k' ∈ c.map Prod.fst) : ∃ d, RootPath look parent k' d ∧ d <:+ c := by
  induction hc with
  | root hlook hparent =>
    rw [List.map_cons, List.map_nil, List.mem_singleton] at hk'
    subst hk'
    exact ⟨_, RootPath.root hlook hparent, List.suffix_refl _⟩
  | link hlook hparent hrest ih =>
    rcases List.mem_cons.mp hk' with hk' | hk'
    · subst hk'
      exact ⟨_, RootPath.link hlook hparent hrest, List.suffix_refl _⟩
    · obtain ⟨d, hd, hsuf⟩ := ih hk'
      exact ⟨d, hd, hsuf.trans (List.suffix_cons _ _)⟩

/-- No key repeats: a repeated key would start two paths of different lengths. -/
theorem RootPath.nodup {k : κ} {c : List (κ × ν)} (hc : RootPath look parent k c) :
    (c.map Prod.fst).Nodup := by
  induction hc with
  | root _ _ => exact List.nodup_singleton _
  | link hlook hparent hrest ih =>
    refine List.nodup_cons.mpr ⟨fun hmem => ?_, ih⟩
    obtain ⟨d, hd, hsuf⟩ := hrest.suffix hmem
    have heq := hd.unique (RootPath.link hlook hparent hrest)
    have hlen := hsuf.length_le
    rw [heq, List.length_cons] at hlen
    omega

theorem RootPath.look_of_mem {k : κ} {c : List (κ × ν)} (hc : RootPath look parent k c)
    {e : κ × ν} (he : e ∈ c) : look e.1 = some e.2 := by
  induction hc with
  | root hlook _ =>
    rw [List.mem_singleton] at he
    subst he
    exact hlook
  | link hlook _ _ ih =>
    rcases List.mem_cons.mp he with he | he
    · subst he
      exact hlook
    · exact ih he

/-! ## Following the pointers with a visited set -/

variable [DecidableEq κ]

/-- Follow the pointers from `k`: the records met, and how it ended; `none` when the fuel ran
    out first. -/
def chase (look : κ → Option ν) (parent : ν → Option κ) :
    Nat → Finset κ → κ → Option (List (κ × ν) × Ending κ)
  | 0, _, _ => none
  | fuel + 1, visited, k =>
    if k ∈ visited then some ([], .revisit k)
    else match look k with
      | none => some ([], .missing k)
      | some v => match parent v with
        | none => some ([(k, v)], .root)
        | some p => (chase look parent fuel (insert k visited) p).map
            fun r => ((k, v) :: r.1, r.2)

theorem chase_of_visited {fuel : Nat} {visited : Finset κ} {k : κ} (hk : k ∈ visited) :
    chase look parent (fuel + 1) visited k = some ([], .revisit k) := by
  rw [chase, if_pos hk]

theorem chase_of_missing {fuel : Nat} {visited : Finset κ} {k : κ} (hk : k ∉ visited)
    (hlook : look k = none) :
    chase look parent (fuel + 1) visited k = some ([], .missing k) := by
  rw [chase, if_neg hk, hlook]

theorem chase_of_root {fuel : Nat} {visited : Finset κ} {k : κ} {v : ν} (hk : k ∉ visited)
    (hlook : look k = some v) (hparent : parent v = none) :
    chase look parent (fuel + 1) visited k = some ([(k, v)], .root) := by
  rw [chase, if_neg hk, hlook]
  simp only [hparent]

theorem chase_of_link {fuel : Nat} {visited : Finset κ} {k p : κ} {v : ν} (hk : k ∉ visited)
    (hlook : look k = some v) (hparent : parent v = some p) :
    chase look parent (fuel + 1) visited k =
      (chase look parent fuel (insert k visited) p).map fun r => ((k, v) :: r.1, r.2) := by
  rw [chase, if_neg hk, hlook]
  simp only [hparent]

/-- Ending at a root, the records met are the path from the starting key to that root. -/
theorem rootPath_of_chase {fuel : Nat} {visited : Finset κ} {k : κ} {c : List (κ × ν)}
    (hc : chase look parent fuel visited k = some (c, .root)) :
    RootPath look parent k c := by
  induction fuel generalizing visited k c with
  | zero => cases hc
  | succ fuel ih =>
    by_cases hk : k ∈ visited
    · rw [chase_of_visited hk] at hc
      cases hc
    · cases hlook : look k with
      | none =>
        rw [chase_of_missing hk hlook] at hc
        cases hc
      | some v =>
        cases hparent : parent v with
        | none =>
          rw [chase_of_root hk hlook hparent] at hc
          obtain ⟨rfl, -⟩ := Prod.mk.inj (Option.some.inj hc)
          exact RootPath.root hlook hparent
        | some p =>
          rw [chase_of_link hk hlook hparent] at hc
          obtain ⟨⟨c', e'⟩, hc', heq⟩ := Option.map_eq_some_iff.mp hc
          obtain ⟨rfl, rfl⟩ := Prod.mk.inj heq
          exact RootPath.link hlook hparent (ih hc')

/-- A path to a root is found: its keys are new one after the other, so the cycle guard never
    fires on it. -/
theorem chase_of_rootPath {fuel : Nat} {visited : Finset κ} {k : κ} {c : List (κ × ν)}
    (hc : RootPath look parent k c) (hnew : ∀ k' ∈ c.map Prod.fst, k' ∉ visited)
    (hfuel : c.length ≤ fuel) :
    chase look parent fuel visited k = some (c, .root) := by
  induction hc generalizing fuel visited with
  | root hlook hparent =>
    obtain ⟨fuel, rfl⟩ : ∃ n, fuel = n + 1 := Nat.exists_eq_succ_of_ne_zero (by
      rw [List.length_singleton] at hfuel; omega)
    exact chase_of_root (hnew _ List.mem_cons_self) hlook hparent
  | @link k p v rest hlook hparent hrest ih =>
    rw [List.length_cons] at hfuel
    obtain ⟨fuel, rfl⟩ : ∃ n, fuel = n + 1 := Nat.exists_eq_succ_of_ne_zero (by omega)
    have hnodup := (RootPath.link hlook hparent hrest).nodup
    rw [List.map_cons, List.nodup_cons] at hnodup
    -- the keys further on are not `k` either
    have htail : ∀ k' ∈ rest.map Prod.fst, k' ∉ insert k visited := by
      intro k' hk' hins
      rcases Finset.mem_insert.mp hins with heq | hvis
      · exact hnodup.1 (heq ▸ hk')
      · exact hnew k' (List.mem_cons_of_mem _ hk') hvis
    rw [chase_of_link (hnew _ List.mem_cons_self) hlook hparent, ih htail (by omega)]
    rfl

/-- Enough fuel: one step for each stored key not visited yet, and one for the step that finds a
    missing or a visited key. -/
theorem chase_isSome {keys : Finset κ} (hkeys : ∀ k v, look k = some v → k ∈ keys)
    {fuel : Nat} {visited : Finset κ} {k : κ} (hfuel : (keys \ visited).card < fuel) :
    (chase look parent fuel visited k).isSome := by
  induction fuel generalizing visited k with
  | zero => omega
  | succ fuel ih =>
    by_cases hk : k ∈ visited
    · rw [chase_of_visited hk]
      rfl
    · cases hlook : look k with
      | none => rw [chase_of_missing hk hlook]; rfl
      | some v =>
        cases hparent : parent v with
        | none => rw [chase_of_root hk hlook hparent]; rfl
        | some p =>
          rw [chase_of_link hk hlook hparent, Option.isSome_map]
          refine ih ?_
          -- the key just visited was one of the stored keys still open
          have hopen : k ∈ keys \ visited := Finset.mem_sdiff.mpr ⟨hkeys k v hlook, hk⟩
          have hstep : keys \ insert k visited = (keys \ visited).erase k := by
            rw [Finset.sdiff_insert]
          have hcard := Finset.card_erase_lt_of_mem hopen
          rw [hstep]
          omega

/-! ## The chase as a relation -/

/-- Following the pointers from `k`, with `visited` behind, meets the records of the path and ends
    so. -/
inductive Chases (look : κ → Option ν) (parent : ν → Option κ) :
    Finset κ → κ → List (κ × ν) → Ending κ → Prop
  | visited {visited : Finset κ} {k : κ} (hk : k ∈ visited) :
      Chases look parent visited k [] (.revisit k)
  | missing {visited : Finset κ} {k : κ} (hk : k ∉ visited) (hlook : look k = none) :
      Chases look parent visited k [] (.missing k)
  | root {visited : Finset κ} {k : κ} {v : ν} (hk : k ∉ visited) (hlook : look k = some v)
      (hparent : parent v = none) : Chases look parent visited k [(k, v)] .root
  | link {visited : Finset κ} {k p : κ} {v : ν} {rest : List (κ × ν)} {ending : Ending κ}
      (hk : k ∉ visited) (hlook : look k = some v) (hparent : parent v = some p)
      (hrest : Chases look parent (insert k visited) p rest ending) :
      Chases look parent visited k ((k, v) :: rest) ending

theorem chases_of_chase {fuel : Nat} {visited : Finset κ} {k : κ} {path : List (κ × ν)}
    {ending : Ending κ} (hchase : chase look parent fuel visited k = some (path, ending)) :
    Chases look parent visited k path ending ∧ path.length ≤ fuel := by
  induction fuel generalizing visited k path with
  | zero => cases hchase
  | succ fuel ih =>
    by_cases hk : k ∈ visited
    · rw [chase_of_visited hk] at hchase
      cases hchase
      exact ⟨.visited hk, Nat.zero_le _⟩
    · cases hlook : look k with
      | none =>
        rw [chase_of_missing hk hlook] at hchase
        cases hchase
        exact ⟨.missing hk hlook, Nat.zero_le _⟩
      | some v =>
        cases hparent : parent v with
        | none =>
          rw [chase_of_root hk hlook hparent] at hchase
          cases hchase
          exact ⟨.root hk hlook hparent, Nat.succ_le_succ (Nat.zero_le _)⟩
        | some p =>
          rw [chase_of_link hk hlook hparent] at hchase
          obtain ⟨⟨rest, ending'⟩, hrest, heq⟩ := Option.map_eq_some_iff.mp hchase
          obtain ⟨rfl, rfl⟩ := Prod.mk.inj heq
          obtain ⟨hchases, hlength⟩ := ih hrest
          exact ⟨.link hk hlook hparent hchases, Nat.succ_le_succ hlength⟩

/-- One step of fuel for each record met, and one for the step that ends it otherwise. -/
theorem chase_of_chases {visited : Finset κ} {k : κ} {path : List (κ × ν)} {ending : Ending κ}
    (hchases : Chases look parent visited k path ending) {fuel : Nat}
    (hfuel : path.length < fuel) : chase look parent fuel visited k = some (path, ending) := by
  induction hchases generalizing fuel with
  | visited hk =>
    obtain ⟨fuel, rfl⟩ := Nat.exists_eq_succ_of_ne_zero (Nat.ne_of_gt hfuel)
    exact chase_of_visited hk
  | missing hk hlook =>
    obtain ⟨fuel, rfl⟩ := Nat.exists_eq_succ_of_ne_zero (Nat.ne_of_gt hfuel)
    exact chase_of_missing hk hlook
  | root hk hlook hparent =>
    obtain ⟨fuel, rfl⟩ := Nat.exists_eq_succ_of_ne_zero (Nat.ne_of_gt (Nat.zero_lt_of_lt hfuel))
    exact chase_of_root hk hlook hparent
  | link hk hlook hparent _ ih =>
    obtain ⟨fuel, rfl⟩ := Nat.exists_eq_succ_of_ne_zero (Nat.ne_of_gt (Nat.zero_lt_of_lt hfuel))
    rw [chase_of_link hk hlook hparent, ih (Nat.lt_of_succ_lt_succ hfuel)]
    rfl

/-- A chase reads the keys of the records it meets, and the key it misses. -/
theorem Chases.local {look' : κ → Option ν} {visited : Finset κ} {k : κ} {path : List (κ × ν)}
    {ending : Ending κ} (hchases : Chases look parent visited k path ending)
    (hpath : ∀ k' ∈ path.map Prod.fst, look' k' = look k')
    (hending : ∀ k', ending = .missing k' → look' k' = look k') :
    Chases look' parent visited k path ending := by
  induction hchases with
  | visited hk => exact .visited hk
  | missing hk hlook => exact .missing hk ((hending _ rfl).trans hlook)
  | root hk hlook hparent => exact .root hk ((hpath _ List.mem_cons_self).trans hlook) hparent
  | link hk hlook hparent _ ih =>
    refine .link hk ((hpath _ List.mem_cons_self).trans hlook) hparent (ih ?_ hending)
    intro k' hk'
    exact hpath k' (List.mem_cons_of_mem _ hk')

/-- Of a record it only reads the parent. -/
theorem Chases.map {f : κ → ν → ν} (hf : ∀ k v, parent (f k v) = parent v) {visited : Finset κ}
    {k : κ} {path : List (κ × ν)} {ending : Ending κ}
    (hchases : Chases look parent visited k path ending) :
    Chases (fun k => (look k).map (f k)) parent visited k
      (path.map fun e => (e.1, f e.1 e.2)) ending := by
  induction hchases with
  | visited hk => exact .visited hk
  | missing hk hlook => exact .missing hk (by rw [hlook]; rfl)
  | root hk hlook hparent =>
    exact .root hk (by rw [hlook]; rfl) ((hf _ _).trans hparent)
  | link hk hlook hparent _ ih =>
    exact .link hk (by rw [hlook]; rfl) ((hf _ _).trans hparent) ih

theorem Chases.look_of_mem {visited : Finset κ} {k : κ} {path : List (κ × ν)} {ending : Ending κ}
    (hchases : Chases look parent visited k path ending) {e : κ × ν} (he : e ∈ path) :
    look e.1 = some e.2 := by
  induction hchases with
  | visited _ => cases he
  | missing _ _ => cases he
  | root _ hlook _ =>
    rw [List.mem_singleton.mp he]
    exact hlook
  | link _ hlook _ _ ih =>
    rcases List.mem_cons.mp he with rfl | he
    · exact hlook
    · exact ih he

/-- The key it misses has no record. -/
theorem Chases.look_of_missing {visited : Finset κ} {k k' : κ} {path : List (κ × ν)}
    {ending : Ending κ} (hchases : Chases look parent visited k path ending)
    (hending : ending = .missing k') : look k' = none := by
  induction hchases with
  | visited _ => cases hending
  | missing _ hlook =>
    cases hending
    exact hlook
  | root _ _ _ => cases hending
  | link _ _ _ _ ih => exact ih hending

/-- The keys it passes are new ones, each passed once. -/
theorem Chases.nodup {visited : Finset κ} {k : κ} {path : List (κ × ν)} {ending : Ending κ}
    (hchases : Chases look parent visited k path ending) :
    (path.map Prod.fst).Nodup ∧ ∀ k' ∈ path.map Prod.fst, k' ∉ visited := by
  induction hchases with
  | visited _ => exact ⟨List.nodup_nil, fun _ h => nomatch h⟩
  | missing _ _ => exact ⟨List.nodup_nil, fun _ h => nomatch h⟩
  | root hk _ _ =>
    refine ⟨List.nodup_singleton _, fun k' hk' => ?_⟩
    rw [List.mem_singleton.mp hk']
    exact hk
  | link hk _ _ _ ih =>
    obtain ⟨hnodup, hnew⟩ := ih
    refine ⟨List.nodup_cons.mpr ⟨fun hmem => ?_, hnodup⟩, fun k' hk' => ?_⟩
    · exact hnew _ hmem (Finset.mem_insert_self _ _)
    · rcases List.mem_cons.mp hk' with rfl | hk'
      · exact hk
      · exact fun hvisited => hnew k' hk' (Finset.mem_insert_of_mem hvisited)

/-- It meets at most the stored records. -/
theorem Chases.length_le {keys : Finset κ} (hkeys : ∀ k v, look k = some v → k ∈ keys)
    {visited : Finset κ} {k : κ} {path : List (κ × ν)} {ending : Ending κ}
    (hchases : Chases look parent visited k path ending) : path.length ≤ keys.card := by
  have hsubset : (path.map Prod.fst).toFinset ⊆ keys := by
    intro k' hk'
    obtain ⟨e, he, rfl⟩ := List.mem_map.mp (List.mem_toFinset.mp hk')
    exact hkeys _ _ (hchases.look_of_mem he)
  have hcard := Finset.card_le_card hsubset
  rwa [List.toFinset_card_of_nodup hchases.nodup.1, List.length_map] at hcard

end ParentChain
