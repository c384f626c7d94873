/-
  WALKS of the provenance verifier: which records it looks up, and what its result depends on.

  1. Over lookups that may raise, the loop returns exactly when every lookup along the chase does,
     and then it returns what the chase says (`chase_of_walk`, `walk_of_chase`).  The chase knows
     nothing of the lease, the clock or the roots: these only decide the reasons.

  2. `verifyRecords_of_chases` — over a finite map there is one chase, so the result is a function
     of the records it meets: `provenance_decisions_are_local`.

  3. `walk_recorded` — the ids the loop has looked up are the ones it reports as the lineage, so the
     three endings of `PointerEndings` are what it reports: `delegation_walk_ends`.
-/
import PoiexGoc.Lib.PointerEndings
import PoiexGoc.Proofs.ProvenanceChains
import PoiexGoc.Runtime.CloudDemo

namespace PoiexGoc

open Py ParentChain

/-! ## Lookups that may raise -/

/-- Every lookup along the way returns. -/
def Readable (get : String → Except PyError (Option AuthorityProvenanceRecord))
    (path : List (String × AuthorityProvenanceRecord)) (ending : Ending String) : Prop :=
  ∀ id ∈ path.map Prod.fst ++ endingLineage ending, ∃ found, get id = .ok found

theorem readable_cons {get : String → Except PyError (Option AuthorityProvenanceRecord)}
    {e : String × AuthorityProvenanceRecord} {path : List (String × AuthorityProvenanceRecord)}
    {ending : Ending String} :
    Readable get (e :: path) ending ↔ (∃ found, get e.1 = .ok found) ∧ Readable get path ending := by
  unfold Readable
  rw [List.map_cons, List.cons_append, List.forall_mem_cons]

section Raising

variable {get : String → Except PyError (Option AuthorityProvenanceRecord)}
  {look : String → Option AuthorityProvenanceRecord} {lease : AuthorityLease} {now : DateTime}
  {roots : Finset String} {fuel : Nat} {st : WalkState}

/-- A loop that has returned has chased the pointers, and every lookup of the chase has returned. -/
theorem chase_of_walk (hlook : ∀ id record, get id = Except.ok record → look id = record)
    {r : List String × List String} (hwalk : walk get lease now roots fuel st = .ok r) :
    ∃ path ending, chase look AuthorityProvenanceRecord.parentProvenanceId fuel st.visited
        st.currentId = some (path, ending) ∧
      Readable get path ending ∧ r = walkResult lease now roots st path ending := by
  induction fuel generalizing st with
  | zero => cases hwalk
  | succ fuel ih =>
    by_cases hvis : st.currentId ∈ st.visited
    · rw [walk_of_visited hvis] at hwalk
      refine ⟨[], _, chase_of_visited hvis, ?_, ?_⟩
      · intro id hid
        cases hid
      · rw [walkResult_visited, Except.ok.inj hwalk]
    · cases hget : get st.currentId with
      | error e =>
        rw [walk, if_neg hvis, hget] at hwalk
        cases hwalk
      | ok found =>
        have hfound : look st.currentId = found := hlook _ _ hget
        cases found with
        | none =>
          rw [walk_of_missing hvis hget] at hwalk
          refine ⟨[], _, chase_of_missing hvis hfound, ?_, ?_⟩
          · intro id hid
            rw [List.mem_singleton.mp hid]
            exact ⟨none, hget⟩
          · rw [walkResult_missing, Except.ok.inj hwalk]
        | some record =>
          cases hparent : record.parentProvenanceId with
          | none =>
            rw [walk_of_root hvis hget hparent] at hwalk
            refine ⟨[_], .root, chase_of_root hvis hfound hparent, ?_, ?_⟩
            · intro id hid
              rw [List.mem_singleton.mp hid]
              exact ⟨some record, hget⟩
            · rw [walkResult_root hparent, Except.ok.inj hwalk]
          | some parent =>
            rw [walk_of_link hvis hget hparent] at hwalk
            obtain ⟨path, ending, hchase, hread, hr⟩ := ih hwalk
            refine ⟨(st.currentId, record) :: path, ending, ?_, ?_, ?_⟩
            · rw [chase_of_link hvis hfound hparent, hchase]
              rfl
            · exact readable_cons.mpr ⟨⟨some record, hget⟩, hread⟩
            · rw [hr, walkResult_link hparent]

/-- A chase whose lookups all return is what the loop does. -/
theorem walk_of_chase (hlook : ∀ id record, get id = Except.ok record → look id = record)
    {path : List (String × AuthorityProvenanceRecord)} {ending : Ending String}
    (hchase : chase look AuthorityProvenanceRecord.parentProvenanceId fuel st.visited st.currentId =
      some (path, ending)) (hread : Readable get path ending) :
    walk get lease now roots fuel st = .ok (walkResult lease now roots st path ending) := by
  induction fuel generalizing st path with
  | zero => cases hchase
  | succ fuel ih =>
    by_cases hvis : st.currentId ∈ st.visited
    · rw [chase_of_visited hvis] at hchase
      cases hchase
      rw [walk_of_visited hvis, walkResult_visited]
    · cases hfound : look st.currentId with
      | none =>
        rw [chase_of_missing hvis hfound] at hchase
        cases hchase
        obtain ⟨found, hget⟩ := hread _ List.mem_cons_self
        rw [← hlook _ _ hget, hfound] at hget
        rw [walk_of_missing hvis hget, walkResult_missing]
      | some record =>
        cases hparent : record.parentProvenanceId with
        | none =>
          rw [chase_of_root hvis hfound hparent] at hchase
          cases hchase
          obtain ⟨found, hget⟩ := hread _ List.mem_cons_self
          rw [← hlook _ _ hget, hfound] at hget
          rw [walk_of_root hvis hget hparent, walkResult_root hparent]
        | some parent =>
          rw [chase_of_link hvis hfound hparent] at hchase
          obtain ⟨⟨rest, ending'⟩, hrest, heq⟩ := Option.map_eq_some_iff.mp hchase
          obtain ⟨rfl, rfl⟩ := Prod.mk.inj heq
          obtain ⟨⟨found, hget⟩, hread⟩ := readable_cons.mp hread
          have hget : get st.currentId = .ok found := hget
          rw [← hlook _ _ hget, hfound] at hget
          rw [walk_of_link hvis hget hparent, ← walkResult_link hparent]
          exact ih hrest hread

end Raising

/-- The verifier returns what the chase of the parent pointers says. -/
theorem verify_of_chase {get : String → Except PyError (Option AuthorityProvenanceRecord)}
    {look : String → Option AuthorityProvenanceRecord}
    (hlook : ∀ id record, get id = Except.ok record → look id = record) {lease : AuthorityLease}
    {id : String} (hid : truthy lease.provenanceId = some id) {now : DateTime}
    {roots : Finset String} {fuel : Nat} {path : List (String × AuthorityProvenanceRecord)}
    {ending : Ending String}
    (hchase : chase look AuthorityProvenanceRecord.parentProvenanceId fuel ∅ id =
      some (path, ending)) (hread : Readable get path ending) :
    verifyAuthorityProvenance get fuel lease now roots =
      .ok (chaseResult lease now roots path ending) := by
  unfold verifyAuthorityProvenance
  rw [hid]
  show (walk get lease now roots fuel (WalkState.initial id) >>= _) = _
  have hwalk : walk get lease now roots fuel (WalkState.initial id) =
      .ok (walkResult lease now roots (WalkState.initial id) path ending) :=
    walk_of_chase hlook hchase hread
  rw [hwalk]
  rfl

theorem chase_of_verify {get : String → Except PyError (Option AuthorityProvenanceRecord)}
    {look : String → Option AuthorityProvenanceRecord}
    (hlook : ∀ id record, get id = Except.ok record → look id = record) {lease : AuthorityLease}
    {id : String} (hid : truthy lease.provenanceId = some id) {now : DateTime}
    {roots : Finset String} {fuel : Nat} {result : AuthorityProvenanceResult}
    (hverify : verifyAuthorityProvenance get fuel lease now roots = .ok result) :
    ∃ path ending, chase look AuthorityProvenanceRecord.parentProvenanceId fuel ∅ id =
        some (path, ending) ∧
      Readable get path ending ∧ result = chaseResult lease now roots path ending := by
  unfold verifyAuthorityProvenance at hverify
  rw [hid] at hverify
  obtain ⟨r, hwalk, hresult⟩ := bind_eq_ok.mp hverify
  obtain ⟨path, ending, hchase, hread, rfl⟩ := chase_of_walk hlook hwalk
  exact ⟨path, ending, hchase, hread, (Except.ok.inj hresult).symm⟩

/-! ## Reasons along a path -/

section Reasons

variable {lease : AuthorityLease} {now : DateTime} {roots : Finset String} {reason : String}

/-- A reason that depends on the record alone is reported when some record of the path has it. -/
theorem mem_pathReasons {P : AuthorityProvenanceRecord → Prop}
    (hstep : ∀ first child record, reason ∈ stepReasons lease now roots first child record ↔ P record)
    {path : List (String × AuthorityProvenanceRecord)} (first : Bool)
    (child : Option AuthorityProvenanceRecord) :
    reason ∈ pathReasons lease now roots first child path ↔ ∃ e ∈ path, P e.2 := by
  induction path generalizing first child with
  | nil => simp [pathReasons]
  | cons e path ih =>
    rw [pathReasons, List.mem_append, hstep, ih]
    simp only [List.exists_mem_cons_iff]

theorem mem_stepReasons_revoked (first : Bool) (child : Option AuthorityProvenanceRecord)
    (record : AuthorityProvenanceRecord) :
    "AUTHORITY_PROVENANCE_REVOKED" ∈ stepReasons lease now roots first child record ↔
      revokedBy record.revokedAt now := by
  cases first <;> cases child <;>
    simp [stepReasons, recordReasons, timeReasons, leaseBindingReasons, delegationReasons]

theorem mem_stepReasons_untrusted (first : Bool) (child : Option AuthorityProvenanceRecord)
    (record : AuthorityProvenanceRecord) :
    "AUTHORITY_PROVENANCE_UNTRUSTED_ROOT" ∈ stepReasons lease now roots first child record ↔
      record.parentProvenanceId = none ∧ record.issuerId ∉ roots := by
  cases first <;> cases child <;>
    simp [stepReasons, recordReasons, timeReasons, leaseBindingReasons, delegationReasons]

/-- No record has an ending's reason. -/
theorem not_mem_stepReasons_ending (hreason : reason = "AUTHORITY_PROVENANCE_CYCLE" ∨
      reason = "AUTHORITY_PROVENANCE_RECORD_MISSING") (first : Bool)
    (child : Option AuthorityProvenanceRecord) (record : AuthorityProvenanceRecord) :
    reason ∈ stepReasons lease now roots first child record ↔ False := by
  rcases hreason with rfl | rfl <;> cases first <;> cases child <;>
    simp [stepReasons, recordReasons, timeReasons, leaseBindingReasons, delegationReasons]

end Reasons

theorem mem_chaseResult {lease : AuthorityLease} {now : DateTime} {roots : Finset String}
    {path : List (String × AuthorityProvenanceRecord)} {ending : Ending String} {reason : String} :
    reason ∈ (chaseResult lease now roots path ending).reasons ↔
      reason ∈ pathReasons lease now roots true none path ∨ reason ∈ endingReasons ending :=
  List.mem_eraseDups.trans List.mem_append

/-! ## The one chase through a finite map -/

section Records

variable {records : Dict AuthorityProvenanceRecord} {lease : AuthorityLease} {id : String}

theorem exists_chases (records : Dict AuthorityProvenanceRecord) (id : String) :
    ∃ path ending, Chases records.lookup AuthorityProvenanceRecord.parentProvenanceId ∅ id path
      ending := by
  obtain ⟨path, ending, hchase⟩ := exists_chase_records records (Nat.lt_succ_self _) id
  exact ⟨path, ending, (chases_of_chase hchase).1⟩

/-- There is one iteration for each stored record and one more at most, so the verifier returns. -/
theorem verifyRecords_of_chases (hid : truthy lease.provenanceId = some id)
    {path : List (String × AuthorityProvenanceRecord)} {ending : Ending String}
    (hchases : Chases records.lookup AuthorityProvenanceRecord.parentProvenanceId ∅ id path ending)
    (now : DateTime) (roots : Finset String) :
    verifyRecords records lease now roots = .ok (chaseResult lease now roots path ending) := by
  have hlength := hchases.length_le fun k v h => mem_keys_of_lookup h
  rw [verifyRecords, verifyAuthorityProvenance_eq hid,
    chase_of_chases hchases (Nat.lt_succ_of_le hlength)]

/-- The record of an id of the lineage is among the ones the chase has met. -/
theorem exists_mem_of_lineage {path : List (String × AuthorityProvenanceRecord)}
    {ending : Ending String}
    (hchases : Chases records.lookup AuthorityProvenanceRecord.parentProvenanceId ∅ id path ending)
    {k : String} (hk : k ∈ path.map Prod.fst ++ endingLineage ending)
    {record : AuthorityProvenanceRecord} (hrecord : records.lookup k = some record) :
    (k, record) ∈ path := by
  rcases List.mem_append.mp hk with hpath | hending
  · obtain ⟨e, he, rfl⟩ := List.mem_map.mp hpath
    have hlook := hchases.look_of_mem he
    rw [hrecord] at hlook
    rwa [Option.some.inj hlook]
  · cases ending with
    | missing k' =>
      rw [List.mem_singleton.mp hending, hchases.look_of_missing rfl] at hrecord
      cases hrecord
    | root => cases hending
    | revisit k' => cases hending

/-- The lineage repeats no id: the records met are under different ids, and the id that was missed
    has no record. -/
theorem lineage_nodup {path : List (String × AuthorityProvenanceRecord)} {ending : Ending String}
    (hchases : Chases records.lookup AuthorityProvenanceRecord.parentProvenanceId ∅ id path ending) :
    (path.map Prod.fst ++ endingLineage ending).Nodup := by
  have hpath := hchases.nodup.1
  cases ending with
  | root =>
    show (path.map Prod.fst ++ []).Nodup
    rwa [List.append_nil]
  | revisit k =>
    show (path.map Prod.fst ++ []).Nodup
    rwa [List.append_nil]
  | missing k =>
    have hmissing := hchases.look_of_missing rfl
    rw [endingLineage, List.nodup_append]
    refine ⟨hpath, List.nodup_singleton k, fun k' hk' k'' hk'' heq => ?_⟩
    obtain ⟨e, he, rfl⟩ := List.mem_map.mp hk'
    have hlook := hchases.look_of_mem he
    rw [heq, List.mem_singleton.mp hk'', hmissing] at hlook
    cases hlook

theorem lineage_length_le {path : List (String × AuthorityProvenanceRecord)}
    {ending : Ending String}
    (hchases : Chases records.lookup AuthorityProvenanceRecord.parentProvenanceId ∅ id path ending) :
    (path.map Prod.fst ++ endingLineage ending).length ≤ records.keys.card + 1 := by
  have hlength := hchases.length_le fun k v h => mem_keys_of_lookup h
  have hending : (endingLineage ending).length ≤ 1 := by
    cases ending <;> simp [endingLineage]
  rw [List.length_append, List.length_map]
  omega

/-! ## Locality and revocation -/

/-- The record once it was revoked at `t`. -/
def AuthorityProvenanceRecord.revoke (record : AuthorityProvenanceRecord) (t : DateTime) :
    AuthorityProvenanceRecord :=
  { record with revokedAt := some t }

/-- Revoking a stored record changes no parent pointer. -/
theorem lookup_revoke {record : AuthorityProvenanceRecord} (hrecord : records.lookup id = some record)
    (t : DateTime) :
    (records.insert id (record.revoke t)).lookup =
      fun k => (records.lookup k).map fun r => if k = id then r.revoke t else r := by
  funext k
  by_cases hk : k = id
  · subst hk
    rw [Finmap.lookup_insert, hrecord, Option.map_some, if_pos rfl]
  · rw [Finmap.lookup_insert_of_ne _ hk]
    cases records.lookup k with
    | none => rfl
    | some r => rw [Option.map_some, if_neg hk]

/-- A record of the lineage that is revoked by `now` is a reason. -/
theorem revoked_not_accepted (hid : truthy lease.provenanceId = some id)
    {path : List (String × AuthorityProvenanceRecord)} {ending : Ending String}
    (hchases : Chases records.lookup AuthorityProvenanceRecord.parentProvenanceId ∅ id path ending)
    {k : String} {record : AuthorityProvenanceRecord} (hmem : (k, record) ∈ path) {t now : DateTime}
    (ht : t ≤ now) (roots : Finset String) :
    ∃ result, verifyRecords (records.insert k (record.revoke t)) lease now roots = .ok result ∧
      result.accepted = false := by
  have hmapped := hchases.map (f := fun k' r => if k' = k then r.revoke t else r) (by
    intro k' r
    by_cases hk : k' = k
    · simp only [if_pos hk]
      rfl
    · simp only [if_neg hk])
  rw [← lookup_revoke (hchases.look_of_mem hmem) t] at hmapped
  refine ⟨_, verifyRecords_of_chases hid hmapped now roots, ?_⟩
  rw [← Bool.not_eq_true, chaseResult_accepted]
  rintro ⟨hnil, -⟩
  have hrevoked : "AUTHORITY_PROVENANCE_REVOKED" ∈ pathReasons lease now roots true none
      (path.map fun e => (e.1, if e.1 = k then e.2.revoke t else e.2)) := by
    rw [mem_pathReasons mem_stepReasons_revoked]
    refine ⟨_, List.mem_map.mpr ⟨_, hmem, rfl⟩, t, ?_, ht⟩
    simp only [if_true]
    rfl
  rw [hnil] at hrevoked
  cases hrevoked

end Records

/-- Provenance decisions are local, and revocation cascades.  The result depends on the records of
    the lineage only: any store that agrees with this one there gives the same result.  And a record
    of the lineage that is revoked by `now`, however far up, turns the result into a refusal. -/
theorem provenance_decisions_are_local (records : Dict AuthorityProvenanceRecord)
    (lease : AuthorityLease) (now : DateTime) (roots : Finset String) :
    ∃ result, verifyRecords records lease now roots = .ok result ∧
      (∀ records' : Dict AuthorityProvenanceRecord,
        (∀ id ∈ result.lineageIds, records'.lookup id = records.lookup id) →
        verifyRecords records' lease now roots = .ok result) ∧
      (∀ id ∉ result.lineageIds,
        (∀ record, verifyRecords (records.insert id record) lease now roots = .ok result) ∧
        verifyRecords (records.erase id) lease now roots = .ok result) ∧
      ∀ id ∈ result.lineageIds, ∀ record, records.lookup id = some record → ∀ t ≤ now,
        ∃ result', verifyRecords (records.insert id (record.revoke t)) lease now roots =
          .ok result' ∧ result'.accepted = false := by
  -- the stores that agree on the lineage: those with a single change elsewhere are among them
  have hsingle : ∀ {result : AuthorityProvenanceResult}, (∀ records' : Dict AuthorityProvenanceRecord,
        (∀ id ∈ result.lineageIds, records'.lookup id = records.lookup id) →
        verifyRecords records' lease now roots = .ok result) →
      ∀ id ∉ result.lineageIds,
        (∀ record, verifyRecords (records.insert id record) lease now roots = .ok result) ∧
        verifyRecords (records.erase id) lease now roots = .ok result := by
    intro result hlocal id hid
    have hne : ∀ id' ∈ result.lineageIds, id' ≠ id := by
      rintro id' hid' rfl
      exact hid hid'
    refine ⟨fun record => hlocal _ fun id' hid' => ?_, hlocal _ fun id' hid' => ?_⟩
    · exact Finmap.lookup_insert_of_ne _ (hne id' hid')
    · exact Finmap.lookup_erase_ne (hne id' hid')
  cases hid : truthy lease.provenanceId with
  | none =>
    have hmissing : ∀ records' : Dict AuthorityProvenanceRecord,
        verifyRecords records' lease now roots = .ok
          { accepted := false, reasons := ["AUTHORITY_PROVENANCE_MISSING"], lineageIds := [] } :=
      fun records' => verifyAuthorityProvenance_of_missing hid now roots _
    exact ⟨_, hmissing records, fun records' _ => hmissing records',
      hsingle fun records' _ => hmissing records', fun id hid => nomatch hid⟩
  | some start =>
    obtain ⟨path, ending, hchases⟩ := exists_chases records start
    have hlocal : ∀ records' : Dict AuthorityProvenanceRecord,
        (∀ id ∈ (chaseResult lease now roots path ending).lineageIds,
          records'.lookup id = records.lookup id) →
        verifyRecords records' lease now roots = .ok (chaseResult lease now roots path ending) := by
      intro records' hagree
      refine verifyRecords_of_chases hid (hchases.local ?_ ?_) now roots
      · intro id hmem
        exact hagree id (List.mem_append_left _ hmem)
      · rintro id rfl
        exact hagree id (List.mem_append_right _ List.mem_cons_self)
    refine ⟨_, verifyRecords_of_chases hid hchases now roots, hlocal, hsingle hlocal, ?_⟩
    intro id hmem record hrecord t ht
    exact revoked_not_accepted hid hchases (exists_mem_of_lineage hchases hmem hrecord) ht roots

/-! ## The lookups of the loop -/

/-- A lookup that is written down. -/
def recordedLookup (records : Dict AuthorityProvenanceRecord) (id : String) :
    StateT (List String) (Except PyError) (Option AuthorityProvenanceRecord) :=
  fun asked => .ok (records.lookup id, asked ++ [id])

@[simp] theorem recordedLookup_run (records : Dict AuthorityProvenanceRecord) (id : String)
    (asked : List String) :
    (recordedLookup records id).run asked = .ok (records.lookup id, asked ++ [id]) := rfl

/-- What has been looked up is the lineage: both grow by the id of the iteration. -/
theorem walk_recorded (records : Dict AuthorityProvenanceRecord) (lease : AuthorityLease)
    (now : DateTime) (roots : Finset String) (fuel : Nat) (st : WalkState) :
    (walk (recordedLookup records) lease now roots fuel st).run st.lineage =
      (walk (fun id => Except.ok (records.lookup id) : String → Except PyError _) lease now roots
        fuel st).map fun r => (r, r.2) := by
  induction fuel generalizing st with
  | zero => rfl
  | succ fuel ih =>
    by_cases hvis : st.currentId ∈ st.visited
    · rw [walk_of_visited hvis, walk, if_pos hvis]
      rfl
    · rw [walk, if_neg hvis]
      show (recordedLookup records st.currentId >>= _).run st.lineage = _
      rw [StateT.run_bind, recordedLookup_run, ok_bind]
      cases hlook : records.lookup st.currentId with
      | none =>
        rw [walk_of_missing hvis (congrArg Except.ok hlook)]
        rfl
      | some record =>
        cases hparent : record.parentProvenanceId with
        | none =>
          rw [walk_of_root hvis (congrArg Except.ok hlook) hparent]
          simp only [hparent]
          rfl
        | some parent =>
          rw [walk_of_link hvis (congrArg Except.ok hlook) hparent, ← ih]
          simp only [hparent]

/-- The verifier looks up the ids of its lineage, in this order. -/
theorem verify_recorded (records : Dict AuthorityProvenanceRecord) {lease : AuthorityLease}
    {id : String} (hid : truthy lease.provenanceId = some id)
    {path : List (String × AuthorityProvenanceRecord)} {ending : Ending String}
    (hchases : Chases records.lookup AuthorityProvenanceRecord.parentProvenanceId ∅ id path ending)
    (now : DateTime) (roots : Finset String) {fuel : Nat} (hfuel : records.keys.card < fuel) :
    (verifyAuthorityProvenance (recordedLookup records) fuel lease now roots).run [] =
      .ok (chaseResult lease now roots path ending,
        (chaseResult lease now roots path ending).lineageIds) := by
  have hlength := hchases.length_le fun k v h => mem_keys_of_lookup h
  have hchase := chase_of_chases hchases (Nat.lt_of_le_of_lt hlength hfuel)
  have hwalk : (walk (recordedLookup records) lease now roots fuel (WalkState.initial id)).run [] =
      .ok (walkResult lease now roots (WalkState.initial id) path ending,
        (walkResult lease now roots (WalkState.initial id) path ending).2) := by
    have hrecorded := walk_recorded records lease now roots fuel (WalkState.initial id)
    have hok : walk (fun id => Except.ok (records.lookup id) : String → Except PyError _) lease now
        roots fuel (WalkState.initial id) =
          .ok (walkResult lease now roots (WalkState.initial id) path ending) :=
      walk_of_chase (fun _ _ h => Except.ok.inj h) hchase fun k _ => ⟨records.lookup k, rfl⟩
    rw [hok] at hrecorded
    exact hrecorded
  unfold verifyAuthorityProvenance
  rw [hid]
  show (walk (recordedLookup records) lease now roots fuel (WalkState.initial id) >>= _).run [] = _
  rw [StateT.run_bind, hwalk]
  rfl

/-! ## How the loop ends -/

section Endings

variable {records : Dict AuthorityProvenanceRecord} {lease : AuthorityLease} {now : DateTime}
  {roots : Finset String} {id : String} {path : List (String × AuthorityProvenanceRecord)}
  {ending : Ending String}

theorem mem_endingReasons_cycle :
    "AUTHORITY_PROVENANCE_CYCLE" ∈ endingReasons ending ↔ ∃ k, ending = .revisit k := by
  cases ending <;> simp [endingReasons]

theorem mem_endingReasons_missing :
    "AUTHORITY_PROVENANCE_RECORD_MISSING" ∈ endingReasons ending ↔ ∃ k, ending = .missing k := by
  cases ending <;> simp [endingReasons]

theorem not_mem_endingReasons_untrusted :
    "AUTHORITY_PROVENANCE_UNTRUSTED_ROOT" ∉ endingReasons ending := by
  cases ending <;> simp [endingReasons]

variable
  (hchases : Chases records.lookup AuthorityProvenanceRecord.parentProvenanceId ∅ id path ending)

include hchases

theorem cycle_reported :
    "AUTHORITY_PROVENANCE_CYCLE" ∈ (chaseResult lease now roots path ending).reasons ↔
      Cyclic records.lookup AuthorityProvenanceRecord.parentProvenanceId id := by
  have hpath : "AUTHORITY_PROVENANCE_CYCLE" ∈ pathReasons lease now roots true none path ↔
      ∃ e ∈ path, False :=
    mem_pathReasons (P := fun _ => False) (not_mem_stepReasons_ending (Or.inl rfl)) true none
  rw [mem_chaseResult, hpath, mem_endingReasons_cycle, hchases.cyclic_iff]
  simp only [and_false, exists_false, false_or]

theorem missing_reported :
    "AUTHORITY_PROVENANCE_RECORD_MISSING" ∈ (chaseResult lease now roots path ending).reasons ↔
      Dangling records.lookup AuthorityProvenanceRecord.parentProvenanceId id := by
  have hpath : "AUTHORITY_PROVENANCE_RECORD_MISSING" ∈ pathReasons lease now roots true none path ↔
      ∃ e ∈ path, False :=
    mem_pathReasons (P := fun _ => False) (not_mem_stepReasons_ending (Or.inr rfl)) true none
  rw [mem_chaseResult, hpath, mem_endingReasons_missing, hchases.dangling_iff]
  simp only [and_false, exists_false, false_or]

theorem untrusted_reported :
    "AUTHORITY_PROVENANCE_UNTRUSTED_ROOT" ∈ (chaseResult lease now roots path ending).reasons ↔
      ∃ root record, RootedAt records.lookup AuthorityProvenanceRecord.parentProvenanceId id root
        record ∧ record.issuerId ∉ roots := by
  rw [mem_chaseResult, mem_pathReasons mem_stepReasons_untrusted]
  constructor
  · rintro (⟨⟨root, record⟩, hmem, hparent, huntrusted⟩ | hending)
    · exact ⟨root, record, hchases.rootedAt_iff_mem.mpr ⟨hmem, hparent⟩, huntrusted⟩
    · exact absurd hending not_mem_endingReasons_untrusted
  · rintro ⟨root, record, hroot, huntrusted⟩
    obtain ⟨hmem, hparent⟩ := hchases.rootedAt_iff_mem.mp hroot
    exact Or.inl ⟨(root, record), hmem, hparent, huntrusted⟩

end Endings

/-- The delegation walk always ends, and names the right ending.  With any fuel above the number of
    records, the ids that are looked up are those of the lineage, each once, at most one more than
    there are records.  Following the parent pointers ends in exactly one of three ways, and the
    reasons say in which. -/
theorem delegation_walk_ends (records : Dict AuthorityProvenanceRecord) (lease : AuthorityLease)
    (id : String) (hprovenance : lease.provenanceId = some id) (hid : id ≠ "") (now : DateTime)
    (roots : Finset String) :
    ∃ result : AuthorityProvenanceResult,
      (∀ fuel, records.keys.card < fuel →
        (verifyAuthorityProvenance (recordedLookup records) fuel lease now roots).run [] =
          .ok (result, result.lineageIds)) ∧
      verifyRecords records lease now roots = .ok result ∧
      result.lineageIds.Nodup ∧ result.lineageIds.length ≤ records.keys.card + 1 ∧
      (let cyclic := Cyclic records.lookup AuthorityProvenanceRecord.parentProvenanceId id
       let dangling := Dangling records.lookup AuthorityProvenanceRecord.parentProvenanceId id
       let rootedAt := RootedAt records.lookup AuthorityProvenanceRecord.parentProvenanceId id
       ((cyclic ∧ ¬ dangling ∧ ¬ ∃ root record, rootedAt root record) ∨
        (¬ cyclic ∧ dangling ∧ ¬ ∃ root record, rootedAt root record) ∨
        (¬ cyclic ∧ ¬ dangling ∧ ∃ root record, rootedAt root record)) ∧
       (∀ root record root' record', rootedAt root record → rootedAt root' record' →
         root = root' ∧ record = record') ∧
       ("AUTHORITY_PROVENANCE_CYCLE" ∈ result.reasons ↔ cyclic) ∧
       ("AUTHORITY_PROVENANCE_RECORD_MISSING" ∈ result.reasons ↔ dangling) ∧
       ("AUTHORITY_PROVENANCE_UNTRUSTED_ROOT" ∈ result.reasons ↔
         ∃ root record, rootedAt root record ∧ record.issuerId ∉ roots)) := by
  have htruthy : truthy lease.provenanceId = some id := by
    rw [hprovenance, truthy, Option.filter_some, if_pos (decide_eq_true hid)]
  obtain ⟨path, ending, hchases⟩ := exists_chases records id
  refine ⟨chaseResult lease now roots path ending,
    fun fuel hfuel => verify_recorded records htruthy hchases now roots hfuel,
    verifyRecords_of_chases htruthy hchases now roots, lineage_nodup hchases,
    lineage_length_le hchases, ?_, ?_, cycle_reported hchases, missing_reported hchases,
    untrusted_reported hchases⟩
  · rcases hchases.ends with ⟨-, -, hcyclic⟩ | ⟨c, -, hreach, hnone⟩ | ⟨-, c, v, -, hroot⟩
    · refine Or.inl ⟨hcyclic, fun hdangling => ?_, ?_⟩
      · exact not_cyclic_of_dangling hdangling hcyclic
      · rintro ⟨root, record, hroot⟩
        exact not_cyclic_of_rootedAt hroot hcyclic
    · have hdangling : Dangling records.lookup AuthorityProvenanceRecord.parentProvenanceId id :=
        ⟨c, hreach, hnone⟩
      refine Or.inr (Or.inl ⟨not_cyclic_of_dangling hdangling, hdangling, ?_⟩)
      rintro ⟨root, record, hroot⟩
      exact not_dangling_of_rootedAt hroot hdangling
    · exact Or.inr (Or.inr ⟨not_cyclic_of_rootedAt hroot, not_dangling_of_rootedAt hroot, c, v,
        hroot⟩)
  · intro root record root' record' hroot hroot'
    exact hroot.unique hroot'

namespace CloudDemo

/-- The demo's two records, the second of which names the first as its parent. -/
def circularRecords (now : DateTime) : Dict AuthorityProvenanceRecord :=
  ((∅ : Dict AuthorityProvenanceRecord).insert "prov-child" (provenanceChild now)).insert
    "prov-root" { provenanceRoot now with parentProvenanceId := some "prov-child" }

end CloudDemo

open CloudDemo in
/-- Around a cycle of two records. -/
theorem circular_walk_ends :
    ∃ result, verifyRecords (circularRecords ⟨0, 0⟩) (lease ⟨0, 0⟩) ⟨0, 0⟩ {trustedRoot} = .ok result ∧
      "AUTHORITY_PROVENANCE_CYCLE" ∈ result.reasons ∧ result.lineageIds.length ≤ 3 := by
  obtain ⟨result, -, hresult, -, hlength, -, -, hcycle, -⟩ :=
    delegation_walk_ends (circularRecords ⟨0, 0⟩) (lease ⟨0, 0⟩) "prov-child" rfl (by decide) ⟨0, 0⟩
      {trustedRoot}
  have hchild : Step (circularRecords ⟨0, 0⟩).lookup AuthorityProvenanceRecord.parentProvenanceId
      "prov-child" "prov-root" := ⟨provenanceChild ⟨0, 0⟩, by decide, rfl⟩
  have hroot : Step (circularRecords ⟨0, 0⟩).lookup AuthorityProvenanceRecord.parentProvenanceId
      "prov-root" "prov-child" :=
    ⟨{ provenanceRoot ⟨0, 0⟩ with parentProvenanceId := some "prov-child" }, by decide, rfl⟩
  refine ⟨result, hresult, hcycle.mpr ⟨"prov-child", .refl, .head hchild (.single hroot)⟩, ?_⟩
  exact hlength

end PoiexGoc
