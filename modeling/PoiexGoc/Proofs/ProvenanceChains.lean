/-
  The provenance verifier accepts exactly the LEGITIMATE DELEGATION CHAINS.

  1. `walk_eq_chase` — the loop of the verifier is the generic pointer chase of
     `ParentChain` with a list of reasons computed along the records it meets
     (`pathReasons`), one entry of the lineage for each, and one reason for the way it ended
     (`walkResult`).  The loop invariant is in the statement: `visited` is what the chase has
     visited, `child` and `first` are what `pathReasons` carries from record to record.

  2. `verifyAuthorityProvenance_eq` — hence the verifier's result as a function of the chase, for
     any fuel above the number of stored records (`ParentChain.chase_isSome`).

  3. `pathReasons_eq_nil_iff` — along a path that ends at a root there is no reason exactly when
     every record is valid, each child's authority is contained in its parent's, and the root is
     trusted.

  Completeness is where the cycle guard matters: a chain that reaches a root cannot pass an id
  twice (`ParentChain.RootPath.nodup`), so the guard never rejects it.
-/
import PoiexGoc.Lib.ParentChain
import PoiexGoc.Runtime.AuthorityProvenance

namespace PoiexGoc

open Py ParentChain

/-! ## The loop as a pointer chase -/

/-- The reasons of one iteration that finds `record`. -/
def stepReasons (lease : AuthorityLease) (now : DateTime) (roots : Finset String) (first : Bool)
    (child : Option AuthorityProvenanceRecord) (record : AuthorityProvenanceRecord) :
    List String :=
  recordReasons lease now first child record ++
  reasonIf (record.parentProvenanceId = none ∧ record.issuerId ∉ roots)
    "AUTHORITY_PROVENANCE_UNTRUSTED_ROOT"

/-- The reasons along a path, each record checked against the one before it. -/
def pathReasons (lease : AuthorityLease) (now : DateTime) (roots : Finset String) :
    Bool → Option AuthorityProvenanceRecord → List (String × AuthorityProvenanceRecord) →
    List String
  | _, _, [] => []
  | first, child, e :: path =>
    stepReasons lease now roots first child e.2 ++ pathReasons lease now roots false (some e.2) path

/-- The reason for an ending other than a root. -/
def endingReasons : Ending String → List String
  | .root => []
  | .missing _ => ["AUTHORITY_PROVENANCE_RECORD_MISSING"]
  | .revisit _ => ["AUTHORITY_PROVENANCE_CYCLE"]

/-- The id an ending adds to the lineage: one that was looked up and not found. -/
def endingLineage : Ending String → List String
  | .missing id => [id]
  | _ => []

/-- What the loop returns along a way. -/
def walkResult (lease : AuthorityLease) (now : DateTime) (roots : Finset String) (st : WalkState)
    (path : List (String × AuthorityProvenanceRecord)) (ending : Ending String) :
    List String × List String :=
  (st.reasons ++ pathReasons lease now roots st.first st.child path ++ endingReasons ending,
    st.lineage ++ path.map Prod.fst ++ endingLineage ending)

section Ways

variable {lease : AuthorityLease} {now : DateTime} {roots : Finset String} {st : WalkState}

theorem walkResult_visited (k : String) :
    walkResult lease now roots st [] (.revisit k) =
      (st.reasons ++ ["AUTHORITY_PROVENANCE_CYCLE"], st.lineage) := by
  simp [walkResult, pathReasons, endingReasons, endingLineage]

theorem walkResult_missing (k : String) :
    walkResult lease now roots st [] (.missing k) =
      (st.reasons ++ ["AUTHORITY_PROVENANCE_RECORD_MISSING"], st.lineage ++ [k]) := by
  simp [walkResult, pathReasons, endingReasons, endingLineage]

theorem walkResult_root {record : AuthorityProvenanceRecord}
    (hparent : record.parentProvenanceId = none) (k : String) :
    walkResult lease now roots st [(k, record)] .root =
      (st.reasons ++ recordReasons lease now st.first st.child record ++
          reasonIf (record.issuerId ∉ roots) "AUTHORITY_PROVENANCE_UNTRUSTED_ROOT",
        st.lineage ++ [k]) := by
  simp [walkResult, pathReasons, stepReasons, endingReasons, endingLineage, hparent]

theorem walkResult_link {record : AuthorityProvenanceRecord} {parent : String}
    (hparent : record.parentProvenanceId = some parent) (k : String) (visited : Finset String)
    (path : List (String × AuthorityProvenanceRecord)) (ending : Ending String) :
    walkResult lease now roots
        { reasons := st.reasons ++ recordReasons lease now st.first st.child record
          lineage := st.lineage ++ [k]
          visited, currentId := parent, child := some record, first := false } path ending =
      walkResult lease now roots st ((k, record) :: path) ending := by
  simp [walkResult, pathReasons, stepReasons, hparent, reasonIf]

end Ways

/-- The loop, iteration by iteration.  Induction on the fuel; the four cases are the four ways
    through the body. -/
theorem walk_eq_chase (look : String → Option AuthorityProvenanceRecord) (lease : AuthorityLease)
    (now : DateTime) (roots : Finset String) (fuel : Nat) (st : WalkState) :
    walk (fun id => Except.ok (look id)) lease now roots fuel st =
      match chase look AuthorityProvenanceRecord.parentProvenanceId fuel st.visited
          st.currentId with
      | none => .error PyError.fuelExhausted
      | some (path, ending) => .ok (walkResult lease now roots st path ending) := by
  induction fuel generalizing st with
  | zero => rfl
  | succ fuel ih =>
    by_cases hvis : st.currentId ∈ st.visited
    · rw [walk_of_visited hvis, chase_of_visited hvis]
      dsimp only
      rw [walkResult_visited]
    · cases hlook : look st.currentId with
      | none =>
        rw [walk_of_missing hvis (congrArg Except.ok hlook), chase_of_missing hvis hlook]
        dsimp only
        rw [walkResult_missing]
      | some record =>
        cases hparent : record.parentProvenanceId with
        | none =>
          rw [walk_of_root hvis (congrArg Except.ok hlook) hparent,
            chase_of_root hvis hlook hparent]
          dsimp only
          rw [walkResult_root hparent]
        | some parent =>
          rw [walk_of_link hvis (congrArg Except.ok hlook) hparent,
            chase_of_link hvis hlook hparent, ih]
          cases chase look AuthorityProvenanceRecord.parentProvenanceId fuel
              (insert st.currentId st.visited) parent with
          | none => rfl
          | some r =>
            obtain ⟨path, ending⟩ := r
            exact congrArg Except.ok (walkResult_link hparent st.currentId _ path ending)

/-- The result of the verifier when following the pointers met `path` and ended in `ending`. -/
def chaseResult (lease : AuthorityLease) (now : DateTime) (roots : Finset String)
    (path : List (String × AuthorityProvenanceRecord)) (ending : Ending String) :
    AuthorityProvenanceResult :=
  let reasons := (pathReasons lease now roots true none path ++ endingReasons ending).eraseDups
  { accepted := reasons.isEmpty, reasons, lineageIds := path.map Prod.fst ++ endingLineage ending }

/-- The verifier as a function of the chase that its loop performs. -/
theorem verifyAuthorityProvenance_eq {look : String → Option AuthorityProvenanceRecord}
    {lease : AuthorityLease} {id : String} (hid : truthy lease.provenanceId = some id)
    (now : DateTime) (roots : Finset String) (fuel : Nat) :
    verifyAuthorityProvenance (fun id => Except.ok (look id)) fuel lease now roots =
      match chase look AuthorityProvenanceRecord.parentProvenanceId fuel ∅ id with
      | none => .error PyError.fuelExhausted
      | some (path, ending) => .ok (chaseResult lease now roots path ending) := by
  unfold verifyAuthorityProvenance
  simp only [hid, walk_eq_chase, WalkState.initial]
  cases chase look AuthorityProvenanceRecord.parentProvenanceId fuel ∅ id with
  | none => rfl
  | some r => rfl

/-- Without a provenance id nothing is looked up. -/
theorem verifyAuthorityProvenance_of_missing {m : Type → Type} [Monad m]
    [MonadExceptOf PyError m] {get : String → m (Option AuthorityProvenanceRecord)}
    {lease : AuthorityLease} (hid : truthy lease.provenanceId = none) (now : DateTime)
    (roots : Finset String) (fuel : Nat) :
    verifyAuthorityProvenance get fuel lease now roots =
      pure { accepted := false, reasons := ["AUTHORITY_PROVENANCE_MISSING"], lineageIds := [] } := by
  unfold verifyAuthorityProvenance
  rw [hid]

theorem isEmpty_eraseDups {l : List String} : l.eraseDups.isEmpty = true ↔ l = [] := by
  rw [List.isEmpty_iff]
  constructor
  · intro h
    refine List.eq_nil_iff_forall_not_mem.mpr fun x hx => ?_
    have hmem := List.mem_eraseDups.mpr hx
    rw [h] at hmem
    cases hmem
  · rintro rfl
    rfl

theorem chaseResult_accepted {lease : AuthorityLease} {now : DateTime} {roots : Finset String}
    {path : List (String × AuthorityProvenanceRecord)} {ending : Ending String} :
    (chaseResult lease now roots path ending).accepted = true ↔
      pathReasons lease now roots true none path = [] ∧ ending = .root := by
  show (pathReasons lease now roots true none path ++ endingReasons ending).eraseDups.isEmpty
    = true ↔ _
  rw [isEmpty_eraseDups, List.append_eq_nil_iff]
  cases ending with
  | root => exact ⟨fun h => ⟨h.1, rfl⟩, fun h => ⟨h.1, rfl⟩⟩
  | missing id => exact ⟨fun h => (nomatch h.2), fun h => (nomatch h.2)⟩
  | revisit id => exact ⟨fun h => (nomatch h.2), fun h => (nomatch h.2)⟩

/-! ## Legitimate chains -/

/-- The record is in force at `now`. -/
def AuthorityProvenanceRecord.ValidAt (record : AuthorityProvenanceRecord) (now : DateTime) :
    Prop :=
  record.issuedAt ≤ now ∧ ¬ revokedBy record.revokedAt now

/-- The authority of `child` was delegated by the holder of `parent`, within its scope. -/
def DelegatedBy (child parent : AuthorityProvenanceRecord) : Prop :=
  child.issuerId = parent.subjectId ∧ child.scope ⊆ parent.scope

/-- The record backs the lease itself. -/
def BacksLease (lease : AuthorityLease) (record : AuthorityProvenanceRecord) : Prop :=
  record.subjectId = lease.agentId ∧ record.issuerId = lease.issuer ∧
    record.epoch = lease.epoch ∧ lease.scope ⊆ record.scope

/-- A chain of stored records, listed with the ids they are stored under, that carries authority
    from a trusted root to the lease. -/
structure LegitimateChain (records : String → Option AuthorityProvenanceRecord)
    (lease : AuthorityLease) (now : DateTime) (roots : Finset String)
    (chain : List (String × AuthorityProvenanceRecord)) : Prop where
  stored : ∀ e ∈ chain, records e.1 = some e.2
  head : ∃ id r rest, chain = (id, r) :: rest ∧ lease.provenanceId = some id ∧ id ≠ "" ∧
    BacksLease lease r
  linked : chain.IsChain fun e e' =>
    e.2.parentProvenanceId = some e'.1 ∧ DelegatedBy e.2 e'.2
  rooted : ∃ e, chain.getLast? = some e ∧ e.2.parentProvenanceId = none ∧ e.2.issuerId ∈ roots
  valid : ∀ e ∈ chain, e.2.ValidAt now

theorem timeReasons_eq_nil {now : DateTime} {record : AuthorityProvenanceRecord} :
    timeReasons now record = [] ↔ record.ValidAt now := by
  rw [timeReasons, List.append_eq_nil_iff, reasonIf_eq_nil, reasonIf_eq_nil,
    AuthorityProvenanceRecord.ValidAt, DateTime.lt_def, DateTime.le_def, Int.not_lt]

theorem leaseBindingReasons_eq_nil {lease : AuthorityLease} {record : AuthorityProvenanceRecord} :
    leaseBindingReasons lease record = [] ↔ BacksLease lease record := by
  simp only [leaseBindingReasons, List.append_eq_nil_iff, reasonIf_eq_nil, ne_eq, not_not,
    BacksLease, and_assoc]

theorem delegationReasons_eq_nil {child : Option AuthorityProvenanceRecord}
    {record : AuthorityProvenanceRecord} :
    delegationReasons child record = [] ↔ ∀ c, child = some c → DelegatedBy c record := by
  cases child with
  | none => exact ⟨fun _ c h => (nomatch h), fun _ => rfl⟩
  | some c =>
    simp only [delegationReasons, List.append_eq_nil_iff, reasonIf_eq_nil, ne_eq, not_not,
      DelegatedBy, Option.some.injEq, forall_eq']

/-- One iteration adds no reason exactly when the record is valid, fits what came before it, and
    is trusted if it is a root. -/
theorem stepReasons_eq_nil {lease : AuthorityLease} {now : DateTime} {roots : Finset String}
    {first : Bool} {child : Option AuthorityProvenanceRecord}
    {record : AuthorityProvenanceRecord} :
    stepReasons lease now roots first child record = [] ↔
      record.ValidAt now ∧ (first = true → BacksLease lease record) ∧
      (∀ c, child = some c → DelegatedBy c record) ∧
      (record.parentProvenanceId = none → record.issuerId ∈ roots) := by
  have hfirst : (if first then leaseBindingReasons lease record else []) = [] ↔
      (first = true → BacksLease lease record) := by
    cases first with
    | true => exact leaseBindingReasons_eq_nil.trans ⟨fun h _ => h, fun h => h rfl⟩
    | false => exact ⟨fun _ h => (nomatch h), fun _ => rfl⟩
  have hroot : reasonIf (record.parentProvenanceId = none ∧ record.issuerId ∉ roots)
      "AUTHORITY_PROVENANCE_UNTRUSTED_ROOT" = [] ↔
      (record.parentProvenanceId = none → record.issuerId ∈ roots) := by
    rw [reasonIf_eq_nil, not_and, not_not]
  unfold stepReasons recordReasons
  rw [List.append_eq_nil_iff, List.append_eq_nil_iff, List.append_eq_nil_iff,
    timeReasons_eq_nil, hfirst, delegationReasons_eq_nil, hroot, and_assoc, and_assoc]

/-- Along a path to a root, after a child `c`: no reason exactly when every record is valid, the
    delegations connect from `c` on, and the root is trusted.  Induction on the path. -/
theorem pathReasons_eq_nil_iff {look : String → Option AuthorityProvenanceRecord}
    {lease : AuthorityLease} {now : DateTime} {roots : Finset String} {id : String}
    {path : List (String × AuthorityProvenanceRecord)} {c : String × AuthorityProvenanceRecord}
    (hpath : RootPath look AuthorityProvenanceRecord.parentProvenanceId id path)
    (hc : c.2.parentProvenanceId = some id) :
    pathReasons lease now roots false (some c.2) path = [] ↔
      (∀ e ∈ path, e.2.ValidAt now) ∧
      (c :: path).IsChain (fun e e' =>
        e.2.parentProvenanceId = some e'.1 ∧ DelegatedBy e.2 e'.2) ∧
      ∃ e, path.getLast? = some e ∧ e.2.parentProvenanceId = none ∧ e.2.issuerId ∈ roots := by
  induction hpath generalizing c with
  | @root id r hlook hparent =>
    rw [pathReasons, pathReasons, List.append_nil, stepReasons_eq_nil, List.isChain_pair]
    constructor
    · rintro ⟨hvalid, -, hdel, hroot⟩
      refine ⟨?_, ⟨hc, hdel _ rfl⟩, (id, r), rfl, hparent, hroot hparent⟩
      rintro e he
      rw [List.mem_singleton.mp he]
      exact hvalid
    · rintro ⟨hvalid, ⟨-, hdel⟩, e, he, -, hin⟩
      have hlast : (id, r) = e := Option.some.inj he
      subst hlast
      exact ⟨hvalid _ List.mem_cons_self, fun h => (nomatch h),
        fun c' hc' => Option.some.inj hc' ▸ hdel, fun _ => hin⟩
  | @link id parent r rest hlook hparent hrest ih =>
    have hne : rest ≠ [] := by
      cases hrest <;> exact List.cons_ne_nil _ _
    have hlast : ((id, r) :: rest).getLast? = rest.getLast? := by
      obtain ⟨e, es, rfl⟩ := List.exists_cons_of_ne_nil hne
      exact List.getLast?_cons_cons
    rw [pathReasons, List.append_eq_nil_iff, stepReasons_eq_nil, @ih (id, r) hparent,
      hlast, List.isChain_cons_cons, List.forall_mem_cons]
    constructor
    · rintro ⟨⟨hvalid, -, hdel, -⟩, hrestvalid, hchain, hroot⟩
      exact ⟨⟨hvalid, hrestvalid⟩, ⟨⟨hc, hdel _ rfl⟩, hchain⟩, hroot⟩
    · rintro ⟨⟨hvalid, hrestvalid⟩, ⟨⟨-, hdel⟩, hchain⟩, hroot⟩
      refine ⟨⟨hvalid, fun h => (nomatch h), fun c' hc' => Option.some.inj hc' ▸ hdel, fun h => ?_⟩,
        hrestvalid, hchain, hroot⟩
      cases hparent.symm.trans h

/-- A legitimate chain is the path of the parent pointers from the lease's id to a root. -/
theorem LegitimateChain.rootPath {records : String → Option AuthorityProvenanceRecord}
    {lease : AuthorityLease} {now : DateTime} {roots : Finset String}
    {chain : List (String × AuthorityProvenanceRecord)}
    (hchain : LegitimateChain records lease now roots chain) :
    ∃ id, truthy lease.provenanceId = some id ∧
      RootPath records AuthorityProvenanceRecord.parentProvenanceId id chain := by
  obtain ⟨id, r, rest, rfl, hid, hne, -⟩ := hchain.head
  have hpath : ∀ (rest : List (String × AuthorityProvenanceRecord)) (id : String)
      (r : AuthorityProvenanceRecord), (∀ e ∈ (id, r) :: rest, records e.1 = some e.2) →
      ((id, r) :: rest).IsChain (fun e e' =>
        e.2.parentProvenanceId = some e'.1 ∧ DelegatedBy e.2 e'.2) →
      (∃ e, ((id, r) :: rest).getLast? = some e ∧ e.2.parentProvenanceId = none ∧
        e.2.issuerId ∈ roots) →
      RootPath records AuthorityProvenanceRecord.parentProvenanceId id ((id, r) :: rest) := by
    intro rest
    induction rest with
    | nil =>
      rintro id r hstored - ⟨e, he, hnone, -⟩
      have hlast : (id, r) = e := Option.some.inj he
      subst hlast
      exact RootPath.root (hstored _ List.mem_cons_self) hnone
    | cons e' rest ih =>
      intro id r hstored hlinked hrooted
      rw [List.getLast?_cons_cons] at hrooted
      rw [List.isChain_cons_cons] at hlinked
      exact RootPath.link (hstored _ List.mem_cons_self) hlinked.1.1
        (ih e'.1 e'.2 (fun e he => hstored e (List.mem_cons_of_mem _ he)) hlinked.2 hrooted)
  exact ⟨id, by rw [hid]; exact truthy_some hne,
    hpath rest id r hchain.stored hchain.linked hchain.rooted⟩

/-- On the path of the parent pointers, no reason means a legitimate chain and conversely. -/
theorem pathReasons_eq_nil_iff_legitimate {records : String → Option AuthorityProvenanceRecord}
    {lease : AuthorityLease} {now : DateTime} {roots : Finset String} {id : String}
    {path : List (String × AuthorityProvenanceRecord)}
    (hid : truthy lease.provenanceId = some id)
    (hpath : RootPath records AuthorityProvenanceRecord.parentProvenanceId id path) :
    pathReasons lease now roots true none path = [] ↔
      LegitimateChain records lease now roots path := by
  obtain ⟨hprov, hne⟩ := truthy_eq_some.mp hid
  have hstored : ∀ e ∈ path, records e.1 = some e.2 := fun e he => hpath.look_of_mem he
  cases hpath with
  | @root id r hlook hparent =>
    rw [pathReasons, pathReasons, List.append_nil, stepReasons_eq_nil]
    constructor
    · rintro ⟨hvalid, hback, -, hroot⟩
      refine ⟨hstored, ⟨id, r, [], rfl, hprov, hne, hback rfl⟩, List.isChain_singleton _,
        ⟨(id, r), rfl, hparent, hroot hparent⟩, ?_⟩
      rintro e he
      rw [List.mem_singleton.mp he]
      exact hvalid
    · intro h
      obtain ⟨id', r', rest, heq, -, -, hback⟩ := h.head
      obtain ⟨e, he, -, hin⟩ := h.rooted
      have hlast : (id, r) = e := Option.some.inj he
      subst hlast
      obtain ⟨hhead, -⟩ := List.cons.inj heq
      obtain ⟨-, rfl⟩ := Prod.mk.inj hhead
      exact ⟨h.valid _ List.mem_cons_self, fun _ => hback, fun c hc => (nomatch hc),
        fun _ => hin⟩
  | @link id parent r rest hlook hparent hrest =>
    have hlast : ((id, r) :: rest).getLast? = rest.getLast? := by
      obtain ⟨e, es, rfl⟩ := List.exists_cons_of_ne_nil (l := rest) (by cases hrest <;> simp)
      exact List.getLast?_cons_cons
    rw [pathReasons, List.append_eq_nil_iff, stepReasons_eq_nil,
      pathReasons_eq_nil_iff (c := (id, r)) hrest hparent]
    constructor
    · rintro ⟨⟨hvalid, hback, -, -⟩, hrestvalid, hlinked, hrooted⟩
      exact ⟨hstored, ⟨id, r, rest, rfl, hprov, hne, hback rfl⟩, hlinked, by rwa [hlast],
        List.forall_mem_cons.mpr ⟨hvalid, hrestvalid⟩⟩
    · intro h
      obtain ⟨id', r', rest', heq, -, -, hback⟩ := h.head
      obtain ⟨hhead, -⟩ := List.cons.inj heq
      obtain ⟨-, rfl⟩ := Prod.mk.inj hhead
      have hrooted := h.rooted
      rw [hlast] at hrooted
      refine ⟨⟨h.valid _ List.mem_cons_self, fun _ => hback, fun c hc => (nomatch hc), fun hn => ?_⟩,
        fun e he => h.valid e (List.mem_cons_of_mem _ he), h.linked, hrooted⟩
      cases hparent.symm.trans hn

/-! ## The verifier over a finite map -/

theorem mem_keys_of_lookup {records : Dict AuthorityProvenanceRecord} {id : String}
    {r : AuthorityProvenanceRecord} (hr : records.lookup id = some r) : id ∈ records.keys :=
  Finmap.mem_keys.mpr (Finmap.mem_of_lookup_eq_some hr)

/-- With more fuel than there are records, the chase from any id ends. -/
theorem exists_chase_records (records : Dict AuthorityProvenanceRecord) {fuel : Nat}
    (hfuel : records.keys.card < fuel) (id : String) :
    ∃ path ending, chase records.lookup AuthorityProvenanceRecord.parentProvenanceId fuel ∅ id =
      some (path, ending) := by
  have hopen : (records.keys \ ∅).card < fuel := by rw [Finset.sdiff_empty]; exact hfuel
  have hsome : (chase records.lookup AuthorityProvenanceRecord.parentProvenanceId fuel ∅
      id).isSome := chase_isSome (fun _ _ h => mem_keys_of_lookup h) hopen
  obtain ⟨⟨path, ending⟩, hr⟩ := Option.isSome_iff_exists.mp hsome
  exact ⟨path, ending, hr⟩

/-- The result of the verifier, in terms of the chase from the lease's provenance id. -/
theorem verifyRecords_eq (records : Dict AuthorityProvenanceRecord) {lease : AuthorityLease}
    {id : String} (hid : truthy lease.provenanceId = some id) (now : DateTime)
    (roots : Finset String) :
    ∃ path ending, chase records.lookup AuthorityProvenanceRecord.parentProvenanceId
        (records.keys.card + 1) ∅ id = some (path, ending) ∧
      verifyRecords records lease now roots = .ok (chaseResult lease now roots path ending) := by
  obtain ⟨path, ending, hr⟩ := exists_chase_records records (Nat.lt_succ_self _) id
  refine ⟨path, ending, hr, ?_⟩
  rw [verifyRecords, verifyAuthorityProvenance_eq hid, hr]

/-- **The verifier accepts exactly the legitimate delegation chains.**  It always returns; it
    accepts if and only if some chain of stored records carries authority from a trusted root to
    the lease; and then its lineage is that chain's ids, in order and without repetition. -/
theorem verifyRecords_accepts_iff_legitimate (records : Dict AuthorityProvenanceRecord)
    (lease : AuthorityLease) (now : DateTime) (trustedRootIssuers : Finset String) :
    ∃ result, verifyRecords records lease now trustedRootIssuers = .ok result ∧
      (result.accepted = true ↔
        ∃ chain, LegitimateChain records.lookup lease now trustedRootIssuers chain) ∧
      ∀ chain, LegitimateChain records.lookup lease now trustedRootIssuers chain →
        result.lineageIds = chain.map Prod.fst ∧ result.lineageIds.Nodup := by
  cases hid : truthy lease.provenanceId with
  | none =>
    -- no id to start from: nothing is accepted, and no chain is legitimate
    have hno : ∀ chain, ¬ LegitimateChain records.lookup lease now trustedRootIssuers chain := by
      intro chain hchain
      obtain ⟨id, hid', -⟩ := hchain.rootPath
      cases hid.symm.trans hid'
    exact ⟨_, verifyAuthorityProvenance_of_missing hid now trustedRootIssuers _,
      ⟨fun h => (nomatch h), fun ⟨chain, hchain⟩ => absurd hchain (hno chain)⟩,
      fun chain hchain => absurd hchain (hno chain)⟩
  | some id =>
    obtain ⟨path, ending, hchase, hres⟩ := verifyRecords_eq records hid now trustedRootIssuers
    have hcomplete : ∀ chain, LegitimateChain records.lookup lease now trustedRootIssuers chain →
        path = chain ∧ ending = .root := by
      intro chain hchain
      obtain ⟨id', hid', hpath⟩ := hchain.rootPath
      obtain rfl : id = id' := Option.some.inj (hid.symm.trans hid')
      have hsub : (chain.map Prod.fst).toFinset ⊆ records.keys := by
        intro k hk
        obtain ⟨e, he, rfl⟩ := List.mem_map.mp (List.mem_toFinset.mp hk)
        exact mem_keys_of_lookup (hchain.stored e he)
      have hlen : chain.length ≤ records.keys.card + 1 := by
        have hcard := Finset.card_le_card hsub
        rw [List.toFinset_card_of_nodup hpath.nodup, List.length_map] at hcard
        omega
      have hfound := chase_of_rootPath hpath (fun k _ => Finset.notMem_empty k) hlen
      obtain ⟨hp, he⟩ := Prod.mk.inj (Option.some.inj (hchase.symm.trans hfound))
      exact ⟨hp, he⟩
    refine ⟨_, hres, ?_, ?_⟩
    · rw [chaseResult_accepted]
      constructor
      · rintro ⟨hnil, rfl⟩
        exact ⟨path, (pathReasons_eq_nil_iff_legitimate hid (rootPath_of_chase hchase)).mp hnil⟩
      · rintro ⟨chain, hchain⟩
        obtain ⟨rfl, rfl⟩ := hcomplete chain hchain
        exact ⟨(pathReasons_eq_nil_iff_legitimate hid (rootPath_of_chase hchase)).mpr hchain, rfl⟩
    · intro chain hchain
      obtain ⟨rfl, rfl⟩ := hcomplete chain hchain
      have hids : (chaseResult lease now trustedRootIssuers path .root).lineageIds =
          path.map Prod.fst := List.append_nil _
      rw [hids]
      exact ⟨rfl, (rootPath_of_chase hchase).nodup⟩

end PoiexGoc
