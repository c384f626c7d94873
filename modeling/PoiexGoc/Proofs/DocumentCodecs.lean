/-
  The document codecs ROUND TRIP: decoding what a put has encoded gives the record back.

  Field by field there are five shapes of data — a text, a number, a datetime, an array of texts
  and a map of texts — and the two that are not immediate are the last:
  * a set is written as its sorted array, and read back as the set of the array's elements;
  * a map is written as the entries of its keys in order, and read back as the finite map of them.

  The target codec is the one that can refuse: `target_roundTrip` needs the stored hash to be the
  hash of the fields, and `targetFromDoc_selfConsistent` says that nothing else is ever decoded.
-/
import PoiexGoc.Runtime.FirestoreStore

namespace PoiexGoc

open Py Effect

/-! ## Arrays and maps of texts -/

theorem mapM_strElement (l : List String) : (l.map PyValue.str).mapM strElement = .ok l := by
  induction l with
  | nil => rfl
  | cons x l ih =>
    rw [List.map_cons, List.mapM_cons, ih]
    rfl

/-- Reading an array of texts. -/
theorem strListItem_strArray {data : PyDict} {field : String} {l : List String}
    (hfield : itemD data field (.list []) = strArray l) : strListItem data field = .ok l := by
  unfold strListItem
  rw [hfield]
  exact mapM_strElement l

/-- Reading a sorted array as a set. -/
theorem strSetItem_sortedArray {data : PyDict} {field : String} {s : Finset String}
    (hfield : itemD data field (.list []) = sortedArray s) : strSetItem data field = .ok s := by
  have hlist : strListItem data field = .ok (sorted s) := strListItem_strArray hfield
  rw [strSetItem, hlist]
  show Except.ok (sorted s).toFinset = _
  rw [toFinset_sorted]

/-- The entries a map is written as, before their values become document values. -/
def mapEntries (m : Dict String) (keys : List String) : List (Sigma fun _ : String => String) :=
  keys.filterMap fun key => (m.lookup key).map (Sigma.mk key)

theorem mapM_strEntry (m : Dict String) (keys : List String) :
    (keys.filterMap fun key => (m.lookup key).map fun s => (key, PyValue.str s)).mapM strEntry =
      .ok (mapEntries m keys) := by
  induction keys with
  | nil => rfl
  | cons key keys ih =>
    unfold mapEntries at ih ⊢
    cases hkey : m.lookup key with
    | none =>
      rw [List.filterMap_cons_none (by rw [hkey]; rfl), List.filterMap_cons_none
        (by rw [hkey]; rfl)]
      exact ih
    | some s =>
      rw [List.filterMap_cons_some (b := (key, PyValue.str s)) (by rw [hkey]; rfl),
        List.filterMap_cons_some (b := Sigma.mk key s) (by rw [hkey]; rfl), List.mapM_cons, ih]
      rfl

/-- Looking a key up among the entries of some keys of a map. -/
theorem dlookup_mapEntries (m : Dict String) (keys : List String) (key : String) :
    List.dlookup key (mapEntries m keys) = if key ∈ keys then m.lookup key else none := by
  induction keys with
  | nil => rfl
  | cons key' keys ih =>
    unfold mapEntries at ih ⊢
    by_cases heq : key = key'
    · subst heq
      rw [if_pos List.mem_cons_self]
      cases hkey : m.lookup key with
      | none =>
        rw [List.filterMap_cons_none (by rw [hkey]; rfl), ih, hkey, ite_self]
      | some s =>
        rw [List.filterMap_cons_some (b := Sigma.mk key s) (by rw [hkey]; rfl)]
        exact @List.dlookup_cons_eq _ (fun _ => String) _ _ key s
    · have hmem : key ∈ key' :: keys ↔ key ∈ keys := by
        rw [List.mem_cons]
        exact ⟨fun h => h.resolve_left heq, Or.inr⟩
      rw [if_congr hmem rfl rfl, ← ih]
      cases hkey : m.lookup key' with
      | none => rw [List.filterMap_cons_none (by rw [hkey]; rfl)]
      | some s =>
        rw [List.filterMap_cons_some (b := Sigma.mk key' s) (by rw [hkey]; rfl)]
        exact @List.dlookup_cons_ne _ (fun _ => String) _ _ _ ⟨key', s⟩ heq

/-- Reading a map of texts. -/
theorem strMapItem_strMap {data : PyDict} {field : String} {m : Dict String}
    (hfield : itemD data field (.dict []) = strMap m) : strMapItem data field = .ok m := by
  unfold strMapItem
  rw [hfield]
  show ((_ : PyDict).mapM strEntry).map List.toFinmap = _
  rw [mapM_strEntry]
  show Except.ok _ = _
  congr 1
  refine Finmap.ext_lookup fun key => ?_
  rw [Finmap.dlookup_list_toFinmap, dlookup_mapEntries]
  by_cases hkey : key ∈ m
  · rw [if_pos (mem_sorted.mpr (Finmap.mem_keys.mpr hkey))]
  · rw [if_neg (fun h => hkey (Finmap.mem_keys.mp (mem_sorted.mp h))),
      Finmap.lookup_eq_none.mpr hkey]

theorem optionalStrItem_optionalStr {data : PyDict} {field : String} {s : Option String}
    (hfield : itemD data field .none = optionalStr s) : optionalStrItem data field = .ok s := by
  unfold optionalStrItem
  rw [hfield]
  cases s with
  | none => rfl
  | some s => rfl

theorem optionalDatetimeItem_optionalDatetime {data : PyDict} {field : String}
    {d : Option DateTime} (hfield : itemD data field .none = optionalDatetime d) :
    optionalDatetimeItem data field = .ok d := by
  unfold optionalDatetimeItem
  rw [hfield]
  cases d with
  | none => rfl
  | some d => rfl

/-! ## The six codecs -/

section RoundTrips

variable [PyRuntime]

@[simp] theorem agent_roundTrip (agent : AgentRecord) :
    agentFromDoc (.dict (agentToDoc agent)) = .ok agent := by
  have hdeclared : strSetItem (agentToDoc agent) "declared_capabilities" =
      .ok agent.declaredCapabilities := strSetItem_sortedArray rfl
  have hobserved : strMapItem (agentToDoc agent) "observed_capabilities" =
      .ok agent.observedCapabilities := strMapItem_strMap rfl
  have hinferred : strSetItem (agentToDoc agent) "inferred_capabilities" =
      .ok agent.inferredCapabilities := strSetItem_sortedArray rfl
  unfold agentFromDoc
  simp only [requireMapping, ok_bind, strItem, hdeclared, hobserved, hinferred]
  rfl

@[simp] theorem lease_roundTrip (lease : AuthorityLease) :
    leaseFromDoc (.dict (leaseToDoc lease)) = .ok lease := by
  have hrevoked : optionalDatetimeItem (leaseToDoc lease) "revoked_at" = .ok lease.revokedAt :=
    optionalDatetimeItem_optionalDatetime rfl
  have hscope : strSetItem (leaseToDoc lease) "scope" = .ok lease.scope :=
    strSetItem_sortedArray rfl
  have hprov : optionalStrItem (leaseToDoc lease) "provenance_id" = .ok lease.provenanceId :=
    optionalStrItem_optionalStr rfl
  unfold leaseFromDoc
  simp only [requireMapping, ok_bind, hrevoked, hscope, hprov]
  rfl

@[simp] theorem provenance_roundTrip (record : AuthorityProvenanceRecord) :
    provenanceFromDoc (.dict (provenanceToDoc record)) = .ok record := by
  have hrevoked : optionalDatetimeItem (provenanceToDoc record) "revoked_at" =
      .ok record.revokedAt := optionalDatetimeItem_optionalDatetime rfl
  have hscope : strSetItem (provenanceToDoc record) "scope" = .ok record.scope :=
    strSetItem_sortedArray rfl
  have hparent : optionalStrItem (provenanceToDoc record) "parent_provenance_id" =
      .ok record.parentProvenanceId := optionalStrItem_optionalStr rfl
  unfold provenanceFromDoc
  simp only [requireMapping, ok_bind, hrevoked, hscope, hparent]
  rfl

@[simp] theorem evidence_roundTrip (evidence : EvidenceItem) :
    evidenceFromDoc (.dict (evidenceToDoc evidence)) = .ok evidence := by
  have hsource : strItem (evidenceToDoc evidence) "source_type" =
      .ok evidence.sourceType.value := rfl
  unfold evidenceFromDoc
  simp only [requireMapping, ok_bind, hsource, EvidenceSourceType.ofValue_value]
  rfl

/-- The target decoder, up to its own check. -/
theorem targetFromDoc_targetToDoc (target : MaterialTarget) :
    targetFromDoc (.dict (targetToDoc target)) = requireSelfConsistent target := by
  have hactions : strSetItem (targetToDoc target) "allowed_actions" =
      .ok target.allowedActions := strSetItem_sortedArray rfl
  unfold targetFromDoc
  simp only [requireMapping, ok_bind, hactions]
  rfl

theorem requireSelfConsistent_eq_ok {target target' : MaterialTarget} :
    requireSelfConsistent target = .ok target' ↔ target.SelfConsistent ∧ target' = target := by
  rw [requireSelfConsistent, MaterialTarget.SelfConsistent]
  cases target.computeHash with
  | error e => exact ⟨fun heq => (nomatch heq), fun heq => (nomatch heq.1)⟩
  | ok h =>
    rw [ok_bind]
    by_cases hne : h = target.targetHash
    · subst hne
      rw [if_neg (not_not.mpr rfl)]
      exact ⟨fun heq => ⟨rfl, (Except.ok.inj heq).symm⟩, fun heq => by rw [heq.2]; rfl⟩
    · rw [if_pos hne]
      exact ⟨fun heq => (nomatch heq), fun heq => absurd (Except.ok.inj heq.1) hne⟩

/-- A target round trips when its stored hash is the hash of its fields. -/
theorem target_roundTrip {target : MaterialTarget} (hself : target.SelfConsistent) :
    targetFromDoc (.dict (targetToDoc target)) = .ok target := by
  rw [targetFromDoc_targetToDoc]
  exact requireSelfConsistent_eq_ok.mpr ⟨hself, rfl⟩

/-- Whatever the document, a target that is decoded at all carries the hash of its fields. -/
theorem targetFromDoc_selfConsistent {data : PyValue} {target : MaterialTarget}
    (hdata : targetFromDoc data = .ok target) : target.SelfConsistent := by
  unfold targetFromDoc at hdata
  -- one decoder after the other has returned: the mapping check and seven fields
  obtain ⟨_, -, h⟩ := bind_eq_ok.mp hdata
  obtain ⟨_, -, h⟩ := bind_eq_ok.mp h
  obtain ⟨_, -, h⟩ := bind_eq_ok.mp h
  obtain ⟨_, -, h⟩ := bind_eq_ok.mp h
  obtain ⟨_, -, h⟩ := bind_eq_ok.mp h
  obtain ⟨_, -, h⟩ := bind_eq_ok.mp h
  obtain ⟨_, -, h⟩ := bind_eq_ok.mp h
  obtain ⟨_, -, h⟩ := bind_eq_ok.mp h
  obtain ⟨hself, rfl⟩ := requireSelfConsistent_eq_ok.mp h
  exact hself

@[simp] theorem receipt_roundTrip (receipt : ExecutionReceipt) :
    receiptFromDoc (.dict (receiptToDoc receipt)) = .ok receipt := by
  have hlease : optionalStrItem (receiptToDoc receipt) "lease_id" = .ok receipt.leaseId :=
    optionalStrItem_optionalStr rfl
  have hrefs : strListItem (receiptToDoc receipt) "registry_evidence_refs" =
      .ok receipt.registryEvidenceRefs := strListItem_strArray rfl
  have htarget : optionalStrItem (receiptToDoc receipt) "target_id" = .ok receipt.targetId :=
    optionalStrItem_optionalStr rfl
  have hhash : optionalStrItem (receiptToDoc receipt) "target_hash" = .ok receipt.targetHash :=
    optionalStrItem_optionalStr rfl
  have hresult : optionalStrItem (receiptToDoc receipt) "executor_result_hash" =
      .ok receipt.executorResultHash := optionalStrItem_optionalStr rfl
  have hreasons : strListItem (receiptToDoc receipt) "reasons" = .ok receipt.reasons :=
    strListItem_strArray rfl
  unfold receiptFromDoc
  simp only [requireMapping, ok_bind, hlease, hrefs, htarget, hhash, hresult, hreasons]
  rfl

end RoundTrips

end PoiexGoc
