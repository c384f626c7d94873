/-
  `verify_authority_provenance` of `poiex_runtime/authority_provenance.py`.

  The verifier takes any store that can look up a provenance record, so the loop is written over
  an arbitrary monad with a lookup `get`: the control plane runs it against its store, the pure
  results below run it against a finite map.

  The `while` loop is `walk`: one level of recursion is one iteration, and the fuel bounds their
  number (`ProvenanceChains` shows how little is ever used).  Its condition
  `current_id is not None` never ends the loop, because an iteration whose record has no parent
  breaks first; `currentId` is therefore a plain id.
-/
import PoiexGoc.Runtime.Models

namespace PoiexGoc

open Py

structure AuthorityProvenanceResult where
  accepted : Bool
  reasons : List String
  lineageIds : List String
  deriving DecidableEq

/-- `if c: reasons.append(reason)`. -/
def reasonIf (c : Prop) [Decidable c] (reason : String) : List String :=
  if c then [reason] else []

theorem reasonIf_congr {c c' : Prop} [Decidable c] [Decidable c'] (hc : c ↔ c')
    (reason : String) : reasonIf c reason = reasonIf c' reason :=
  if_congr hc rfl rfl

@[simp] theorem reasonIf_eq_nil {c : Prop} [Decidable c] {reason : String} :
    reasonIf c reason = [] ↔ ¬ c := by
  unfold reasonIf
  split
  · rename_i hc
    exact ⟨fun h => (nomatch h), fun h => absurd hc h⟩
  · rename_i hc
    exact ⟨fun _ => hc, fun _ => rfl⟩

@[simp] theorem mem_reasonIf {c : Prop} [Decidable c] {reason x : String} :
    x ∈ reasonIf c reason ↔ c ∧ x = reason := by
  unfold reasonIf
  split
  · rename_i hc
    rw [List.mem_singleton]
    exact ⟨fun h => ⟨hc, h⟩, fun h => h.2⟩
  · rename_i hc
    exact ⟨fun h => (nomatch h), fun h => absurd h.1 hc⟩

/-- `revoked_at is not None and revoked_at <= now`. -/
def revokedBy (revokedAt : Option DateTime) (now : DateTime) : Prop :=
  ∃ r, revokedAt = some r ∧ r ≤ now

instance (revokedAt : Option DateTime) (now : DateTime) : Decidable (revokedBy revokedAt now) :=
  match revokedAt with
  | none => isFalse fun ⟨_, h, _⟩ => nomatch h
  | some r =>
    if h : r ≤ now then isTrue ⟨r, rfl, h⟩
    else isFalse fun ⟨_, h', hle⟩ => h (Option.some.inj h' ▸ hle)

/-! ## The checks of one iteration -/

/-- The checks of every record: its validity at `now`. -/
def timeReasons (now : DateTime) (record : AuthorityProvenanceRecord) : List String :=
  reasonIf (now < record.issuedAt) "AUTHORITY_PROVENANCE_NOT_YET_VALID" ++
  reasonIf (revokedBy record.revokedAt now) "AUTHORITY_PROVENANCE_REVOKED"

/-- The checks of the first record: it must be about the lease. -/
def leaseBindingReasons (lease : AuthorityLease) (record : AuthorityProvenanceRecord) :
    List String :=
  reasonIf (record.subjectId ≠ lease.agentId) "AUTHORITY_PROVENANCE_SUBJECT_MISMATCH" ++
  reasonIf (record.issuerId ≠ lease.issuer) "AUTHORITY_PROVENANCE_ISSUER_MISMATCH" ++
  reasonIf (record.epoch ≠ lease.epoch) "AUTHORITY_PROVENANCE_EPOCH_MISMATCH" ++
  reasonIf (¬ lease.scope ⊆ record.scope) "AUTHORITY_PROVENANCE_SCOPE_MISMATCH"

/-- The checks of a record against the child record it delegated to, if there is one. -/
def delegationReasons : Option AuthorityProvenanceRecord → AuthorityProvenanceRecord →
    List String
  | none, _ => []
  | some child, record =>
    reasonIf (child.issuerId ≠ record.subjectId) "AUTHORITY_PROVENANCE_DELEGATION_GAP" ++
    reasonIf (¬ child.scope ⊆ record.scope) "AUTHORITY_PROVENANCE_SCOPE_ESCALATION"

def recordReasons (lease : AuthorityLease) (now : DateTime) (first : Bool)
    (child : Option AuthorityProvenanceRecord) (record : AuthorityProvenanceRecord) :
    List String :=
  timeReasons now record ++
  (if first then leaseBindingReasons lease record else []) ++
  delegationReasons child record

/-! ## The loop -/

/-- The variables of the loop. -/
structure WalkState where
  reasons : List String
  lineage : List String
  visited : Finset String
  currentId : String
  child : Option AuthorityProvenanceRecord
  first : Bool

section Loop

variable {m : Type → Type} [Monad m] [MonadExceptOf PyError m]

/-- The `while` loop: the reasons and the lineage it ends with. -/
def walk (get : String → m (Option AuthorityProvenanceRecord)) (lease : AuthorityLease)
    (now : DateTime) (trustedRootIssuers : Finset String) :
    Nat → WalkState → m (List String × List String)
  | 0, _ => throw .fuelExhausted
  | fuel + 1, st =>
    if st.currentId ∈ st.visited then
      pure (st.reasons ++ ["AUTHORITY_PROVENANCE_CYCLE"], st.lineage)
    else do
      let visited := insert st.currentId st.visited
      let lineage := st.lineage ++ [st.currentId]
      match ← get st.currentId with
      | none => pure (st.reasons ++ ["AUTHORITY_PROVENANCE_RECORD_MISSING"], lineage)
      | some record =>
        let reasons := st.reasons ++ recordReasons lease now st.first st.child record
        match record.parentProvenanceId with
        | none =>
          pure (reasons ++ reasonIf (record.issuerId ∉ trustedRootIssuers)
            "AUTHORITY_PROVENANCE_UNTRUSTED_ROOT", lineage)
        | some parent =>
          walk get lease now trustedRootIssuers fuel
            { reasons, lineage, visited, currentId := parent, child := some record, first := false }

/-- The loop's variables on entry. -/
def WalkState.initial (provenanceId : String) : WalkState :=
  { reasons := [], lineage := [], visited := ∅, currentId := provenanceId, child := none,
    first := true }

def verifyAuthorityProvenance (get : String → m (Option AuthorityProvenanceRecord))
    (fuel : Nat) (lease : AuthorityLease) (now : DateTime) (trustedRootIssuers : Finset String) :
    m AuthorityProvenanceResult :=
  match truthy lease.provenanceId with
  | none => pure
      { accepted := false, reasons := ["AUTHORITY_PROVENANCE_MISSING"], lineageIds := [] }
  | some provenanceId => do
    let (reasons, lineage) ←
      walk get lease now trustedRootIssuers fuel (WalkState.initial provenanceId)
    let uniqueReasons := reasons.eraseDups
    pure { accepted := uniqueReasons.isEmpty, reasons := uniqueReasons, lineageIds := lineage }

end Loop

/-- The verifier over a finite map of records, with one iteration of fuel for each record and one
    for the lookup that finds none. -/
def verifyRecords (records : Dict AuthorityProvenanceRecord) (lease : AuthorityLease)
    (now : DateTime) (trustedRootIssuers : Finset String) :
    Except PyError AuthorityProvenanceResult :=
  verifyAuthorityProvenance (fun id => .ok (records.lookup id)) (records.keys.card + 1) lease now
    trustedRootIssuers

/-! ## The four ways through one iteration -/

section Iteration

variable {get : String → Except PyError (Option AuthorityProvenanceRecord)}
  {lease : AuthorityLease} {now : DateTime} {roots : Finset String} {fuel : Nat} {st : WalkState}

theorem walk_of_visited (hvis : st.currentId ∈ st.visited) :
    walk get lease now roots (fuel + 1) st =
      .ok (st.reasons ++ ["AUTHORITY_PROVENANCE_CYCLE"], st.lineage) := by
  rw [walk, if_pos hvis]
  rfl

theorem walk_of_missing (hvis : st.currentId ∉ st.visited)
    (hget : get st.currentId = .ok none) :
    walk get lease now roots (fuel + 1) st =
      .ok (st.reasons ++ ["AUTHORITY_PROVENANCE_RECORD_MISSING"],
        st.lineage ++ [st.currentId]) := by
  rw [walk, if_neg hvis, hget]
  rfl

/-- A root: the only way that checks the issuer against the trusted roots. -/
theorem walk_of_root (hvis : st.currentId ∉ st.visited) {record : AuthorityProvenanceRecord}
    (hget : get st.currentId = .ok (some record)) (hparent : record.parentProvenanceId = none) :
    walk get lease now roots (fuel + 1) st =
      .ok (st.reasons ++ recordReasons lease now st.first st.child record ++
          reasonIf (record.issuerId ∉ roots) "AUTHORITY_PROVENANCE_UNTRUSTED_ROOT",
        st.lineage ++ [st.currentId]) := by
  rw [walk, if_neg hvis, hget]
  show (match record.parentProvenanceId with
    | none => _
    | some parent => _) = _
  rw [hparent]
  rfl

theorem walk_of_link (hvis : st.currentId ∉ st.visited) {record : AuthorityProvenanceRecord}
    {parent : String} (hget : get st.currentId = .ok (some record))
    (hparent : record.parentProvenanceId = some parent) :
    walk get lease now roots (fuel + 1) st =
      walk get lease now roots fuel
        { reasons := st.reasons ++ recordReasons lease now st.first st.child record
          lineage := st.lineage ++ [st.currentId]
          visited := insert st.currentId st.visited
          currentId := parent
          child := some record
          first := false } := by
  rw [walk, if_neg hvis, hget]
  show (match record.parentProvenanceId with
    | none => _
    | some parent => _) = _
  rw [hparent]

end Iteration

end PoiexGoc
