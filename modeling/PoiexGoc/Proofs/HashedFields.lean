/-
  The fields a hash stands for: material targets and governed bindings.

  1. `target_hash_eq_iff` — without a collision of the two texts, two targets that have a hash have
     the same one exactly when they agree on every field but the stored hash.

  2. `binding_hash_eq_iff` — likewise for the four fields of a binding.

  3. `canonical_encoding_binds_every_field` — both, over the fact about all trees they rest on
     (`jsonDumps_eq_iff`), with what the audit of an old artifact answers.
-/
import PoiexGoc.Lib.CanonicalText
import PoiexGoc.Runtime.GovernanceHardening
import PoiexGoc.Runtime.Models

namespace PoiexGoc

open Py

theorem isField_canonicalFields (t : MaterialTarget) : ∀ e ∈ t.canonicalFields, IsField e.2 := by
  simp only [MaterialTarget.canonicalFields, List.forall_mem_cons]
  exact ⟨.str _, .str _, .str _, .int _, .set _, fun _ he => absurd he List.not_mem_nil⟩

theorem isField_bindingPayload (authorityRoot : String) (scope : Finset String)
    (targetHash : String) (policyEpoch : Int) :
    ∀ e ∈ GovernedBinding.payload authorityRoot scope targetHash policyEpoch, IsField e.2 := by
  simp only [GovernedBinding.payload, List.forall_mem_cons]
  exact ⟨.str _, .set _, .str _, .int _, fun _ he => absurd he List.not_mem_nil⟩

section Hashing

variable [PyRuntime]

theorem target_hash_eq_iff {t t' : MaterialTarget}
    (hfree : CollisionFree t.canonicalFields t'.canonicalFields) {h h' : String}
    (hhash : t.computeHash = .ok h) (hhash' : t'.computeHash = .ok h') :
    h = h' ↔
      t.targetId = t'.targetId ∧ t.targetType = t'.targetType ∧
        t.canonicalRef = t'.canonicalRef ∧ t.version = t'.version ∧
        t.allowedActions = t'.allowedActions := by
  have hnodup : (t.canonicalFields.map Prod.fst).Nodup := by
    show ["target_id", "target_type", "canonical_ref", "version", "allowed_actions"].Nodup
    decide
  have hkeys : t.canonicalFields.map Prod.fst = t'.canonicalFields.map Prod.fst := rfl
  rw [canonicalHash_fields_eq_iff hkeys hnodup (isField_canonicalFields t)
      (isField_canonicalFields t') hfree hhash hhash']
  simp only [MaterialTarget.canonicalFields, List.cons.injEq, Prod.mk.injEq, PyValue.str.injEq,
    PyValue.int.injEq, PyValue.set.injEq, true_and, and_true]

theorem binding_hash_eq_iff {authorityRoot authorityRoot' : String} {scope scope' : Finset String}
    {targetHash targetHash' : String} {policyEpoch policyEpoch' : Int}
    (hfree : CollisionFree (GovernedBinding.payload authorityRoot scope targetHash policyEpoch)
      (GovernedBinding.payload authorityRoot' scope' targetHash' policyEpoch')) {h h' : String}
    (hhash : canonicalHash (GovernedBinding.payload authorityRoot scope targetHash policyEpoch) =
      .ok h)
    (hhash' : canonicalHash (GovernedBinding.payload authorityRoot' scope' targetHash'
      policyEpoch') = .ok h') :
    h = h' ↔ authorityRoot = authorityRoot' ∧ scope = scope' ∧ targetHash = targetHash' ∧
      policyEpoch = policyEpoch' := by
  have hnodup : ((GovernedBinding.payload authorityRoot scope targetHash policyEpoch).map
      Prod.fst).Nodup := by
    show ["authority_root", "scope", "target_hash", "policy_epoch"].Nodup
    decide
  have hkeys : (GovernedBinding.payload authorityRoot scope targetHash policyEpoch).map Prod.fst =
      (GovernedBinding.payload authorityRoot' scope' targetHash' policyEpoch').map Prod.fst := rfl
  rw [canonicalHash_fields_eq_iff hkeys hnodup (isField_bindingPayload _ _ _ _)
    (isField_bindingPayload _ _ _ _) hfree hhash hhash']
  simp only [GovernedBinding.payload, List.cons.injEq, Prod.mk.injEq, PyValue.str.injEq,
    PyValue.int.injEq, PyValue.set.injEq, true_and, and_true]

/-- The audit of what was made under `old` accepts it under `current` exactly when none of the four
    fields has changed. -/
theorem binding_audit_accepts_iff {old current : GovernedBinding}
    {authorityRoot authorityRoot' : String} {scope scope' : Finset String}
    {targetHash targetHash' : String} {policyEpoch policyEpoch' : Int}
    (hfree : CollisionFree (GovernedBinding.payload authorityRoot scope targetHash policyEpoch)
      (GovernedBinding.payload authorityRoot' scope' targetHash' policyEpoch'))
    (hold : GovernedBinding.create authorityRoot scope targetHash policyEpoch = .ok old)
    (hcurrent : GovernedBinding.create authorityRoot' scope' targetHash' policyEpoch' =
      .ok current) (artifactId : String) :
    (auditBindingValidity artifactId old.bindingHash
        current).legacyArtifactValidForFinalDisposition = true ↔
      authorityRoot = authorityRoot' ∧ scope = scope' ∧ targetHash = targetHash' ∧
        policyEpoch = policyEpoch' := by
  obtain ⟨h, hhash, rfl⟩ := GovernedBinding.create_eq_ok.mp hold
  obtain ⟨h', hhash', rfl⟩ := GovernedBinding.create_eq_ok.mp hcurrent
  rw [auditBindingValidity_accepts, decide_eq_true_iff, ← binding_hash_eq_iff hfree hhash hhash']

/-- The canonical text of a tree determines it up to the order of dict entries, and is determined
    by it; the interpreter's limit on digits changes no text, it only refuses some.  So, wherever
    SHA-256 does not collide, the computed hash of a target stands for its five other fields, and an
    artifact made under one binding is accepted under another exactly when authority root, scope,
    target hash and policy epoch are unchanged.  Targets and bindings have a hash unless their
    version or epoch is beyond the limit. -/
theorem canonical_encoding_binds_every_field :
    (∀ v v', IsTree v → IsTree v' →
      (∃ text, jsonDumpsWith 0 v = .ok text) ∧
      (jsonDumpsWith 0 v = jsonDumpsWith 0 v' ↔ SameTree v v') ∧
      (∀ text, jsonDumps v = .ok text ↔
        IntegersWithin maxStrDigits v ∧ jsonDumpsWith 0 v = .ok text)) ∧
    (∀ t : MaterialTarget, (∃ h, t.computeHash = .ok h) ↔ WithinDigits maxStrDigits t.version) ∧
    (∀ t t' : MaterialTarget, CollisionFree t.canonicalFields t'.canonicalFields →
      ∀ h h', t.computeHash = .ok h → t'.computeHash = .ok h' →
        (h = h' ↔
          t.targetId = t'.targetId ∧ t.targetType = t'.targetType ∧
            t.canonicalRef = t'.canonicalRef ∧ t.version = t'.version ∧
            t.allowedActions = t'.allowedActions)) ∧
    (∀ authorityRoot scope targetHash policyEpoch,
      (∃ binding, GovernedBinding.create authorityRoot scope targetHash policyEpoch =
        .ok binding) ↔ WithinDigits maxStrDigits policyEpoch) ∧
    (∀ authorityRoot scope targetHash policyEpoch authorityRoot' scope' targetHash' policyEpoch',
      CollisionFree (GovernedBinding.payload authorityRoot scope targetHash policyEpoch)
        (GovernedBinding.payload authorityRoot' scope' targetHash' policyEpoch') →
      ∀ old current,
        GovernedBinding.create authorityRoot scope targetHash policyEpoch = .ok old →
        GovernedBinding.create authorityRoot' scope' targetHash' policyEpoch' = .ok current →
        ∀ artifactId,
          let report := auditBindingValidity artifactId old.bindingHash current
          (report.legacyArtifactValidForFinalDisposition = true ↔
            authorityRoot = authorityRoot' ∧ scope = scope' ∧ targetHash = targetHash' ∧
              policyEpoch = policyEpoch') ∧
          (report.status = "VALID_FOR_CURRENT_BINDING" ↔
            report.legacyArtifactValidForFinalDisposition = true)) := by
  refine ⟨?_, ?_, ?_, ?_, ?_⟩
  · intro v v' hv hv'
    exact ⟨⟨_, jsonDumps_isTree hv⟩, jsonDumps_eq_iff hv hv', fun _ => jsonDumpsWith_eq_ok_iff hv⟩
  · intro t
    exact MaterialTarget.computeHash_isOk
  · intro t t' hfree h h' hhash hhash'
    exact target_hash_eq_iff hfree hhash hhash'
  · intro authorityRoot scope targetHash policyEpoch
    exact GovernedBinding.create_isOk authorityRoot scope targetHash policyEpoch
  · intro authorityRoot scope targetHash policyEpoch authorityRoot' scope' targetHash'
      policyEpoch' hfree old current hold hcurrent artifactId
    exact ⟨binding_audit_accepts_iff hfree hold hcurrent artifactId,
      auditBindingValidity_status _ _ _⟩

/-- Different digests do not collide. -/
theorem collisionFree_of_ne {payload payload' : PyDict}
    (hne : canonicalHash payload ≠ canonicalHash payload') : CollisionFree payload payload' := by
  intro text text' htext htext' hdigest
  refine absurd ?_ hne
  rw [canonicalHash, canonicalHash, htext, htext']
  exact congrArg Except.ok hdigest

end Hashing

/-- Extending the scope of a binding invalidates what was decided under the old one. -/
theorem canonical_encoding_binds_scope :
    ∃ old current,
      GovernedBinding.create "root-A" {"issue_synthetic_work_order"} "target-v3" 7 = .ok old ∧
      GovernedBinding.create "root-A" {"issue_synthetic_work_order", "inspect"} "target-v3" 7 =
        .ok current ∧
      (auditBindingValidity "receipt-old" old.bindingHash
        current).legacyArtifactValidForFinalDisposition ≠ true := by
  have hepoch : WithinDigits maxStrDigits 7 := by decide
  obtain ⟨old, hold⟩ := (GovernedBinding.create_isOk "root-A" {"issue_synthetic_work_order"}
    "target-v3" 7).mpr hepoch
  obtain ⟨current, hcurrent⟩ := (GovernedBinding.create_isOk "root-A"
    {"issue_synthetic_work_order", "inspect"} "target-v3" 7).mpr hepoch
  have haudit := canonical_encoding_binds_every_field.2.2.2.2 "root-A"
    {"issue_synthetic_work_order"} "target-v3" 7 "root-A" {"issue_synthetic_work_order", "inspect"}
    "target-v3" 7 (collisionFree_of_ne (by decide +kernel)) old current hold hcurrent
  refine ⟨old, current, hold, hcurrent, ?_⟩
  rw [ne_eq, (haudit "receipt-old").1]
  decide

end PoiexGoc
