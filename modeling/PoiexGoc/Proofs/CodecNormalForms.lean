/-
  NORMAL FORMS of the stored documents.

  The six codecs of the document store are `Codec`s: each reads back what it has written, and the
  target codec decodes self-consistent targets only.  So whatever a document looks like — fields
  that a default stands in for, arrays out of order or with repeats, numbers written as texts — what
  is decoded from it stays the same through any number of writes and reads
  (`codecs_normalise_and_never_drift`).
-/
import PoiexGoc.Lib.Codec
import PoiexGoc.Proofs.DocumentCodecs

namespace PoiexGoc

open Py Effect

/-- What is decoded is encoded and decoded again without change, every record that `valid` holds of
    is read back from the document it is written as, and a document that was read and written once
    stays as it is when it is read and written again. -/
structure NeverDrifts {ρ : Type} (toDoc : ρ → PyDict) (fromDoc : PyValue → Except PyError ρ)
    (valid : ρ → Prop) : Prop where
  stable : ∀ data r, fromDoc data = .ok r → fromDoc (.dict (toDoc r)) = .ok r
  roundTrip : ∀ r, valid r → fromDoc (.dict (toDoc r)) = .ok r
  normal : ∀ data data', (fromDoc data).map (fun r => PyValue.dict (toDoc r)) = .ok data' →
    (fromDoc data').map (fun r => PyValue.dict (toDoc r)) = .ok data'

/-- A codec never drifts. -/
theorem neverDrifts_of_codec {ρ : Type} {toDoc : ρ → PyDict} (codec : Codec ρ PyValue PyError)
    (hencode : codec.encode = fun r => .dict (toDoc r)) :
    NeverDrifts toDoc codec.decode codec.Valid := by
  have hround : ∀ r, codec.encode r = .dict (toDoc r) := by
    intro r
    rw [hencode]
  refine ⟨?_, ?_, ?_⟩
  · intro data r hdata
    rw [← hround]
    exact codec.stable hdata
  · intro r hr
    rw [← hround]
    exact codec.decode_encode r hr
  · intro data data' hdata
    rw [← hencode] at hdata ⊢
    exact codec.normalise_idem hdata

/-- A codec that reads back every record. -/
def totalCodec {ρ : Type} (toDoc : ρ → PyDict) (fromDoc : PyValue → Except PyError ρ)
    (hround : ∀ r, fromDoc (.dict (toDoc r)) = .ok r) : Codec ρ PyValue PyError where
  encode r := .dict (toDoc r)
  decode := fromDoc
  Valid _ := True
  decode_encode r _ := hround r
  valid_of_decode _ _ _ := trivial

/-! ## The six codecs -/

section Codecs

variable [PyRuntime]

def agentCodec : Codec AgentRecord PyValue PyError :=
  totalCodec agentToDoc agentFromDoc agent_roundTrip

def leaseCodec : Codec AuthorityLease PyValue PyError :=
  totalCodec leaseToDoc leaseFromDoc lease_roundTrip

def provenanceCodec : Codec AuthorityProvenanceRecord PyValue PyError :=
  totalCodec provenanceToDoc provenanceFromDoc provenance_roundTrip

def evidenceCodec : Codec EvidenceItem PyValue PyError :=
  totalCodec evidenceToDoc evidenceFromDoc evidence_roundTrip

/-- The one codec that refuses records. -/
def targetCodec : Codec MaterialTarget PyValue PyError where
  encode target := .dict (targetToDoc target)
  decode := targetFromDoc
  Valid := MaterialTarget.SelfConsistent
  decode_encode _ hself := target_roundTrip hself
  valid_of_decode _ _ hdata := targetFromDoc_selfConsistent hdata

def receiptCodec : Codec ExecutionReceipt PyValue PyError :=
  totalCodec receiptToDoc receiptFromDoc receipt_roundTrip

/-- The codecs normalise and never drift: one for each of the six record types, over every document
    the decoder accepts. -/
theorem codecs_normalise_and_never_drift :
    NeverDrifts agentToDoc agentFromDoc (fun _ => True) ∧
    NeverDrifts leaseToDoc leaseFromDoc (fun _ => True) ∧
    NeverDrifts provenanceToDoc provenanceFromDoc (fun _ => True) ∧
    NeverDrifts evidenceToDoc evidenceFromDoc (fun _ => True) ∧
    NeverDrifts targetToDoc targetFromDoc MaterialTarget.SelfConsistent ∧
    NeverDrifts receiptToDoc receiptFromDoc (fun _ => True) := by
  refine ⟨?_, ?_, ?_, ?_, ?_, ?_⟩
  · exact neverDrifts_of_codec agentCodec rfl
  · exact neverDrifts_of_codec leaseCodec rfl
  · exact neverDrifts_of_codec provenanceCodec rfl
  · exact neverDrifts_of_codec evidenceCodec rfl
  · exact neverDrifts_of_codec targetCodec rfl
  · exact neverDrifts_of_codec receiptCodec rfl

end Codecs

/-- A legacy document: no status, no observed capabilities, the epoch as a text, an array with a
    repeat. -/
example :
    agentFromDoc (.dict [("agent_id", .str "agent-1"), ("role", .str "planner"),
      ("declared_capabilities", strArray ["b", "a", "b"]), ("current_epoch", .str "7")]) =
      .ok { agentId := "agent-1", role := "planner", declaredCapabilities := {"a", "b"}
            currentEpoch := 7 } := by
  decide

end PoiexGoc
