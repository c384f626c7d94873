/-
  CODECS whose decoder accepts more than the encoder writes.

  A decoder with defaults and coercions reads many documents as one record.  All that is asked of a
  codec is that it reads back what it has written, for the records it can represent (`Valid`), and
  that nothing else is ever decoded.

  Then writing a decoded record down again gives the NORMAL FORM of its document: it decodes to the
  same record (`decode_normalise`) and is its own normal form (`normalise_idem`).
-/
import Mathlib.Logic.Basic

/-- An encoder and a decoder that may raise, with the records they are about. -/
structure Codec (ρ δ ε : Type) where
  encode : ρ → δ
  decode : δ → Except ε ρ
  Valid : ρ → Prop
  decode_encode : ∀ r, Valid r → decode (encode r) = .ok r
  valid_of_decode : ∀ d r, decode d = .ok r → Valid r

namespace Codec

variable {ρ δ ε : Type} (codec : Codec ρ δ ε)

/-- What is decoded is written and read back without change. -/
theorem stable {d : δ} {r : ρ} (hd : codec.decode d = .ok r) :
    codec.decode (codec.encode r) = .ok r :=
  codec.decode_encode r (codec.valid_of_decode d r hd)

/-- The document a decoded one would have been written as. -/
def normalise (d : δ) : Except ε δ := (codec.decode d).map codec.encode

theorem normalise_eq_ok {d d' : δ} :
    codec.normalise d = .ok d' ↔ ∃ r, codec.decode d = .ok r ∧ codec.encode r = d' := by
  unfold normalise
  cases codec.decode d with
  | error e => exact ⟨fun h => (nomatch h), fun ⟨_, h, _⟩ => (nomatch h)⟩
  | ok r =>
    constructor
    · intro h
      exact ⟨r, rfl, Except.ok.inj h⟩
    · rintro ⟨r', hr, rfl⟩
      rw [Except.ok.inj hr]
      rfl

/-- The normal form is read as the document was. -/
theorem decode_normalise {d d' : δ} (hd : codec.normalise d = .ok d') :
    codec.decode d' = codec.decode d := by
  obtain ⟨r, hr, rfl⟩ := codec.normalise_eq_ok.mp hd
  rw [codec.stable hr, hr]

theorem normalise_idem {d d' : δ} (hd : codec.normalise d = .ok d') :
    codec.normalise d' = .ok d' := by
  have hsame := codec.decode_normalise hd
  unfold normalise at hd ⊢
  rw [hsame]
  exact hd

end Codec
