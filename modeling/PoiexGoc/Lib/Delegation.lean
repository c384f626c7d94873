/-
  Attenuated DELEGATION with compromised principals.

  A record delegates a scope to its subject, in the name of its issuer, and points to the record the
  issuer holds it by.  A stored record is ANCHORED when the pointers lead from it to a root, each
  issuer holds the record pointed to, and no scope grows on the way (`Anchored`).

  Compromised principals can put records of their own anywhere, as long as they are in their own
  name.  A reader that follows the pointers may then find, at each key, a stored record or one of
  theirs, and the next record at another time.  What it has checked when it arrives at a root is not
  that the first record is anchored, but that its scope is `Backed`: by the record stored at its
  key, or by an anchored record of a compromised principal.  A root backs (`Backed.of_root`), and a
  record on a backed one is backed (`Backed.of_link`); so whoever holds a scope had it, or got it
  from one who had it (`Backed.holder`).
-/
import Mathlib.Order.Basic

namespace Delegation

/-- How a record is read. -/
structure Reading (κ ρ π γ : Type) where
  parent : ρ → Option κ
  subject : ρ → π
  issuer : ρ → π
  scope : ρ → γ

variable {κ ρ π γ : Type} [Preorder γ]

/-- The record is stored at the key, and stored records carry its authority from a root to it. -/
inductive Anchored (d : Reading κ ρ π γ) (stored : κ → ρ → Prop) (valid : ρ → Prop)
    (root : π → Prop) : κ → ρ → Prop
  | root {k : κ} {r : ρ} (hstored : stored k r) (hvalid : valid r) (hparent : d.parent r = none)
      (hroot : root (d.issuer r)) : Anchored d stored valid root k r
  | link {k k' : κ} {r r' : ρ} (hstored : stored k r) (hvalid : valid r)
      (hparent : d.parent r = some k') (hparentAnchored : Anchored d stored valid root k' r')
      (hissuer : d.issuer r = d.subject r') (hscope : d.scope r ≤ d.scope r') :
      Anchored d stored valid root k r

variable {d : Reading κ ρ π γ} {stored : κ → ρ → Prop} {valid : ρ → Prop} {root : π → Prop}
  {compromised : π → Prop} {k : κ} {r : ρ} {subject : π} {scope : γ}

/-- The subject's scope rests on the record stored at the key, or on an anchored record of a
    compromised principal. -/
def Backed (d : Reading κ ρ π γ) (stored : κ → ρ → Prop) (valid : ρ → Prop)
    (root compromised : π → Prop) (k : κ) (subject : π) (scope : γ) : Prop :=
  (∃ r, Anchored d stored valid root k r ∧ d.subject r = subject ∧ scope ≤ d.scope r) ∨
    ∃ k' r, Anchored d stored valid root k' r ∧ compromised (d.subject r) ∧ scope ≤ d.scope r

/-- A root that is found: the compromised are no roots, so it is stored. -/
theorem Backed.of_root (hhonest : ∀ p, compromised p → ¬ root p)
    (hfound : stored k r ∨ compromised (d.issuer r)) (hvalid : valid r)
    (hparent : d.parent r = none) (hroot : root (d.issuer r)) (hsubject : d.subject r = subject)
    (hscope : scope ≤ d.scope r) : Backed d stored valid root compromised k subject scope := by
  rcases hfound with hstored | hcompromised
  · exact Or.inl ⟨r, Anchored.root hstored hvalid hparent hroot, hsubject, hscope⟩
  · exact absurd hroot (hhonest _ hcompromised)

/-- A record that is found on a backed one.  If it is stored, it continues a stored chain; if a
    compromised principal made it, that principal is the subject of the chain it continues. -/
theorem Backed.of_link {k' : κ} (hfound : stored k r ∨ compromised (d.issuer r)) (hvalid : valid r)
    (hparent : d.parent r = some k')
    (hbacked : Backed d stored valid root compromised k' (d.issuer r) (d.scope r))
    (hsubject : d.subject r = subject) (hscope : scope ≤ d.scope r) :
    Backed d stored valid root compromised k subject scope := by
  rcases hbacked with ⟨r', hr', hissuer, hwithin⟩ | ⟨k'', r', hr', hcompromised, hwithin⟩
  · rcases hfound with hstored | hcompromised
    · exact Or.inl ⟨r, Anchored.link hstored hvalid hparent hr' hissuer.symm hwithin, hsubject,
        hscope⟩
    · refine Or.inr ⟨k', r', hr', ?_, hscope.trans hwithin⟩
      rw [hissuer]
      exact hcompromised
  · exact Or.inr ⟨k'', r', hr', hcompromised, hscope.trans hwithin⟩

/-- A backed scope is held by the subject or by a compromised principal. -/
theorem Backed.holder (hbacked : Backed d stored valid root compromised k subject scope) :
    ∃ k' r, Anchored d stored valid root k' r ∧
      (d.subject r = subject ∨ compromised (d.subject r)) ∧ scope ≤ d.scope r := by
  rcases hbacked with ⟨r, hr, hsubject, hscope⟩ | ⟨k', r, hr, hcompromised, hscope⟩
  · exact ⟨k, r, hr, Or.inl hsubject, hscope⟩
  · exact ⟨k', r, hr, Or.inr hcompromised, hscope⟩

end Delegation
