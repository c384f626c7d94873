/-
  UNIQUE READING of texts that are written one after the other.

  A writer that puts texts next to each other loses nothing when a reader can tell where each one
  ends.  `Reads after t t' P` says so for two texts: in front of continuations of the kind `after`,
  `t` and `t'` begin the same text only when `P` holds, and then the continuations are the same.

  1. The rules of sequences: a common symbol, one part after another (`Reads.symbol`,
     `Reads.append`), and texts that differ at once (`reads_of_ne`).

  2. `reads_run` — a text of symbols of one class ends where a symbol of another class follows.

  3. `reads_delimited`, `reads_separated` — elements one after the other, or between separators, up
     to a closing symbol: the two lists have the same length, and their elements correspond.

  4. `append_inj_of_suffixFree` — the same from the other end: with endings of which none ends in
     another, what stands in front may be any text.
-/
import Mathlib.Data.List.Basic

namespace UniqueReading

variable {χ α β : Type}

def Reads (after : List χ → Prop) (t t' : List χ) (P : Prop) : Prop :=
  ∀ r r', after r → after r' → t ++ r = t' ++ r' → P ∧ r = r'

/-- Any continuation. -/
def Anything (_ : List χ) : Prop := True

section Rules

variable {after : List χ → Prop} {t t' u u' : List χ} {P Q : Prop}

theorem Reads.imp (ht : Reads after t t' P) (himp : P → Q) : Reads after t t' Q := by
  intro r r' hr hr' heq
  obtain ⟨hP, hrest⟩ := ht r r' hr hr' heq
  exact ⟨himp hP, hrest⟩

theorem Reads.weaken {after' : List χ → Prop} (ht : Reads after t t' P)
    (hafter : ∀ r, after' r → after r) : Reads after' t t' P :=
  fun r r' hr hr' heq => ht r r' (hafter r hr) (hafter r' hr') heq

/-- A text is told apart from itself by nothing, and leaves the same continuation. -/
theorem reads_refl (hP : P) : Reads after t t P :=
  fun _ _ _ _ heq => ⟨hP, List.append_cancel_left heq⟩

/-- A common first symbol. -/
theorem Reads.symbol (c : χ) (ht : Reads after t t' P) : Reads after (c :: t) (c :: t') P := by
  intro r r' hr hr' heq
  exact ht r r' hr hr' (List.cons_inj_right c |>.mp heq)

/-- Different first symbols. -/
theorem reads_of_ne {c c' : χ} (hne : c ≠ c') : Reads after (c :: t) (c' :: t') P := by
  intro r r' _ _ heq
  exact absurd (List.cons.inj heq).1 hne

/-- One part after the other; the second part is a continuation of the first. -/
theorem Reads.append {mid : List χ → Prop} (ht : Reads mid t t' P) (hu : Reads after u u' Q)
    (hmid : ∀ r, after r → mid (u ++ r)) (hmid' : ∀ r, after r → mid (u' ++ r)) :
    Reads after (t ++ u) (t' ++ u') (P ∧ Q) := by
  intro r r' hr hr' heq
  rw [List.append_assoc, List.append_assoc] at heq
  obtain ⟨hP, hrest⟩ := ht _ _ (hmid r hr) (hmid' r' hr') heq
  obtain ⟨hQ, hend⟩ := hu r r' hr hr' hrest
  exact ⟨⟨hP, hQ⟩, hend⟩

/-- A reader recovers what a text stands for, whatever follows. -/
theorem reads_of_decode {γ : Type} {decode : List χ → γ × List χ} {x x' : γ}
    (ht : ∀ r, decode (t ++ r) = (x, r)) (ht' : ∀ r, decode (t' ++ r) = (x', r)) :
    Reads after t t' (x = x') := by
  intro r r' _ _ heq
  have hdecode : (x, r) = (x', r') := by
    rw [← ht r, ← ht' r', heq]
  exact Prod.mk.inj hdecode

end Rules

/-- The next symbol, if there is one, is not in the class. -/
def Outside (p : χ → Bool) (r : List χ) : Prop := ∀ c ∈ r.head?, p c = false

theorem outside_cons {p : χ → Bool} {c : χ} (hc : p c = false) (r : List χ) :
    Outside p (c :: r) := by
  intro d hd
  rw [← Option.some.inj hd]
  exact hc

theorem takeWhile_append_of_outside {p : χ → Bool} {t r : List χ} (ht : ∀ c ∈ t, p c = true)
    (hr : Outside p r) : (t ++ r).takeWhile p = t := by
  rw [List.takeWhile_append_of_pos ht]
  cases r with
  | nil => rw [List.takeWhile_nil, List.append_nil]
  | cons c rest =>
    have hc : p c = false := hr c rfl
    rw [List.takeWhile_cons_of_neg (by rw [hc]; decide), List.append_nil]

/-- A text of symbols of one class ends where a symbol outside the class follows. -/
theorem reads_run {p : χ → Bool} {t t' : List χ} (ht : ∀ c ∈ t, p c = true)
    (ht' : ∀ c ∈ t', p c = true) : Reads (Outside p) t t' (t = t') := by
  intro r r' hr hr' heq
  have hsame : t = t' := by
    rw [← takeWhile_append_of_outside ht hr, heq, takeWhile_append_of_outside ht' hr']
  rw [hsame] at heq
  exact ⟨hsame, List.append_cancel_left heq⟩

/-! ## Elements up to a closing symbol -/

/-- The text begins, and not with `close`. -/
def Avoids (close : χ) (t : List χ) : Prop := ∃ c rest, t = c :: rest ∧ c ≠ close

/-- Elements one after the other, up to a closing symbol that none of them begins with. -/
theorem reads_delimited {enc : α → List χ} {close : χ}
    (hread : ∀ x y, Reads Anything (enc x) (enc y) (x = y)) (havoids : ∀ x, Avoids close (enc x))
    (xs ys : List α) :
    Reads Anything (xs.flatMap enc ++ [close]) (ys.flatMap enc ++ [close]) (xs = ys) := by
  induction xs generalizing ys with
  | nil =>
    cases ys with
    | nil => exact reads_refl rfl
    | cons y ys =>
      obtain ⟨c, rest, hy, hne⟩ := havoids y
      rw [List.flatMap_cons, hy]
      exact reads_of_ne (Ne.symm hne)
  | cons x xs ih =>
    cases ys with
    | nil =>
      obtain ⟨c, rest, hx, hne⟩ := havoids x
      rw [List.flatMap_cons, hx]
      exact reads_of_ne hne
    | cons y ys =>
      rw [List.flatMap_cons, List.flatMap_cons, List.append_assoc, List.append_assoc]
      refine Reads.imp (Reads.append (hread x y) (ih ys) (fun _ _ => trivial)
        fun _ _ => trivial) ?_
      rintro ⟨rfl, rfl⟩
      rfl

section Separated

variable {sep close : χ} {enc : α → List χ} {enc' : β → List χ}

/-- The elements, separated, and the closing symbol. -/
def separated (sep close : χ) (enc : α → List χ) (xs : List α) : List χ :=
  ((xs.map enc).intersperse [sep]).flatten ++ [close]

/-- What follows the first element. -/
def separatedTail (sep close : χ) (enc : α → List χ) : List α → List χ
  | [] => [close]
  | x :: xs => sep :: separated sep close enc (x :: xs)

theorem separated_cons (x : α) (xs : List α) :
    separated sep close enc (x :: xs) = enc x ++ separatedTail sep close enc xs := by
  cases xs with
  | nil =>
    show (enc x ++ []) ++ [close] = enc x ++ [close]
    rw [List.append_nil]
  | cons y ys =>
    show (enc x ++ ([sep] ++ ((List.map enc (y :: ys)).intersperse [sep]).flatten)) ++ [close] = _
    rw [List.append_assoc, List.append_assoc]
    rfl

/-- A list of elements that avoid the closing symbol is not read as the empty list. -/
theorem close_ne_separated {y : β} (ys : List β) (hy : Avoids close (enc' y)) (r r' : List χ) :
    close :: r ≠ separated sep close enc' (y :: ys) ++ r' := by
  obtain ⟨c, rest, hyc, hne⟩ := hy
  rw [separated_cons, hyc]
  exact fun heq => hne (List.cons.inj heq).1.symm

/-- Induction on the first list: an element is read up to the separator or the closing symbol that
    follows it, and which of the two it is says whether the list goes on. -/
theorem reads_separated {R : α → β → Prop} {after : List χ → Prop} (hne : sep ≠ close)
    (hsep : ∀ r, after (sep :: r)) (hclose : ∀ r, after (close :: r)) {xs : List α} {ys : List β}
    (hread : ∀ x ∈ xs, ∀ y ∈ ys, Reads after (enc x) (enc' y) (R x y))
    (hxs : ∀ x ∈ xs, Avoids close (enc x)) (hys : ∀ y ∈ ys, Avoids close (enc' y)) :
    Reads Anything (separated sep close enc xs) (separated sep close enc' ys)
      (List.Forall₂ R xs ys) := by
  induction xs generalizing ys with
  | nil =>
    cases ys with
    | nil => exact reads_refl List.Forall₂.nil
    | cons y ys =>
      intro r r' _ _ heq
      exact absurd heq (close_ne_separated ys (hys y List.mem_cons_self) r r')
  | cons x xs ih =>
    cases ys with
    | nil =>
      intro r r' _ _ heq
      exact absurd heq.symm (close_ne_separated xs (hxs x List.mem_cons_self) r' r)
    | cons y ys =>
      have hafter : ∀ {γ : Type} (enc : γ → List χ) (zs : List γ) r,
          after (separatedTail sep close enc zs ++ r) := by
        intro γ enc zs r
        cases zs with
        | nil => exact hclose _
        | cons z zs => exact hsep _
      have htail : Reads Anything (separatedTail sep close enc xs)
          (separatedTail sep close enc' ys) (List.Forall₂ R xs ys) := by
        have hrest := @ih ys
          (fun a ha b hb => hread a (List.mem_cons_of_mem _ ha) b (List.mem_cons_of_mem _ hb))
          (fun a ha => hxs a (List.mem_cons_of_mem _ ha))
          (fun b hb => hys b (List.mem_cons_of_mem _ hb))
        cases xs with
        | nil =>
          cases ys with
          | nil => exact reads_refl List.Forall₂.nil
          | cons b bs => exact reads_of_ne (Ne.symm hne)
        | cons a as =>
          cases ys with
          | nil => exact reads_of_ne hne
          | cons b bs => exact hrest.symbol sep
      rw [separated_cons, separated_cons]
      refine Reads.imp (Reads.append (hread x List.mem_cons_self y List.mem_cons_self) htail
        (fun r _ => hafter enc xs r) fun r _ => hafter enc' ys r) ?_
      rintro ⟨hR, hrest⟩
      exact List.Forall₂.cons hR hrest

end Separated

/-! ## Endings -/

/-- No ending is a part of another ending's end. -/
def SuffixFree (endings : List (List χ)) : Prop :=
  ∀ e ∈ endings, ∀ e' ∈ endings, e <:+ e' → e = e'

instance [DecidableEq χ] (endings : List (List χ)) : Decidable (SuffixFree endings) :=
  inferInstanceAs (Decidable (∀ e ∈ endings, ∀ e' ∈ endings, e <:+ e' → e = e'))

/-- Read from its end, a text is told apart into its ending and whatever is in front. -/
theorem append_inj_of_suffixFree {endings : List (List χ)} (hfree : SuffixFree endings)
    {t t' e e' : List χ} (he : e ∈ endings) (he' : e' ∈ endings) (heq : t ++ e = t' ++ e') :
    t = t' ∧ e = e' := by
  have hsuffix : e <:+ t ++ e := List.suffix_append t e
  have hsuffix' : e' <:+ t ++ e := by
    rw [heq]
    exact List.suffix_append t' e'
  have hsame : e = e' := by
    rcases List.suffix_or_suffix_of_suffix hsuffix hsuffix' with hpart | hpart
    · exact hfree e he e' he' hpart
    · exact (hfree e' he' e he hpart).symm
  subst hsame
  exact ⟨List.append_cancel_right heq, rfl⟩

end UniqueReading
