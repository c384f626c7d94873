/-
  The REPR of the keys a program sorts by: texts, and tuples of keys.

  `repr` of a text quotes it, with the quotation mark the text leaves free, and escapes what is not
  printable; `repr` of a tuple puts its elements between parentheses, with a comma behind the only
  one.  Which characters beyond ASCII are printable is a matter of the interpreter's Unicode tables
  (`UnicodeTables`).

  1. `reads_reprStr` — a quoted text is read back one character at a time: a decoder (`unescapeRepr`)
     undoes `reprChar`, whatever the tables say.

  2. `reads_repr` — and so is a key, by induction on it.

  3. `pyRepr_injective` — different keys have different reprs, so that sorting by `repr` never ties.
-/
import PoiexGoc.Lib.CanonicalText

namespace Py

open UniqueReading

/-- The characters beyond ASCII that `str.isprintable` accepts. -/
class UnicodeTables where
  isPrintable : Char → Bool

/-- The tables concrete runs are evaluated with: right up to U+00FF. -/
instance latin1 : UnicodeTables where
  isPrintable c := decide (161 ≤ c.toNat ∧ c.toNat ≠ 173)

/-- A text, or a tuple of keys. -/
inductive PyKey where
  | str (s : String)
  | tuple (elems : List PyKey)

/-! ## `repr(...)` -/

def apostrophe : Char := Char.ofNat 39

/-- The mark a text is quoted with: an apostrophe, unless the text has apostrophes and no double
    quotes. -/
def quoteOf (s : String) : Char :=
  if apostrophe ∈ s.toList ∧ '"' ∉ s.toList then '"' else apostrophe

def reprChar [UnicodeTables] (quote c : Char) : List Char :=
  let n := c.toNat
  if c = quote ∨ c = '\\' then ['\\', c]
  else if n = 9 then ['\\', 't']
  else if n = 10 then ['\\', 'n']
  else if n = 13 then ['\\', 'r']
  else if n < 32 ∨ n = 127 then '\\' :: 'x' :: hexLower 2 n
  else if n < 127 ∨ UnicodeTables.isPrintable c then [c]
  else if n < 256 then '\\' :: 'x' :: hexLower 2 n
  else if n < 65536 then '\\' :: 'u' :: hexLower 4 n
  else '\\' :: 'U' :: hexLower 8 n

def reprStr [UnicodeTables] (s : String) : List Char :=
  quoteOf s :: (s.toList.flatMap (reprChar (quoteOf s)) ++ [quoteOf s])

/-- What follows the first element of a tuple. -/
def tupleRest : List (List Char) → List Char
  | [] => [',', ')']
  | texts => texts.flatMap (fun text => ',' :: ' ' :: text) ++ [')']

def tupleText : List (List Char) → List Char
  | [] => ['(', ')']
  | text :: texts => '(' :: (text ++ tupleRest texts)

mutual

def PyKey.reprText [UnicodeTables] : PyKey → List Char
  | .str s => reprStr s
  | .tuple elems => tupleText (reprTexts elems)

def reprTexts [UnicodeTables] : List PyKey → List (List Char)
  | [] => []
  | key :: keys => key.reprText :: reprTexts keys

end

theorem reprTexts_eq [UnicodeTables] (keys : List PyKey) :
    reprTexts keys = keys.map PyKey.reprText := by
  induction keys with
  | nil => rfl
  | cons key keys ih => rw [reprTexts, ih, List.map_cons]

/-- `repr(key)`. -/
def pyRepr [UnicodeTables] (key : PyKey) : String := String.ofList key.reprText

example : pyRepr (.tuple [.tuple [.str "it's", .str "a\tb"], .str "\"'"]) =
    "((\"it's\", 'a\\tb'), '\"\\'')" := by decide +kernel

/-! ## Texts are read back -/

/-- The number a run of hexadecimal digits stands for, after the digits read before it. -/
def hexNumber : Nat → List Char → Nat := List.foldl fun acc c => 16 * acc + hexValue c

theorem hexNumber_hexLower (width n acc : Nat) :
    hexNumber acc (hexLower width n) = 16 ^ width * acc + n % 16 ^ width := by
  induction width generalizing acc with
  | zero => rw [Nat.pow_zero, Nat.mod_one, Nat.one_mul]; rfl
  | succ width ih =>
    have hdigits : hexLower (width + 1) n =
        Sha256.hexDigit (n / 16 ^ width % 16) :: hexLower width n := by
      rw [hexLower, List.range_succ, List.reverse_append]
      rfl
    have hdigit : hexValue (Sha256.hexDigit (n / 16 ^ width % 16)) = n / 16 ^ width % 16 :=
      hexValue_hexDigit (Nat.mod_lt _ (by decide))
    rw [hdigits]
    show hexNumber (16 * acc + hexValue _) _ = _
    rw [ih, hdigit, Nat.mod_pow_succ, Nat.pow_succ, Nat.mul_add, ← Nat.mul_assoc, Nat.add_assoc,
      Nat.add_comm (n % 16 ^ width)]

theorem length_hexLower (width n : Nat) : (hexLower width n).length = width := by
  rw [hexLower, List.length_map, List.length_reverse, List.length_range]

/-- The digits of a number, and what follows them. -/
def readHex (width : Nat) (text : List Char) : Nat × List Char :=
  (hexNumber 0 (text.take width), text.drop width)

theorem readHex_hexLower {width n : Nat} (hn : n < 16 ^ width) (rest : List Char) :
    readHex width (hexLower width n ++ rest) = (n, rest) := by
  have hlength := length_hexLower width n
  rw [readHex, List.take_left' hlength, List.drop_left' hlength, hexNumber_hexLower,
    Nat.mod_eq_of_lt hn, Nat.mul_zero, Nat.zero_add]

/-- The first character of an escaped text, by its code point. -/
def unescapeRepr : List Char → Nat × List Char
  | [] => (0, [])
  | [c] => (c.toNat, [])
  | c :: d :: rest =>
    if c = '\\' then
      if d = 'x' then readHex 2 rest
      else if d = 'u' then readHex 4 rest
      else if d = 'U' then readHex 8 rest
      else (if d = 't' then 9 else if d = 'n' then 10 else if d = 'r' then 13 else d.toNat, rest)
    else (c.toNat, d :: rest)

theorem unescapeRepr_of_ne {c : Char} (hc : c ≠ '\\') (rest : List Char) :
    unescapeRepr (c :: rest) = (c.toNat, rest) := by
  cases rest with
  | nil => rfl
  | cons d rest => rw [unescapeRepr, if_neg hc]

/-- The two marks, of which neither begins an escape's name. -/
def IsQuote (quote : Char) : Prop := quote = apostrophe ∨ quote = '"'

theorem isQuote_quoteOf (s : String) : IsQuote (quoteOf s) := by
  unfold quoteOf
  split
  · exact Or.inr rfl
  · exact Or.inl rfl

section Decoding

variable [UnicodeTables] {quote : Char}

/-- The decoder undoes the escape, whatever follows it. -/
theorem unescapeRepr_reprChar (hquote : IsQuote quote) (c : Char) (rest : List Char) :
    unescapeRepr (reprChar quote c ++ rest) = (c.toNat, rest) := by
  have hbound := toNat_lt c
  unfold reprChar
  simp only
  split
  · -- a mark or a backslash stands for itself
    rename_i hc
    rcases hc with rfl | rfl
    · rcases hquote with rfl | rfl <;> rfl
    · rfl
  rename_i hc
  have hplain : c ≠ '\\' := fun h => hc (Or.inr h)
  split
  · rename_i hn
    rw [hn]
    rfl
  split
  · rename_i hn
    rw [hn]
    rfl
  split
  · rename_i hn
    rw [hn]
    rfl
  split
  · exact readHex_hexLower (show c.toNat < 16 ^ 2 by omega) rest
  split
  · exact unescapeRepr_of_ne hplain rest
  split
  · exact readHex_hexLower (show c.toNat < 16 ^ 2 by omega) rest
  split
  · exact readHex_hexLower (show c.toNat < 16 ^ 4 by omega) rest
  · exact readHex_hexLower (show c.toNat < 16 ^ 8 by omega) rest

theorem reads_reprChar (hquote : IsQuote quote) (c d : Char) :
    Reads Anything (reprChar quote c) (reprChar quote d) (c = d) :=
  Reads.imp (reads_of_decode (unescapeRepr_reprChar hquote c) (unescapeRepr_reprChar hquote d))
    Char.toNat_inj.mp

/-- No escape begins with the quotation mark. -/
theorem reprChar_avoids_quote (hquote : IsQuote quote) (c : Char) :
    Avoids quote (reprChar quote c) := by
  have hbackslash : ∀ rest, Avoids quote ('\\' :: rest) := by
    intro rest
    refine ⟨'\\', rest, rfl, ?_⟩
    rcases hquote with rfl | rfl <;> decide
  unfold reprChar
  simp only
  split
  · exact hbackslash _
  rename_i hc
  split
  · exact hbackslash _
  split
  · exact hbackslash _
  split
  · exact hbackslash _
  split
  · exact hbackslash _
  split
  · exact ⟨c, [], rfl, fun h => hc (Or.inl h)⟩
  split
  · exact hbackslash _
  split
  · exact hbackslash _
  · exact hbackslash _

theorem reads_reprStr (s s' : String) :
    Reads Anything (reprStr s) (reprStr s') (s = s') := by
  by_cases hquote : quoteOf s = quoteOf s'
  · rw [reprStr, reprStr, hquote]
    refine Reads.symbol _ (Reads.imp (reads_delimited (reads_reprChar (isQuote_quoteOf s'))
      (reprChar_avoids_quote (isQuote_quoteOf s')) s.toList s'.toList) String.toList_inj.mp)
  · exact reads_of_ne hquote

end Decoding

/-! ## Keys are read back -/

section Keys

variable [UnicodeTables]

/-- No repr begins with the closing parenthesis. -/
theorem reprText_avoids (key : PyKey) : Avoids ')' key.reprText := by
  cases key with
  | str s =>
    refine ⟨quoteOf s, _, rfl, ?_⟩
    rcases isQuote_quoteOf s with h | h <;> (rw [h]; decide)
  | tuple elems =>
    rw [PyKey.reprText]
    cases reprTexts elems with
    | nil => exact ⟨'(', _, rfl, by decide⟩
    | cons text texts => exact ⟨'(', _, rfl, by decide⟩

/-- The elements behind the first one, up to the closing parenthesis. -/
theorem reads_flatMap_texts {keys keys' : List PyKey}
    (hread : ∀ x ∈ keys, ∀ y ∈ keys', Reads Anything x.reprText y.reprText (x = y)) :
    Reads Anything ((keys.map PyKey.reprText).flatMap (fun text => ',' :: ' ' :: text) ++ [')'])
      ((keys'.map PyKey.reprText).flatMap (fun text => ',' :: ' ' :: text) ++ [')'])
      (keys = keys') := by
  induction keys generalizing keys' with
  | nil =>
    cases keys' with
    | nil => exact reads_refl rfl
    | cons y keys' => exact reads_of_ne (by decide)
  | cons x keys ih =>
    cases keys' with
    | nil => exact reads_of_ne (by decide)
    | cons y keys' =>
      rw [List.map_cons, List.map_cons, List.flatMap_cons, List.flatMap_cons, List.append_assoc,
        List.append_assoc]
      have htail := @ih keys'
        fun a ha b hb => hread a (List.mem_cons_of_mem _ ha) b (List.mem_cons_of_mem _ hb)
      have hboth := Reads.append (hread x List.mem_cons_self y List.mem_cons_self) htail
        (fun _ _ => trivial) fun _ _ => trivial
      refine ((hboth.symbol ' ').symbol ',').imp ?_
      rintro ⟨rfl, rfl⟩
      rfl

theorem reads_tupleRest {keys keys' : List PyKey}
    (hread : ∀ x ∈ keys, ∀ y ∈ keys', Reads Anything x.reprText y.reprText (x = y)) :
    Reads Anything (tupleRest (keys.map PyKey.reprText)) (tupleRest (keys'.map PyKey.reprText))
      (keys = keys') := by
  cases keys with
  | nil =>
    cases keys' with
    | nil => exact reads_refl rfl
    | cons y keys' =>
      -- behind the comma: the closing parenthesis, or a blank
      exact Reads.symbol ',' (reads_of_ne (by decide))
  | cons x keys =>
    cases keys' with
    | nil => exact Reads.symbol ',' (reads_of_ne (by decide))
    | cons y keys' => exact reads_flatMap_texts hread

theorem reads_tupleText {keys keys' : List PyKey}
    (hread : ∀ x ∈ keys, ∀ y ∈ keys', Reads Anything x.reprText y.reprText (x = y)) :
    Reads Anything (tupleText (keys.map PyKey.reprText)) (tupleText (keys'.map PyKey.reprText))
      (keys = keys') := by
  have hopen : ∀ (z : PyKey) (rest : List Char),
      ∃ c text, z.reprText ++ rest = c :: text ∧ c ≠ ')' := by
    intro z rest
    obtain ⟨c, text, hz, hne⟩ := reprText_avoids z
    exact ⟨c, text ++ rest, by rw [hz]; rfl, hne⟩
  cases keys with
  | nil =>
    cases keys' with
    | nil => exact reads_refl rfl
    | cons y keys' =>
      obtain ⟨c, text, hy, hne⟩ := hopen y (tupleRest (keys'.map PyKey.reprText))
      rw [List.map_cons, tupleText, hy]
      exact Reads.symbol '(' (reads_of_ne (Ne.symm hne))
  | cons x keys =>
    cases keys' with
    | nil =>
      obtain ⟨c, text, hx, hne⟩ := hopen x (tupleRest (keys.map PyKey.reprText))
      rw [List.map_cons, tupleText, hx]
      exact Reads.symbol '(' (reads_of_ne hne)
    | cons y keys' =>
      have hrest := @reads_tupleRest _ keys keys'
        fun a ha b hb => hread a (List.mem_cons_of_mem _ ha) b (List.mem_cons_of_mem _ hb)
      have hboth := Reads.append (hread x List.mem_cons_self y List.mem_cons_self) hrest
        (fun _ _ => trivial) fun _ _ => trivial
      refine (hboth.symbol '(').imp ?_
      rintro ⟨rfl, rfl⟩
      rfl

/-- A text begins with a quotation mark, a tuple with a parenthesis. -/
theorem reads_str_tuple (s : String) (elems : List PyKey) {P : Prop} :
    Reads Anything (PyKey.str s).reprText (PyKey.tuple elems).reprText P ∧
      Reads Anything (PyKey.tuple elems).reprText (PyKey.str s).reprText P := by
  have hopen : ∃ rest, (PyKey.tuple elems).reprText = '(' :: rest := by
    rw [PyKey.reprText]
    cases reprTexts elems with
    | nil => exact ⟨_, rfl⟩
    | cons text texts => exact ⟨_, rfl⟩
  obtain ⟨rest, hrest⟩ := hopen
  have hne : quoteOf s ≠ '(' := by
    rcases isQuote_quoteOf s with h | h <;> (rw [h]; decide)
  rw [hrest]
  exact ⟨reads_of_ne hne, reads_of_ne (Ne.symm hne)⟩

theorem reads_repr : ∀ x y : PyKey, Reads Anything x.reprText y.reprText (x = y)
  | .str s, .str s' => Reads.imp (reads_reprStr s s') (congrArg PyKey.str)
  | .str s, .tuple elems => (reads_str_tuple s elems).1
  | .tuple elems, .str s => (reads_str_tuple s elems).2
  | .tuple elems, .tuple elems' => by
    rw [PyKey.reprText, PyKey.reprText, reprTexts_eq, reprTexts_eq]
    have hread : ∀ x ∈ elems, ∀ y ∈ elems', Reads Anything x.reprText y.reprText (x = y) :=
      fun x _ y _ => reads_repr x y
    exact Reads.imp (reads_tupleText hread) (congrArg PyKey.tuple)

/-- Different keys have different reprs. -/
theorem pyRepr_injective : Function.Injective pyRepr := by
  intro x y heq
  have htext : x.reprText = y.reprText := String.ofList_inj.mp heq
  exact (reads_repr x y [] [] trivial trivial (congrArg (· ++ []) htext)).1

end Keys

end Py
