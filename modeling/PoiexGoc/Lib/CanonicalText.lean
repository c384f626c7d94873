/-
  The CANONICAL TEXT of a JSON tree determines the tree.

  A tree is built from None, booleans, integers, strings, lists and dicts whose keys are distinct
  (`IsTree`); two trees are the same when they differ in the order of dict entries only
  (`SameTree`).

  1. `reads_jsonString` — the escapes of a string are read back one character at a time: a decoder
     of one character (`unescape`) undoes `escapeChar`, surrogate pairs included.

  2. `reads_intText` — an integer's digits end where something that is no digit follows.

  3. `reads_jsonText` — and so a whole tree is read back, up to the order of dict entries.

  4. `jsonDumps_eq_iff` — with the converse: two trees have the same text exactly when they are the
     same tree.  This is about the encoder without a limit on digits, for which every tree has a
     text.

  5. `jsonDumpsWith_eq_ok_iff` — under a limit the text is the same one, and there is one exactly
     when each integer of the tree is within the limit.

  6. `canonicalHash_eq_iff` — a payload whose values are texts, integers and sets of texts is
     hashed as a tree, so without a collision its hash stands for all of its fields.
-/
import Mathlib.Data.List.Forall2
import PoiexGoc.Lib.PyValue
import PoiexGoc.Lib.Reordering
import PoiexGoc.Lib.UniqueReading

namespace Py

open UniqueReading

/-! ## Strings -/

def hexValue (c : Char) : Nat := if c.isDigit then c.toNat - 48 else c.toNat - 87

/-- Four hexadecimal digits, and what follows them. -/
def readHex4 : List Char → Nat × List Char
  | a :: b :: c :: d :: rest =>
    (4096 * hexValue a + 256 * hexValue b + 16 * hexValue c + hexValue d, rest)
  | rest => (0, rest)

theorem hexValue_hexDigit {k : Nat} (hk : k < 16) : hexValue (Sha256.hexDigit k) = k := by
  have hall : ∀ j < 16, hexValue (Sha256.hexDigit j) = j := by decide
  exact hall k hk

theorem readHex4_hexLower {n : Nat} (hn : n < 65536) (rest : List Char) :
    readHex4 (hexLower 4 n ++ rest) = (n, rest) := by
  have hdigits : hexLower 4 n = [Sha256.hexDigit (n / 4096 % 16), Sha256.hexDigit (n / 256 % 16),
      Sha256.hexDigit (n / 16 % 16), Sha256.hexDigit (n / 1 % 16)] := rfl
  have hmod : ∀ k, k % 16 < 16 := fun k => Nat.mod_lt k (by decide)
  rw [hdigits]
  show (_, rest) = _
  rw [hexValue_hexDigit (hmod _), hexValue_hexDigit (hmod _), hexValue_hexDigit (hmod _),
    hexValue_hexDigit (hmod _)]
  congr 1
  omega

/-- The code point after `\u`: one unit, or a surrogate pair. -/
def readUnicode (text : List Char) : Nat × List Char :=
  if 55296 ≤ (readHex4 text).1 ∧ (readHex4 text).1 < 56320 then
    (65536 + 1024 * ((readHex4 text).1 - 55296) +
        ((readHex4 ((readHex4 text).2.drop 2)).1 - 56320),
      (readHex4 ((readHex4 text).2.drop 2)).2)
  else readHex4 text

theorem readUnicode_unit {n : Nat} (hn : n < 65536) (hunit : ¬ (55296 ≤ n ∧ n < 56320))
    (rest : List Char) : readUnicode (hexLower 4 n ++ rest) = (n, rest) := by
  rw [readUnicode, readHex4_hexLower hn]
  exact if_neg hunit

theorem readUnicode_pair {high low : Nat} (hhigh : 55296 ≤ high ∧ high < 56320)
    (hlow : low < 65536) (rest : List Char) :
    readUnicode (hexLower 4 high ++ '\\' :: 'u' :: (hexLower 4 low ++ rest)) =
      (65536 + 1024 * (high - 55296) + (low - 56320), rest) := by
  rw [readUnicode, readHex4_hexLower (show high < 65536 by omega), if_pos hhigh]
  show (_ + ((readHex4 (hexLower 4 low ++ rest)).1 - 56320),
    (readHex4 (hexLower 4 low ++ rest)).2) = _
  rw [readHex4_hexLower hlow]

/-- The code point of a one-letter escape. -/
def shortEscape (c : Char) : Nat :=
  if c = 'n' then 10 else if c = 'r' then 13 else if c = 't' then 9
  else if c = 'f' then 12 else if c = 'b' then 8 else c.toNat

/-- The first character of an escaped text, by its code point. -/
def unescape : List Char → Nat × List Char
  | [] => (0, [])
  | [c] => (c.toNat, [])
  | c :: d :: rest =>
    if c = '\\' then
      if d = 'u' then readUnicode rest else (shortEscape d, rest)
    else (c.toNat, d :: rest)

theorem unescape_of_ne {c : Char} (hc : c ≠ '\\') (rest : List Char) :
    unescape (c :: rest) = (c.toNat, rest) := by
  cases rest with
  | nil => rfl
  | cons d rest => rw [unescape, if_neg hc]

theorem unescape_unicode (text : List Char) : unescape ('\\' :: 'u' :: text) = readUnicode text := by
  rw [unescape, if_pos rfl, if_pos rfl]

/-- A character has no surrogate code point. -/
theorem toNat_not_surrogate (c : Char) : ¬ (55296 ≤ c.toNat ∧ c.toNat < 57344) := by
  rintro ⟨hlow, hhigh⟩
  rcases c.valid with hvalid | ⟨hvalid, -⟩
  · exact absurd hvalid (Nat.not_lt.mpr hlow)
  · exact absurd (show 57343 < c.toNat from hvalid) (by omega)

theorem toNat_lt (c : Char) : c.toNat < 1114112 := by
  rcases c.valid with hvalid | ⟨-, hvalid⟩
  · exact Nat.lt_trans hvalid (by decide)
  · exact hvalid

/-- The decoder undoes the escape, whatever follows it. -/
theorem unescape_escapeChar (c : Char) (rest : List Char) :
    unescape (escapeChar c ++ rest) = (c.toNat, rest) := by
  have hvalid := toNat_not_surrogate c
  have hbound := toNat_lt c
  unfold escapeChar
  simp only
  split
  · rename_i hc
    rw [hc]
    rfl
  split
  · rename_i hc
    rw [hc]
    rfl
  split
  · rename_i hc _
    exact unescape_of_ne hc rest
  split
  · rename_i hn
    rw [hn]
    rfl
  split
  · rename_i hn
    rw [hn]
    rfl
  split
  · rename_i hn
    rw [hn]
    rfl
  split
  · rename_i hn
    rw [hn]
    rfl
  split
  · rename_i hn
    rw [hn]
    rfl
  split
  · -- one unit: it is no high surrogate
    rename_i hn
    simp only [List.cons_append]
    rw [unescape_unicode]
    exact readUnicode_unit hn (by omega) rest
  · -- two units: the first one is a high surrogate
    rename_i hn
    have hcode : 65536 + 1024 * (55296 + (c.toNat - 65536) / 1024 - 55296) +
        (56320 + (c.toNat - 65536) % 1024 - 56320) = c.toNat := by omega
    simp only [List.cons_append, List.append_assoc]
    rw [unescape_unicode, readUnicode_pair (by omega) (by omega) rest, hcode]

theorem reads_escapeChar (c d : Char) :
    Reads Anything (escapeChar c) (escapeChar d) (c = d) :=
  Reads.imp (reads_of_decode (unescape_escapeChar c) (unescape_escapeChar d)) Char.toNat_inj.mp

/-- No escape begins with a quote. -/
theorem escapeChar_avoids_quote (c : Char) : Avoids '"' (escapeChar c) := by
  have hbackslash : ∀ rest, Avoids '"' ('\\' :: rest) := fun rest => ⟨'\\', rest, rfl, by decide⟩
  unfold escapeChar
  simp only
  split
  · exact hbackslash _
  split
  · exact hbackslash _
  split
  · rename_i hquote _ _
    exact ⟨c, [], rfl, hquote⟩
  split
  · exact hbackslash _
  split
  · exact hbackslash _
  split
  · exact hbackslash _
  split
  · exact hbackslash _
  split
  · exact hbackslash _
  split
  · exact hbackslash _
  · exact hbackslash _

/-- A quoted text is read up to its closing quote. -/
theorem reads_escaped (cs ds : List Char) :
    Reads Anything (cs.flatMap escapeChar ++ ['"']) (ds.flatMap escapeChar ++ ['"']) (cs = ds) :=
  reads_delimited reads_escapeChar escapeChar_avoids_quote cs ds

theorem reads_jsonString (s s' : String) :
    Reads Anything (jsonString s) (jsonString s') (s = s') :=
  Reads.imp ((reads_escaped s.toList s'.toList).symbol '"') String.toList_inj.mp

/-! ## Integers -/

/-- The text of an integer. -/
def intText (i : Int) : List Char := (toString i).toList

theorem intText_ofNat (n : Nat) : intText (Int.ofNat n) = Nat.toDigits 10 n := Nat.toList_repr

theorem intText_negSucc (n : Nat) :
    intText (Int.negSucc n) = '-' :: Nat.toDigits 10 (n + 1) := by
  show ("-" ++ (n + 1).repr).toList = _
  rw [String.toList_append, Nat.toList_repr]
  rfl

theorem toDigits_isDigit (n : Nat) : ∀ c ∈ Nat.toDigits 10 n, c.isDigit = true :=
  fun _ hc => Nat.isDigit_of_mem_toDigits (by decide) (by decide) hc

theorem reads_toDigits (n m : Nat) :
    Reads (Outside Char.isDigit) (Nat.toDigits 10 n) (Nat.toDigits 10 m) (n = m) := by
  refine Reads.imp (reads_run (toDigits_isDigit n) (toDigits_isDigit m)) fun heq => ?_
  rw [← @Nat.ofDigitChars_ten_toDigits n, heq, Nat.ofDigitChars_ten_toDigits]

/-- Digits begin with a digit. -/
theorem toDigits_eq_cons (n : Nat) : ∃ c rest, Nat.toDigits 10 n = c :: rest ∧ c.isDigit = true := by
  cases hdigits : Nat.toDigits 10 n with
  | nil => exact absurd hdigits Nat.toDigits_ne_nil
  | cons c rest => exact ⟨c, rest, rfl, toDigits_isDigit n c (hdigits ▸ List.mem_cons_self)⟩

theorem reads_intText (i j : Int) :
    Reads (Outside Char.isDigit) (intText i) (intText j) (i = j) := by
  have hminus : ∀ {c : Char}, c.isDigit = true → c ≠ '-' := by
    rintro c hc rfl
    exact absurd hc (by decide)
  cases i with
  | ofNat n =>
    cases j with
    | ofNat m =>
      rw [intText_ofNat, intText_ofNat]
      exact Reads.imp (reads_toDigits n m) (congrArg Int.ofNat)
    | negSucc m =>
      obtain ⟨c, rest, hn, hc⟩ := toDigits_eq_cons n
      rw [intText_ofNat, intText_negSucc, hn]
      exact reads_of_ne (hminus hc)
  | negSucc n =>
    cases j with
    | ofNat m =>
      obtain ⟨c, rest, hm, hc⟩ := toDigits_eq_cons m
      rw [intText_ofNat, intText_negSucc, hm]
      exact reads_of_ne (Ne.symm (hminus hc))
    | negSucc m =>
      rw [intText_negSucc, intText_negSucc]
      refine Reads.imp ((reads_toDigits (n + 1) (m + 1)).symbol '-') fun heq => ?_
      rw [Nat.succ.inj heq]

/-! ## Trees -/

/-- A JSON tree; a dict has one entry for each of its keys. -/
inductive IsTree : PyValue → Prop
  | none : IsTree .none
  | bool (b : Bool) : IsTree (.bool b)
  | int (i : Int) : IsTree (.int i)
  | str (s : String) : IsTree (.str s)
  | list {elems : List PyValue} (helems : ∀ v ∈ elems, IsTree v) : IsTree (.list elems)
  | dict {entries : PyDict} (hkeys : (entries.map Prod.fst).Nodup)
      (hentries : ∀ e ∈ entries, IsTree e.2) : IsTree (.dict entries)

/-- Equality up to the order of dict entries: two dicts are the same when, in some order of the
    entries of each, the keys are equal and the values the same. -/
inductive SameTree : PyValue → PyValue → Prop
  | none : SameTree .none .none
  | bool (b : Bool) : SameTree (.bool b) (.bool b)
  | int (i : Int) : SameTree (.int i) (.int i)
  | str (s : String) : SameTree (.str s) (.str s)
  | list {elems elems' : List PyValue} (helems : List.Forall₂ SameTree elems elems') :
      SameTree (.list elems) (.list elems')
  | dict {entries entries' order order' : PyDict} (hperm : entries.Perm order)
      (hperm' : entries'.Perm order') (hkeys : order.map Prod.fst = order'.map Prod.fst)
      (hvalues : List.Forall₂ SameTree (order.map Prod.snd) (order'.map Prod.snd)) :
      SameTree (.dict entries) (.dict entries')

/-- The text of a value, as it is without a limit on digits. -/
def jsonText (v : PyValue) : List Char := (jsonDumpsWith 0 v).toOption.getD []

theorem mapM_eq_ok_map {α β ε : Type} {f : α → Except ε β} {g : α → β} {l : List α}
    (hf : ∀ x ∈ l, f x = .ok (g x)) : l.mapM f = .ok (l.map g) := by
  induction l with
  | nil => rfl
  | cons x l ih =>
    rw [List.mapM_cons, hf x List.mem_cons_self, ih fun y hy => hf y (List.mem_cons_of_mem _ hy)]
    rfl

/-- The text of a dict entry. -/
def entryText (e : String × PyValue) : List Char := jsonString e.1 ++ ':' :: jsonText e.2

/-- Sorting the members of a dict sorts its entries. -/
theorem sortedMembers_map {β γ : Type} (f : String × β → String × γ) (hf : ∀ e, (f e).1 = e.1)
    (entries : List (String × β)) :
    sortedMembers (entries.map f) = (sortedMembers entries).map f := by
  refine (List.map_insertionSort _ _ f entries fun a _ b _ => ?_).symm
  show a.1 ≤ b.1 ↔ (f a).1 ≤ (f b).1
  rw [hf, hf]

theorem jsonDumps_list {limit : Nat} {elems : List PyValue}
    (helems : ∀ v ∈ elems, jsonDumpsWith limit v = .ok (jsonText v)) :
    jsonDumpsWith limit (.list elems) = .ok (bracketed '[' ']' (elems.map jsonText)) := by
  rw [jsonDumpsWith, jsonDumpsList_eq, mapM_eq_ok_map helems]
  rfl

theorem jsonDumps_dict {limit : Nat} {entries : PyDict}
    (hentries : ∀ e ∈ entries, jsonDumpsWith limit e.2 = .ok (jsonText e.2)) :
    jsonDumpsWith limit (.dict entries) =
      .ok (bracketed '\x7b' '\x7d' ((sortedMembers entries).map entryText)) := by
  have hmembers : ∀ e ∈ sortedMembers entries,
      memberText (e.1, jsonDumpsWith limit e.2) = .ok (entryText e) := by
    intro e he
    rw [memberText, hentries e ((List.mem_insertionSort _).mp he)]
    rfl
  have hsorted : sortedMembers (entries.map fun e => (e.1, jsonDumpsWith limit e.2)) =
      (sortedMembers entries).map fun e => (e.1, jsonDumpsWith limit e.2) :=
    sortedMembers_map (fun e : String × PyValue => (e.1, jsonDumpsWith limit e.2)) (fun _ => rfl)
      entries
  rw [jsonDumpsWith, jsonDumpsEntries_eq, hsorted, List.mapM_map]
  show (List.mapM (fun e : String × PyValue => memberText (e.1, jsonDumpsWith limit e.2)) _).map _ =
    _
  rw [mapM_eq_ok_map hmembers]
  rfl

theorem jsonDumps_int {limit : Nat} {i : Int} (hi : WithinDigits limit i) :
    jsonDumpsWith limit (.int i) = .ok (intText i) := by
  rw [jsonDumpsWith, if_pos hi]
  rfl

/-- Without a limit every tree has a text. -/
theorem jsonDumps_isTree {v : PyValue} (hv : IsTree v) :
    jsonDumpsWith 0 v = .ok (jsonText v) := by
  induction hv with
  | none => rfl
  | bool b => rfl
  | int i => rw [jsonText, jsonDumps_int (withinDigits_zero i)]; rfl
  | str s => rfl
  | list _ ih => rw [jsonText, jsonDumps_list ih]; rfl
  | dict _ _ ih => rw [jsonText, jsonDumps_dict ih]; rfl

theorem jsonText_int (i : Int) : jsonText (.int i) = intText i := by
  rw [jsonText, jsonDumps_int (withinDigits_zero i)]
  rfl

theorem jsonText_list {elems : List PyValue} (helems : ∀ v ∈ elems, IsTree v) :
    jsonText (.list elems) = '[' :: separated ',' ']' jsonText elems := by
  rw [jsonText, jsonDumps_list fun v hv => jsonDumps_isTree (helems v hv)]
  rfl

theorem jsonText_dict {entries : PyDict} (hentries : ∀ e ∈ entries, IsTree e.2) :
    jsonText (.dict entries) = '\x7b' :: separated ',' '\x7d' entryText (sortedMembers entries) := by
  rw [jsonText, jsonDumps_dict fun e he => jsonDumps_isTree (hentries e he)]
  rfl

/-! ## Trees under a limit -/

/-- No integer of the tree has more digits than the limit allows. -/
inductive IntegersWithin (limit : Nat) : PyValue → Prop
  | none : IntegersWithin limit .none
  | bool (b : Bool) : IntegersWithin limit (.bool b)
  | int {i : Int} (hi : WithinDigits limit i) : IntegersWithin limit (.int i)
  | str (s : String) : IntegersWithin limit (.str s)
  | list {elems : List PyValue} (helems : ∀ v ∈ elems, IntegersWithin limit v) :
      IntegersWithin limit (.list elems)
  | dict {entries : PyDict} (hentries : ∀ e ∈ entries, IntegersWithin limit e.2) :
      IntegersWithin limit (.dict entries)

theorem integersWithin_of_isOk {limit : Nat} {v : PyValue} (hv : IsTree v)
    (htext : ∃ text, jsonDumpsWith limit v = .ok text) : IntegersWithin limit v := by
  induction hv with
  | none => exact .none
  | bool b => exact .bool b
  | int i =>
    by_cases hi : WithinDigits limit i
    · exact .int hi
    · obtain ⟨text, htext⟩ := htext
      rw [jsonDumpsWith, if_neg hi] at htext
      cases htext
  | str s => exact .str s
  | list _ ih => exact .list fun v hv => ih v hv (jsonDumpsWith_list_isOk.mp htext v hv)
  | dict _ _ ih => exact .dict fun e he => ih e he (jsonDumpsWith_dict_isOk.mp htext e he)

/-- Within the limit, a tree has the text it has without one. -/
theorem jsonDumps_within {limit : Nat} {v : PyValue} (hv : IsTree v)
    (hdigits : IntegersWithin limit v) : jsonDumpsWith limit v = .ok (jsonText v) := by
  induction hv with
  | none => rfl
  | bool b => rfl
  | int i =>
    cases hdigits with
    | int hi => rw [jsonDumps_int hi, jsonText_int]
  | str s => rfl
  | list helems ih =>
    cases hdigits with
    | list hdigits =>
      rw [jsonDumps_list fun v hv => ih v hv (hdigits v hv), jsonText_list helems]
      rfl
  | dict _ hentries ih =>
    cases hdigits with
    | dict hdigits =>
      rw [jsonDumps_dict fun e he => ih e he (hdigits e he), jsonText_dict hentries]
      rfl

/-- A limit changes no text: it only refuses the trees with an integer beyond it. -/
theorem jsonDumpsWith_eq_ok_iff {limit : Nat} {v : PyValue} (hv : IsTree v) {text : List Char} :
    jsonDumpsWith limit v = .ok text ↔ IntegersWithin limit v ∧ jsonDumpsWith 0 v = .ok text := by
  rw [jsonDumps_isTree hv]
  constructor
  · intro htext
    have hdigits := integersWithin_of_isOk hv ⟨text, htext⟩
    rw [jsonDumps_within hv hdigits] at htext
    exact ⟨hdigits, htext⟩
  · rintro ⟨hdigits, htext⟩
    rw [jsonDumps_within hv hdigits, htext]

/-! ## Reading a tree back -/

/-- The kinds of trees, and of anything else that may stand in a text. -/
inductive Kind where
  | none
  | bool
  | int
  | str
  | list
  | dict
  | other
  deriving DecidableEq

/-- What begins with a character. -/
def opening (c : Char) : Kind :=
  if c = 'n' then .none
  else if c = 't' ∨ c = 'f' then .bool
  else if c = '-' ∨ c.isDigit = true then .int
  else if c = '"' then .str
  else if c = '[' then .list
  else if c = '\x7b' then .dict
  else .other

def kind : PyValue → Kind
  | .none => .none
  | .bool _ => .bool
  | .int _ => .int
  | .str _ => .str
  | .list _ => .list
  | .dict _ => .dict
  | _ => .other

theorem opening_of_isDigit {c : Char} (hc : c.isDigit = true) : opening c = .int := by
  have hn : c ≠ 'n' := by rintro rfl; exact absurd hc (by decide)
  have htf : ¬ (c = 't' ∨ c = 'f') := by
    rintro (rfl | rfl)
    · exact absurd hc (by decide)
    · exact absurd hc (by decide)
  rw [opening, if_neg hn, if_neg htf, if_pos (Or.inr hc)]

/-- The first character of a tree's text tells its kind. -/
theorem jsonText_opening {v : PyValue} (hv : IsTree v) :
    ∃ c rest, jsonText v = c :: rest ∧ opening c = kind v := by
  cases hv with
  | none => exact ⟨'n', _, rfl, rfl⟩
  | bool b =>
    cases b with
    | true => exact ⟨'t', _, rfl, rfl⟩
    | false => exact ⟨'f', _, rfl, rfl⟩
  | int i =>
    cases i with
    | ofNat n =>
      obtain ⟨c, rest, hn, hc⟩ := toDigits_eq_cons n
      exact ⟨c, rest, ((jsonText_int _).trans (intText_ofNat n)).trans hn, opening_of_isDigit hc⟩
    | negSucc n => exact ⟨'-', _, (jsonText_int _).trans (intText_negSucc n), rfl⟩
  | str s => exact ⟨'"', _, rfl, rfl⟩
  | list helems => exact ⟨'[', _, jsonText_list helems, rfl⟩
  | dict _ hentries => exact ⟨'\x7b', _, jsonText_dict hentries, rfl⟩

theorem kind_ne_other {v : PyValue} (hv : IsTree v) : kind v ≠ .other := by
  intro hother
  cases hv <;> cases hother

/-- Trees of different kinds are told apart by the first character. -/
theorem reads_of_kind {v v' : PyValue} (hv : IsTree v) (hv' : IsTree v') (hne : kind v ≠ kind v')
    {after : List Char → Prop} {P : Prop} : Reads after (jsonText v) (jsonText v') P := by
  obtain ⟨c, rest, htext, hc⟩ := jsonText_opening hv
  obtain ⟨c', rest', htext', hc'⟩ := jsonText_opening hv'
  rw [htext, htext']
  refine reads_of_ne fun heq => hne ?_
  rw [← hc, ← hc', heq]

theorem jsonText_avoids {v : PyValue} (hv : IsTree v) : Avoids ']' (jsonText v) := by
  obtain ⟨c, rest, htext, hc⟩ := jsonText_opening hv
  refine ⟨c, rest, htext, ?_⟩
  rintro rfl
  exact kind_ne_other hv (hc.symm.trans (by decide))

theorem entryText_avoids (e : String × PyValue) : Avoids '\x7d' (entryText e) :=
  ⟨'"', _, rfl, by decide⟩

/-- Entries that correspond have the same keys and corresponding values. -/
theorem forall₂_entries {order order' : PyDict}
    (h : List.Forall₂ (fun e e' => e.1 = e'.1 ∧ SameTree e.2 e'.2) order order') :
    order.map Prod.fst = order'.map Prod.fst ∧
      List.Forall₂ SameTree (order.map Prod.snd) (order'.map Prod.snd) := by
  induction h with
  | nil => exact ⟨rfl, List.Forall₂.nil⟩
  | cons hhead _ ih =>
    rw [List.map_cons, List.map_cons, hhead.1, ih.1]
    exact ⟨rfl, List.Forall₂.cons hhead.2 ih.2⟩

/-- A tree is read back up to the order of dict entries, in front of anything that does not go on
    with a digit.  Induction on the tree; trees of different kinds differ at once. -/
theorem reads_jsonText {v : PyValue} (hv : IsTree v) {v' : PyValue} (hv' : IsTree v') :
    Reads (Outside Char.isDigit) (jsonText v) (jsonText v') (SameTree v v') := by
  have hafter : ∀ {c : Char}, c.isDigit = false → ∀ r, Outside Char.isDigit (c :: r) :=
    fun hc r => outside_cons hc r
  induction hv generalizing v' with
  | none =>
    have htree := hv'
    cases hv' with
    | none => exact reads_refl SameTree.none
    | _ => exact reads_of_kind .none htree (by intro h; cases h)
  | bool b =>
    have htree := hv'
    cases hv' with
    | bool b' =>
      cases b with
      | true =>
        cases b' with
        | true => exact reads_refl (SameTree.bool true)
        | false => exact reads_of_ne (by decide)
      | false =>
        cases b' with
        | true => exact reads_of_ne (by decide)
        | false => exact reads_refl (SameTree.bool false)
    | _ => exact reads_of_kind (.bool b) htree (by intro h; cases h)
  | int i =>
    have htree := hv'
    cases hv' with
    | int j =>
      rw [jsonText_int, jsonText_int]
      refine Reads.imp (reads_intText i j) ?_
      rintro rfl
      exact SameTree.int i
    | _ => exact reads_of_kind (.int i) htree (by intro h; cases h)
  | str s =>
    have htree := hv'
    cases hv' with
    | str s' =>
      refine Reads.imp (Reads.weaken (reads_jsonString s s') fun _ _ => trivial) ?_
      rintro rfl
      exact SameTree.str s
    | _ => exact reads_of_kind (.str s) htree (by intro h; cases h)
  | @list elems helems ih =>
    have htree := hv'
    cases hv' with
    | @list elems' helems' =>
      rw [jsonText_list helems, jsonText_list helems']
      have hread : ∀ v ∈ elems, ∀ v' ∈ elems',
          Reads (Outside Char.isDigit) (jsonText v) (jsonText v') (SameTree v v') :=
        fun v hv v' hv' => ih v hv (helems' v' hv')
      have hne : ',' ≠ ']' := by decide
      have hlist := reads_separated hne (hafter (by decide))
        (hafter (by decide)) hread (fun v hv => jsonText_avoids (helems v hv))
        (fun v hv => jsonText_avoids (helems' v hv))
      exact Reads.imp ((hlist.weaken fun _ _ => trivial).symbol '[') SameTree.list
    | _ => exact reads_of_kind (.list helems) htree (by intro h; cases h)
  | @dict entries hkeys hentries ih =>
    have htree := hv'
    cases hv' with
    | @dict entries' hkeys' hentries' =>
      rw [jsonText_dict hentries, jsonText_dict hentries']
      have hmem : ∀ {l : PyDict} {e : String × PyValue}, e ∈ sortedMembers l → e ∈ l :=
        fun he => (List.mem_insertionSort _).mp he
      -- a key ends at its closing quote, a value where the separator or the brace follows
      have hread : ∀ e ∈ sortedMembers entries, ∀ e' ∈ sortedMembers entries',
          Reads (Outside Char.isDigit) (entryText e) (entryText e')
            (e.1 = e'.1 ∧ SameTree e.2 e'.2) := by
        intro e he e' he'
        exact Reads.append (reads_jsonString e.1 e'.1)
          ((ih e (hmem he) (hentries' e' (hmem he'))).symbol ':') (fun _ _ => trivial)
          fun _ _ => trivial
      have hne : ',' ≠ '\x7d' := by decide
      have hlist := reads_separated hne
        (hafter (by decide)) (hafter (by decide)) hread (fun e _ => entryText_avoids e)
        (fun e _ => entryText_avoids e)
      refine Reads.imp ((hlist.weaken fun _ _ => trivial).symbol '\x7b') fun hsame => ?_
      obtain ⟨hsameKeys, hvalues⟩ := forall₂_entries hsame
      exact SameTree.dict (List.perm_insertionSort _ entries).symm
        (List.perm_insertionSort _ entries').symm hsameKeys hvalues
    | _ => exact reads_of_kind (.dict hkeys hentries) htree (by intro h; cases h)

/-! ## The same tree has the same text -/

/-- Members with distinct keys are sorted in one way. -/
theorem sortedMembers_eq_of_perm {β : Type} {l l' : List (String × β)} (hperm : l.Perm l')
    (hkeys : (l.map Prod.fst).Nodup) : sortedMembers l = sortedMembers l' :=
  Reordering.insertionSort_eq_of_perm hperm hkeys

theorem map_eq_of_forall₂ {α β : Type} {R : α → α → Prop} {f : α → β} {l l' : List α}
    (h : List.Forall₂ R l l') (hf : ∀ x ∈ l, ∀ y ∈ l', R x y → f x = f y) :
    l.map f = l'.map f := by
  induction h with
  | nil => rfl
  | cons hhead _ ih =>
    rw [List.map_cons, List.map_cons, hf _ List.mem_cons_self _ List.mem_cons_self hhead,
      ih fun x hx y hy => hf x (List.mem_cons_of_mem _ hx) y (List.mem_cons_of_mem _ hy)]

/-- Entries with the same keys and values of the same texts are written alike. -/
theorem map_texts_eq {order order' : PyDict} (hkeys : order.map Prod.fst = order'.map Prod.fst)
    (htexts : (order.map Prod.snd).map jsonText = (order'.map Prod.snd).map jsonText) :
    (order.map fun e => (e.1, jsonText e.2)) = order'.map fun e => (e.1, jsonText e.2) := by
  have hzip : ∀ l : PyDict, (l.map fun e => (e.1, jsonText e.2)) =
      (l.map Prod.fst).zip ((l.map Prod.snd).map jsonText) := by
    intro l
    induction l with
    | nil => rfl
    | cons e l ih =>
      rw [List.map_cons, ih]
      rfl
  rw [hzip, hzip, hkeys, htexts]

theorem jsonText_eq_of_sameTree {v : PyValue} (hv : IsTree v) {v' : PyValue} (hv' : IsTree v')
    (hsame : SameTree v v') : jsonText v = jsonText v' := by
  induction hv generalizing v' with
  | none =>
    cases hsame
    rfl
  | bool b =>
    cases hsame
    rfl
  | int i =>
    cases hsame
    rfl
  | str s =>
    cases hsame
    rfl
  | list helems ih =>
    cases hsame with
    | list hsame =>
      cases hv' with
      | list helems' =>
        have htexts := map_eq_of_forall₂ hsame fun v hv v' hv' => ih v hv (helems' v' hv')
        rw [jsonText, jsonText, jsonDumps_list fun v hv => jsonDumps_isTree (helems v hv),
          jsonDumps_list fun v hv => jsonDumps_isTree (helems' v hv), htexts]
  | @dict entries hkeys hentries ih =>
    cases hsame with
    | @dict _ entries' order order' hperm hperm' hsameKeys hvalues =>
      cases hv' with
      | dict hkeys' hentries' =>
        -- in the two matching orders the entries are written alike
        have horder := map_texts_eq hsameKeys <| map_eq_of_forall₂ hvalues <| by
          intro v hv v' hv' hsame
          obtain ⟨e, he, rfl⟩ := List.mem_map.mp hv
          obtain ⟨e', he', rfl⟩ := List.mem_map.mp hv'
          exact ih e (hperm.mem_iff.mpr he) (hentries' e' (hperm'.mem_iff.mpr he')) hsame
        have hmembers : (entries.map fun e => (e.1, jsonText e.2)).Perm
            (entries'.map fun e => (e.1, jsonText e.2)) :=
          (hperm.map _).trans (horder ▸ (hperm'.map _).symm)
        have hnodup : ((entries.map fun e => (e.1, jsonText e.2)).map Prod.fst).Nodup := by
          rw [List.map_map]
          exact hkeys
        have hsorted := sortedMembers_eq_of_perm hmembers hnodup
        rw [sortedMembers_map (fun e : String × PyValue => (e.1, jsonText e.2)) (fun _ => rfl),
          sortedMembers_map (fun e : String × PyValue => (e.1, jsonText e.2)) (fun _ => rfl)]
          at hsorted
        have hentryTexts := congrArg
          (List.map fun m : String × List Char => jsonString m.1 ++ ':' :: m.2) hsorted
        rw [List.map_map, List.map_map] at hentryTexts
        rw [jsonText, jsonText, jsonDumps_dict fun e he => jsonDumps_isTree (hentries e he),
          jsonDumps_dict fun e he => jsonDumps_isTree (hentries' e he)]
        exact congrArg (bracketed '\x7b' '\x7d') hentryTexts

/-- Two trees have the same canonical text exactly when they are the same up to the order of dict
    entries. -/
theorem jsonDumps_eq_iff {v v' : PyValue} (hv : IsTree v) (hv' : IsTree v') :
    jsonDumpsWith 0 v = jsonDumpsWith 0 v' ↔ SameTree v v' := by
  rw [jsonDumps_isTree hv, jsonDumps_isTree hv']
  constructor
  · intro htext
    have hend : Outside Char.isDigit [] := by
      intro c hc
      cases hc
    exact (reads_jsonText hv hv' [] [] hend hend (congrArg (· ++ []) (Except.ok.inj htext))).1
  · intro hsame
    rw [jsonText_eq_of_sameTree hv hv' hsame]

/-! ## What the same tree has in common -/

/-- Two lists of texts are the same tree only if they are equal. -/
theorem eq_of_sameTree_strs {l l' : List String}
    (h : SameTree (.list (l.map PyValue.str)) (.list (l'.map PyValue.str))) : l = l' := by
  cases h with
  | list helems =>
    rw [List.forall₂_map_left_iff, List.forall₂_map_right_iff] at helems
    refine List.forall₂_eq_eq_eq ▸ helems.imp ?_
    intro s s' hs
    cases hs
    rfl

/-- Entries that correspond agree on each key, when keys are distinct. -/
theorem sameTree_entries {order order' : PyDict}
    (hkeys : order.map Prod.fst = order'.map Prod.fst)
    (hvalues : List.Forall₂ SameTree (order.map Prod.snd) (order'.map Prod.snd))
    (hnodup : (order.map Prod.fst).Nodup) {e e' : String × PyValue} (he : e ∈ order)
    (he' : e' ∈ order') (hkey : e.1 = e'.1) : SameTree e.2 e'.2 := by
  induction order generalizing order' with
  | nil => exact absurd he List.not_mem_nil
  | cons a order ih =>
    cases order' with
    | nil => exact absurd he' List.not_mem_nil
    | cons a' order' =>
      rw [List.map_cons, List.map_cons] at hkeys hvalues
      rw [List.map_cons, List.nodup_cons] at hnodup
      obtain ⟨hhead, htail⟩ := List.cons.inj hkeys
      cases hvalues with
      | cons hvalue hvalues =>
        rcases List.mem_cons.mp he with rfl | he
        · rcases List.mem_cons.mp he' with rfl | he'
          · exact hvalue
          · -- the key of a later entry is not the first key
            refine absurd ?_ hnodup.1
            rw [htail, hkey]
            exact List.mem_map_of_mem he'
        · rcases List.mem_cons.mp he' with rfl | he'
          · refine absurd ?_ hnodup.1
            rw [hhead, ← hkey]
            exact List.mem_map_of_mem he
          · exact ih htail hvalues hnodup.2 he he'

/-- In dicts that are the same tree, one key has the same value. -/
theorem sameTree_lookup {d d' : PyDict} (hsame : SameTree (.dict d) (.dict d'))
    (hnodup : (d.map Prod.fst).Nodup) {key : String} {v v' : PyValue} (hv : (key, v) ∈ d)
    (hv' : (key, v') ∈ d') : SameTree v v' := by
  cases hsame with
  | dict hperm hperm' hkeys hvalues =>
    exact sameTree_entries hkeys hvalues ((hperm.map Prod.fst).nodup_iff.mp hnodup)
      (hperm.mem_iff.mp hv) (hperm'.mem_iff.mp hv') rfl

/-! ## Hashes of flat payloads -/

/-- A set is written as the list of its elements in order. -/
def asTree : PyValue → PyValue
  | .set s => .list ((sorted s).map .str)
  | v => v

def asTreeEntry (e : String × PyValue) : String × PyValue := (e.1, asTree e.2)

theorem jsonDumps_asTree (limit : Nat) (v : PyValue) :
    jsonDumpsWith limit (asTree v) = jsonDumpsWith limit v := by
  cases v with
  | set s =>
    have htexts : ∀ v ∈ (sorted s).map PyValue.str, jsonDumpsWith limit v = .ok (jsonText v) := by
      intro v hv
      obtain ⟨x, -, rfl⟩ := List.mem_map.mp hv
      rfl
    show jsonDumpsWith limit (.list ((sorted s).map .str)) = _
    rw [jsonDumps_list htexts, List.map_map]
    rfl
  | _ => rfl

theorem jsonDumps_dict_asTree (payload : PyDict) :
    jsonDumps (.dict (payload.map asTreeEntry)) = jsonDumps (.dict payload) := by
  rw [jsonDumps, jsonDumpsWith, jsonDumpsWith, jsonDumpsEntries_eq, jsonDumpsEntries_eq,
    List.map_map]
  congr 3
  apply List.map_congr_left
  intro e _
  show (e.1, jsonDumpsWith maxStrDigits (asTree e.2)) = _
  rw [jsonDumps_asTree]

/-- The digests of the canonical texts of two payloads do not collide. -/
def CollisionFree [PyRuntime] (payload payload' : PyDict) : Prop :=
  ∀ text text', jsonDumps (.dict payload) = .ok text → jsonDumps (.dict payload') = .ok text' →
    PyRuntime.hexdigest (text.map Char.toNat) = PyRuntime.hexdigest (text'.map Char.toNat) →
    text = text'

/-- Without a collision, payloads that are written as trees have the same hash exactly when the
    trees are the same. -/
theorem canonicalHash_eq_iff [PyRuntime] {payload payload' : PyDict} {h h' : String}
    (htree : IsTree (.dict (payload.map asTreeEntry)))
    (htree' : IsTree (.dict (payload'.map asTreeEntry)))
    (hfree : CollisionFree payload payload') (hhash : canonicalHash payload = .ok h)
    (hhash' : canonicalHash payload' = .ok h') :
    h = h' ↔
      SameTree (.dict (payload.map asTreeEntry)) (.dict (payload'.map asTreeEntry)) := by
  obtain ⟨text, htext, rfl⟩ := map_eq_ok hhash
  obtain ⟨text', htext', rfl⟩ := map_eq_ok hhash'
  have hplain := (jsonDumpsWith_eq_ok_iff htree).mp ((jsonDumps_dict_asTree payload).trans htext)
  have hplain' := (jsonDumpsWith_eq_ok_iff htree').mp ((jsonDumps_dict_asTree payload').trans htext')
  rw [← jsonDumps_eq_iff htree htree', hplain.2, hplain'.2]
  constructor
  · intro hdigest
    rw [hfree _ _ htext htext' hdigest]
  · intro hsame
    rw [Except.ok.inj hsame]

/-- What a field contributes to the hash: a text, an integer, or a set of texts. -/
inductive IsField : PyValue → Prop
  | str (s : String) : IsField (.str s)
  | int (i : Int) : IsField (.int i)
  | set (s : Finset String) : IsField (.set s)

theorem isTree_of_isField {v : PyValue} (hv : IsField v) : IsTree (asTree v) := by
  cases hv with
  | str s => exact IsTree.str s
  | int i => exact IsTree.int i
  | set s =>
    refine IsTree.list fun v hv => ?_
    obtain ⟨x, -, rfl⟩ := List.mem_map.mp hv
    exact IsTree.str x

theorem isTree_of_fields {payload : PyDict} (hkeys : (payload.map Prod.fst).Nodup)
    (hfields : ∀ e ∈ payload, IsField e.2) : IsTree (.dict (payload.map asTreeEntry)) := by
  refine IsTree.dict ?_ ?_
  · rw [List.map_map]
    exact hkeys
  · intro e he
    obtain ⟨e', he', rfl⟩ := List.mem_map.mp he
    exact isTree_of_isField (hfields e' he')

theorem eq_of_sameTree_field {v v' : PyValue} (hv : IsField v) (hv' : IsField v')
    (hsame : SameTree (asTree v) (asTree v')) : v = v' := by
  cases hv with
  | str s =>
    cases hv' with
    | str s' =>
      cases hsame
      rfl
    | _ => cases hsame
  | int i =>
    cases hv' with
    | int i' =>
      cases hsame
      rfl
    | _ => cases hsame
  | set s =>
    cases hv' with
    | set s' =>
      have hsorted : sorted s = sorted s' := eq_of_sameTree_strs hsame
      rw [← toFinset_sorted s, hsorted, toFinset_sorted]
    | _ => cases hsame

/-- Without a collision, two flat payloads with the same keys have the same hash exactly when they
    have the same values. -/
theorem canonicalHash_fields_eq_iff [PyRuntime] {payload payload' : PyDict}
    (hkeys : payload.map Prod.fst = payload'.map Prod.fst) (hnodup : (payload.map Prod.fst).Nodup)
    (hfields : ∀ e ∈ payload, IsField e.2) (hfields' : ∀ e ∈ payload', IsField e.2)
    (hfree : CollisionFree payload payload') {h h' : String} (hhash : canonicalHash payload = .ok h)
    (hhash' : canonicalHash payload' = .ok h') : h = h' ↔ payload = payload' := by
  constructor
  · intro hdigest
    have hsame := (canonicalHash_eq_iff (isTree_of_fields hnodup hfields)
      (isTree_of_fields (hkeys ▸ hnodup) hfields') hfree hhash hhash').mp hdigest
    have hnodup' : ((payload.map asTreeEntry).map Prod.fst).Nodup := by
      rw [List.map_map]
      exact hnodup
    have hlength : payload.length = payload'.length := by
      simpa only [List.length_map] using congrArg List.length hkeys
    apply List.ext_getElem hlength
    intro i hi hi'
    have hkey : payload[i].1 = payload'[i].1 := by
      have hi'' : i < (payload.map Prod.fst).length := by rwa [List.length_map]
      have hmap := List.getElem_of_eq hkeys hi''
      rwa [List.getElem_map, List.getElem_map] at hmap
    have hmem := List.mem_map_of_mem (f := asTreeEntry) (List.getElem_mem hi)
    have hmem' := List.mem_map_of_mem (f := asTreeEntry) (List.getElem_mem hi')
    rw [asTreeEntry, hkey] at hmem
    have hvalue : payload[i].2 = payload'[i].2 := eq_of_sameTree_field
      (hfields _ (List.getElem_mem hi)) (hfields' _ (List.getElem_mem hi'))
      (sameTree_lookup hsame hnodup' hmem hmem')
    exact Prod.ext hkey hvalue
  · rintro rfl
    exact Except.ok.inj (hhash.symm.trans hhash')

end Py
