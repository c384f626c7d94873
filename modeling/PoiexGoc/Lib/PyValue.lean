/-
  The PYTHON VALUES a JSON-speaking program handles, and the standard-library operations on them
  that such a program leans on: `sorted` of a set of strings, `datetime` comparison and
  `isoformat`, `str(...)`, `int(...)`, `strip`, and `json.dumps` with sorted keys, compact
  separators and ASCII escapes.

  Conventions.
  * A datetime is timezone-aware: comparison looks at the instant only, `isoformat` also at the
    offset it is written in.
  * A float is carried by what a program can observe of it without computing with it: its `repr`,
    the text `json` writes for it, and what `int(...)` makes of it.
  * Dict keys are strings, as JSON's are; entries stand in insertion order.
  * The interpreter writes and reads no integer of more than 4300 digits (`maxStrDigits`); its other
    limit, on how deep a value may be nested, is left out.
  * `other` is any value `json` has no encoding for, known by the name of its type.
-/
import Mathlib.Data.Finmap
import Mathlib.Data.List.Sort
import Mathlib.Data.String.Basic
import Mathlib.Data.Finset.Dedup
import PoiexGoc.Lib.Sha256

namespace Py

/-- The exceptions the modelled code raises, with their texts.  `fuelExhausted` is raised by no
    Python code: it marks a loop that the model cut off. -/
inductive PyError where
  | valueError (message : String)
  | typeError (message : String)
  | keyError (key : String)
  | runtimeError (message : String)
  | fuelExhausted
  deriving DecidableEq, Repr

section Raising

variable {ε α β : Type}

@[simp] theorem ok_bind (a : α) (f : α → Except ε β) : (Except.ok a >>= f) = f a := rfl

@[simp] theorem error_bind (e : ε) (f : α → Except ε β) :
    ((Except.error e : Except ε α) >>= f) = .error e := rfl

/-- A sequence returns when both of its parts do. -/
theorem bind_eq_ok {x : Except ε α} {f : α → Except ε β} {b : β} :
    (x >>= f) = .ok b ↔ ∃ a, x = .ok a ∧ f a = .ok b := by
  cases x with
  | error e => exact ⟨fun h => (nomatch h), fun ⟨_, h, _⟩ => (nomatch h)⟩
  | ok a => exact ⟨fun h => ⟨a, rfl, h⟩, fun ⟨_, ha, h⟩ => Except.ok.inj ha ▸ h⟩

theorem map_eq_ok {f : α → β} {x : Except ε α} {b : β} (hx : x.map f = .ok b) :
    ∃ a, x = .ok a ∧ f a = b := by
  cases x with
  | error e => cases hx
  | ok a => exact ⟨a, rfl, Except.ok.inj hx⟩

end Raising

/-! ## Datetimes -/

/-- A timezone-aware datetime: microseconds since 1970-01-01T00:00Z, and the UTC offset (in
    seconds) it is written in. -/
structure DateTime where
  micros : Int
  utcoffset : Int
  deriving DecidableEq, Repr

namespace DateTime

/-- Aware datetimes compare by instant. -/
instance : LE DateTime := ⟨fun a b => a.micros ≤ b.micros⟩

instance : LT DateTime := ⟨fun a b => a.micros < b.micros⟩

theorem le_def (a b : DateTime) : a ≤ b ↔ a.micros ≤ b.micros := Iff.rfl

theorem lt_def (a b : DateTime) : a < b ↔ a.micros < b.micros := Iff.rfl

theorem le_trans {a b c : DateTime} (hab : a ≤ b) (hbc : b ≤ c) : a ≤ c := Int.le_trans hab hbc

instance (a b : DateTime) : Decidable (a ≤ b) := inferInstanceAs (Decidable (a.micros ≤ b.micros))

instance (a b : DateTime) : Decidable (a < b) := inferInstanceAs (Decidable (a.micros < b.micros))

/-- `d + timedelta(seconds=s)`. -/
def addSeconds (d : DateTime) (s : Int) : DateTime := { d with micros := d.micros + s * 1000000 }

@[simp] theorem addSeconds_micros (d : DateTime) (s : Int) :
    (d.addSeconds s).micros = d.micros + s * 1000000 := rfl

/-- A natural number in decimal, padded with zeros to `width` digits. -/
def padded (width n : Nat) : List Char :=
  (List.range width).reverse.map fun k => Char.ofNat (48 + n / 10 ^ k % 10)

/-- Year, month and day of a day number counted from 1970-01-01, in the proleptic Gregorian
    calendar (eras of 400 years that start on March 1st). -/
def civilFromDays (day : Int) : Int × Int × Int :=
  let z := day + 719468
  let era := z / 146097
  let dayOfEra := z % 146097
  let yearOfEra := (dayOfEra - dayOfEra / 1460 + dayOfEra / 36524 - dayOfEra / 146096) / 365
  let dayOfYear := dayOfEra - (365 * yearOfEra + yearOfEra / 4 - yearOfEra / 100)
  let mp := (5 * dayOfYear + 2) / 153
  let month := if mp < 10 then mp + 3 else mp - 9
  (yearOfEra + era * 400 + (if month ≤ 2 then 1 else 0), month, dayOfYear - (153 * mp + 2) / 5 + 1)

/-- `+HH:MM`, with seconds when there are any. -/
def offsetText (offset : Int) : List Char :=
  let n := offset.natAbs
  (if offset < 0 then '-' else '+') :: padded 2 (n / 3600) ++ ':' :: padded 2 (n / 60 % 60) ++
    if n % 60 = 0 then [] else ':' :: padded 2 (n % 60)

/-- `d.isoformat(sep)`. -/
def isoformat (d : DateTime) (sep : Char) : String :=
  let wall := d.micros + d.utcoffset * 1000000
  let ⟨year, month, day⟩ := civilFromDays (wall / 86400000000)
  let inDay := (wall % 86400000000).toNat
  let fraction := inDay % 1000000
  let second := inDay / 1000000
  String.ofList (padded 4 year.toNat ++ '-' :: padded 2 month.toNat ++ '-' :: padded 2 day.toNat ++
    sep :: padded 2 (second / 3600) ++ ':' :: padded 2 (second / 60 % 60) ++
    ':' :: padded 2 (second % 60) ++
    (if fraction = 0 then [] else '.' :: padded 6 fraction) ++ offsetText d.utcoffset)

example : isoformat ⟨1787838300000000, 0⟩ 'T' = "2026-08-27T13:45:00+00:00" := by decide

end DateTime

/-! ## Values -/

/-- What a program can observe of a float: `repr(x)`, its JSON text, and `int(x)` when that is
    defined. -/
structure PyFloat where
  repr : String
  jsonText : String
  trunc : Option Int
  deriving DecidableEq, Repr

inductive PyValue where
  | none
  | bool (b : Bool)
  | int (i : Int)
  | float (x : PyFloat)
  | str (s : String)
  | datetime (d : DateTime)
  | set (elems : Finset String)
  | list (elems : List PyValue)
  | dict (entries : List (String × PyValue))
  | other (typeName : String)

/-- The entries of a dict with string keys. -/
abbrev PyDict := List (String × PyValue)

/-- `sorted(s)` of a set of strings: the code-point order of its elements. -/
def sorted (s : Finset String) : List String :=
  Quot.liftOn s.val (List.insertionSort (· ≤ ·)) fun l₁ l₂ hp =>
    List.Perm.eq_of_pairwise' (List.pairwise_insertionSort _ l₁)
      (List.pairwise_insertionSort _ l₂)
      (((List.perm_insertionSort _ l₁).trans hp).trans (List.perm_insertionSort _ l₂).symm)

theorem mem_sorted {s : Finset String} {x : String} : x ∈ sorted s ↔ x ∈ s := by
  obtain ⟨⟨l⟩, hl⟩ := s
  exact List.mem_insertionSort (· ≤ ·)

/-- Sorting only orders the elements. -/
theorem coe_sorted (s : Finset String) : (sorted s : Multiset String) = s.val := by
  obtain ⟨⟨l⟩, hl⟩ := s
  exact Multiset.coe_eq_coe.mpr (List.perm_insertionSort (· ≤ ·) l)

/-- No element stands twice in it. -/
theorem sorted_pairwise (s : Finset String) : (sorted s).Pairwise (· < ·) := by
  obtain ⟨⟨l⟩, hl⟩ := s
  have hle : (l.insertionSort (· ≤ ·)).Pairwise (· ≤ ·) := List.pairwise_insertionSort _ l
  have hne : (l.insertionSort (· ≤ ·)).Nodup := (List.perm_insertionSort _ l).nodup_iff.mpr hl
  exact hle.imp₂ (fun _ _ => lt_of_le_of_ne) hne

/-- A set is recovered from its sorted array. -/
@[simp] theorem toFinset_sorted (s : Finset String) : (sorted s).toFinset = s := by
  ext x
  rw [List.mem_toFinset, mem_sorted]

/-- Without repetitions, sorting a list sorts the set of its elements. -/
theorem insertionSort_eq_sorted {l : List String} (hl : l.Nodup) :
    l.insertionSort (· ≤ ·) = sorted l.toFinset := by
  show _ = l.dedup.insertionSort (· ≤ ·)
  rw [hl.dedup]

/-- A set of ids that keeps their number comes from ids without a repetition. -/
theorem card_toFinset_eq_length_iff {ids : List String} :
    ids.toFinset.card = ids.length ↔ ids.Nodup := by
  constructor
  · intro hcard
    exact Multiset.toFinset_card_eq_card_iff_nodup.mp hcard
  · intro hnodup
    exact List.toFinset_card_of_nodup hnodup

/-! ## What the interpreter supplies -/

/-- What a run takes from the interpreter and the model does not compute: the digest
    `hashlib.sha256` gives for the bytes of a canonical text, always of 64 digits; the `repr` of a
    text or a container, or its exception (a set has no fixed order, an unknown object no fixed
    text); and the decimal value of a character that stands for a digit in some script. -/
class PyRuntime where
  hexdigest : List Nat → String
  hexdigest_length : ∀ bytes, (hexdigest bytes).length = 64
  reprText : PyValue → Except PyError String
  decimal : Char → Option Nat

/-- The code points of the digit zero in each script (Unicode 14); the other nine digits follow. -/
def decimalZeros : List Nat :=
  [0x30, 0x660, 0x6f0, 0x7c0, 0x966, 0x9e6, 0xa66, 0xae6, 0xb66, 0xbe6, 0xc66, 0xce6, 0xd66, 0xde6,
   0xe50, 0xed0, 0xf20, 0x1040, 0x1090, 0x17e0, 0x1810, 0x1946, 0x19d0, 0x1a80, 0x1a90, 0x1b50,
   0x1bb0, 0x1c40, 0x1c50, 0xa620, 0xa8d0, 0xa900, 0xa9d0, 0xa9f0, 0xaa50, 0xabf0, 0xff10, 0x104a0,
   0x10d30, 0x11066, 0x110f0, 0x11136, 0x111d0, 0x112f0, 0x11450, 0x114d0, 0x11650, 0x116c0,
   0x11730, 0x118e0, 0x11950, 0x11c50, 0x11d50, 0x11da0, 0x16a60, 0x16ac0, 0x16b50, 0x1d7ce,
   0x1d7d8, 0x1d7e2, 0x1d7ec, 0x1d7f6, 0x1e140, 0x1e2f0, 0x1e950, 0x1fbf0]

/-- The interpreter concrete runs are evaluated with. -/
instance cpython : PyRuntime where
  hexdigest := Sha256.hexdigest
  hexdigest_length := Sha256.hexdigest_length
  reprText
    | .str s => .ok ("'" ++ s ++ "'")
    | .list [] => .ok "[]"
    | .dict [] => .ok "\x7b\x7d"
    | _ => .ok "..."
  decimal c := (decimalZeros.find? fun first => first ≤ c.toNat && c.toNat < first + 10).map
    fun first => c.toNat - first

/-! ## Integers as text

`sys.get_int_max_str_digits()` is a limit in both directions; 0 stands for none. -/

def maxStrDigits : Nat := 4300

/-- The integer can be written under the limit; a sign is no digit. -/
def WithinDigits (limit : Nat) (i : Int) : Prop :=
  limit = 0 ∨ (Nat.toDigits 10 i.natAbs).length ≤ limit

instance (limit : Nat) (i : Int) : Decidable (WithinDigits limit i) :=
  inferInstanceAs (Decidable (_ ∨ _))

theorem withinDigits_zero (i : Int) : WithinDigits 0 i := Or.inl rfl

/-- Under a limit of `n` digits are the integers below `10 ^ n`. -/
theorem withinDigits_iff {limit : Nat} (hlimit : 0 < limit) (i : Int) :
    WithinDigits limit i ↔ i.natAbs < 10 ^ limit := by
  rw [WithinDigits, Nat.length_toDigits_le_iff (by decide) hlimit, or_iff_right hlimit.ne']

theorem not_withinDigits_pow {limit n : Nat} (hlimit : 0 < limit) (hn : limit ≤ n) :
    ¬ WithinDigits limit (10 ^ n) := by
  rw [withinDigits_iff hlimit, Int.natAbs_pow, not_lt]
  exact Nat.pow_le_pow_right (by decide) hn

def tooManyDigits : String :=
  "Exceeds the limit (4300 digits) for integer string conversion; " ++
    "use sys.set_int_max_str_digits() to increase the limit"

/-! ## `str(...)`, `strip()` and `int(...)` -/

/-- `str(v)`. -/
def pyStr [PyRuntime] : PyValue → Except PyError String
  | .none => .ok "None"
  | .bool b => .ok (if b then "True" else "False")
  | .int i =>
    if WithinDigits maxStrDigits i then .ok (toString i) else .error (.valueError tooManyDigits)
  | .float x => .ok x.repr
  | .str s => .ok s
  | .datetime d => .ok (d.isoformat ' ')
  | v => PyRuntime.reprText v

/-- `c.isspace()`: what `str.strip` removes. -/
def isSpace (c : Char) : Bool :=
  let n := c.toNat
  (9 ≤ n && n ≤ 13) || (28 ≤ n && n ≤ 32) || n = 0x85 || n = 0xa0 || n = 0x1680 ||
    (0x2000 ≤ n && n ≤ 0x200a) || n = 0x2028 || n = 0x2029 || n = 0x202f || n = 0x205f || n = 0x3000

/-- `str.strip()`. -/
def strip (s : String) : String :=
  String.ofList (((s.toList.dropWhile isSpace).reverse.dropWhile isSpace).reverse)

/-- The blanks `int(...)` skips once its text is ASCII: C's `isspace`, without the separators
    28 to 31. -/
def isAsciiSpace (c : Char) : Bool := c.toNat = 32 || (9 ≤ c.toNat && c.toNat ≤ 13)

/-- `int(...)` reads a text in ASCII: a blank of another script becomes a space, a digit the ASCII
    digit of its value, and any other character one that ends the number. -/
def toAscii [PyRuntime] (c : Char) : Char :=
  if c.toNat < 127 then c
  else if isSpace c then ' '
  else match PyRuntime.decimal c with
    | some d => Char.ofNat (48 + d)
    | none => '?'

/-- Digits, with single underscores between them: their value, how many they are, and what follows.
    A number that would begin with an underscore, end with one or have no digit is none. -/
def readDigits (value count : Nat) (before : Char) : List Char → Option (Nat × Nat × List Char)
  | [] => if before = '_' then none else some (value, count, [])
  | c :: cs =>
    if c.isDigit then readDigits (10 * value + (c.toNat - 48)) (count + 1) c cs
    else if before = '_' then none
    else if c = '_' then readDigits value count c cs
    else some (value, count, c :: cs)

def readSign : List Char → Int × List Char
  | '-' :: cs => (-1, cs)
  | '+' :: cs => (1, cs)
  | cs => (1, cs)

/-- The message quotes the first 200 characters of the text's `repr`. -/
def invalidLiteral [PyRuntime] (s : String) : PyError :=
  match PyRuntime.reprText (.str s) with
  | .ok text => .valueError ("invalid literal for int() with base 10: " ++
      String.ofList (text.toList.take 200))
  | .error e => e

/-- `int(s)` of a text: blanks around it, an optional sign, decimal digits.  The digits are counted
    before anything is said of what follows them. -/
def intOfText [PyRuntime] (s : String) : Except PyError Int :=
  let ⟨sign, digits⟩ := readSign ((s.toList.map toAscii).dropWhile isAsciiSpace)
  match readDigits 0 0 '_' digits with
  | none => .error (invalidLiteral s)
  | some (value, count, rest) =>
    if maxStrDigits < count then
      .error (.valueError ("Exceeds the limit (4300 digits) for integer string conversion: value has "
        ++ toString count ++ " digits; use sys.set_int_max_str_digits() to increase the limit"))
    else if rest.dropWhile isAsciiSpace = [] then .ok (sign * value)
    else .error (invalidLiteral s)

example : intOfText " 1_0 " = .ok 10 ∧ intOfText "-٣" = .ok (-3) ∧
    intOfText "7.0" = .error (.valueError "invalid literal for int() with base 10: '7.0'") := by
  decide

/-- `int(v)`. -/
def pyInt [PyRuntime] : PyValue → Except PyError Int
  | .bool b => .ok (if b then 1 else 0)
  | .int i => .ok i
  | .float x => match x.trunc with
    | some i => .ok i
    | none => .error (.valueError "cannot convert float to integer")
  | .str s => intOfText s
  | _ => .error (.typeError "int() argument must be a string, a bytes-like object or a real number")

/-! ## `json.dumps(v, sort_keys=True, separators=(",", ":"), default=_json_default)` -/

def hexLower (width n : Nat) : List Char :=
  (List.range width).reverse.map fun k => Sha256.hexDigit (n / 16 ^ k % 16)

/-- One character of a JSON string under `ensure_ascii`; code points above the basic plane become
    a surrogate pair. -/
def escapeChar (c : Char) : List Char :=
  let n := c.toNat
  if c = '"' then ['\\', '"']
  else if c = '\\' then ['\\', '\\']
  else if 32 ≤ n ∧ n ≤ 126 then [c]
  else if n = 10 then ['\\', 'n']
  else if n = 13 then ['\\', 'r']
  else if n = 9 then ['\\', 't']
  else if n = 12 then ['\\', 'f']
  else if n = 8 then ['\\', 'b']
  else if n < 65536 then '\\' :: 'u' :: hexLower 4 n
  else '\\' :: 'u' :: hexLower 4 (55296 + (n - 65536) / 1024) ++
    '\\' :: 'u' :: hexLower 4 (56320 + (n - 65536) % 1024)

def jsonString (s : String) : List Char := '"' :: s.toList.flatMap escapeChar ++ ['"']

/-- Elements between an opening and a closing bracket, separated by commas. -/
def bracketed (opening closing : Char) (parts : List (List Char)) : List Char :=
  opening :: (parts.intersperse [',']).flatten ++ [closing]

/-- An object's members in key order, each with the text of its value. -/
def sortedMembers {β : Type} (members : List (String × β)) : List (String × β) :=
  members.insertionSort fun a b => a.1 ≤ b.1

/-- A member of an object: its key, a colon and the text of its value. -/
def memberText (member : String × Except PyError (List Char)) : Except PyError (List Char) :=
  member.2.map fun text => jsonString member.1 ++ ':' :: text

section Encoder

variable (limit : Nat)

mutual

/-- The canonical text under a limit on digits, or the exception of the first value (in output
    order) that has none. -/
def jsonDumpsWith : PyValue → Except PyError (List Char)
  | .none => .ok "null".toList
  | .bool b => .ok (if b then "true".toList else "false".toList)
  | .int i =>
    if WithinDigits limit i then .ok (toString i).toList else .error (.valueError tooManyDigits)
  | .float x => .ok x.jsonText.toList
  | .str s => .ok (jsonString s)
  | .datetime d => .ok (jsonString (d.isoformat 'T'))
  | .set elems => .ok (bracketed '[' ']' ((sorted elems).map jsonString))
  | .list elems => (jsonDumpsList elems).map (bracketed '[' ']')
  | .dict entries =>
    ((sortedMembers (jsonDumpsEntries entries)).mapM memberText).map (bracketed '\x7b' '\x7d')
  | .other typeName => .error (.typeError
      ("Unsupported value for canonical serialization: <class '" ++ typeName ++ "'>"))

def jsonDumpsList : List PyValue → Except PyError (List (List Char))
  | [] => .ok []
  | v :: vs => do
    let text ← jsonDumpsWith v
    let texts ← jsonDumpsList vs
    return text :: texts

def jsonDumpsEntries : List (String × PyValue) → List (String × Except PyError (List Char))
  | [] => []
  | (key, v) :: entries => (key, jsonDumpsWith v) :: jsonDumpsEntries entries

end

theorem jsonDumpsEntries_eq (entries : List (String × PyValue)) :
    jsonDumpsEntries limit entries = entries.map fun e => (e.1, jsonDumpsWith limit e.2) := by
  induction entries with
  | nil => rfl
  | cons e entries ih =>
    obtain ⟨key, v⟩ := e
    rw [jsonDumpsEntries, ih, List.map_cons]

theorem jsonDumpsList_eq (elems : List PyValue) :
    jsonDumpsList limit elems = elems.mapM (jsonDumpsWith limit) := by
  induction elems with
  | nil => rfl
  | cons v elems ih => rw [jsonDumpsList, ih, List.mapM_cons]

end Encoder

/-- The encoder under the interpreter's limit. -/
def jsonDumps : PyValue → Except PyError (List Char) := jsonDumpsWith maxStrDigits

/-- A list of fallible computations succeeds as a whole when each of them does. -/
theorem mapM_isOk {α β ε : Type} {f : α → Except ε β} {l : List α} :
    (∃ ys, l.mapM f = .ok ys) ↔ ∀ x ∈ l, ∃ y, f x = .ok y := by
  induction l with
  | nil => exact ⟨fun _ x hx => (nomatch hx), fun _ => ⟨[], rfl⟩⟩
  | cons x l ih =>
    rw [List.forall_mem_cons, ← ih, List.mapM_cons]
    constructor
    · rintro ⟨ys, hys⟩
      cases hx : f x with
      | error e => rw [hx] at hys; cases hys
      | ok y =>
        cases hl : l.mapM f with
        | error e => rw [hx, hl] at hys; cases hys
        | ok zs => exact ⟨⟨y, rfl⟩, ⟨zs, rfl⟩⟩
    · rintro ⟨⟨y, hy⟩, zs, hzs⟩
      exact ⟨y :: zs, by rw [hy, hzs]; rfl⟩

/-- The exception of a list of fallible computations is the exception of one of them. -/
theorem mapM_raises {α β ε : Type} {f : α → Except ε β} {l : List α} {e : ε}
    (hl : l.mapM f = .error e) : ∃ x ∈ l, f x = .error e := by
  induction l with
  | nil => cases hl
  | cons x l ih =>
    rw [List.mapM_cons] at hl
    cases hx : f x with
    | error e' =>
      rw [hx, error_bind] at hl
      obtain rfl := Except.error.inj hl
      exact ⟨x, List.mem_cons_self, hx⟩
    | ok y =>
      rw [hx, ok_bind] at hl
      cases hrest : l.mapM f with
      | error e' =>
        rw [hrest, error_bind] at hl
        obtain rfl := Except.error.inj hl
        obtain ⟨x', hx', hraise⟩ := ih hrest
        exact ⟨x', List.mem_cons_of_mem _ hx', hraise⟩
      | ok ys =>
        rw [hrest] at hl
        cases hl

theorem map_raises {α β ε : Type} {x : Except ε α} {f : α → β} {e : ε} :
    x.map f = .error e ↔ x = .error e := by
  cases x with
  | ok a => exact ⟨fun h => (nomatch h), fun h => (nomatch h)⟩
  | error e' =>
    exact ⟨fun h => congrArg _ (Except.error.inj h), fun h => congrArg _ (Except.error.inj h)⟩

theorem map_isOk {α β ε : Type} {x : Except ε α} {f : α → β} :
    (∃ b, x.map f = .ok b) ↔ ∃ a, x = .ok a := by
  cases x with
  | ok a => exact ⟨fun _ => ⟨a, rfl⟩, fun _ => ⟨f a, rfl⟩⟩
  | error e => exact ⟨fun ⟨_, h⟩ => (nomatch h), fun ⟨_, h⟩ => (nomatch h)⟩

/-- A list has a text exactly when its elements do. -/
theorem jsonDumpsWith_list_isOk {limit : Nat} {elems : List PyValue} :
    (∃ text, jsonDumpsWith limit (.list elems) = .ok text) ↔
      ∀ v ∈ elems, ∃ text, jsonDumpsWith limit v = .ok text := by
  rw [jsonDumpsWith, jsonDumpsList_eq, map_isOk, mapM_isOk]

/-- A dict has a text exactly when all its values do: sorting the keys only reorders them. -/
theorem jsonDumpsWith_dict_isOk {limit : Nat} {entries : PyDict} :
    (∃ text, jsonDumpsWith limit (.dict entries) = .ok text) ↔
      ∀ e ∈ entries, ∃ text, jsonDumpsWith limit e.2 = .ok text := by
  rw [jsonDumpsWith, jsonDumpsEntries_eq, map_isOk, mapM_isOk]
  constructor
  · intro h e he
    have hmem : (e.1, jsonDumpsWith limit e.2) ∈
        sortedMembers (entries.map fun e => (e.1, jsonDumpsWith limit e.2)) :=
      (List.mem_insertionSort _).mpr (List.mem_map.mpr ⟨e, he, rfl⟩)
    exact map_isOk.mp (h _ hmem)
  · intro h member hmem
    obtain ⟨e, he, rfl⟩ := List.mem_map.mp ((List.mem_insertionSort _).mp hmem)
    exact map_isOk.mpr (h e he)

/-- Built from the types the encoder knows; what JSON can express is. -/
inductive IsKnown : PyValue → Prop
  | none : IsKnown .none
  | bool (b : Bool) : IsKnown (.bool b)
  | int (i : Int) : IsKnown (.int i)
  | float (x : PyFloat) : IsKnown (.float x)
  | str (s : String) : IsKnown (.str s)
  | datetime (d : DateTime) : IsKnown (.datetime d)
  | set (elems : Finset String) : IsKnown (.set elems)
  | list {elems : List PyValue} (helems : ∀ v ∈ elems, IsKnown v) : IsKnown (.list elems)
  | dict {entries : PyDict} (hentries : ∀ e ∈ entries, IsKnown e.2) : IsKnown (.dict entries)

/-- A known value is refused for an integer beyond the limit, and for nothing else. -/
theorem jsonDumpsWith_raises {limit : Nat} {v : PyValue} (hv : IsKnown v) {e : PyError}
    (hraise : jsonDumpsWith limit v = .error e) : e = .valueError tooManyDigits := by
  induction hv with
  | int i =>
    rw [jsonDumpsWith] at hraise
    split at hraise
    · cases hraise
    · exact (Except.error.inj hraise).symm
  | list _ ih =>
    rw [jsonDumpsWith, jsonDumpsList_eq, map_raises] at hraise
    obtain ⟨v, hv, hraise⟩ := mapM_raises hraise
    exact ih v hv hraise
  | dict _ ih =>
    rw [jsonDumpsWith, jsonDumpsEntries_eq, map_raises] at hraise
    obtain ⟨member, hmember, hraise⟩ := mapM_raises hraise
    obtain ⟨entry, hentry, rfl⟩ := List.mem_map.mp ((List.mem_insertionSort _).mp hmember)
    exact ih entry hentry (map_raises.mp hraise)
  | none | bool | float | str | datetime | set => cases hraise

/-- The value has a canonical text. -/
def Serializable (v : PyValue) : Prop := ∃ text, jsonDumps v = .ok text

instance (v : PyValue) : Decidable (Serializable v) :=
  match h : jsonDumps v with
  | .ok text => isTrue ⟨text, h⟩
  | .error _ => isFalse fun ⟨_, htext⟩ => nomatch h.symm.trans htext

/-- A known value that has no text is refused for its digits. -/
theorem jsonDumps_of_not_serializable {v : PyValue} (hv : IsKnown v) (hnone : ¬ Serializable v) :
    jsonDumps v = .error (.valueError tooManyDigits) := by
  cases hdumps : jsonDumps v with
  | ok text => exact absurd ⟨text, hdumps⟩ hnone
  | error e => rw [jsonDumpsWith_raises hv hdumps]

@[simp] theorem serializable_none : Serializable .none := ⟨_, rfl⟩

@[simp] theorem serializable_bool (b : Bool) : Serializable (.bool b) := ⟨_, rfl⟩

/-- An integer has a text when it is within the interpreter's limit. -/
@[simp] theorem serializable_int {i : Int} :
    Serializable (.int i) ↔ WithinDigits maxStrDigits i := by
  rw [Serializable, jsonDumps, jsonDumpsWith]
  split
  · rename_i hdigits
    exact ⟨fun _ => hdigits, fun _ => ⟨_, rfl⟩⟩
  · rename_i hdigits
    exact ⟨fun ⟨_, h⟩ => (nomatch h), fun h => absurd h hdigits⟩

@[simp] theorem serializable_float (x : PyFloat) : Serializable (.float x) := ⟨_, rfl⟩

@[simp] theorem serializable_str (s : String) : Serializable (.str s) := ⟨_, rfl⟩

@[simp] theorem serializable_datetime (d : DateTime) : Serializable (.datetime d) := ⟨_, rfl⟩

@[simp] theorem serializable_set (s : Finset String) : Serializable (.set s) := ⟨_, rfl⟩

theorem serializable_list {elems : List PyValue} :
    Serializable (.list elems) ↔ ∀ v ∈ elems, Serializable v := jsonDumpsWith_list_isOk

theorem serializable_dict {entries : PyDict} :
    Serializable (.dict entries) ↔ ∀ e ∈ entries, Serializable e.2 := jsonDumpsWith_dict_isOk

/-- `hashlib.sha256(json.dumps(...).encode("utf-8")).hexdigest()`; the text is ASCII, so its
    bytes are its code points. -/
def canonicalHash [PyRuntime] (payload : PyDict) : Except PyError String :=
  (jsonDumps (.dict payload)).map fun text => PyRuntime.hexdigest (text.map Char.toNat)

theorem canonicalHash_isOk_iff [PyRuntime] {payload : PyDict} :
    (∃ h, canonicalHash payload = .ok h) ↔ ∀ e ∈ payload, Serializable e.2 := by
  rw [← serializable_dict, Serializable, canonicalHash]
  cases jsonDumps (.dict payload) with
  | ok text => exact ⟨fun _ => ⟨text, rfl⟩, fun _ => ⟨_, rfl⟩⟩
  | error e => exact ⟨fun ⟨_, h⟩ => (nomatch h), fun ⟨_, h⟩ => (nomatch h)⟩

/-- A hash is never the empty text. -/
theorem canonicalHash_ne_empty [PyRuntime] {payload : PyDict} {h : String}
    (hhash : canonicalHash payload = .ok h) : h ≠ "" := by
  rintro rfl
  unfold canonicalHash at hhash
  cases htext : jsonDumps (.dict payload) with
  | error e =>
    rw [htext] at hhash
    cases hhash
  | ok text =>
    rw [htext] at hhash
    have hempty : PyRuntime.hexdigest (text.map Char.toNat) = "" := Except.ok.inj hhash
    have hlength := PyRuntime.hexdigest_length (text.map Char.toNat)
    rw [hempty] at hlength
    exact absurd hlength (by decide)

/-- A payload of serializable entries has a hash. -/
theorem canonicalHash_isOk [PyRuntime] {payload : PyDict}
    (hpay : ∀ e ∈ payload, Serializable e.2) : ∃ h, canonicalHash payload = .ok h :=
  canonicalHash_isOk_iff.mpr hpay

end Py
