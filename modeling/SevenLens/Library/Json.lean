import Mathlib.Algebra.GroupWithZero.Nat
import SevenLens.Library.Rank
import Mathlib.Data.String.Basic
import Mathlib.Algebra.BigOperators.Group.List.Basic

/-! # Canonical JSON

Values, their canonical text (sorted keys, no blanks, only control characters, quotes and
backslashes escaped) and its length in bytes.  The length is computed without the text:
`utf8ByteSize_dumps`. -/

namespace Json

/-- A finite float by its shortest digits: `0.d₁d₂… * 10 ^ point`.  Zero is the digit `0` at
point 1. -/
structure Double where
  negative : Bool
  digits : List Char
  point : Int
  digits_ok : digits ≠ [] ∧ digits.all Char.isDigit = true
  normal : digits.head? = some '0' → digits = ['0'] ∧ point = 1
deriving DecidableEq

end Json

inductive Json where
  | null
  | bool (b : Bool)
  | int (n : Int)
  | float (d : Json.Double)
  | str (s : String)
  | arr (items : List Json)
  | obj (fields : List (String × Json))

namespace Json

/-! ### Text -/

namespace Double

/-- The digits with a point among them and a digit on both sides of it. -/
def positional (d : Double) : List Char :=
  if d.point ≤ 0 then '0' :: '.' :: (List.replicate (-d.point).toNat '0' ++ d.digits)
  else if d.point.toNat < d.digits.length then
    d.digits.take d.point.toNat ++ '.' :: d.digits.drop d.point.toNat
  else d.digits ++ List.replicate (d.point.toNat - d.digits.length) '0' ++ ['.', '0']

/-- One digit before the point, and an exponent of at least two digits. -/
def scientific (d : Double) : List Char :=
  let exponent := (toString (d.point - 1).natAbs).toList
  d.digits.take 1 ++ (if d.digits.length = 1 then [] else '.' :: d.digits.drop 1) ++
    'e' :: (if 0 < d.point then '+' else '-') :: (if exponent.length < 2 then '0' :: exponent else exponent)

/-- The point is close enough to the digits to be written among them. -/
def Plain (d : Double) : Prop := -4 < d.point ∧ d.point ≤ 16

instance (d : Double) : Decidable d.Plain := inferInstanceAs (Decidable (_ ∧ _))

/-- `repr(value)` -/
def repr (d : Double) : String :=
  String.ofList ((if d.negative then ['-'] else []) ++ if d.Plain then d.positional else d.scientific)

end Double

/-- The digit of a value below 16. -/
def hexDigit (n : Nat) : Char := if n < 10 then Char.ofNat (48 + n) else Char.ofNat (87 + n)

def backslash : Char := Char.ofNat 92

/-- A character inside a quoted text. -/
def escapeChar (c : Char) : List Char :=
  if c = Char.ofNat 34 then [backslash, c]
  else if c = backslash then [backslash, c]
  else if c = Char.ofNat 8 then [backslash, 'b']
  else if c = Char.ofNat 9 then [backslash, 't']
  else if c = Char.ofNat 10 then [backslash, 'n']
  else if c = Char.ofNat 12 then [backslash, 'f']
  else if c = Char.ofNat 13 then [backslash, 'r']
  else if c.toNat < 32 then [backslash, 'u', '0', '0', hexDigit (c.toNat / 16), hexDigit (c.toNat % 16)]
  else [c]

def escape (s : String) : String := String.ofList (s.toList.flatMap escapeChar)

def quote (s : String) : String := "\x22" ++ escape s ++ "\x22"

/-- The texts of a list, separated by commas. -/
def commaJoin : List String → String
  | [] => ""
  | [s] => s
  | s :: t :: l => s ++ "," ++ commaJoin (t :: l)

mutual

/-- `json.dumps(..., ensure_ascii=False, separators=(",", ":"), sort_keys=True)` -/
def dumps : Json → String
  | .null => "null"
  | .bool b => if b then "true" else "false"
  | .int n => toString n
  | .float d => d.repr
  | .str s => quote s
  | .arr items => "[" ++ commaJoin (dumpsItems items) ++ "]"
  | .obj fields => "\x7b" ++ commaJoin (((dumpsFields fields).sortOn Prod.fst).map Prod.snd) ++ "\x7d"

def dumpsItems : List Json → List String
  | [] => []
  | j :: items => j.dumps :: dumpsItems items

/-- The fields with their keys, for sorting. -/
def dumpsFields : List (String × Json) → List (String × String)
  | [] => []
  | (k, j) :: fields => (k, quote k ++ ":" ++ j.dumps) :: dumpsFields fields

end

/-! ### Length -/

mutual

/-- The length of the canonical text in bytes. -/
def bytes : Json → Nat
  | .null => 4
  | .bool b => if b then 4 else 5
  | .int n => (toString n).utf8ByteSize
  | .float d => d.repr.utf8ByteSize
  | .str s => (quote s).utf8ByteSize
  | .arr items => 2 + (bytesItems items + (items.length - 1))
  | .obj fields => 2 + (bytesFields fields + (fields.length - 1))

def bytesItems : List Json → Nat
  | [] => 0
  | j :: items => j.bytes + bytesItems items

def bytesFields : List (String × Json) → Nat
  | [] => 0
  | (k, j) :: fields => (quote k).utf8ByteSize + 1 + j.bytes + bytesFields fields

end

/-- A character that is written as it is: printable ASCII, no quote and no backslash. -/
def PlainChar (c : Char) : Prop := 32 ≤ c.toNat ∧ c.toNat < 127 ∧ c ≠ Char.ofNat 34 ∧ c ≠ backslash

instance (c : Char) : Decidable (PlainChar c) := inferInstanceAs (Decidable (_ ∧ _))

/-- A text of ASCII characters has as many bytes as characters. -/
theorem utf8ByteSize_of_ascii {s : String} (h : ∀ c ∈ s.toList, c.val ≤ 127) : s.utf8ByteSize = s.length := by
  have hlist : ∀ l : List Char, (∀ c ∈ l, c.val ≤ 127) → (String.ofList l).utf8ByteSize = l.length := by
    intro l hl
    induction l with
    | nil => rfl
    | cons c l ih =>
      obtain ⟨hc, hl⟩ := List.forall_mem_cons.mp hl
      rw [String.ofList_cons, String.utf8ByteSize_append, String.utf8ByteSize_singleton, ih hl,
        Char.utf8Size_eq_one_iff.mpr hc, List.length_cons, Nat.add_comm]
  have h := hlist s.toList h
  rwa [String.ofList_toList, String.length_toList] at h

theorem escape_of_plain {s : String} (h : ∀ c ∈ s.toList, PlainChar c) : escape s = s := by
  have hchar : ∀ c : Char, PlainChar c → escapeChar c = [c] := by
    rintro c ⟨hlow, -, hquote, hback⟩
    have hcontrol : ∀ n < 32, c ≠ Char.ofNat n := by
      rintro n hn rfl
      have hsmall : ∀ m < 32, (Char.ofNat m).toNat < 32 := by decide
      exact absurd (hsmall n hn) (Nat.not_lt.mpr hlow)
    simp only [escapeChar, if_neg hquote, if_neg hback, if_neg (hcontrol 8 (by decide)),
      if_neg (hcontrol 9 (by decide)), if_neg (hcontrol 10 (by decide)), if_neg (hcontrol 12 (by decide)),
      if_neg (hcontrol 13 (by decide)), if_neg (Nat.not_lt.mpr hlow)]
  have hlist : ∀ l : List Char, (∀ c ∈ l, PlainChar c) → l.flatMap escapeChar = l := by
    intro l hl
    induction l with
    | nil => rfl
    | cons c l ih =>
      obtain ⟨hc, hl⟩ := List.forall_mem_cons.mp hl
      rw [List.flatMap_cons, hchar c hc, ih hl]
      rfl
  rw [escape, hlist _ h, String.ofList_toList]

/-- A plain text has one byte for each character, and two quotes around it. -/
theorem utf8ByteSize_quote_of_plain {s : String} (h : ∀ c ∈ s.toList, PlainChar c) :
    (quote s).utf8ByteSize = s.length + 2 ∧ s.utf8ByteSize = s.length := by
  have hascii : s.utf8ByteSize = s.length := by
    refine utf8ByteSize_of_ascii fun c hc => ?_
    have := (h c hc).2.1
    rw [UInt32.le_iff_toNat_le]
    exact Nat.le_of_lt_succ (by simpa using this.trans (by decide))
  have hq : "\x22".utf8ByteSize = 1 := by decide
  refine ⟨?_, hascii⟩
  rw [quote, String.utf8ByteSize_append, String.utf8ByteSize_append, escape_of_plain h, hascii, hq]
  omega

theorem length_escapeChar_le (c : Char) : (escapeChar c).length ≤ 6 := by
  unfold escapeChar
  split_ifs <;> simp

/-- A quoted text has at most 24 bytes for each character, and two quotes around it. -/
theorem utf8ByteSize_quote_le (s : String) : (quote s).utf8ByteSize ≤ 24 * s.length + 2 := by
  have hsize : ∀ l : List Char, (String.ofList l).utf8ByteSize ≤ 4 * l.length := by
    intro l
    induction l with
    | nil => exact Nat.le_of_eq rfl
    | cons c l ih =>
      have hc := c.utf8Size_le_four
      rw [String.ofList_cons, String.utf8ByteSize_append, String.utf8ByteSize_singleton, List.length_cons]
      omega
  have hescape : (s.toList.flatMap escapeChar).length ≤ 6 * s.length := by
    rw [← String.length_toList]
    induction s.toList with
    | nil => exact Nat.le_refl 0
    | cons c l ih =>
      have hc := length_escapeChar_le c
      rw [List.flatMap_cons, List.length_append, List.length_cons]
      omega
  have hq : "\x22".utf8ByteSize = 1 := by decide
  have hle := hsize (s.toList.flatMap escapeChar)
  rw [quote, String.utf8ByteSize_append, String.utf8ByteSize_append, escape, hq]
  omega

theorem bytesItems_map_le {α : Type} {f : α → Json} {l : List α} {n : Nat} (h : ∀ a ∈ l, (f a).bytes ≤ n) :
    bytesItems (l.map f) ≤ l.length * n := by
  induction l with
  | nil => exact Nat.zero_le _
  | cons a l ih =>
    have ha := h a List.mem_cons_self
    have hl := ih fun b hb => h b (List.mem_cons_of_mem a hb)
    rw [List.map_cons, bytesItems, List.length_cons, Nat.add_mul]
    omega

theorem bytes_str_le {s : String} {n : Nat} (h : s.length ≤ n) : (Json.str s).bytes ≤ 24 * n + 2 := by
  have hquote := utf8ByteSize_quote_le s
  rw [bytes]
  omega

/-- Short keys and a bound on the values bound an object. -/
theorem bytesFields_le {fields : List (String × Json)} {n : Nat}
    (h : ∀ p ∈ fields, p.1.length ≤ 16 ∧ p.2.bytes ≤ n) : bytesFields fields ≤ fields.length * (n + 400) := by
  induction fields with
  | nil => exact Nat.zero_le _
  | cons p fields ih =>
    obtain ⟨hkey, hvalue⟩ := h p List.mem_cons_self
    have hquote := utf8ByteSize_quote_le p.1
    have hrest := ih fun q hq => h q (List.mem_cons_of_mem p hq)
    rw [bytesFields, List.length_cons, Nat.add_mul]
    omega

theorem utf8ByteSize_commaJoin (l : List String) :
    (commaJoin l).utf8ByteSize = (l.map String.utf8ByteSize).sum + (l.length - 1) := by
  induction l with
  | nil => rfl
  | cons s l ih =>
    cases l with
    | nil => simp [commaJoin]
    | cons t l =>
      rw [commaJoin, String.utf8ByteSize_append, String.utf8ByteSize_append, ih]
      have hc : ",".utf8ByteSize = 1 := by decide
      simp only [List.map_cons, List.sum_cons, List.length_cons, hc]
      omega

mutual

theorem utf8ByteSize_dumps (j : Json) : j.dumps.utf8ByteSize = j.bytes := by
  cases j with
  | null => decide
  | bool b => cases b <;> decide
  | int n => rfl
  | float d => rfl
  | str s => rfl
  | arr items =>
    obtain ⟨h1, h2⟩ := utf8ByteSize_dumpsItems items
    have hb : "[".utf8ByteSize = 1 ∧ "]".utf8ByteSize = 1 := by decide
    rw [dumps, bytes, String.utf8ByteSize_append, String.utf8ByteSize_append, utf8ByteSize_commaJoin, h1, h2,
      hb.1, hb.2]
    omega
  | obj fields =>
    obtain ⟨h1, h2⟩ := utf8ByteSize_dumpsFields fields
    have hp := List.sortOn_perm Prod.fst (dumpsFields fields)
    have hs : ((((dumpsFields fields).sortOn Prod.fst).map Prod.snd).map String.utf8ByteSize).sum =
        bytesFields fields := by
      rw [← h1]
      exact ((hp.map _).map _).sum_eq
    have hb : "\x7b".utf8ByteSize = 1 ∧ "\x7d".utf8ByteSize = 1 := by decide
    rw [dumps, bytes, String.utf8ByteSize_append, String.utf8ByteSize_append, utf8ByteSize_commaJoin, hs,
      List.length_map, List.length_sortOn, h2, hb.1, hb.2]
    omega

theorem utf8ByteSize_dumpsItems (items : List Json) :
    ((dumpsItems items).map String.utf8ByteSize).sum = bytesItems items ∧
      (dumpsItems items).length = items.length := by
  cases items with
  | nil => exact ⟨rfl, rfl⟩
  | cons j items =>
    obtain ⟨h1, h2⟩ := utf8ByteSize_dumpsItems items
    simp [dumpsItems, bytesItems, h1, h2, utf8ByteSize_dumps j]

theorem utf8ByteSize_dumpsFields (fields : List (String × Json)) :
    (((dumpsFields fields).map Prod.snd).map String.utf8ByteSize).sum = bytesFields fields ∧
      (dumpsFields fields).length = fields.length := by
  cases fields with
  | nil => exact ⟨rfl, rfl⟩
  | cons p fields =>
    obtain ⟨k, j⟩ := p
    obtain ⟨h1, h2⟩ := utf8ByteSize_dumpsFields fields
    have hc : ":".utf8ByteSize = 1 := by decide
    simp [dumpsFields, bytesFields, h2, hc, utf8ByteSize_dumps j, ← h1]

end

end Json
