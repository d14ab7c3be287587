import SevenLens.Library.FloatText
import SevenLens.Library.Dict

/-! # Reading JSON

The decoder of Python: a value and what is left of the text, or nothing.  It reads more than is written:
blanks, escapes, numbers in every spelling, a key that comes twice.  The text of a value in canonical form is
read as this value (`loads_dumps`). -/

namespace Json

/-- A text of Python: its code points, which may be surrogates. -/
abbrev CodePoints := List Nat

/-- A value of Python. -/
inductive Value where
  | null
  | bool (b : Bool)
  | int (n : Int)
  | float (x : Float64)
  | str (s : CodePoints)
  | list (items : List Value)
  /-- The entries in their order.  A key that is not a text is `none`. -/
  | dict (entries : List (Option CodePoints × Value))
  /-- A container inside itself. -/
  | cycle
  /-- Any other object. -/
  | other

def codePoints (s : String) : CodePoints := s.toList.map Char.toNat

/-- The text without surrogates: `s.encode("utf-8", errors="strict")` -/
def encode (s : CodePoints) : Option String :=
  (s.mapM fun n : Nat => if n.isValidChar then some (Char.ofNat n) else none).map String.ofList

mutual

/-- A value of JSON is a value of Python. -/
def toValue : Json → Value
  | .null => .null
  | .bool b => .bool b
  | .int n => .int n
  | .float d => .float (.finite d)
  | .str s => .str (codePoints s)
  | .arr items => .list (toItems items)
  | .obj fields => .dict (toEntries fields)

def toItems : List Json → List Value
  | [] => []
  | j :: items => toValue j :: toItems items

def toEntries : List (String × Json) → List (Option CodePoints × Value)
  | [] => []
  | (k, j) :: fields => (some (codePoints k), toValue j) :: toEntries fields

end

mutual

/-- Python has such a value: a number that is finite has the digits of a float, and no key comes twice. -/
def Value.Proper : Value → Prop
  | .float (.finite d) => d.Genuine
  | .list items => Value.ProperItems items
  | .dict entries => (entries.map Prod.fst).Nodup ∧ Value.ProperEntries entries
  | _ => True

def Value.ProperItems : List Value → Prop
  | [] => True
  | v :: items => v.Proper ∧ Value.ProperItems items

def Value.ProperEntries : List (Option CodePoints × Value) → Prop
  | [] => True
  | (_, v) :: entries => v.Proper ∧ Value.ProperEntries entries

end

/-! ### Texts -/

def quoteMark : Char := Char.ofNat 34

def openBrace : Char := Char.ofNat 123

def closeBrace : Char := Char.ofNat 125

/-- `WHITESPACE` -/
def isBlank (c : Char) : Bool := c = ' ' || c = '\t' || c = '\n' || c = '\r'

def skipBlanks (text : List Char) : List Char := text.dropWhile isBlank

def hexValue (c : Char) : Option Nat :=
  if c.isDigit then some (c.toNat - 48)
  else if 97 ≤ c.toNat ∧ c.toNat ≤ 102 then some (c.toNat - 87)
  else if 65 ≤ c.toNat ∧ c.toNat ≤ 70 then some (c.toNat - 55)
  else none

/-- What follows a backslash. -/
def scanEscape : List Char → Option (Nat × List Char)
  | [] => none
  | e :: text =>
    if e = quoteMark ∨ e = backslash ∨ e = '/' then some (e.toNat, text)
    else if e = 'b' then some (8, text)
    else if e = 'f' then some (12, text)
    else if e = 'n' then some (10, text)
    else if e = 'r' then some (13, text)
    else if e = 't' then some (9, text)
    else if e = 'u' then
      match text with
      | c₃ :: c₂ :: c₁ :: c₀ :: text => do
        return (((← hexValue c₃) * 4096 + (← hexValue c₂) * 256 + (← hexValue c₁) * 16 + (← hexValue c₀)), text)
      | _ => none
    else none

/-- A character inside a quoted text, or what is written for it. -/
def scanUnit : List Char → Option (Nat × List Char)
  | [] => none
  | c :: text => if c = backslash then scanEscape text else if c.toNat < 32 then none else some (c.toNat, text)

def scanUnits : Nat → List Char → Option (CodePoints × List Char)
  | 0, _ => none
  | fuel + 1, text =>
    if text.head? = some quoteMark then some ([], text.tail)
    else do
      let (u, text) ← scanUnit text
      let (us, text) ← scanUnits fuel text
      return (u :: us, text)

/-- A high and a low surrogate in succession are one character. -/
def joinSurrogates : CodePoints → CodePoints
  | u :: v :: us =>
    if 0xD800 ≤ u ∧ u < 0xDC00 ∧ 0xDC00 ≤ v ∧ v < 0xE000 then
      (0x10000 + (u - 0xD800) * 0x400 + (v - 0xDC00)) :: joinSurrogates us
    else u :: joinSurrogates (v :: us)
  | us => us

/-- `scanstring`, after the first quote.  Every round reads a character. -/
def scanString (text : List Char) : Option (CodePoints × List Char) := do
  let (us, text) ← scanUnits (text.length + 1) text
  return (joinSurrogates us, text)

/-! ### Numbers -/

/-- `sys.get_int_max_str_digits()` -/
def intMaxStrDigits : Nat := 4300

/-- A sign and what follows it. -/
def readMinus (text : List Char) : Bool × List Char :=
  if text.head? = some '-' then (true, text.tail) else (false, text)

def negateIf (negative : Bool) (n : Nat) : Int := if negative then -n else n

/-- The digits before the point, of which the first is a zero only if there is no other. -/
def scanWhole : List Char → Option (List Char × List Char)
  | [] => none
  | c :: text =>
    if c = '0' then some (['0'], text)
    else if c.isDigit then some (c :: text.takeWhile Char.isDigit, text.dropWhile Char.isDigit)
    else none

/-- The digits after the point. -/
def scanFraction (text : List Char) : List Char × List Char :=
  if text.head? = some '.' ∧ text.tail.takeWhile Char.isDigit ≠ [] then
    (text.tail.takeWhile Char.isDigit, text.tail.dropWhile Char.isDigit)
  else ([], text)

/-- The sign of an exponent. -/
def readSign (text : List Char) : Bool × List Char :=
  if text.head? = some '+' then (false, text.tail) else readMinus text

def scanExponent (text : List Char) : Option Int × List Char :=
  let signed := readSign text.tail
  if (text.head? = some 'e' ∨ text.head? = some 'E') ∧ signed.2.takeWhile Char.isDigit ≠ [] then
    (some (negateIf signed.1 (Nat.ofDigitChars 10 (signed.2.takeWhile Char.isDigit) 0)), signed.2.dropWhile Char.isDigit)
  else (none, text)

/-- `_match_number_unicode`: an integer unless there is a point or an exponent. -/
def scanNumber (text : List Char) : Option (Value × List Char) := do
  let signed := readMinus text
  let (whole, text) ← scanWhole signed.2
  let (fraction, text) := scanFraction text
  let (exponent, text) := scanExponent text
  if fraction = [] ∧ exponent = none then
    if intMaxStrDigits < whole.length then none
    else return (.int (negateIf signed.1 (Nat.ofDigitChars 10 whole 0)), text)
  else
    return (.float (readDecimal signed.1 (Nat.ofDigitChars 10 (whole ++ fraction) 0) (exponent.getD 0 - fraction.length)), text)

/-! ### Values -/

/-- The words, and with `constants` those that stand for numbers that are not finite. -/
def words (constants : Bool) : List (List Char × Value) :=
  [(['n', 'u', 'l', 'l'], .null), (['t', 'r', 'u', 'e'], .bool true), (['f', 'a', 'l', 's', 'e'], .bool false)] ++
    if constants then
      [(['N', 'a', 'N'], .float .nan), (['I', 'n', 'f', 'i', 'n', 'i', 't', 'y'], .float (.inf false)),
        (['-', 'I', 'n', 'f', 'i', 'n', 'i', 't', 'y'], .float (.inf true))]
    else []

def scanWord (constants : Bool) (text : List Char) : Option (Value × List Char) :=
  (words constants).findSome? fun (word, v) => if word.isPrefixOf text then some (v, text.drop word.length) else none

/-- The entries of a dictionary: of a key that comes again the last value stays, at its first place. -/
def dictOf (members : List (CodePoints × Value)) : List (CodePoints × Value) :=
  members.foldl (fun entries p => Dict.insert entries p.1 p.2) []

def entriesOf (members : List (CodePoints × Value)) : List (Option CodePoints × Value) :=
  (dictOf members).map fun p => (some p.1, p.2)

/-- The hooks of `json.loads`: whether the words for numbers that are not finite are read, and whether a key may come
again. -/
structure Hooks where
  constants : Bool
  repeated : Bool

/-- `json.loads(s)` -/
def Hooks.plain : Hooks := ⟨true, true⟩

/-- `parse_constant` refuses. -/
def Hooks.finite : Hooks := ⟨false, true⟩

/-- `parse_constant` refuses, and `object_pairs_hook` refuses a key that comes again. -/
def Hooks.strict : Hooks := ⟨false, false⟩

def Hooks.entries (hooks : Hooks) (members : List (CodePoints × Value)) : Option (List (Option CodePoints × Value)) :=
  if hooks.repeated = true ∨ (members.map Prod.fst).Nodup then some (entriesOf members) else none

mutual

/-- `scan_once`.  A call reads a character before the second call inside it, so that twice as many rounds as there
are characters are enough. -/
def scanValue (hooks : Hooks) : Nat → List Char → Option (Value × List Char)
  | 0, _ => none
  | _ + 1, [] => none
  | fuel + 1, c :: text =>
    if c = quoteMark then (scanString text).map fun (s, text) => (.str s, text)
    else if c = '[' then
      if (skipBlanks text).head? = some ']' then some (.list [], (skipBlanks text).tail)
      else (scanItems hooks fuel (skipBlanks text)).map fun (items, text) => (.list items, text)
    else if c = openBrace then
      if (skipBlanks text).head? = some closeBrace then some (.dict [], (skipBlanks text).tail)
      else do
        let (members, text) ← scanMembers hooks fuel (skipBlanks text)
        let entries ← hooks.entries members
        return (.dict entries, text)
    else (scanWord hooks.constants (c :: text)).or (scanNumber (c :: text))

/-- The items of a list, from one of them on. -/
def scanItems (hooks : Hooks) : Nat → List Char → Option (List Value × List Char)
  | 0, _ => none
  | fuel + 1, text => do
    let (v, text) ← scanValue hooks fuel text
    match skipBlanks text with
    | [] => none
    | c :: text =>
      if c = ']' then return ([v], text)
      else if c = ',' then do
        let (items, text) ← scanItems hooks fuel (skipBlanks text)
        return (v :: items, text)
      else none

/-- The entries of a dictionary, from the key of one of them on. -/
def scanMembers (hooks : Hooks) : Nat → List Char → Option (List (CodePoints × Value) × List Char)
  | 0, _ => none
  | fuel + 1, text =>
    if text.head? = some quoteMark then do
      let (k, text) ← scanString text.tail
      if (skipBlanks text).head? = some ':' then
        let (v, text) ← scanValue hooks fuel (skipBlanks (skipBlanks text).tail)
        match skipBlanks text with
        | [] => none
        | c :: text =>
          if c = closeBrace then return ([(k, v)], text)
          else if c = ',' then do
            let (members, text) ← scanMembers hooks fuel (skipBlanks text)
            return ((k, v) :: members, text)
          else none
      else none
    else none

end

/-- `json.loads` -/
def loads (hooks : Hooks) (s : String) : Option Value := do
  let (v, rest) ← scanValue hooks (2 * s.toList.length + 2) (skipBlanks s.toList)
  if skipBlanks rest = [] then return v else none

end Json
