import SevenLens.Library.Decimal

/-! # Numbers as text

A finite decimal number is read from a sign, digits with or without a point, and an exponent.  Blanks
around the text and underscores anywhere are dropped, and the digits may be those of any script:
`digit` gives their values.  `readFinite` gives the number as it is written, with all its zeros. -/

namespace Decimal

section Read

variable (digit : Char → Option Nat)

/-- The value of a text of digits. -/
def digitsValue (l : List Char) : Nat := l.foldl (fun n c => 10 * n + (digit c).getD 0) 0

/-- Take a sign off a text. -/
def takeSign : List Char → Bool × List Char
  | '-' :: l => (true, l)
  | '+' :: l => (false, l)
  | l => (false, l)

/-- `decimal-part`: the digits before and after the point, and the rest of the text. -/
def takeDigits (l : List Char) : List Char × List Char × List Char :=
  let whole := l.takeWhile (fun c => (digit c).isSome)
  match l.dropWhile (fun c => (digit c).isSome) with
  | '.' :: m => (whole, m.takeWhile (fun c => (digit c).isSome), m.dropWhile (fun c => (digit c).isSome))
  | m => (whole, [], m)

/-- `[exponent-part]` -/
def takeExponent : List Char → Option Int
  | [] => some 0
  | c :: l =>
    if (c = 'e' ∨ c = 'E') ∧ (takeSign l).2 ≠ [] ∧ (takeSign l).2.all (fun c => (digit c).isSome) then
      some (if (takeSign l).1 then -(digitsValue digit (takeSign l).2 : Int) else digitsValue digit (takeSign l).2)
    else none

/-- `Decimal(text)`, when it is a finite number. -/
def readFinite (space : Char → Bool) (s : List Char) : Option Decimal :=
  let text := (((s.dropWhile space).reverse.dropWhile space).reverse).filter (· ≠ '_')
  let (negative, l) := takeSign text
  let (whole, fraction, rest) := takeDigits digit l
  if whole ++ fraction = [] then none
  else (takeExponent digit rest).map fun e =>
    ⟨negative, digitsValue digit (whole ++ fraction), e - fraction.length⟩

end Read

end Decimal
