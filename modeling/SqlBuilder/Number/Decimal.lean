/-!
# Decimal numbers

A decimal number is an integer times a power of ten. This module reads the
digits of numerals and counts them.
-/

namespace SqlBuilder

/-- The number `digits` times ten to the `exponent`. -/
structure Decimal where
  digits : Nat
  exponent : Int
  deriving DecidableEq, Repr

namespace Decimal

/-- The number that a list of decimal digits stands for. -/
def valueOf (digits : List Char) : Nat :=
  digits.foldl (fun n c => 10 * n + (c.toNat - '0'.toNat)) 0

/-- The value of a numeral with the given digits before and after the point,
times ten to the `exponent`. -/
def ofParts (whole fraction : List Char) (exponent : Int) : Decimal :=
  ⟨valueOf (whole ++ fraction), exponent - fraction.length⟩

/-- How many decimal digits a number is written with. -/
def width (n : Nat) : Nat := (Nat.toDigits 10 n).length

/-- An unsigned run of digits with an optional sign in front, to the end of
the text: the exponent of a numeral. -/
def exponentOf? : List Char → Option Int
  | '+' :: ds => unsigned? ds
  | '-' :: ds => (unsigned? ds).map (- ·)
  | ds => unsigned? ds
where
  unsigned? (ds : List Char) : Option Int :=
    if ds ≠ [] ∧ ds.all Char.isDigit then some (valueOf ds) else none

/-- Reads an unsigned numeral: digits with at most one point among or around
them, at least one digit, and an optional exponent after `e` or `E`. -/
def ofNumeral? (cs : List Char) : Option Decimal :=
  let (whole, rest) := cs.span Char.isDigit
  let (fraction, rest) := match rest with
    | '.' :: more => more.span Char.isDigit
    | other => ([], other)
  if whole = [] ∧ fraction = [] then none
  else match rest with
    | [] => some (ofParts whole fraction 0)
    | 'e' :: more | 'E' :: more => (exponentOf? more).map (ofParts whole fraction)
    | _ => none

end Decimal

end SqlBuilder
