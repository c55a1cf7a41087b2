import SqlBuilder.Number.Shortest

/-!
# Texts of floating-point numbers

The three ways in which doubles are written. All of them use the shortest
digits that read back; they differ in where positional notation ends and in
how whole numbers and exponents look, which a `FloatStyle` says.
-/

namespace SqlBuilder

/-- How a finite number is written. -/
structure FloatStyle where
  /-- Whether a number whose first digit has this power of ten is written
  without an exponent. -/
  positional : Int → Bool
  /-- Whether a positional whole number ends in `.0`. -/
  pointed : Bool
  /-- Whether a positive exponent has a sign. -/
  signed : Bool
  /-- Which of two equally near shortest numbers is written. -/
  tie : HalfWay

namespace FloatStyle

/-- Numbers in statements: digits and at most one point, never an exponent. -/
def plain : FloatStyle := ⟨fun _ => true, false, false, .up⟩

/-- Numbers in messages that describe a value: positional from 0.0001 up to
below 10^16. -/
def described : FloatStyle := ⟨fun p => -4 ≤ p && p ≤ 15, true, false, .up⟩

/-- Numbers in JSON text: positional from 0.00001 up to below 10^16, and
exponents with a sign. -/
def json : FloatStyle := ⟨fun p => -5 ≤ p && p ≤ 15, true, true, .even⟩

/-- `n` zeros. -/
def zeros (n : Nat) : List Char := List.replicate n '0'

/-- Digits times ten to the `exponent`, without an exponent. -/
def positionalText (style : FloatStyle) (digits : List Char) (exponent : Int) : List Char :=
  if 0 ≤ exponent then
    digits ++ zeros exponent.toNat ++ if style.pointed then ['.', '0'] else []
  else
    let places := (-exponent).toNat
    if places < digits.length then
      digits.take (digits.length - places) ++ '.' :: digits.drop (digits.length - places)
    else '0' :: '.' :: zeros (places - digits.length) ++ digits

/-- Digits with a point after the first, and the power of ten `lead` of that
first digit. -/
def scientificText (style : FloatStyle) (digits : List Char) (lead : Int) : List Char :=
  let mantissa := match digits with
    | first :: more@(_ :: _) => first :: '.' :: more
    | few => few
  mantissa ++ 'e' :: (if style.signed && 0 ≤ lead then ['+'] else []) ++ (toString lead).toList

/-- The text of a finite number. -/
def write (style : FloatStyle) (x : Finite64) : String :=
  let d := x.shortest style.tie
  let digits := Nat.toDigits 10 d.digits
  let lead := d.exponent + digits.length - 1
  let body :=
    if style.positional lead then style.positionalText digits d.exponent
    else style.scientificText digits lead
  String.ofList (if x.negative then '-' :: body else body)

end FloatStyle

/-- The text of a number: `NaN`, `inf` and `-inf` where it is not finite. -/
def Binary64.text (style : FloatStyle) : Binary64 → String
  | .nan => "NaN"
  | .infinite false => "inf"
  | .infinite true => "-inf"
  | .finite x => style.write x

end SqlBuilder
