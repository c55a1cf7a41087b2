import SqlBuilder.Number.Decimal

/-!
# Binary floating-point numbers

Double-precision numbers as exact multiples of the least positive one, and the
rounding of decimal numbers to the nearest of them, ties to the even
significand. All arithmetic is on natural numbers.

* `Finite64` — a finite number in its one canonical form;
* `Binary64` — the finite numbers, the two infinities and the undefined number;
* `BinaryFormat.nearest` — rounding of an exact quotient to a format;
* `Binary64.ofText?` — the number that a numeral stands for.
-/

namespace SqlBuilder

/-- A finite double: plus or minus `significand` times two to the
`scale - 1074`. The significand has at most 53 bits, and has exactly 53 unless
the scale is zero, so that every number has one form (zero has two signs). -/
structure Finite64 where
  negative : Bool
  significand : Nat
  scale : Nat
  significand_lt : significand < Nat.pow 2 53 := by decide
  scale_le : scale ≤ 2045 := by decide
  normal : scale = 0 ∨ Nat.pow 2 52 ≤ significand := by decide
  deriving DecidableEq

/-- A double-precision number. -/
inductive Binary64 where
  | nan
  | infinite (negative : Bool)
  | finite (x : Finite64)
  deriving DecidableEq

/-- A binary floating-point format: significands of `bits` bits, least positive
number two to the minus `unit`, greatest scale `mostScale`. -/
structure BinaryFormat where
  bits : Nat
  unit : Nat
  mostScale : Nat

namespace BinaryFormat

/-- The format of doubles. -/
def double : BinaryFormat := ⟨53, 1074, 2045⟩

/-- The format of single-precision numbers. -/
def single : BinaryFormat := ⟨24, 149, 253⟩

/-- The integer nearest to a quotient; a half goes to the even neighbour. -/
def roundHalfEven (num den : Nat) : Nat :=
  let q := num / den
  let twice := 2 * (num % den)
  if twice < den ∨ (twice = den ∧ q % 2 = 0) then q else q + 1

/-- The number of the format nearest to a quotient, as significand and scale,
or nothing where it would lie above the greatest scale. -/
def nearest (f : BinaryFormat) (num den : Nat) : Option (Nat × Nat) :=
  let units := num * Nat.pow 2 f.unit
  let scale := (units / den).log2 + 1 - f.bits
  let s := roundHalfEven units (den * Nat.pow 2 scale)
  let (s, scale) := if s = Nat.pow 2 f.bits then (Nat.pow 2 (f.bits - 1), scale + 1) else (s, scale)
  if scale ≤ f.mostScale then some (s, scale) else none

/-- The number of the format nearest to a decimal number. A decimal number of
310 places before the point lies above every format here, and one below ten to
the -400 rounds to zero in every one, so that no larger power is computed. -/
def nearestDecimal (f : BinaryFormat) (d : Decimal) : Option (Nat × Nat) :=
  let places := d.exponent + Decimal.width d.digits
  if d.digits = 0 ∨ places < -400 then some (0, 0)
  else if 310 < places then none
  else f.nearest (d.digits * Nat.pow 10 d.exponent.toNat) (Nat.pow 10 (-d.exponent).toNat)

end BinaryFormat

namespace Binary64

/-- The finite number with the given parts, or an infinity where the parts are
out of range. -/
def ofParts (negative : Bool) (significand scale : Nat) : Binary64 :=
  if h : significand < Nat.pow 2 53 ∧ scale ≤ 2045 ∧ (scale = 0 ∨ Nat.pow 2 52 ≤ significand) then
    .finite ⟨negative, significand, scale, h.1, h.2.1, h.2.2⟩
  else .infinite negative

/-- The double nearest to plus or minus a decimal number. -/
def ofDecimal (negative : Bool) (d : Decimal) : Binary64 :=
  match BinaryFormat.double.nearestDecimal d with
  | some (s, e) => ofParts negative s e
  | none => .infinite negative

/-- The double equal to the single-precision number nearest to plus or minus a
decimal number. -/
def ofDecimalSingle (negative : Bool) (d : Decimal) : Binary64 :=
  match BinaryFormat.single.nearestDecimal d with
  | none => .infinite negative
  | some (s, e) =>
    match BinaryFormat.double.nearest (s * Nat.pow 2 e) (Nat.pow 2 BinaryFormat.single.unit) with
    | some (s, e) => ofParts negative s e
    | none => .infinite negative

/-- The double nearest to an integer. -/
def ofInt (n : Int) : Binary64 := ofDecimal (n < 0) ⟨n.natAbs, 0⟩

/-- Whether the number is neither infinite nor undefined. -/
def isFinite : Binary64 → Bool
  | .finite _ => true
  | _ => false

/-- Reads a numeral with an optional sign, or one of the words `inf`,
`infinity` and `nan` in any case. The decimal number goes to `round`. -/
def ofTextWith? (round : Bool → Decimal → Binary64) (s : String) : Option Binary64 :=
  let (negative, body) := match s.toList with
    | '-' :: cs => (true, cs)
    | '+' :: cs => (false, cs)
    | cs => (false, cs)
  match String.ofList (body.map Char.toLower) with
  | "inf" | "infinity" => some (.infinite negative)
  | "nan" => some .nan
  | _ => (Decimal.ofNumeral? body).map (round negative)

/-- Reads a double. -/
def ofText? (s : String) : Option Binary64 := ofTextWith? ofDecimal s

/-- Reads a single-precision number, as the double equal to it. -/
def ofTextSingle? (s : String) : Option Binary64 := ofTextWith? ofDecimalSingle s

end Binary64

end SqlBuilder
