import SqlBuilder.Json.Reader
import SqlBuilder.Moment
import SqlBuilder.Toml

/-!
# Bare values of TOML

The values that are written without quotes and brackets: truth values, numbers
in four bases, floating-point numbers, and dates and times.
-/

namespace SqlBuilder.Toml

/-- The digits of a number without the underscores between them. -/
def digitRun? (isDigit : Char → Bool) : List Char → Option (List Char)
  | [] => none
  | [c] => if isDigit c then some [c] else none
  | c :: '_' :: rest => if isDigit c then (digitRun? isDigit rest).map (c :: ·) else none
  | c :: rest => if isDigit c then (digitRun? isDigit rest).map (c :: ·) else none

/-- The value of a digit in a base up to sixteen. -/
def digitValue (c : Char) : Nat :=
  if c.isDigit then c.toNat - '0'.toNat else c.toLower.toNat - 'a'.toNat + 10

/-- The number of some digits in a base. -/
def numberIn (base : Nat) (digits : List Char) : Nat :=
  digits.foldl (fun n c => base * n + digitValue c) 0

/-- The value of an integer in a base with a mark in front. -/
def inBase? (base : Nat) (isDigit : Char → Bool) (cs : List Char) : Option Int :=
  (digitRun? isDigit cs).map fun ds => numberIn base ds

/-- The sign of a number, and what follows it. -/
def signed (cs : List Char) : Bool × List Char :=
  match cs with
  | '-' :: rest => (true, rest)
  | '+' :: rest => (false, rest)
  | rest => (false, rest)

/-- The digits of a decimal integer without a sign: no zero in front. -/
def wholePart? (cs : List Char) : Option (List Char) :=
  match digitRun? Char.isDigit cs with
  | some ('0' :: _ :: _) => none
  | ds => ds

/-- Whether a character is a digit in base sixteen. -/
def isHexDigit (c : Char) : Bool := (Json.hexValue? c).isSome

/-- An integer of any size. -/
def anyInteger? (cs : List Char) : Option Int :=
  match cs with
  | '0' :: 'x' :: rest => inBase? 16 isHexDigit rest
  | '0' :: 'o' :: rest => inBase? 8 (fun c => '0' ≤ c && c ≤ '7') rest
  | '0' :: 'b' :: rest => inBase? 2 (fun c => c = '0' || c = '1') rest
  | _ =>
    let (negative, rest) := signed cs
    (wholePart? rest).map fun ds =>
      let n : Int := Decimal.valueOf ds
      if negative then -n else n

/-- An integer. The 128 bits around zero, and above it, are the limits. -/
def integer? (cs : List Char) : Option Int :=
  (anyInteger? cs).filter fun n => -Int.pow 2 127 ≤ n && n < Int.pow 2 128

/-- The exponent of a floating-point number, after its letter. -/
def exponent? (cs : List Char) : Option Int :=
  let (negative, rest) := signed cs
  (digitRun? Char.isDigit rest).map fun ds =>
    let n : Int := Decimal.valueOf ds
    if negative then -n else n

/-- A decimal number with a point, an exponent or both. -/
def decimal? (cs : List Char) : Option Decimal := do
  let inMantissa (c : Char) : Bool := c ≠ 'e' && c ≠ 'E'
  let (mantissa, rest) := cs.span inMantissa
  let (before, after) := mantissa.span (· ≠ '.')
  let whole ← wholePart? before
  let fraction ← match after with
    | [] => some []
    | _ :: ds => digitRun? Char.isDigit ds
  match rest with
  | [] => if after = [] then none else some (.ofParts whole fraction 0)
  | _ :: ds => (exponent? ds).map (.ofParts whole fraction)

/-- A floating-point number that is not too large. -/
def real? (cs : List Char) : Option Binary64 :=
  let (negative, rest) := signed cs
  if rest = ['i', 'n', 'f'] then some (.infinite negative)
  else if rest = ['n', 'a', 'n'] then some .nan
  else ((decimal? rest).map (Binary64.ofDecimal negative)).filter Binary64.isFinite

/-- Whether each underscore stands between digits of base sixteen. -/
def underscoresBetween : List Char → Bool
  | a :: '_' :: b :: rest => isHexDigit a && isHexDigit b && underscoresBetween (b :: rest)
  | [_, '_'] => false
  | _ :: rest => underscoresBetween rest
  | [] => true

/-- Whether the text passes for an integer by its first digits and an underscore
after them. What follows is looked at only around underscores, as long as it has
no point, no letter of an exponent and no space; a tab is as good as any other
character. -/
def isLooseInteger (cs : List Char) : Bool :=
  let cs := (signed cs).2
  match cs.span Char.isDigit with
  | (first :: _, '_' :: rest) =>
    first ≠ '0' && underscoresBetween cs
      && rest.all fun c => c ≠ '.' && c ≠ 'e' && c ≠ 'E' && c ≠ ' '
  | _ => false

/-- Whether a text that denotes no number passes for one: an integer out of its
limits or without the digits of its base, a floating-point number that is too
large, or a loose integer. -/
def passesForNumber (cs : List Char) : Bool :=
  (anyInteger? cs).isSome || (decimal? (signed cs).2).isSome
    || cs = ['0', 'x'] || cs = ['0', 'o'] || cs = ['0', 'b'] || isLooseInteger cs

/-- A fixed number of digits, and what follows them. -/
def fixedDigits? (count : Nat) (cs : List Char) : Option (Nat × List Char) :=
  let ds := cs.take count
  if ds.length = count ∧ ds.all Char.isDigit then some (Decimal.valueOf ds, cs.drop count)
  else none

/-- What follows a character. -/
def after? (c : Char) : List Char → Option (List Char)
  | d :: rest => if d = c then some rest else none
  | [] => none

/-- What follows a date. -/
def skipDate? (cs : List Char) : Option (List Char) := do
  let (year, cs) ← fixedDigits? 4 cs
  let cs ← after? '-' cs
  let (month, cs) ← fixedDigits? 2 cs
  let cs ← after? '-' cs
  let (day, cs) ← fixedDigits? 2 cs
  let _ ← Date.ofFields? year month day
  return cs

/-- What follows the seconds of a time and their fraction. -/
def skipSeconds? (cs : List Char) : Option (List Char) := do
  let (second, cs) ← fixedDigits? 2 cs
  if 60 < second then none
  else match cs with
    | '.' :: cs =>
      if (cs.takeWhile Char.isDigit).isEmpty then none else some (cs.dropWhile Char.isDigit)
    | cs => some cs

/-- What follows hours and minutes. -/
def skipMinutes? (cs : List Char) : Option (List Char) := do
  let (hour, cs) ← fixedDigits? 2 cs
  let cs ← after? ':' cs
  let (minute, cs) ← fixedDigits? 2 cs
  if hour < 24 ∧ minute < 60 then some cs else none

/-- What follows a time, whose seconds can be left out. -/
def skipTime? (cs : List Char) : Option (List Char) := do
  let cs ← skipMinutes? cs
  match cs with
  | ':' :: cs => skipSeconds? cs
  | cs => some cs

/-- What follows the offset of a time from universal time, if there is one. -/
def skipOffset? : List Char → Option (List Char)
  | 'Z' :: cs | 'z' :: cs => some cs
  | '+' :: cs | '-' :: cs => skipMinutes? cs
  | cs => some cs

/-- Whether the text is a date, a time, or a date and a time. -/
def isDate (cs : List Char) : Bool :=
  match skipDate? cs with
  | some [] => true
  | some (c :: rest) =>
    (c = 'T' || c = 't' || c = ' ') && (skipTime? rest).bind skipOffset? == some []
  | none => skipTime? cs == some []

/-- The value of a bare text. -/
def bare? (cs : List Char) : Option Toml :=
  if cs = ['t', 'r', 'u', 'e'] then some (.bool true)
  else if cs = ['f', 'a', 'l', 's', 'e'] then some (.bool false)
  else if isDate cs then some (.date (String.ofList cs))
  else match integer? cs, real? cs with
    | some n, _ => some (.integer n)
    | none, some x => some (.real x)
    | none, none => if passesForNumber cs then some (.unreadable (String.ofList cs)) else none

end SqlBuilder.Toml
