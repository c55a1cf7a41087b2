import SqlBuilder.Json

/-!
# Reading JSON text

A reader for JSON text. Every step takes characters from the front of the text
and gives back the rest; a value inside a value is read with one unit of fuel
less, and the length of the text is fuel enough because each value takes at
least one character. Of two entries with one key the later value counts, in the
place of the earlier.

* `ofText?` — a whole text;
* `readValue` — one value at the beginning of a text;
* `readNumber` — a number, exactly or as the nearest double.
-/

namespace SqlBuilder.Json

/-- The text after the blanks of JSON. -/
def skipBlanks (cs : List Char) : List Char :=
  cs.dropWhile fun c => c = ' ' || c = '\t' || c = '\n' || c = '\r'

/-- The value of a digit in base sixteen. -/
def hexValue? (c : Char) : Option Nat :=
  if c.isDigit then some (c.toNat - '0'.toNat)
  else if 'a' ≤ c ∧ c ≤ 'f' then some (c.toNat - 'a'.toNat + 10)
  else if 'A' ≤ c ∧ c ≤ 'F' then some (c.toNat - 'A'.toNat + 10)
  else none

/-- Four digits in base sixteen. -/
def readHex4 : List Char → Option (Nat × List Char)
  | a :: b :: c :: d :: rest => do
    let a ← hexValue? a
    let b ← hexValue? b
    let c ← hexValue? c
    let d ← hexValue? d
    some (((a * 16 + b) * 16 + c) * 16 + d, rest)
  | _ => none

/-- The character with a code point that is no surrogate. -/
def scalar? (n : Nat) : Option Char :=
  if h : n.isValidChar then some (Char.ofNatAux n h) else none

/-- The character of a `\u` escape, after its `u`: two units make one character
where the first is a leading surrogate. -/
def readUnicode (cs : List Char) : Option (Char × List Char) := do
  let (high, rest) ← readHex4 cs
  if 0xD800 ≤ high ∧ high < 0xDC00 then
    -- Half of a pair: the other half has to follow as an escape of its own.
    match rest with
    | '\\' :: 'u' :: rest =>
      let (low, rest) ← readHex4 rest
      if 0xDC00 ≤ low ∧ low < 0xE000 then
        let c ← scalar? (0x10000 + (high - 0xD800) * 0x400 + (low - 0xDC00))
        some (c, rest)
      else none
    | _ => none
  else
    -- A trailing surrogate on its own is no character and ends here.
    let c ← scalar? high
    some (c, rest)

/-- The character of an escape other than `\u`. -/
def plainEscape? : Char → Option Char
  | '"' => some '"'
  | '\\' => some '\\'
  | '/' => some '/'
  | 'b' => some '\x08'
  | 'f' => some '\x0c'
  | 'n' => some '\n'
  | 'r' => some '\r'
  | 't' => some '\t'
  | _ => none

/-- The characters of a string up to its closing quote, and the rest. -/
def readString : Nat → List Char → Option (List Char × List Char)
  | 0, _ => none
  | fuel + 1, cs =>
    match cs with
    | '"' :: rest => some ([], rest)
    | '\\' :: 'u' :: rest => do
      let (c, rest) ← readUnicode rest
      let (body, rest) ← readString fuel rest
      some (c :: body, rest)
    | '\\' :: e :: rest => do
      let c ← plainEscape? e
      let (body, rest) ← readString fuel rest
      some (c :: body, rest)
    | c :: rest =>
      if c.toNat < 0x20 then none
      else do
        let (body, rest) ← readString fuel rest
        some (c :: body, rest)
    | [] => none

/-- Digits after the point of a numeral, at least one where there is a point. -/
def readFraction : List Char → Option (List Char × List Char)
  | '.' :: cs =>
    let (ds, rest) := cs.span Char.isDigit
    if ds = [] then none else some (ds, rest)
  | cs => some ([], cs)

/-- The exponent of a numeral, or nothing where there is none. -/
def readExponent (cs : List Char) : Option (Option Int × List Char) :=
  match cs with
  | 'e' :: rest | 'E' :: rest =>
    let (sign, rest) := match rest with
      | '-' :: rest => (-1, rest)
      | '+' :: rest => (1, rest)
      | rest => ((1 : Int), rest)
    let (ds, rest) := rest.span Char.isDigit
    if ds = [] then none else some (some (sign * Decimal.valueOf ds), rest)
  | cs => some (none, cs)

/-- The number of a numeral without point and exponent: an integer if it lies
between minus two to the 63 and two to the 64, a double otherwise. The numeral
`-0` is the negative zero. -/
def ofInteger? (negative : Bool) (n : Nat) : Option Json :=
  if negative then
    if n = 0 ∨ Nat.pow 2 63 < n then ofDecimal? true ⟨n, 0⟩ else some (.integer (-n))
  else if n < Nat.pow 2 64 then some (.integer n) else ofDecimal? false ⟨n, 0⟩

/-- A number. No digit follows a leading zero. -/
def readNumber (cs : List Char) : Option (Json × List Char) := do
  let (negative, cs) := match cs with
    | '-' :: cs => (true, cs)
    | cs => (false, cs)
  let (whole, rest) := cs.span Char.isDigit
  if whole = [] ∨ (1 < whole.length ∧ whole.head? = some '0') then none
  else
    let (fraction, rest) ← readFraction rest
    let (exponent, rest) ← readExponent rest
    let number ← match fraction, exponent with
      | [], none => ofInteger? negative (Decimal.valueOf whole)
      | _, _ => ofDecimal? negative (Decimal.ofParts whole fraction (exponent.getD 0))
    some (number, rest)

mutual

/-- One value, and the rest of the text. -/
def readValue : Nat → List Char → Option (Json × List Char)
  | 0, _ => none
  | fuel + 1, cs =>
    match skipBlanks cs with
    | 'n' :: 'u' :: 'l' :: 'l' :: rest => some (.null, rest)
    | 't' :: 'r' :: 'u' :: 'e' :: rest => some (.bool true, rest)
    | 'f' :: 'a' :: 'l' :: 's' :: 'e' :: rest => some (.bool false, rest)
    | '"' :: rest => do
      let (body, rest) ← readString (rest.length + 1) rest
      some (.text (String.ofList body), rest)
    | '[' :: rest =>
      match skipBlanks rest with
      | ']' :: rest => some (.array [], rest)
      | rest => (readItems fuel rest).map fun r => (.array r.1, r.2)
    | '\x7b' :: rest =>
      match skipBlanks rest with
      | '\x7d' :: rest => some (.object [], rest)
      | rest => (readEntries fuel rest).map fun r => (.object (Keyed.ofList r.1), r.2)
    -- Nothing else begins a value.
    | rest => readNumber rest

/-- The items of an array up to its closing bracket. -/
def readItems : Nat → List Char → Option (List Json × List Char)
  | 0, _ => none
  | fuel + 1, cs => do
    let (item, rest) ← readValue fuel cs
    match skipBlanks rest with
    | ',' :: rest =>
      let (items, rest) ← readItems fuel rest
      some (item :: items, rest)
    | ']' :: rest => some ([item], rest)
    | _ => none

/-- The entries of an object up to its closing brace. -/
def readEntries : Nat → List Char → Option (List (String × Json) × List Char)
  | 0, _ => none
  | fuel + 1, cs =>
    match skipBlanks cs with
    | '"' :: rest => do
      let (key, rest) ← readString (rest.length + 1) rest
      match skipBlanks rest with
      | ':' :: rest =>
        let (value, rest) ← readValue fuel rest
        let entry := (String.ofList key, value)
        match skipBlanks rest with
        | ',' :: rest =>
          let (entries, rest) ← readEntries fuel rest
          some (entry :: entries, rest)
        | '\x7d' :: rest => some ([entry], rest)
        | _ => none
      | _ => none
    | _ => none

end

/-- Reads a text that holds one value and blanks. -/
def ofText? (s : String) : Option Json :=
  match readValue (s.length + 1) s.toList with
  | some (j, rest) => if skipBlanks rest = [] then some j else none
  | none => none

end SqlBuilder.Json
