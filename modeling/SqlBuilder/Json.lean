import SqlBuilder.Number.FloatText
import SqlBuilder.Keyed

/-!
# JSON values

JSON values whose objects keep the order of their keys. A number written as an
integer stays an integer; every other number is a finite double. `compact` is
the text of a value without blanks, as messages show it.
-/

namespace SqlBuilder

/-- A JSON value. -/
inductive Json where
  | null
  | bool (b : Bool)
  | integer (n : Int)
  | real (x : Finite64)
  | text (s : String)
  | array (items : List Json)
  | object (entries : List (String × Json))

namespace Json

/-- One character inside a JSON string: the quote, the backslash and the
controls are escaped, nothing else is. -/
def escapedChar (c : Char) : List Char :=
  match c with
  | '"' => ['\\', '"']
  | '\\' => ['\\', '\\']
  | '\x08' => ['\\', 'b']
  | '\x0c' => ['\\', 'f']
  | '\n' => ['\\', 'n']
  | '\r' => ['\\', 'r']
  | '\t' => ['\\', 't']
  | c =>
    if c.toNat < 0x20 then
      ['\\', 'u', '0', '0', Nat.digitChar (c.toNat / 16), Nat.digitChar (c.toNat % 16)]
    else [c]

/-- A JSON string. -/
def stringText (s : String) : String :=
  String.ofList ('"' :: s.toList.flatMap escapedChar ++ ['"'])

mutual

/-- The text of a value without blanks. -/
def compact : Json → String
  | .null => "null"
  | .bool b => if b then "true" else "false"
  | .integer n => toString n
  | .real x => FloatStyle.json.write x
  | .text s => stringText s
  | .array items => "[" ++ ",".intercalate (compactItems items) ++ "]"
  | .object entries => "\x7b" ++ ",".intercalate (compactEntries entries) ++ "\x7d"
termination_by structural j => j

/-- The texts of the items of an array. -/
def compactItems : List Json → List String
  | [] => []
  | j :: items => compact j :: compactItems items
termination_by structural items => items

/-- The texts of the entries of an object. -/
def compactEntries : List (String × Json) → List String
  | [] => []
  | (key, j) :: entries => (stringText key ++ ":" ++ compact j) :: compactEntries entries
termination_by structural entries => entries

end

/-- The value under a key of an object; nothing for other values. -/
def get? : Json → String → Option Json
  | .object entries, key => Keyed.get? entries key
  | _, _ => none

/-- The number that a floating-point numeral in JSON text stands for, if it is
not too large. -/
def ofDecimal? (negative : Bool) (d : Decimal) : Option Json :=
  match Binary64.ofDecimal negative d with
  | .finite x => some (.real x)
  | _ => none

end Json

end SqlBuilder
