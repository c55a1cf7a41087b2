import SqlBuilder.Family
import SqlBuilder.Schema
import SqlBuilder.Text.Space

/-!
# Encoding of values

The text of a value in a statement: numbers and words bare, texts and dates
between double quotes with escapes, registered columns and variables by name.
-/

namespace SqlBuilder

/-- What the text of a value depends on. -/
structure Encoder where
  family : Family := .standard
  /-- Whether instants are written in universal time. -/
  useUtc : Bool := false
  /-- What instants are written on otherwise. -/
  clock : LocalClock
  /-- The columns that texts can refer to. -/
  schemas : Schemas := .empty

namespace Encoder

/-- One character of a quoted text: control characters, quotes and backslashes
are escaped. -/
def escapeChar (family : Family) (c : Char) : List Char :=
  match c with
  | '\x00' => ['\\', '0']
  | '\n' => ['\\', 'n']
  | '\r' => ['\\', 'r']
  | '\x08' => ['\\', 'b']
  | '\t' => ['\\', 't']
  | '\x1a' => ['\\', 'Z']
  | '\'' => if family = .sqlite then ['\'', '\''] else ['\\', '\'']
  | '"' => ['\\', '"']
  | '\\' => ['\\', '\\']
  | c => [c]

/-- The characters of a quoted text. -/
def escape (family : Family) (cs : List Char) : List Char := cs.flatMap (escapeChar family)

/-- The text between double quotes. -/
def quote (family : Family) (s : String) : String :=
  String.ofList ('"' :: escape family s.toList ++ ['"'])

/-- The text of a text value. White space at both ends does not count. A
registered column and a variable stand by their names; two double quotes stand
for the empty text. -/
def encodeText (e : Encoder) (s : String) : Except Fault String :=
  let t := Text.trim s
  if e.schemas.isColumnName t then .ok t
  else if t.toList.head? = some '@' then Name.require .variableName t
  else if t = "" ∨ t = "\"\"" then .ok "\"\""
  else .ok (quote e.family t)

/-- The text of a value in a statement. -/
def encode (e : Encoder) : Value → Except Fault String
  | .null => .ok "NULL"
  | .bool b => .ok (if b then "true" else "false")
  | .int n => .ok (toString n.toInt)
  | .float x => if x.isFinite then .ok (x.text .plain) else .error (.notFinite x)
  | .text s => e.encodeText s
  | .instant m => .ok (quote e.family (m.instantText e.clock e.useUtc))
  | .wall m => .ok (quote e.family m.sqlText)
  | .column reference => .ok reference

end Encoder

end SqlBuilder
