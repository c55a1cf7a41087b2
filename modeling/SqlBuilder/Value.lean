import SqlBuilder.Moment
import SqlBuilder.Number.FloatText
import SqlBuilder.Text.Quoted

/-!
# Values

The literals that a statement can hold, with the two texts that messages show:
the bare one and the described one, which names the kind of the value.
-/

namespace SqlBuilder

/-- A literal. -/
inductive Value where
  | null
  | bool (b : Bool)
  | int (n : Int64)
  | float (x : Binary64)
  | text (s : String)
  /-- An instant of universal time, written on the clock that a builder uses. -/
  | instant (m : Moment)
  /-- A wall-clock date and time, written as it is. -/
  | wall (m : Moment)
  /-- A reference to a column, written without quotes. -/
  | column (reference : String)
  deriving DecidableEq

namespace Value

/-- A day without a time: its first instant. -/
def ofDate (d : Date) : Value := .wall ⟨d, .midnight⟩

/-- Whether the value is the null value. -/
def isNull : Value → Bool
  | .null => true
  | _ => false

/-- The characters of a text value. -/
def asText? : Value → Option String
  | .text s => some s
  | _ => none

/-- The bare text of a value. -/
def display : Value → String
  | .null => "null"
  | .bool b => if b then "true" else "false"
  | .int n => toString n.toInt
  | .float x => x.text .plain
  | .text s => s
  | .instant m => m.text ++ " UTC"
  | .wall m => m.text
  | .column reference => reference

/-- The text of a value with its kind. -/
def describe : Value → String
  | .null => "Null"
  | .bool b => if b then "Bool(true)" else "Bool(false)"
  | .int n => "Int(" ++ toString n.toInt ++ ")"
  | .float x => "Float(" ++ x.text .described ++ ")"
  | .text s => "Text(" ++ Text.quoted s ++ ")"
  | .instant m => "DateTime(" ++ m.textWith "T" ++ "Z)"
  | .wall m => "Naive(" ++ m.textWith "T" ++ ")"
  | .column reference => "Column(" ++ Text.quoted reference ++ ")"

/-- The text of a list of values with their kinds. -/
def describeAll (vs : List Value) : String :=
  "[" ++ ", ".intercalate (vs.map describe) ++ "]"

end Value

end SqlBuilder
