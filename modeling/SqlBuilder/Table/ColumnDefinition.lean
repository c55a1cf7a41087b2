import SqlBuilder.Encoder

/-!
# Column definitions

The columns of a table and the options of an index, as callers describe them,
and the text of a column definition in a statement.
-/

namespace SqlBuilder

/-- A column of a table. The word for its type is checked when the definition
is written. -/
structure ColumnDefinition where
  typeName : String
  length : Option Nat := none
  autoIncrement : Bool := false
  primaryKey : Bool := false
  /-- The default value; the null value is a default, too. -/
  defaultValue : Option Value := none
  notNull : Bool := false

/-- The table and the columns of an index. -/
structure IndexOptions where
  unique : Bool := false
  table : Option String := none
  columns : List String := []
  deriving DecidableEq, Repr

namespace ColumnDefinition

/-- The text of a type with its length. -/
def typeText (column : String) (type : ColumnType) : Option Nat → Except Fault String
  | none => .ok type.keyword
  | some n =>
    if type.takesLength then .ok (type.keyword ++ "(" ++ toString n ++ ")")
    else .error (.unexpectedLength column type)

/-- The words of a default value, if there is one. -/
def defaultText (e : Encoder) : Option Value → Except Fault (List String)
  | none => .ok []
  | some v => do
    let literal ← e.encode v
    return ["DEFAULT " ++ literal]

/-- The text of the definition of a column: its name, its type, and its
options in a fixed order. -/
def text (e : Encoder) (name : String) (d : ColumnDefinition) : Except Fault String := do
  let column ← Name.require .plain name
  match ColumnType.ofName? d.typeName with
  | none => .error (.unknownColumnType column d.typeName)
  | some type =>
    let typed ← typeText column type d.length
    if d.autoIncrement && !type.isInteger then .error (.uncountable column type)
    else
      let preset ← defaultText e d.defaultValue
      let words := [column, typed]
        ++ (if d.autoIncrement then ["AUTO_INCREMENT"] else [])
        ++ (if d.primaryKey then ["PRIMARY KEY"] else [])
        ++ preset
        ++ (if d.notNull then ["NOT NULL"] else [])
      return " ".intercalate words

end ColumnDefinition

end SqlBuilder
