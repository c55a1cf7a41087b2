/-!
# Column types

The types that a column of a table can have.
-/

namespace SqlBuilder

/-- The type of a column. -/
inductive ColumnType where
  | integer
  | int
  | varchar
  | char
  | date
  | time
  | dateTime
  | timestamp
  | tinyText
  | text
  | mediumText
  | longText
  | tinyBlob
  | blob
  | mediumBlob
  | longBlob
  deriving DecidableEq, Repr

namespace ColumnType

/-- The word for the type in a statement. -/
def keyword : ColumnType → String
  | .integer => "INTEGER"
  | .int => "INT"
  | .varchar => "VARCHAR"
  | .char => "CHAR"
  | .date => "DATE"
  | .time => "TIME"
  | .dateTime => "DATETIME"
  | .timestamp => "TIMESTAMP"
  | .tinyText => "TINYTEXT"
  | .text => "TEXT"
  | .mediumText => "MEDIUMTEXT"
  | .longText => "LONGTEXT"
  | .tinyBlob => "TINYBLOB"
  | .blob => "BLOB"
  | .mediumBlob => "MEDIUMBLOB"
  | .longBlob => "LONGBLOB"

/-- Every type. -/
def every : List ColumnType :=
  [.integer, .int, .varchar, .char, .date, .time, .dateTime, .timestamp, .tinyText, .text,
    .mediumText, .longText, .tinyBlob, .blob, .mediumBlob, .longBlob]

/-- Whether the type counts rows. -/
def isInteger : ColumnType → Bool
  | .integer | .int => true
  | _ => false

/-- Whether the type can have a length. -/
def takesLength : ColumnType → Bool
  | .varchar | .char => true
  | _ => false

/-- The text with its ASCII letters in upper case. -/
def upperCase (s : String) : String := String.ofList (s.toList.map Char.toUpper)

/-- The type with a given word, in any case. -/
def ofName? (s : String) : Option ColumnType := every.find? (·.keyword = upperCase s)

/-- A type is found under its own word. -/
theorem ofName?_keyword (t : ColumnType) : ofName? t.keyword = some t := by
  cases t <;> decide

end ColumnType

end SqlBuilder
