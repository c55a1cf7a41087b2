import SqlBuilder.Table.ColumnDefinition
import SqlBuilder.Value.OfJson

/-!
# Tables in JSON

The reading of column definitions and index options from JSON. A record is an
object with the names of its fields or an array of its fields in order; unknown
names do not count, and fields at the end of an array can be left out.
-/

namespace SqlBuilder

namespace Json

/-- The fields of a record by their names. -/
def fields? (names : List String) : Json → Option (List (Option Json))
  | .object entries => some (names.map (Keyed.get? entries))
  | .array items =>
    if items.length ≤ names.length then some (names.mapIdx fun i _ => items[i]?) else none
  | _ => none

/-- A text. -/
def text? : Json → Option String
  | .text s => some s
  | _ => none

/-- A truth value that is false when it is not there. -/
def flag? : Option Json → Option Bool
  | none => some false
  | some (.bool b) => some b
  | _ => none

/-- A number of 32 bits that can be left out. -/
def length? : Option Json → Option (Option Nat)
  | none | some .null => some none
  | some (.integer n) => if 0 ≤ n ∧ n < Int.pow 2 32 then some (some n.toNat) else none
  | _ => none

/-- A text that can be left out. -/
def optionalText? : Option Json → Option (Option String)
  | none | some .null => some none
  | some (.text s) => some (some s)
  | _ => none

/-- A literal that can be left out. -/
def optionalValue? : Option Json → Option (Option Value)
  | none | some .null => some none
  | some j => (Value.ofJson j).toOption.map some

/-- A list of texts that is empty when it is not there. -/
def texts? : Option Json → Option (List String)
  | none => some []
  | some (.array items) => items.mapM text?
  | _ => none

end Json

/-- The column definition of a JSON value. -/
def ColumnDefinition.ofJson? (j : Json) : Option ColumnDefinition := do
  let fields ← j.fields?
    ["type", "length", "auto_increment", "primary_key", "default", "not_null"]
  match fields with
  | [some typeName, length, autoIncrement, primaryKey, defaultValue, notNull] =>
    let typeName ← typeName.text?
    let length ← Json.length? length
    let autoIncrement ← Json.flag? autoIncrement
    let primaryKey ← Json.flag? primaryKey
    let defaultValue ← Json.optionalValue? defaultValue
    let notNull ← Json.flag? notNull
    return { typeName, length, autoIncrement, primaryKey, defaultValue, notNull }
  | _ => none

/-- The index options of a JSON value. -/
def IndexOptions.ofJson? (j : Json) : Option IndexOptions := do
  let fields ← j.fields? ["unique", "table", "columns"]
  match fields with
  | [unique, table, columns] =>
    let unique ← Json.flag? unique
    let table ← Json.optionalText? table
    let columns ← Json.texts? columns
    return { unique, table, columns }
  | _ => none

end SqlBuilder
