import SqlBuilder.Builder
import SqlBuilder.FunctionCall

/-!
# The statements that verbs start

Each verb checks its arguments, one after the other, and puts a whole statement
in the place of the one that was there.
-/

namespace SqlBuilder

/-- The text of the statement of another builder, as the body of a view or an
operand of a union; `user` is what needs it. -/
def Builder.innerText (user : String) (b : Builder) : Except Fault String :=
  if b.statement.verb.isNone then .error (.emptyInnerStatement user)
  else b.statement.text

namespace Column

/-- Whether a selected column is safe: a name with a period, parentheses or an
asterisk, or a function call; with an alias, a plain name or a function call
and a plain alias. -/
def isSafe : Column → Except Fault Bool
  | .name n => if Name.isSafe .selection n then .ok true else FunctionCall.isWhole n
  | .aliased expression label => do
    let safe ←
      if Name.isSafe .plain expression then .ok true else FunctionCall.isWhole expression
    return safe && Name.isSafe .plain label

/-- The column itself if it is safe. -/
def require (c : Column) : Except Fault Column := do
  let safe ← c.isSafe
  if safe then return c else .error (.unsafeColumn c)

end Column

/-- A written column with its encoded value. -/
def Settings.writtenValue (s : Settings) (table : String) (pair : String × Value) :
    Except Fault (String × String) := do
  let column ← Name.require .qualified pair.1
  let value ← s.schemas.check table column pair.2
  let literal ← s.encoder.encode value
  return (column, literal)

namespace Method

/-- Starts a statement about a checked name. -/
def startNamed (verb : Verb) (name : String) : Method Unit := do
  let name ← Name.require .plain name
  start (.named verb name)

/-- Registers a table and starts its definition. -/
def createTable (name : String) (columns : List (String × ColumnDefinition)) : Method Unit := do
  let name ← Name.require .plain name
  if columns.isEmpty then throw (.noDefinitions name)
  let encoder := (← get).encoder
  let definitions ← (columns.mapM fun c => c.2.text encoder c.1 : Except Fault (List String))
  -- the table stays registered when another statement takes the place of this one
  modify fun b => { b with settings.schemas := b.settings.schemas.ensure name }
  start { Statement.named .createTable name with definitions := definitions }

/-- Starts the definition of an index. -/
def createIndex (name : String) (o : IndexOptions) : Method Unit := do
  let name ← Name.require .plain name
  let table := o.table.getD ""
  if table = "" ∨ o.columns.isEmpty then throw .emptyIndex
  let target ← Name.require .plain table
  let columns ← Name.requireAll .plain o.columns
  start { Statement.named .createIndex name with
    unique := o.unique, target := target, columns := columns.map Column.name }

/-- Starts the definition of a view. -/
def createView (name : String) (view : Builder) : Method Unit := do
  let name ← Name.require .plain name
  let body ← view.innerText name
  start { Statement.named .createView name with view := some body }

/-- Starts a statement that writes a row of values, inserted or replaced. -/
def writeRow (verb : Verb) (table : String) (row : List (String × Value)) : Method Unit := do
  let table ← Name.require .plain table
  if row.isEmpty then throw (.emptyRow verb table)
  let s := (← get).settings
  let values ← (row.mapM (s.writtenValue table) : Except Fault (List (String × String)))
  start { Statement.named verb table with values := values }

/-- Starts a replacement of a row, which PostgreSQL does not have. -/
def replace (table : String) (row : List (String × Value)) : Method Unit := do
  let d := (← get).settings.dialect
  if d.family = .postgresql then throw (.replaceRefused d.description)
  writeRow .replace table row

/-- Starts a selection of columns. -/
def select (columns : List Column) (o : SelectOptions) : Method Unit := do
  let columns ← (columns.mapM Column.require : Except Fault (List Column))
  start { Statement.ofVerb o.verb with columns := columns }

/-- Starts the union of two selections. -/
def union (left right : Builder) : Method Unit := do
  let left ← left.innerText "union"
  let right ← right.innerText "union"
  start { Statement.ofVerb .union with operands := some (left, right) }

/-- Starts the statement of a verb. -/
def startVerb : VerbCall Builder → Method Unit
  | .createTable name columns => createTable name columns
  | .dropTable name => startNamed .dropTable name
  | .createIndex name o => createIndex name o
  | .dropIndex name => startNamed .dropIndex name
  | .createView name view => createView name view
  | .dropView name => startNamed .dropView name
  | .insert table row => writeRow .insert table row
  | .replace table row => replace table row
  | .update table => startNamed .update table
  | .deleteFrom table => startNamed .delete table
  | .select columns o => select columns o
  | .union left right => union left right

end Method

end SqlBuilder
