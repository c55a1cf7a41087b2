import SqlBuilder.Builder
import SqlBuilder.FunctionCall

/-!
# Assignments

Values assigned to names: to the columns of the table of an update, or to
variables in a statement of their own.
-/

namespace SqlBuilder

namespace Settings

/-- The text of a value that is itself a function call. -/
def callText? (value : Value) : Option String :=
  match value with
  | .text s =>
    match FunctionCall.isWhole s with
    | .ok true => some s
    | _ => none
  | _ => none

/-- A name with the text of its value. A function call stands as it is; a value
for a column of a table passes through the column's validator. -/
def assignment (s : Settings) (table : Option String) (pair : String × Value) :
    Except Fault (String × String) := do
  let name ← Name.require .qualified pair.1
  match callText? pair.2 with
  | some call => return (name, call)
  | none =>
    let value ← match table with
      | some table => s.schemas.check table name pair.2
      | none => .ok pair.2
    let literal ← s.encoder.encode value
    return (name, literal)

/-- The names with the texts of their values, at least one. -/
def assignments (s : Settings) (table : Option String) (pairs : List (String × Value)) :
    Except Fault (List (String × String)) :=
  if pairs.isEmpty then .error .emptyAssignment else pairs.mapM (s.assignment table)

/-- What stands in front of the name of an assigned variable. -/
def variableMark (s : Settings) : String := if s.dialect.family = .mysql then "@" else ""

end Settings

namespace Method

/-- Assigns values to columns of the table of an update, behind those that have
been assigned already. -/
def assignColumns (pairs : List (String × Value)) : Method Unit := do
  let b ← get
  let values ← b.settings.assignments (some b.statement.name) pairs
  amend fun st => { st with values := st.values ++ values }

/-- Starts a statement that assigns values to variables. -/
def assignVariables (pairs : List (String × Value)) : Method Unit := do
  let s := (← get).settings
  let values ← s.assignments none pairs
  start { Statement.ofVerb .set with values := values.map fun p => (s.variableMark ++ p.1, p.2) }

end Method

end SqlBuilder
