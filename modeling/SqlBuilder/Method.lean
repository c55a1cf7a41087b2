/-!
# Methods of a builder

The verbs that start a statement and the clauses that fill its slots, by the
names under which a dialect allows or refuses them.
-/

namespace SqlBuilder

/-- A method that starts a statement. -/
inductive VerbMethod where
  | createTable
  | dropTable
  | createIndex
  | dropIndex
  | createView
  | dropView
  | insert
  | update
  | replace
  | deleteFrom
  | select
  | set
  | union
  deriving DecidableEq, Repr

/-- A method that fills a slot of the current statement. -/
inductive ClauseMethod where
  | set
  | fromTables
  | join
  | filterBy
  | limit
  | offset
  | orderBy
  | groupBy
  | intoTargets
  deriving DecidableEq, Repr

namespace VerbMethod

/-- The name of the method in messages and configurations. -/
def name : VerbMethod → String
  | .createTable => "createTable"
  | .dropTable => "dropTable"
  | .createIndex => "createIndex"
  | .dropIndex => "dropIndex"
  | .createView => "createView"
  | .dropView => "dropView"
  | .insert => "insert"
  | .update => "update"
  | .replace => "replace"
  | .deleteFrom => "deleteFrom"
  | .select => "select"
  | .set => "set"
  | .union => "union"

/-- Every verb. -/
def every : List VerbMethod :=
  [.createTable, .dropTable, .createIndex, .dropIndex, .createView, .dropView, .insert, .update,
    .replace, .deleteFrom, .select, .set, .union]

/-- The verb with a given name. -/
def ofName? (s : String) : Option VerbMethod := every.find? (·.name = s)

/-- A verb is found under its own name. -/
theorem ofName?_name (m : VerbMethod) : ofName? m.name = some m := by cases m <;> decide

end VerbMethod

namespace ClauseMethod

/-- The name of the method in messages and configurations. -/
def name : ClauseMethod → String
  | .set => "set"
  | .fromTables => "from"
  | .join => "join"
  | .filterBy => "where"
  | .limit => "limit"
  | .offset => "offset"
  | .orderBy => "order"
  | .groupBy => "group"
  | .intoTargets => "into"

/-- Every clause. -/
def every : List ClauseMethod :=
  [.set, .fromTables, .join, .filterBy, .limit, .offset, .orderBy, .groupBy, .intoTargets]

/-- The clause with a given name. -/
def ofName? (s : String) : Option ClauseMethod := every.find? (·.name = s)

/-- A clause is found under its own name. -/
theorem ofName?_name (m : ClauseMethod) : ofName? m.name = some m := by cases m <;> decide

end ClauseMethod

end SqlBuilder
