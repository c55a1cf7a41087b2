/-!
# Statements

A statement under construction: its verb and the slots that verbs and clauses
fill. Every slot holds finished text; names in it have been checked and values
in it have been encoded.
-/

namespace SqlBuilder

/-- What a statement does. The verb decides how the statement is laid out. -/
inductive Verb where
  | createTable
  | dropTable
  | createIndex
  | dropIndex
  | createView
  | dropView
  | insert
  | replace
  | update
  | delete
  | select
  | selectDistinct
  | selectAll
  | set
  | union
  deriving DecidableEq, Repr

namespace Verb

/-- The words that begin a statement. -/
def keyword : Verb → String
  | .createTable => "CREATE TABLE"
  | .dropTable => "DROP TABLE"
  | .createIndex => "CREATE INDEX"
  | .dropIndex => "DROP INDEX"
  | .createView => "CREATE VIEW"
  | .dropView => "DROP VIEW"
  | .insert => "INSERT INTO"
  | .replace => "REPLACE INTO"
  | .update => "UPDATE"
  | .delete => "DELETE FROM"
  | .select => "SELECT"
  | .selectDistinct => "SELECT DISTINCT"
  | .selectAll => "SELECT ALL"
  | .set => "SET"
  | .union => "UNION"

/-- Whether the verb is one of the three forms of a selection. -/
def isSelect : Verb → Bool
  | .select | .selectDistinct | .selectAll => true
  | _ => false

end Verb

/-- A selected column: a name or function call, or an expression with an alias. -/
inductive Column where
  | name (name : String)
  | aliased (expression label : String)
  deriving DecidableEq, Repr

/-- The text of a selected column. -/
def Column.text : Column → String
  | .name n => n
  | .aliased expression label => expression ++ " AS " ++ label

/-- The direction of a sort. -/
inductive Direction where
  | ascending
  | descending
  deriving DecidableEq, Repr

namespace Direction

/-- The word for the direction. -/
def keyword : Direction → String
  | .ascending => "ASC"
  | .descending => "DESC"

/-- The direction for a number: descending exactly below zero. -/
def ofSign (n : Int) : Direction := if n < 0 then .descending else .ascending

end Direction

/-- Joined tables with the condition of the join. -/
structure Join where
  tables : List String
  condition : String
  deriving DecidableEq, Repr

/-- Sort fields with an optional direction. -/
structure Sorting where
  fields : List String
  direction : Option Direction
  deriving DecidableEq, Repr

/-- A statement under construction. -/
structure Statement where
  verb : Option Verb := none
  /-- Whether an index is unique. -/
  unique : Bool := false
  /-- The table, index or view that the statement is about. -/
  name : String := ""
  /-- The table that an index is on. -/
  target : String := ""
  /-- The selected or indexed columns. -/
  columns : List Column := []
  /-- The finished definitions of the columns of a table. -/
  definitions : List String := []
  /-- The written columns with their encoded values. -/
  values : List (String × String) := []
  /-- The finished body of a view. -/
  view : Option String := none
  /-- The finished operands of a union. -/
  operands : Option (String × String) := none
  /-- The tables that rows come from. -/
  tables : List String := []
  join : Option Join := none
  /-- The finished condition on rows. -/
  condition : Option String := none
  grouping : List String := []
  sorting : Option Sorting := none
  limit : Option Nat := none
  offset : Option Nat := none
  /-- The variables that results go to. -/
  targets : List String := []
  deriving DecidableEq

namespace Statement

/-- The statement with nothing in it. -/
def empty : Statement := { }

/-- A fresh statement for a verb. -/
def ofVerb (verb : Verb) : Statement := { verb := some verb }

/-- A fresh statement for a verb about a table, index or view. -/
def named (verb : Verb) (name : String) : Statement := { verb := some verb, name := name }

end Statement

end SqlBuilder
