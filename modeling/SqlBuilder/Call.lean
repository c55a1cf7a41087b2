import SqlBuilder.Table.ColumnDefinition

/-!
# Calls

The calls of a builder's methods with their arguments. A call is a value, so
that a dialect can hand it to an override. The type of what is inside a call,
such as the body of a view, is a parameter: a caller gives builders, and an
override is given what it sees of them.
-/

namespace SqlBuilder

/-- Which rows a selection keeps: all of them wins over distinct ones. -/
structure SelectOptions where
  distinct : Bool := false
  all : Bool := false
  deriving DecidableEq, Repr

/-- The verb of a selection. -/
def SelectOptions.verb (o : SelectOptions) : Verb :=
  if o.all then .selectAll else if o.distinct then .selectDistinct else .select

/-- A call that starts a statement. -/
inductive VerbCall (inner : Type) where
  | createTable (name : String) (columns : List (String × ColumnDefinition))
  | dropTable (name : String)
  | createIndex (name : String) (options : IndexOptions)
  | dropIndex (name : String)
  | createView (name : String) (view : inner)
  | dropView (name : String)
  | insert (table : String) (row : List (String × Value))
  | replace (table : String) (row : List (String × Value))
  | update (table : String)
  | deleteFrom (table : String)
  | select (columns : List Column) (options : SelectOptions)
  | union (left right : inner)

/-- A call that fills slots of the current statement. -/
inductive ClauseCall where
  | fromTables (tables : List String)
  | join (tables : List String) (condition : Filter)
  | filterBy (filter : Filter)
  /-- Without a count, the index is the number of rows; with one, it is the
  number of rows to leave out. -/
  | limit (index : Nat) (count : Option Nat)
  | offset (index : Nat)
  | orderBy (fields : List String) (direction : Option Direction)
  | groupBy (fields : List String)
  | intoTargets (targets : List String)

/-- A call of a builder's method. Assigning values is a clause of an update and
a verb otherwise. -/
inductive Call (inner : Type) where
  | verb (call : VerbCall inner)
  | clause (call : ClauseCall)
  | set (values : List (String × Value))

namespace VerbCall

variable {α β : Type}

/-- The method that is called. -/
def method : VerbCall α → VerbMethod
  | .createTable _ _ => .createTable
  | .dropTable _ => .dropTable
  | .createIndex _ _ => .createIndex
  | .dropIndex _ => .dropIndex
  | .createView _ _ => .createView
  | .dropView _ => .dropView
  | .insert _ _ => .insert
  | .replace _ _ => .replace
  | .update _ => .update
  | .deleteFrom _ => .deleteFrom
  | .select _ _ => .select
  | .union _ _ => .union

/-- The call with something else inside. -/
def map (f : α → β) : VerbCall α → VerbCall β
  | .createTable name columns => .createTable name columns
  | .dropTable name => .dropTable name
  | .createIndex name options => .createIndex name options
  | .dropIndex name => .dropIndex name
  | .createView name view => .createView name (f view)
  | .dropView name => .dropView name
  | .insert table row => .insert table row
  | .replace table row => .replace table row
  | .update table => .update table
  | .deleteFrom table => .deleteFrom table
  | .select columns options => .select columns options
  | .union left right => .union (f left) (f right)

/-- What is inside does not change the method. -/
@[simp] theorem method_map (f : α → β) (c : VerbCall α) : (c.map f).method = c.method := by
  cases c <;> rfl

end VerbCall

/-- The method that is called. -/
def ClauseCall.method : ClauseCall → ClauseMethod
  | .fromTables _ => .fromTables
  | .join _ _ => .join
  | .filterBy _ => .filterBy
  | .limit _ _ => .limit
  | .offset _ => .offset
  | .orderBy _ _ => .orderBy
  | .groupBy _ => .groupBy
  | .intoTargets _ => .intoTargets

/-- The call with something else inside. -/
def Call.map {α β : Type} (f : α → β) : Call α → Call β
  | .verb call => .verb (call.map f)
  | .clause call => .clause call
  | .set values => .set values

end SqlBuilder
