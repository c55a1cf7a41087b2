/-!
# Families of databases

The families that differ in how they quote and in what they refuse whatever a
dialect says.
-/

namespace SqlBuilder

/-- A family of databases. -/
inductive Family where
  /-- The common baseline. -/
  | standard
  /-- Variables are assigned with an at sign. -/
  | mysql
  /-- Rows are never replaced. -/
  | postgresql
  /-- An apostrophe is doubled; there are no variables. -/
  | sqlite
  deriving DecidableEq, Repr

namespace Family

/-- The name of the family. -/
def name : Family → String
  | .standard => "standard"
  | .mysql => "mysql"
  | .postgresql => "postgresql"
  | .sqlite => "sqlite"

/-- The family with a given name; `postgres` is short for `postgresql`. -/
def ofName? : String → Option Family
  | "standard" => some .standard
  | "mysql" => some .mysql
  | "postgresql" | "postgres" => some .postgresql
  | "sqlite" => some .sqlite
  | _ => none

/-- A family is found under its own name. -/
theorem ofName?_name (f : Family) : ofName? f.name = some f := by cases f <;> rfl

end Family

end SqlBuilder
