import SqlBuilder.Name

/-!
# Schemas

Tables with validators for their columns. A registered `table.column` text is a
reference to that column, and a value for a registered column passes through
its validator, which can change or refuse it.

* `Schemas.validator?_register`, `Schemas.validator?_ensure` — what a look-up
  finds after a table is registered or created;
* `Schemas.check_eq` — what is written for a column.
-/

namespace SqlBuilder

/-- Checks a value for a column, and can change it. -/
abbrev Validator := Value → Except Fault Value

/-- The registered tables, each with its registered columns. -/
structure Schemas where
  tables : Keyed (Keyed Validator)

namespace Schemas

/-- No tables. -/
def empty : Schemas := ⟨[]⟩

/-- Registers a table with its columns, in place of what was registered under
its name. -/
def register (s : Schemas) (table : String) (columns : List (String × Validator)) : Schemas :=
  ⟨s.tables.put table (Keyed.ofList columns)⟩

/-- Registers a table without columns, unless it is registered already. -/
def ensure (s : Schemas) (table : String) : Schemas :=
  if s.tables.has table then s else ⟨s.tables.put table []⟩

/-- Whether a table is registered. -/
def hasTable (s : Schemas) (table : String) : Bool := s.tables.has table

/-- The validator of a column of a table, if both are registered. -/
def validator? (s : Schemas) (table column : String) : Option Validator :=
  (s.tables.get? table).bind fun columns => columns.get? column

/-- Whether the text is `table.column` for a registered column. -/
def isColumnName (s : Schemas) (reference : String) : Bool :=
  match Name.splitAtPeriod? reference.toList with
  | some (table, column) =>
    !table.isEmpty && (s.validator? (String.ofList table) (String.ofList column)).isSome
  | none => false

/-- The value that the validator of a column makes of a value; a column without
a validator keeps it. The table has to be registered. -/
def applyOn (s : Schemas) (table column : String) (value : Value) : Except Fault Value :=
  match s.tables.get? table with
  | none => .error (.unregisteredTable table value)
  | some columns =>
    match columns.get? column with
    | some validate => validate value
    | none => .ok value

/-- The value that is written for a column: validated if the table is
registered. -/
def check (s : Schemas) (table column : String) (value : Value) : Except Fault Value :=
  if s.hasTable table then s.applyOn table column value else .ok value

/-- The registered tables with the names of their columns. -/
def describe (s : Schemas) : String :=
  let table (t : String × Keyed Validator) : String :=
    Text.quoted t.1 ++ ": [" ++ ", ".intercalate (t.2.keys.map Text.quoted) ++ "]"
  "\x7b" ++ ", ".intercalate (s.tables.map table) ++ "\x7d"

/-! ## What is registered -/

/-- A write to the registered tables leaves the columns of the others. -/
theorem validator?_put (s : Schemas) (table t column : String) (columns : Keyed Validator) :
    (Schemas.mk (s.tables.put table columns)).validator? t column
      = if t = table then columns.get? column else s.validator? t column := by
  unfold validator?
  rw [Keyed.get?_put]
  split <;> rfl

theorem validator?_register (s : Schemas) (table t column : String)
    (columns : List (String × Validator)) :
    (s.register table columns).validator? t column
      = if t = table then (Keyed.ofList columns).get? column else s.validator? t column :=
  s.validator?_put table t column (Keyed.ofList columns)

/-- A created table neither brings validators nor takes any away. -/
@[simp] theorem validator?_ensure (s : Schemas) (table t column : String) :
    (s.ensure table).validator? t column = s.validator? t column := by
  unfold ensure
  split
  · rfl
  · next hmissing =>
    rw [validator?_put]
    split
    · next htable =>
      have hnone : s.tables.get? table = none := by simpa [Keyed.has] using hmissing
      rw [htable, validator?, hnone]
      rfl
    · rfl

/-- A value is written as its validator makes it, where there is one. -/
theorem check_eq (s : Schemas) (table column : String) (value : Value) :
    s.check table column value
      = match s.validator? table column with
        | some validate => validate value
        | none => .ok value := by
  unfold check applyOn hasTable Keyed.has validator?
  cases s.tables.get? table <;> rfl

end Schemas

end SqlBuilder
