import SqlBuilder.Call

/-!
# Dialects

A dialect says for every method of a builder whether it is supported, refused
or replaced by an override. A dialect is defined by a list of edits, of which
later ones win; the built-in dialects are defined here.

An override is given the current statement and the call. The builders inside a
call, the body of a view or the operands of a union, are given to it with all
their settings, their dialects included. A dialect has overrides in turn, so
what is given is a `View`: the overrides in it answer every call that has no
builders inside.
-/

namespace SqlBuilder

/-! ## What an override sees of a builder -/

/-- How the dialect of a seen builder handles a method. -/
inductive SeenSupport where
  | supported
  | unsupported
  | custom (answer : Statement → Call Empty → Statement × Except Fault Unit)

/-- The dialect of a seen builder. -/
structure SeenDialect where
  name : String
  description : String
  family : Family
  verbs : VerbMethod → SeenSupport
  clauses : ClauseMethod → SeenSupport

/-- A builder as an override sees it: its settings and its statement. -/
structure View where
  dialect : SeenDialect
  terminator : String
  useUtc : Bool
  clock : LocalClock
  schemas : Schemas
  statement : Statement

/-! ## Dialects -/

/-- A replacement for a method: from the current statement and the call to the
statement afterwards, which can differ even where the call fails. -/
abbrev Override := Statement → Call View → Statement × Except Fault Unit

/-- How a dialect handles a method. -/
inductive Support where
  | supported
  | unsupported
  | custom (override : Override)

/-- The support that a yes or no in a configuration stands for. -/
def Support.ofBool (b : Bool) : Support := if b then .supported else .unsupported

/-- What an override sees of the support of a method. -/
def Support.seen : Support → SeenSupport
  | .supported => .supported
  | .unsupported => .unsupported
  | .custom override => .custom fun st call => override st (call.map Empty.elim)

/-- A named profile of what a database can do. -/
structure Dialect where
  name : String
  /-- The name in messages. -/
  description : String
  family : Family
  verbs : VerbMethod → Support
  clauses : ClauseMethod → Support

namespace Dialect

/-- What an override sees of a dialect. -/
def seen (d : Dialect) : SeenDialect where
  name := d.name
  description := d.description
  family := d.family
  verbs := fun m => (d.verbs m).seen
  clauses := fun m => (d.clauses m).seen

/-- One step of the definition of a dialect. -/
inductive Edit where
  /-- Takes the family and all methods of another dialect. -/
  | basedOn (base : Dialect)
  | describedAs (description : String)
  | ofFamily (family : Family)
  | verb (method : VerbMethod) (support : Support)
  | clause (method : ClauseMethod) (support : Support)

/-- The dialect of a name in which everything is supported. -/
def plain (name : String) : Dialect where
  name := name
  description := name
  family := .standard
  verbs := fun _ => .supported
  clauses := fun _ => .supported

/-- The dialect after an edit. -/
def edit (d : Dialect) : Edit → Dialect
  | .basedOn base => { d with family := base.family, verbs := base.verbs, clauses := base.clauses }
  | .describedAs description => { d with description := description }
  | .ofFamily family => { d with family := family }
  | .verb method support =>
    { d with verbs := fun m => if m = method then support else d.verbs m }
  | .clause method support =>
    { d with clauses := fun m => if m = method then support else d.clauses m }

/-- The dialect of a name that a list of edits defines. -/
def define (name : String) (edits : List Edit) : Dialect := edits.foldl edit (plain name)

/-! ## Built-in dialects -/

/-- Paging written as a number of rows and a number of rows to leave out. -/
def pagingOverride : Override := fun s call =>
  match call with
  | .clause (.limit index none) => ({ s with limit := some index }, .ok ())
  | .clause (.limit index (some count)) =>
    ({ s with limit := some count, offset := some index }, .ok ())
  | _ => (s, .error .notALimit)

/-- The baseline of 1992, in which everything is supported. -/
def sql92 : Dialect := define "SQL92" [.describedAs "SQL 1992"]

/-- SQLite has no variables. -/
def sqlite3 : Dialect :=
  define "SQLite3" [.describedAs "SQLite 3", .ofFamily .sqlite, .verb .set .unsupported,
    .clause .intoTargets .unsupported]

/-- MySQL supports everything. -/
def mysql55 : Dialect := define "MySQL55" [.describedAs "MySQL 5.5", .ofFamily .mysql]

/-- PostgreSQL does not replace rows and pages in its own way. -/
def postgresql92 : Dialect :=
  define "PostgreSQL92" [.describedAs "PostgreSQL 9.2", .ofFamily .postgresql,
    .verb .replace .unsupported, .clause .limit (.custom pagingOverride)]

end Dialect

end SqlBuilder
