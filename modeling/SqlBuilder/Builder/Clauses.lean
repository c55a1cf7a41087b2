import SqlBuilder.Builder

/-!
# The slots that clauses fill

Each clause checks its arguments and fills a slot of the statement, and paging
with a count fills two.
-/

namespace SqlBuilder

/-- The checked names of a clause, at least one. -/
def Settings.clauseNames (clause : ClauseMethod) (rule : NameRule) (names : List String) :
    Except Fault (List String) :=
  if names.isEmpty then .error (.emptyClause clause) else Name.requireAll rule names

namespace Method

open Settings

/-- Pages: so many rows, or so many behind the first ones. -/
def limit (index : Nat) : Option Nat → Method Unit
  | none => amend fun st => { st with limit := some index }
  | some count => do
    amend fun st => { st with limit := some count }
    amend fun st => { st with offset := some index }

/-- Fills the targets of a selection, which SQLite does not have. -/
def intoTargets (targets : List String) : Method Unit := do
  let d := (← get).settings.dialect
  if d.family = .sqlite then throw (.intoRefused d.description)
  let targets ← clauseNames .intoTargets .variableName targets
  amend fun st => { st with targets := targets }

/-- Fills the slots of a clause. -/
def fill : ClauseCall → Method Unit
  | .fromTables tables => do
    let tables ← clauseNames .fromTables .plain tables
    amend fun st => { st with tables := tables }
  | .join tables filter => do
    let tables ← clauseNames .join .plain tables
    let text ← (← get).encoder.condition filter
    amend fun st => { st with join := some ⟨tables, text⟩ }
  | .filterBy filter => do
    let text ← (← get).encoder.condition filter
    amend fun st => { st with condition := some text }
  | .limit index count => limit index count
  | .offset index => amend fun st => { st with offset := some index }
  | .orderBy fields direction => do
    let fields ← clauseNames .orderBy .qualified fields
    amend fun st => { st with sorting := some ⟨fields, direction⟩ }
  | .groupBy fields => do
    let fields ← clauseNames .groupBy .qualified fields
    amend fun st => { st with grouping := fields }
  | .intoTargets targets => intoTargets targets

end Method

end SqlBuilder
