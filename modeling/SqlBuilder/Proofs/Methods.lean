import SqlBuilder.Builder.Step

/-!
# What methods write

A method reads and writes the builder step by step, and what it has written when
it fails stays written. The built-in methods write at the end only: all their
checks, of which a row, a table or an index has one for each of its parts, come
before the first write, and no write is followed by anything that can fail. So a
method does the same as computing its statement from the settings and the
arguments first, and going on with it, or with the builder as it was if there is
none.

* `Builder.settle` — going on with a result, or with the builder as it was;
* `Settings.start`, `Settings.fill`, `Settings.assignColumns`,
  `Settings.assignVariables` — what the methods write, computed beforehand;
* `outcome_startVerb`, `outcome_fill`, `outcome_assignColumns`,
  `outcome_assignVariables` — the methods do the same as that;
* `Builder.dispatch` — a call under the support that its method has;
* `perform_verb`, `perform_clause`, `perform_set` — what a call does.
-/

namespace SqlBuilder

/-! ## What methods compute -/

namespace Settings

/-- A statement about a checked name. -/
def named (verb : Verb) (name : String) : Except Fault Statement := do
  let name ← Name.require .plain name
  return .named verb name

/-- The definition of a table. -/
def createTable (s : Settings) (name : String) (columns : List (String × ColumnDefinition)) :
    Except Fault Statement := do
  let name ← Name.require .plain name
  if columns.isEmpty then .error (.noDefinitions name)
  else
    let definitions ← columns.mapM fun c => c.2.text s.encoder c.1
    return { Statement.named .createTable name with definitions := definitions }

/-- The definition of an index. -/
def createIndex (name : String) (o : IndexOptions) : Except Fault Statement := do
  let name ← Name.require .plain name
  let table := o.table.getD ""
  if table = "" ∨ o.columns.isEmpty then .error .emptyIndex
  else
    let target ← Name.require .plain table
    let columns ← Name.requireAll .plain o.columns
    return { Statement.named .createIndex name with
      unique := o.unique, target := target, columns := columns.map Column.name }

/-- The definition of a view. -/
def createView (name : String) (view : Builder) : Except Fault Statement := do
  let name ← Name.require .plain name
  let body ← view.innerText name
  return { Statement.named .createView name with view := some body }

/-- A row of values for a table, inserted or replaced. -/
def writeRow (s : Settings) (verb : Verb) (table : String) (row : List (String × Value)) :
    Except Fault Statement := do
  let table ← Name.require .plain table
  if row.isEmpty then .error (.emptyRow verb table)
  else
    let values ← row.mapM (s.writtenValue table)
    return { Statement.named verb table with values := values }

/-- A selection of columns. -/
def select (columns : List Column) (o : SelectOptions) : Except Fault Statement := do
  let columns ← columns.mapM Column.require
  return { Statement.ofVerb o.verb with columns := columns }

/-- The union of two selections. -/
def union (left right : Builder) : Except Fault Statement := do
  let left ← left.innerText "union"
  let right ← right.innerText "union"
  return { Statement.ofVerb .union with operands := some (left, right) }

/-- The statement that a verb starts. It depends on the settings of the builder
and on the arguments, and not on the statement that was there before. -/
def start (s : Settings) : VerbCall Builder → Except Fault Statement
  | .createTable name columns => s.createTable name columns
  | .dropTable name => named .dropTable name
  | .createIndex name o => createIndex name o
  | .dropIndex name => named .dropIndex name
  | .createView name view => createView name view
  | .dropView name => named .dropView name
  | .insert table row => s.writeRow .insert table row
  | .replace table row =>
    if s.dialect.family = .postgresql then .error (.replaceRefused s.dialect.description)
    else s.writeRow .replace table row
  | .update table => named .update table
  | .deleteFrom table => named .delete table
  | .select columns o => select columns o
  | .union left right => union left right

/-- The settings after a verb: a created table is registered. -/
def afterVerb {α : Type} (s : Settings) : VerbCall α → Settings
  | .createTable name _ => { s with schemas := s.schemas.ensure name }
  | _ => s

/-- The change of the statement that a clause makes. Which one it is does not
depend on the statement. -/
def fill (s : Settings) : ClauseCall → Except Fault (Statement → Statement)
  | .fromTables tables => do
    let tables ← clauseNames .fromTables .plain tables
    return fun st => { st with tables := tables }
  | .join tables condition => do
    let tables ← clauseNames .join .plain tables
    let condition ← s.encoder.condition condition
    return fun st => { st with join := some ⟨tables, condition⟩ }
  | .filterBy filter => do
    let condition ← s.encoder.condition filter
    return fun st => { st with condition := some condition }
  | .limit index none => .ok fun st => { st with limit := some index }
  | .limit index (some count) => .ok fun st => { st with limit := some count, offset := some index }
  | .offset index => .ok fun st => { st with offset := some index }
  | .orderBy fields direction => do
    let fields ← clauseNames .orderBy .qualified fields
    return fun st => { st with sorting := some ⟨fields, direction⟩ }
  | .groupBy fields => do
    let fields ← clauseNames .groupBy .qualified fields
    return fun st => { st with grouping := fields }
  | .intoTargets targets =>
    if s.dialect.family = .sqlite then .error (.intoRefused s.dialect.description)
    else do
      let targets ← clauseNames .intoTargets .variableName targets
      return fun st => { st with targets := targets }

/-- The statement after assigning values to columns in an update. -/
def assignColumns (s : Settings) (st : Statement) (pairs : List (String × Value)) :
    Except Fault Statement := do
  let values ← s.assignments (some st.name) pairs
  return { st with values := st.values ++ values }

/-- The statement that assigns values to variables. -/
def assignVariables (s : Settings) (pairs : List (String × Value)) : Except Fault Statement := do
  let values ← s.assignments none pairs
  return { Statement.ofVerb .set with values := values.map fun p => (s.variableMark ++ p.1, p.2) }

end Settings

namespace Builder

/-- Going on with a result: the builder stays as it was where there is none. -/
def settle (b : Builder) : Except Fault Builder → Outcome
  | .ok after => (after, .ok ())
  | .error fault => (b, .error fault)

/-- What a verb makes of the builder. -/
def startVerb (b : Builder) (call : VerbCall Builder) : Except Fault Builder := do
  let statement ← b.settings.start call
  return ⟨b.settings.afterVerb call, statement⟩

/-- What a clause makes of the builder. -/
def fillClause (b : Builder) (call : ClauseCall) : Except Fault Builder := do
  let change ← b.settings.fill call
  return { b with statement := change b.statement }

/-- What an assignment to columns makes of the builder. -/
def assignColumns (b : Builder) (pairs : List (String × Value)) : Except Fault Builder := do
  let statement ← b.settings.assignColumns b.statement pairs
  return { b with statement := statement }

/-- What an assignment to variables makes of the builder. -/
def assignVariables (b : Builder) (pairs : List (String × Value)) : Except Fault Builder := do
  let statement ← b.settings.assignVariables pairs
  return { b with statement := statement }

/-- A call under the support that the dialect gives its method: refused, left to
an override, or left to the built-in method. -/
def dispatch (b : Builder) (support : Support) (refusal : Fault) (call : Call Builder)
    (builtIn : Except Fault Builder) : Outcome :=
  match support with
  | .supported => b.settle builtIn
  | .unsupported => (b, .error refusal)
  | .custom override =>
    let (statement, result) := override b.statement (call.map view)
    ({ b with statement := statement }, result)

/-! ## Checks before writes -/

variable {b : Builder}

/-- What has been written before a failure stays written. -/
example (change : Builder → Builder) (fault : Fault) :
    b.outcome (do modify change; throw fault) = (change b, .error fault) := rfl

/-- A method that reads the builder goes on with it. -/
theorem outcome_read {rest : Builder → Method Unit} {o : Outcome} (h : b.outcome (rest b) = o) :
    b.outcome (do let a ← get; rest a) = o := h

section Checks

variable {α β : Type} {y : Except Fault β} {f : β → Builder}

/-- A check comes before the rest, and its fault is that of the method. -/
theorem outcome_check {x : Except Fault α} {rest : α → Method Unit} {y : α → Except Fault β}
    (h : ∀ a, x = .ok a → b.outcome (rest a) = b.settle (do let c ← y a; return f c)) :
    b.outcome (do let a ← x; rest a)
      = b.settle (do let c ← (do let a ← x; y a); return f c) := by
  cases x with
  | error fault => rfl -- nothing has been written yet
  | ok a => exact h a rfl

/-- A refusal comes before the rest, and its fault is that of the method. -/
theorem outcome_refuse {p : Prop} [Decidable p] {fault : Fault} {rest : PUnit → Method Unit}
    (h : b.outcome (rest ⟨⟩) = b.settle (do let c ← y; return f c)) :
    b.outcome (if p then do let r ← throw fault; rest r else rest ⟨⟩)
      = b.settle (do let c ← (if p then .error fault else y); return f c) := by
  split
  · rfl
  · exact h

end Checks

/-! ## Verbs -/

theorem outcome_startNamed (verb : Verb) (name : String) :
    b.outcome (.startNamed verb name)
      = b.settle (do let st ← Settings.named verb name; return { b with statement := st }) :=
  outcome_check fun _ _ => rfl

/-- The table is registered when its definition is complete, under the name that
has been checked. -/
theorem outcome_createTable (name : String) (columns : List (String × ColumnDefinition)) :
    b.outcome (.createTable name columns)
      = b.settle (b.startVerb (.createTable name columns)) := by
  show _ = b.settle (do let st ← b.settings.createTable name columns; return ⟨_, st⟩)
  refine outcome_check fun checked hchecked => outcome_refuse ?_
  -- the settings afterwards are computed from the name that the call has
  obtain rfl : checked = name := by
    unfold Name.require at hchecked
    split at hchecked <;> cases hchecked
    rfl
  exact outcome_read (outcome_check fun _ _ => rfl)

theorem outcome_createIndex (name : String) (o : IndexOptions) :
    b.outcome (.createIndex name o)
      = b.settle (do let st ← Settings.createIndex name o; return { b with statement := st }) :=
  outcome_check fun _ _ => outcome_refuse (outcome_check fun _ _ => outcome_check fun _ _ => rfl)

theorem outcome_createView (name : String) (view : Builder) :
    b.outcome (.createView name view)
      = b.settle (do let st ← Settings.createView name view; return { b with statement := st }) :=
  outcome_check fun _ _ => outcome_check fun _ _ => rfl

theorem outcome_writeRow (verb : Verb) (table : String) (row : List (String × Value)) :
    b.outcome (.writeRow verb table row)
      = b.settle (do
          let st ← b.settings.writeRow verb table row
          return { b with statement := st }) :=
  outcome_check fun _ _ => outcome_refuse (outcome_read (outcome_check fun _ _ => rfl))

theorem outcome_replace (table : String) (row : List (String × Value)) :
    b.outcome (.replace table row) = b.settle (b.startVerb (.replace table row)) :=
  outcome_read (outcome_refuse (outcome_writeRow .replace table row))

theorem outcome_select (columns : List Column) (o : SelectOptions) :
    b.outcome (.select columns o)
      = b.settle (do let st ← Settings.select columns o; return { b with statement := st }) :=
  outcome_check fun _ _ => rfl

theorem outcome_union (left right : Builder) :
    b.outcome (.union left right)
      = b.settle (do let st ← Settings.union left right; return { b with statement := st }) :=
  outcome_check fun _ _ => outcome_check fun _ _ => rfl

/-- **A verb writes its whole statement or nothing.** -/
theorem outcome_startVerb (b : Builder) (c : VerbCall Builder) :
    b.outcome (.startVerb c) = b.settle (b.startVerb c) := by
  cases c with
  | createTable name columns => exact outcome_createTable name columns
  | createIndex name o => exact outcome_createIndex name o
  | createView name view => exact outcome_createView name view
  | insert table row => exact outcome_writeRow .insert table row
  | replace table row => exact outcome_replace table row
  | select columns o => exact outcome_select columns o
  | union left right => exact outcome_union left right
  | dropTable name | dropIndex name | dropView name | update name | deleteFrom name =>
    exact outcome_startNamed _ name

/-! ## Clauses -/

/-- **A clause fills all its slots or none.** -/
theorem outcome_fill (b : Builder) (c : ClauseCall) :
    b.outcome (.fill c) = b.settle (b.fillClause c) := by
  cases c with
  | fromTables tables => exact outcome_check fun _ _ => rfl
  | join tables filter =>
    exact outcome_check fun _ _ => outcome_read (outcome_check fun _ _ => rfl)
  | filterBy filter => exact outcome_read (outcome_check fun _ _ => rfl)
  | limit index count => cases count <;> rfl
  | offset index => rfl
  | orderBy fields direction => exact outcome_check fun _ _ => rfl
  | groupBy fields => exact outcome_check fun _ _ => rfl
  | intoTargets targets => exact outcome_read (outcome_refuse (outcome_check fun _ _ => rfl))

/-! ## Assignments -/

/-- **An assignment in an update adds all its values or none.** -/
theorem outcome_assignColumns (b : Builder) (pairs : List (String × Value)) :
    b.outcome (.assignColumns pairs) = b.settle (b.assignColumns pairs) :=
  outcome_read (outcome_check fun _ _ => rfl)

theorem outcome_assignVariables (b : Builder) (pairs : List (String × Value)) :
    b.outcome (.assignVariables pairs) = b.settle (b.assignVariables pairs) :=
  outcome_read (outcome_check fun _ _ => rfl)

/-! ## Calls -/

/-- A method that runs if the dialect has not handled the call. -/
theorem outcome_delegate {support : Support} {refusal : Fault} {call : Call Builder}
    {method : Method Unit} {builtIn : Except Fault Builder}
    (h : b.outcome method = b.settle builtIn) :
    b.outcome (do if ← Method.delegate support refusal call then return else method)
      = b.dispatch support refusal call builtIn := by
  cases support with
  | supported => exact h
  | unsupported => rfl
  | custom override =>
    -- the result of the override is looked at when its statement has been written
    show b.outcome (do
      let handled ← (do
        let (statement, result) := override b.statement (call.map view)
        Method.start statement
        result
        return true : Method Bool)
      if handled = true then return else method) = _
    rw [dispatch]
    generalize override b.statement (call.map view) = answer
    obtain ⟨statement, result⟩ := answer
    cases result with
    | ok _ => rfl
    | error fault => rfl

theorem perform_verb (b : Builder) (c : VerbCall Builder) :
    b.perform (.verb c)
      = b.dispatch (b.settings.dialect.verbs c.method)
          (.verbRefused c.method b.settings.dialect.description) (.verb c) (b.startVerb c) :=
  outcome_delegate (outcome_startVerb b c)

theorem perform_clause (b : Builder) (c : ClauseCall) :
    b.perform (.clause c)
      = b.dispatch (b.settings.dialect.clauses c.method)
          (.clauseRefused c.method b.settings.dialect.description) (.clause c) (b.fillClause c) :=
  outcome_delegate (outcome_fill b c)

theorem perform_set (b : Builder) (pairs : List (String × Value)) :
    b.perform (.set pairs) =
      if b.inUpdate then
        b.dispatch (b.settings.dialect.clauses .set)
          (.clauseRefused .set b.settings.dialect.description) (.set pairs) (b.assignColumns pairs)
      else if b.settings.dialect.family = .sqlite then
        (b, .error (.variablesRefused b.settings.dialect.description))
      else
        b.dispatch (b.settings.dialect.verbs .set)
          (.verbRefused .set b.settings.dialect.description) (.set pairs)
          (b.assignVariables pairs) := by
  refine outcome_read ?_
  -- an update is asked about the clause, and everything else about the verb
  split
  · exact outcome_delegate (outcome_assignColumns b pairs)
  · split
    · rfl
    · exact outcome_delegate (outcome_assignVariables b pairs)

end Builder

end SqlBuilder
