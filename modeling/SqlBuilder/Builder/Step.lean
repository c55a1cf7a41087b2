import SqlBuilder.Builder.Assignments
import SqlBuilder.Builder.Clauses
import SqlBuilder.Builder.Verbs
import SqlBuilder.Filter.OfJson

/-!
# Steps of a builder

What a call does to a builder. The dialect is asked first: it refuses the call,
hands it to an override, or lets the built-in method run.

* `Method.call` — a call of a method;
* `Builder.perform` — what it does to a builder;
* `Builder.step` — a call, or a change of the settings;
* `Builder.run` — one step after the other, going on after failures.
-/

namespace SqlBuilder

namespace Method

/-- Hands a call to the override of its method, if there is one, and tells whether
it has. What an override leaves of the statement is kept even where it fails. -/
def delegate (support : Support) (refusal : Fault) (call : Call Builder) : Method Bool :=
  match support with
  | .supported => return false
  | .unsupported => throw refusal
  | .custom override => do
    let (statement, result) := override (← get).statement (call.map Builder.view)
    start statement
    result
    return true

/-- Asks the dialect about a verb. -/
def delegateVerb (method : VerbMethod) (call : Call Builder) : Method Bool := do
  let d := (← get).settings.dialect
  delegate (d.verbs method) (.verbRefused method d.description) call

/-- Asks the dialect about a clause. -/
def delegateClause (method : ClauseMethod) (call : Call Builder) : Method Bool := do
  let d := (← get).settings.dialect
  delegate (d.clauses method) (.clauseRefused method d.description) call

/-- Assigns values: to columns in an update, to variables elsewhere. The families
without variables refuse that before the dialect is asked. -/
def assign (pairs : List (String × Value)) : Method Unit := do
  let b ← get
  if b.inUpdate then
    if ← delegateClause .set (.set pairs) then return
    assignColumns pairs
  else
    -- the other refusals of a family come after the dialect has been asked
    if b.settings.dialect.family = .sqlite then
      throw (.variablesRefused b.settings.dialect.description)
    if ← delegateVerb .set (.set pairs) then return
    assignVariables pairs

/-- A call of a method. -/
def call : Call Builder → Method Unit
  | .verb c => do
    if ← delegateVerb c.method (.verb c) then return
    startVerb c
  | .clause c => do
    if ← delegateClause c.method (.clause c) then return
    fill c
  | .set pairs => assign pairs

end Method

namespace Builder

/-- What a call of a method does to a builder. -/
def perform (b : Builder) (call : Call Builder) : Outcome := b.outcome (.call call)

/-- A call whose arguments have to be read first: a fault in them comes before the
dialect is asked. -/
def performRead (b : Builder) (call : Except Fault (Call Builder)) : Outcome :=
  b.outcome do
    let call ← call
    .call call

end Builder

/-- A step in the life of a builder. -/
inductive Step where
  | call (call : Call Builder)
  /-- Inserts a row given as a JSON object. -/
  | insertJson (table : String) (row : Json)
  /-- Assigns the values of a JSON object. -/
  | setJson (values : Json)
  /-- Filters rows by a filter document. -/
  | filterByJson (filter : Json)
  | setDialect (dialect : Dialect)
  | setTerminator (terminator : String)
  | setUseUtc (useUtc : Bool)
  /-- Registers validators for the columns of a table. -/
  | register (table : String) (columns : List (String × Validator))

namespace Builder

/-- The builder with other settings. -/
def configure (b : Builder) (change : Settings → Settings) : Outcome :=
  ({ b with settings := change b.settings }, .ok ())

/-- One step. -/
def step (b : Builder) : Step → Outcome
  | .call call => b.perform call
  | .insertJson table row =>
    b.performRead ((rowOfJson row).map fun row => .verb (.insert table row))
  | .setJson values => b.performRead ((rowOfJson values).map .set)
  | .filterByJson filter =>
    b.performRead ((Filter.ofJson filter).map fun filter => .clause (.filterBy filter))
  | .setDialect dialect => b.configure fun s => { s with dialect := dialect }
  | .setTerminator terminator => b.configure fun s => { s with terminator := terminator }
  | .setUseUtc useUtc => b.configure fun s => { s with useUtc := useUtc }
  | .register table columns =>
    b.configure fun s => { s with schemas := s.schemas.register table columns }

/-- The builder after some steps, whether they succeed or not. -/
def run (b : Builder) (steps : List Step) : Builder := steps.foldl (fun b s => (b.step s).1) b

end Builder

end SqlBuilder
