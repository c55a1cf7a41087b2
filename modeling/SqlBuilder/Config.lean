import SqlBuilder.Builder
import SqlBuilder.Dialect.Registry

/-!
# Configurations

A configuration selects a dialect by name and can define more dialects. Its
definitions are registered in order, each on top of what was registered before.

* `Config.validate` — the names of a configuration are there and differ;
* `Config.register` — the registry with the defined dialects;
* `Config.resolve` — the selected dialect in that registry;
* `Builder.ofConfig` — a builder with the configured settings.
-/

namespace SqlBuilder

/-- A dialect defined in a configuration. -/
structure DialectDefinition where
  name : String
  description : Option String := none
  family : Option Family := none
  /-- The name of the dialect that it is based on. -/
  basedOn : Option String := none
  /-- Whether verbs are supported, by their names in order. -/
  verbs : Keyed Bool := []
  /-- Whether clauses are supported, by their names in order. -/
  clauses : Keyed Bool := []

/-- A configuration. -/
structure Config where
  dialect : String := "SQL92"
  terminator : String := defaultTerminator
  useUtc : Bool := false
  dialects : List DialectDefinition := []

namespace DialectDefinition

/-- The edits for the base dialect. -/
def baseEdits (d : DialectDefinition) (r : Registry) : Except Fault (List Dialect.Edit) :=
  match d.basedOn with
  | none => .ok []
  | some base =>
    match r.get? base with
    | some dialect => .ok [.basedOn dialect]
    | none => .error (.unknownBase d.name base)

/-- The edit for a verb. -/
def verbEdit (entry : String × Bool) : Except Fault Dialect.Edit :=
  match VerbMethod.ofName? entry.1 with
  | some method => .ok (.verb method (.ofBool entry.2))
  | none => .error (.unknownVerb entry.1)

/-- The edit for a clause. -/
def clauseEdit (entry : String × Bool) : Except Fault Dialect.Edit :=
  match ClauseMethod.ofName? entry.1 with
  | some method => .ok (.clause method (.ofBool entry.2))
  | none => .error (.unknownClause entry.1)

/-- The edits of a definition, in the order in which they count. -/
def edits (d : DialectDefinition) (r : Registry) : Except Fault (List Dialect.Edit) := do
  let base ← d.baseEdits r
  let verbs ← d.verbs.mapM verbEdit
  let clauses ← d.clauses.mapM clauseEdit
  return base ++ (d.description.map .describedAs).toList ++ (d.family.map .ofFamily).toList
    ++ verbs ++ clauses

/-- The defined dialect, where its base is looked up in a registry. -/
def build (d : DialectDefinition) (r : Registry) : Except Fault Dialect := do
  let edits ← d.edits r
  return Dialect.define d.name edits

end DialectDefinition

namespace Config

/-- Checks the names of definitions from first to last: none is blank, and none
was seen before. -/
def checkNames (seen : List String) : List DialectDefinition → Except Fault Unit
  | [] => .ok ()
  | d :: rest =>
    if Text.isBlank d.name then .error .blankName
    else if seen.contains d.name then .error (.duplicateName d.name)
    else checkNames (d.name :: seen) rest

/-- Checks that the selected name is not blank and the defined names differ. -/
def validate (c : Config) : Except Fault Unit :=
  if Text.isBlank c.dialect then .error .blankDialect else checkNames [] c.dialects

/-- The registry after registering definitions up to the first that fails, and
its fault. -/
def registerAll (r : Registry) : List DialectDefinition → Registry × Except Fault Unit
  | [] => (r, .ok ())
  | d :: rest =>
    match d.build r with
    | .ok dialect => registerAll (r.define dialect) rest
    | .error fault => (r, .error fault)

/-- The registry with the defined dialects. -/
def register (c : Config) (r : Registry) : Registry × Except Fault Unit := registerAll r c.dialects

/-- The registry with the defined dialects, and the selected one. -/
def resolve (c : Config) (r : Registry) : Registry × Except Fault Dialect :=
  match c.register r with
  | (r, .error fault) => (r, .error fault)
  | (r, .ok ()) =>
    match r.get? c.dialect with
    | some dialect => (r, .ok dialect)
    | none => (r, .error (.unknownDialect c.dialect))

end Config

/-- A new builder with the settings of a configuration, on a local clock, and the
registry with the dialects that it defines. -/
def Builder.ofConfig (c : Config) (r : Registry) (clock : LocalClock) :
    Registry × Except Fault Builder :=
  match c.resolve r with
  | (r, .error fault) => (r, .error fault)
  | (r, .ok dialect) =>
    let b := Builder.ofDialect dialect clock
    (r, .ok { b with settings :=
      { b.settings with terminator := c.terminator, useUtc := c.useUtc } })

end SqlBuilder
