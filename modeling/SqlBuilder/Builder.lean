import SqlBuilder.Dialect
import SqlBuilder.Filter.Condition
import SqlBuilder.Statement.Render

/-!
# Builders

A builder holds settings that outlive statements and the statement under
construction. Here are its parts and its texts, and what a method is: the
methods themselves are in the modules below.

A method reads and writes the builder step by step. If it fails, the builder
stays as the steps before the failure have left it.
-/

namespace SqlBuilder

/-- What a builder keeps from statement to statement. -/
structure Settings where
  dialect : Dialect
  /-- What ends a statement. -/
  terminator : String
  useUtc : Bool
  /-- The local clock. -/
  clock : LocalClock
  schemas : Schemas

/-- A builder of statements. -/
structure Builder where
  settings : Settings
  statement : Statement

/-- What ends a statement unless a builder says otherwise. -/
def defaultTerminator : String := ";"

/-- The encoder for the values of statements under the settings. -/
def Settings.encoder (s : Settings) : Encoder where
  family := s.dialect.family
  useUtc := s.useUtc
  clock := s.clock
  schemas := s.schemas

namespace Builder

/-- A new builder for a dialect, on a local clock. -/
def ofDialect (d : Dialect) (clock : LocalClock) : Builder where
  settings := ⟨d, defaultTerminator, false, clock, .empty⟩
  statement := .empty

/-- A new builder for the baseline dialect, on a local clock. -/
def new (clock : LocalClock) : Builder := ofDialect .sql92 clock

/-- What an override sees of the builder. -/
def view (b : Builder) : View where
  dialect := b.settings.dialect.seen
  terminator := b.settings.terminator
  useUtc := b.settings.useUtc
  clock := b.settings.clock
  schemas := b.settings.schemas
  statement := b.statement

/-- The encoder for the values of the builder's statements. -/
def encoder (b : Builder) : Encoder := b.settings.encoder

/-- The text of the statement with a terminator of the caller's. -/
def renderWith (b : Builder) (terminator : String) : Except Fault String := do
  let text ← b.statement.text
  return text ++ terminator

/-- The text of the statement with the builder's terminator. -/
def render (b : Builder) : Except Fault String := b.renderWith b.settings.terminator

/-- The text of an instant in the builder's statements, without quotes. -/
def dateText (b : Builder) (m : Moment) : String := m.instantText b.settings.clock b.settings.useUtc

/-- Statements are never executed. -/
def execute (b : Builder) : Except Fault Unit :=
  .error (.notExecutable b.settings.dialect.description)

/-- Whether the statement is an update, to which assignments belong. -/
def inUpdate (b : Builder) : Bool := b.statement.verb = some .update

end Builder

/-! ## Methods -/

/-- The builder after a call, and whether the call succeeded. -/
abbrev Outcome := Builder × Except Fault Unit

/-- Steps that read and write a builder and can fail. What has been written
before a failure stays written. -/
abbrev Method := ExceptT Fault (StateM Builder)

/-- What a method does to a builder. -/
def Builder.outcome (b : Builder) (method : Method Unit) : Outcome :=
  let (result, after) := method.run.run b
  (after, result)

namespace Method

/-- Puts a statement in the place of the one under construction. -/
def start (st : Statement) : Method Unit := modify fun b => { b with statement := st }

/-- Changes the statement under construction. -/
def amend (change : Statement → Statement) : Method Unit :=
  modify fun b => { b with statement := change b.statement }

end Method

end SqlBuilder
