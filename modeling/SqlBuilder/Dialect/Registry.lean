import SqlBuilder.Dialect

/-!
# Registries of dialects

The dialects that can be selected by name, in the order in which their names
were first registered.
-/

namespace SqlBuilder

/-- Dialects by their names. -/
structure Registry where
  dialects : Keyed Dialect

namespace Registry

/-- Registers a dialect under its name, in place of the one that had it. -/
def define (r : Registry) (d : Dialect) : Registry := ⟨r.dialects.put d.name d⟩

/-- The dialect with a name. -/
def get? (r : Registry) (name : String) : Option Dialect := r.dialects.get? name

/-- The registered names. -/
def names (r : Registry) : List String := r.dialects.keys

/-- The registry of the built-in dialects. -/
def builtIn : Registry :=
  [Dialect.sql92, .sqlite3, .mysql55, .postgresql92].foldl define ⟨[]⟩

end Registry

end SqlBuilder
