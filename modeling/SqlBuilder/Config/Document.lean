import SqlBuilder.Config
import SqlBuilder.Toml.Reader

/-!
# Configurations in documents

The reading of configurations from JSON and TOML. Both are looked at as
documents, which keep only what a configuration tells apart. A record is a table
with the names of its fields or a list of its fields in order.
-/

namespace SqlBuilder

/-- What a configuration sees of a JSON or TOML value. -/
inductive Document where
  /-- The null of JSON. -/
  | nothing
  | flag (b : Bool)
  | text (s : String)
  /-- A number, or a date. -/
  | other
  /-- A number that denotes none: an error for everyone who looks at it. -/
  | unreadable
  | list (items : List Document)
  | table (entries : List (String × Document))

namespace Document

/-- What the two languages do not agree on. -/
structure Format where
  /-- Whether a list can have more items than a record has fields. -/
  surplus : Bool
  /-- Whether a family can have this value when it stands as the one key of a
  table. -/
  isUnit : Document → Bool

/-- The rules for JSON. -/
def json : Format where
  surplus := false
  isUnit
    | .nothing => true
    | _ => false

/-- The rules for TOML. -/
def toml : Format where
  surplus := true
  isUnit
    | .list items => items.isEmpty
    | .table entries => entries.isEmpty
    | _ => false

mutual

/-- The document of a JSON value. -/
def ofJson : Json → Document
  | .null => .nothing
  | .bool b => .flag b
  | .text s => .text s
  | .integer _ | .real _ => .other
  | .array items => .list (ofJsonItems items)
  | .object entries => .table (ofJsonEntries entries)
termination_by structural j => j

/-- The documents of the items of an array. -/
def ofJsonItems : List Json → List Document
  | [] => []
  | j :: items => ofJson j :: ofJsonItems items
termination_by structural items => items

/-- The documents of the entries of an object. -/
def ofJsonEntries : List (String × Json) → List (String × Document)
  | [] => []
  | (key, j) :: entries => (key, ofJson j) :: ofJsonEntries entries
termination_by structural entries => entries

end

mutual

/-- The document of a TOML value. -/
def ofToml : Toml → Document
  | .bool b => .flag b
  | .text s => .text s
  | .integer _ | .real _ | .date _ => .other
  | .unreadable _ => .unreadable
  | .array items => .list (ofTomlItems items)
  | .table entries => .table (ofTomlEntries entries)
termination_by structural v => v

/-- The documents of the items of an array. -/
def ofTomlItems : List Toml → List Document
  | [] => []
  | v :: items => ofToml v :: ofTomlItems items
termination_by structural items => items

/-- The documents of the entries of a table. -/
def ofTomlEntries : List (String × Toml) → List (String × Document)
  | [] => []
  | (key, v) :: entries => (key, ofToml v) :: ofTomlEntries entries
termination_by structural entries => entries

end

mutual

/-- Whether everything in a document can be read. -/
def isReadable : Document → Bool
  | .unreadable => false
  | .list items => areReadable items
  | .table entries => haveReadable entries
  | _ => true
termination_by structural v => v

/-- Whether everything in some documents can be read. -/
def areReadable : List Document → Bool
  | [] => true
  | v :: items => isReadable v && areReadable items
termination_by structural items => items

/-- Whether everything in the entries of a table can be read. -/
def haveReadable : List (String × Document) → Bool
  | [] => true
  | (_, v) :: entries => isReadable v && haveReadable entries
termination_by structural entries => entries

end

/-- A text. -/
def text? : Document → Option String
  | .text s => some s
  | _ => none

/-- A truth value. -/
def flag? : Document → Option Bool
  | .flag b => some b
  | _ => none

/-- Truth values by name, in the order of the names. -/
def flags? : Document → Option (Keyed Bool)
  | .table entries =>
    let flags? := entries.mapM fun (e : String × Document) => (flag? e.2).map fun b => (e.1, b)
    flags?.map Keyed.sorted
  | _ => none

/-- A family by its name, as a text or as the one key of a table. -/
def family? (f : Format) : Document → Option Family
  | .text s => Family.ofName? s
  | .table [(name, v)] => if f.isUnit v then Family.ofName? name else none
  | _ => none

/-- A field whose value can be left out as nothing. -/
def optional? {α : Type} (read : Document → Option α) : Document → Option (Option α)
  | .nothing => some none
  | v => (read v).map some

/-- A field that has a value when it is not there. -/
def fieldOr {α : Type} (preset : α) (read : Document → Option α) : Option Document → Option α
  | none => some preset
  | some v => read v

/-- The fields of a record by their names. A table is looked through as a whole,
so that its other entries have to be readable; a list is read no further than
the record goes, and the fields that are `needed` are there. -/
def fields? (f : Format) (needed : Nat) (names : List String) :
    Document → Option (List (Option Document))
  | .table entries =>
    if entries.all fun e => e.1 ∈ names ∨ e.2.isReadable then
      some (names.map (Keyed.get? entries))
    else none
  | .list items =>
    if needed ≤ items.length ∧ (f.surplus ∨ items.length ≤ names.length) then
      some (names.mapIdx fun i _ => items[i]?)
    else none
  | _ => none

/-- The definition of a dialect. -/
def definition? (f : Format) (v : Document) : Option DialectDefinition := do
  let fields ← v.fields? f 4 ["name", "description", "family", "based_on", "verbs", "clauses"]
  match fields with
  | [some name, description, family, basedOn, verbs, clauses] =>
    let name ← name.text?
    let description ← fieldOr none (optional? text?) description
    let family ← fieldOr none (optional? (family? f)) family
    let basedOn ← fieldOr none (optional? text?) basedOn
    let verbs ← fieldOr [] flags? verbs
    let clauses ← fieldOr [] flags? clauses
    return { name, description, family, basedOn, verbs, clauses }
  | _ => none

/-- The definitions of some dialects. -/
def definitions? (f : Format) : Document → Option (List DialectDefinition)
  | .list items => items.mapM (definition? f)
  | _ => none

/-- A configuration. -/
def config? (f : Format) (v : Document) : Option Config := do
  let preset : Config := { }
  let fields ← v.fields? f 0 ["dialect", "eol", "use_utc", "dialects"]
  match fields with
  | [dialect, terminator, useUtc, dialects] =>
    let dialect ← fieldOr preset.dialect text? dialect
    let terminator ← fieldOr preset.terminator text? terminator
    let useUtc ← fieldOr preset.useUtc flag? useUtc
    let dialects ← fieldOr preset.dialects (definitions? f) dialects
    return { dialect, terminator, useUtc, dialects }
  | _ => none

end Document

namespace Config

/-- The configuration of a JSON value. Its names are not checked. -/
def ofJson? (j : Json) : Option Config := (Document.ofJson j).config? Document.json

/-- The configuration of a TOML text, with its names checked. -/
def ofToml (s : String) : Except Fault Config :=
  match (Toml.ofText? s).bind fun v => (Document.ofToml v).config? Document.toml with
  | none => .error .unreadableConfiguration
  | some c => do
    c.validate
    return c

/-- The configuration of the TOML file at a path, where `read` gives the texts
of files. -/
def load (read : String → Option String) (path : String) : Except Fault Config :=
  match read path with
  | some s => ofToml s
  | none => .error (.missingConfiguration path)

end Config

end SqlBuilder
