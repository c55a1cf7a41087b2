import SqlBuilder.Keyed
import SqlBuilder.Number.Binary64

/-!
# TOML documents

The values of TOML documents, and the putting together of a document from its
sections. A table remembers how it came to be, because that decides what can be
added to it later: a table with a header is opened once, dotted keys put values
only into tables that dotted keys have made, and a value is never extended.
-/

namespace SqlBuilder

/-- A TOML value. Dates and times are kept as their texts. A number can be
written in a way that passes for a number and denotes none; the document stands,
and only who reads the value finds nothing. -/
inductive Toml where
  | text (s : String)
  | bool (b : Bool)
  | integer (n : Int)
  | real (x : Binary64)
  | date (text : String)
  /-- A number that denotes none. -/
  | unreadable (text : String)
  | array (items : List Toml)
  | table (entries : List (String × Toml))

namespace Toml

/-- How a table under construction came to be. -/
inductive Origin where
  /-- By its own header. -/
  | header
  /-- By the header of a table inside it. -/
  | path
  /-- By a dotted key. -/
  | dotted
  deriving DecidableEq, Repr

/-- A part of a document under construction. -/
inductive Node where
  | value (v : Toml)
  | table (origin : Origin) (entries : List (String × Node))
  /-- Tables with one header in double brackets, the last one first. -/
  | tables (last : List (String × Node)) (earlier : List (List (String × Node)))

/-- The entries of a table under construction. -/
abbrev Entries := Keyed Node

namespace Entries

/-- Adds a value under a dotted key, where `takes` says whether these entries can
get the value themselves. The keys before the last lead through tables that
dotted keys have made, are made, or are implied by longer headers, and through
the last of the tables under one header; but the table that gets the value is
one that dotted keys have made. Nothing can be there already. -/
def insertValue (takes : Bool) (entries : Entries) : List String → Toml → Option Entries
  | [], _ => none
  | [key], v =>
    if takes ∧ ¬entries.has key then some (entries.put key (.value v)) else none
  | key :: rest, v =>
    match entries.get? key with
    | none =>
      (insertValue true ([] : Entries) rest v).map fun t => entries.put key (.table .dotted t)
    | some (.table .header _) => none
    | some (.table origin t) =>
      (insertValue (origin = .dotted) t rest v).map fun t => entries.put key (.table origin t)
    | some (.tables last earlier) =>
      (insertValue false last rest v).map fun t => entries.put key (.tables t earlier)
    | some (.value _) => none

/-- Adds the pairs of a section, each under its dotted key. -/
def insertAll (entries : Entries) (pairs : List (List String × Toml)) : Option Entries :=
  pairs.foldlM (fun t p => insertValue true t p.1 p.2) entries

/-- Changes the entries at the table on a path of a header, where `change` gets
the entries around the last key. Tables on the way that are missing are made; of
tables under one header the last is meant. -/
def changeAround (entries : Entries) (change : Entries → String → Option Entries) :
    List String → Option Entries
  | [] => none
  | [key] => change entries key
  | key :: rest =>
    match entries.get? key with
    | none =>
      (changeAround ([] : Entries) change rest).map fun t => entries.put key (.table .path t)
    | some (.table origin t) =>
      (changeAround t change rest).map fun t => entries.put key (.table origin t)
    | some (.tables last earlier) =>
      (changeAround last change rest).map fun t => entries.put key (.tables t earlier)
    | some (.value _) => none

/-- Opens the table of a header. -/
def openTable (entries : Entries) (key : String) : Option Entries :=
  match entries.get? key with
  | none => some (entries.put key (.table .header []))
  | some (.table .path t) => some (entries.put key (.table .header t))
  | some _ => none

/-- Opens one more table of a header in double brackets. -/
def appendTable (entries : Entries) (key : String) : Option Entries :=
  match entries.get? key with
  | none => some (entries.put key (.tables [] []))
  | some (.tables last earlier) => some (entries.put key (.tables [] (last :: earlier)))
  | some _ => none

/-- Adds the pairs of a section to the table that its header has opened. -/
def insertPairs (pairs : List (List String × Toml)) (entries : Entries) (key : String) :
    Option Entries :=
  match entries.get? key with
  | some (.table origin t) => (insertAll t pairs).map fun t => entries.put key (.table origin t)
  | some (.tables last earlier) =>
    (insertAll last pairs).map fun t => entries.put key (.tables t earlier)
  | _ => none

end Entries

mutual

/-- The value of a finished part of a document. -/
def Node.toToml : Node → Toml
  | .value v => v
  | .table _ entries => .table (Node.toEntries entries)
  | .tables last earlier =>
    .array ((Toml.table (Node.toEntries last) :: Node.toTables earlier).reverse)
termination_by structural n => n

/-- The entries of a finished table. -/
def Node.toEntries : List (String × Node) → List (String × Toml)
  | [] => []
  | (key, n) :: entries => (key, n.toToml) :: Node.toEntries entries
termination_by structural entries => entries

/-- The values of finished tables under one header. -/
def Node.toTables : List (List (String × Node)) → List Toml
  | [] => []
  | entries :: more => .table (Node.toEntries entries) :: Node.toTables more
termination_by structural sections => sections

end

/-- What begins a section of a document. -/
inductive Header where
  /-- The beginning of the document. -/
  | root
  | single (path : List String)
  | double (path : List String)
  deriving DecidableEq, Repr

/-- A header with the pairs below it. -/
structure Section where
  header : Header
  pairs : List (List String × Toml)

/-- The entries of a document after one more section. -/
def addSection (entries : Entries) (s : Section) : Option Entries :=
  match s.header with
  | .root => Entries.insertAll entries s.pairs
  | .single path => do
    let entries ← Entries.changeAround entries Entries.openTable path
    Entries.changeAround entries (Entries.insertPairs s.pairs) path
  | .double path => do
    let entries ← Entries.changeAround entries Entries.appendTable path
    Entries.changeAround entries (Entries.insertPairs s.pairs) path

/-- The document of its sections, if they fit together. -/
def ofSections? (sections : List Section) : Option Toml :=
  (sections.foldlM addSection ([] : Entries)).map fun entries => .table (Node.toEntries entries)

/-- The inline table of its pairs, if they fit together. -/
def ofPairs? (pairs : List (List String × Toml)) : Option Toml :=
  ofSections? [⟨.root, pairs⟩]

end Toml

end SqlBuilder
