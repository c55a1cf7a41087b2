import SqlBuilder.Fault

/-!
# Texts of statements

The layout of a statement under each verb, without a terminator.
-/

namespace SqlBuilder

namespace Statement

/-- Items with commas between them. -/
def commaList (items : List String) : String := ", ".intercalate items

/-- Items with commas between them, in parentheses. -/
def parenList (items : List String) : String := "(" ++ commaList items ++ ")"

/-- Assignments of values to names. -/
def assignments (values : List (String × String)) : String :=
  commaList (values.map fun p => p.1 ++ " = " ++ p.2)

/-- A slot that is there when its list has items. -/
def listSlot (keyword : String) (items : List String) : List String :=
  if items.isEmpty then [] else [keyword ++ " " ++ commaList items]

/-- A slot that is there when its value is. -/
def optionSlot (keyword : String) (text : Option String) : List String :=
  match text with
  | some t => [keyword ++ " " ++ t]
  | none => []

end Statement

/-- The text of a join. -/
def Join.text (j : Join) : String :=
  Statement.commaList j.tables ++ " ON (" ++ j.condition ++ ")"

/-- The text of a sort. -/
def Sorting.text (o : Sorting) : String :=
  match o.direction with
  | some d => Statement.commaList o.fields ++ " " ++ d.keyword
  | none => Statement.commaList o.fields

namespace Statement

/-- The parts of a selection after its columns. -/
def selectionSlots (s : Statement) : List String :=
  listSlot "FROM" s.tables
    ++ optionSlot "JOIN" (s.join.map Join.text)
    ++ optionSlot "WHERE" s.condition
    ++ listSlot "GROUP BY" s.grouping
    ++ optionSlot "ORDER BY" (s.sorting.map Sorting.text)
    ++ optionSlot "LIMIT" (s.limit.map toString)
    ++ optionSlot "OFFSET" (s.offset.map toString)
    ++ listSlot "INTO" s.targets

/-- The parts of a statement with a given verb, in order. -/
def parts (s : Statement) (verb : Verb) : Except Fault (List String) :=
  match verb with
  | .createTable => .ok [verb.keyword, s.name, parenList s.definitions]
  | .createIndex =>
    .ok [if s.unique then "CREATE UNIQUE INDEX" else verb.keyword, s.name,
      "ON " ++ s.target ++ " " ++ parenList (s.columns.map Column.text)]
  | .createView => .ok ([verb.keyword, s.name] ++ optionSlot "AS" s.view)
  | .dropTable | .dropIndex | .dropView => .ok [verb.keyword, s.name]
  | .select | .selectDistinct | .selectAll =>
    .ok ([verb.keyword,
      if s.columns.isEmpty then "*" else commaList (s.columns.map Column.text)] ++ s.selectionSlots)
  | .insert | .replace =>
    .ok [verb.keyword, s.name, parenList (s.values.map Prod.fst), "VALUES",
      parenList (s.values.map Prod.snd)]
  | .update =>
    .ok ([verb.keyword, s.name] ++ (if s.values.isEmpty then [] else ["SET", assignments s.values])
      ++ optionSlot "WHERE" s.condition)
  | .delete => .ok ([verb.keyword, s.name] ++ optionSlot "WHERE" s.condition)
  | .set => .ok (verb.keyword :: if s.values.isEmpty then [] else [assignments s.values])
  | .union =>
    match s.operands with
    | some (left, right) => .ok ["(" ++ left ++ ")", verb.keyword, "(" ++ right ++ ")"]
    | none => .error .noOperands

/-- The text of a statement, without a terminator. -/
def text (s : Statement) : Except Fault String :=
  match s.verb with
  | none => .error .noVerb
  | some verb => do
    let parts ← s.parts verb
    return " ".intercalate parts

end Statement

end SqlBuilder
