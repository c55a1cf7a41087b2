import SqlBuilder.Builder

/-!
# The layout of written statements

The text of a statement that writes rows or variables, as one text: the words of
the verb, the name, and the lists and the condition that follow.

* `Statement.assignmentPart`, `Statement.conditionPart` — the optional parts;
* `text_update`, `text_delete`, `text_row`, `text_set` — the texts by verb.
-/

namespace SqlBuilder

namespace Statement

/-- The assignments of an update, if there are any. -/
def assignmentPart (values : List (String × String)) : String :=
  if values.isEmpty then "" else " SET " ++ assignments values

/-- The condition of an update or a deletion, if there is one. -/
def conditionPart : Option String → String
  | some condition => " WHERE " ++ condition
  | none => ""

variable {s : Statement}

theorem text_of_parts {verb : Verb} {parts : List String} (hverb : s.verb = some verb)
    (hparts : s.parts verb = .ok parts) : s.text = .ok (" ".intercalate parts) := by
  unfold text
  simp only [hverb, hparts]
  rfl

/-- A word after a blank. -/
theorem blank_append {word padded : String} (h : padded = " " ++ word) (rest : String) :
    " " ++ (word ++ rest) = padded ++ rest := by
  rw [h, String.append_assoc]

theorem text_update (h : s.verb = some .update) :
    s.text = .ok ("UPDATE " ++ s.name ++ assignmentPart s.values ++ conditionPart s.condition) := by
  have hset := blank_append (show " SET " = " " ++ "SET " from rfl)
  have hwhere := blank_append (show " WHERE " = " " ++ "WHERE " from rfl)
  rw [text_of_parts h rfl]
  -- both optional parts are there or not
  cases hvalues : s.values <;> cases hcondition : s.condition <;>
    simp [assignmentPart, conditionPart, optionSlot, Verb.keyword, String.append_assoc, hset,
      hwhere]

theorem text_delete (h : s.verb = some .delete) :
    s.text = .ok ("DELETE FROM " ++ s.name ++ conditionPart s.condition) := by
  have hwhere := blank_append (show " WHERE " = " " ++ "WHERE " from rfl)
  rw [text_of_parts h rfl]
  cases hcondition : s.condition <;>
    simp [conditionPart, optionSlot, Verb.keyword, String.append_assoc, hwhere]

/-- Rows are inserted and replaced in one layout. -/
theorem text_row {verb : Verb} (hverb : verb = .insert ∨ verb = .replace)
    (h : s.verb = some verb) :
    s.text = .ok (verb.keyword ++ " " ++ s.name ++ " " ++ parenList (s.values.map Prod.fst)
      ++ " VALUES " ++ parenList (s.values.map Prod.snd)) := by
  have hparts : s.parts verb = .ok [verb.keyword, s.name, parenList (s.values.map Prod.fst),
      "VALUES", parenList (s.values.map Prod.snd)] := by
    rcases hverb with rfl | rfl <;> rfl
  have hvalues := blank_append (show " VALUES " = " " ++ "VALUES " from rfl)
  rw [text_of_parts h hparts]
  simp [String.append_assoc, hvalues]

theorem text_set (h : s.verb = some .set) (hne : s.values ≠ []) :
    s.text = .ok ("SET " ++ assignments s.values) := by
  have hparts : s.parts .set = .ok ["SET", assignments s.values] := by
    have hempty : s.values.isEmpty = false := List.isEmpty_eq_false_iff.mpr hne
    simp [parts, hempty, Verb.keyword]
  rw [text_of_parts h hparts]
  simp

end Statement

/-- Without a terminator, what is written is the text of the statement. -/
theorem Builder.renderWith_empty (b : Builder) : b.renderWith "" = b.statement.text := by
  unfold renderWith
  cases b.statement.text with
  | ok t =>
    show Except.ok (t ++ "") = _
    rw [String.append_empty]
  | error fault => rfl

end SqlBuilder
