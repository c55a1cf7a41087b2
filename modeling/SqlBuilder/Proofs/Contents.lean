import SqlBuilder.Builder.Step

/-!
# What is inside a step

The values, the selected names and the builders that a step is given. What
callers have to promise is said of these.

* `Filter.values`, `Call.values`, `Step.values` — the values, to any depth;
* `Step.selected` — the columns of a selection;
* `Step.inners` — the body of a view, the operands of a union.
-/

namespace SqlBuilder

/-- The value of a pattern. A regular expression is no value. -/
def Pattern.values : Pattern → List Value
  | .value v => [v]
  | .regex _ => []

mutual

/-- The values of a filter. -/
def Filter.values : Filter → List Value
  | .field _ operand => operand.values
  | .eq operand => operand.values
  | .compare _ operand => operand.values
  | .all filters => Filter.valuesOfAll filters
  | .any filters => Filter.valuesOfAll filters
  | .like pattern => pattern.values
termination_by structural f => f

/-- The values of an operand. -/
def Operand.values : Operand → List Value
  | .value v => [v]
  | .list vs => vs
  | .filter f => f.values
termination_by structural o => o

/-- The values of the filters of a group. -/
def Filter.valuesOfAll : List Filter → List Value
  | [] => []
  | f :: fs => f.values ++ Filter.valuesOfAll fs
termination_by structural fs => fs

end

/-- The values that a call is given. -/
def Call.values : Call Builder → List Value
  | .verb (.createTable _ columns) => columns.filterMap fun c => c.2.defaultValue
  | .verb (.insert _ row) => row.map Prod.snd
  | .verb (.replace _ row) => row.map Prod.snd
  | .verb _ => []
  | .clause (.join _ filter) => filter.values
  | .clause (.filterBy filter) => filter.values
  | .clause _ => []
  | .set pairs => pairs.map Prod.snd

/-- The values that a step is given. JSON documents hold no column references
and are left out. -/
def Step.values : Step → List Value
  | .call c => c.values
  | _ => []

/-- The builders that a step is given: the body of a view, the operands of a
union. -/
def Step.inners : Step → List Builder
  | .call (.verb (.createView _ view)) => [view]
  | .call (.verb (.union left right)) => [left, right]
  | _ => []

/-- The names of the columns that a step selects. -/
def Step.selected : Step → List Column
  | .call (.verb (.select columns _)) => columns
  | _ => []

end SqlBuilder
