import SqlBuilder.Name
import SqlBuilder.Value.OfJson

/-!
# Filters in JSON

The reading of filter documents. A filter is an object with exactly one key: a
column, with a value, a list of values or a filter, or an operator that begins
with a dollar sign.
-/

namespace SqlBuilder

/-- The pattern of a JSON value: a text, a number or a truth value, or an object
with a regular expression under its one key `$regex`. -/
def Pattern.ofJson : Json → Except Fault Pattern
  | .object [("$regex", .text source)] => .ok (.regex source)
  | .text s => .ok (.value (.text s))
  | .integer n => .ok (.value (.ofInteger n))
  | .real x => .ok (.value (.float (.finite x)))
  | .bool b => .ok (.value (.bool b))
  | _ => .error .patternOperand

mutual

/-- The filter of a JSON value. -/
def Filter.ofJson : Json → Except Fault Filter
  | .object entries => Filter.ofEntries entries
  | j => .error (.notAFilter j)
termination_by structural j => j

/-- The filter of the entries of an object. -/
def Filter.ofEntries : List (String × Json) → Except Fault Filter
  | [entry] => Filter.ofEntry entry
  | entries => .error (.notAFilter (.object entries))
termination_by structural entries => entries

/-- The filter of the one entry of an object. -/
def Filter.ofEntry : String × Json → Except Fault Filter
  | (key, j) =>
    if !Name.isSafe .filterKey key then .error (.notAFilter (.object [(key, j)]))
    else if key.toList.head? ≠ some '$' then do
      let operand ← Operand.ofJson j
      return .field key operand
    else if key = "$eq" then do
      let operand ← Operand.ofJson j
      return .eq operand
    else if key = "$and" then do
      let filters ← Filter.listOfJson key j
      return .all filters
    else if key = "$or" then do
      let filters ← Filter.listOfJson key j
      return .any filters
    else if key = "$like" then do
      let pattern ← Pattern.ofJson j
      return .like pattern
    else
      match Comparison.ofTag? key with
      | some op => do
        let operand ← Operand.ofJson j
        return .compare op operand
      | none => .error (.unknownOperator key)
termination_by structural entry => entry

/-- The operand of a JSON value: a filter for an object, a list of values for an
array, a value otherwise. -/
def Operand.ofJson : Json → Except Fault Operand
  | .object entries => do
    let filter ← Filter.ofEntries entries
    return .filter filter
  | .array items => do
    let vs ← items.mapM Value.ofJson
    return .list vs
  | j => do
    let v ← Value.ofJson j
    return .value v
termination_by structural j => j

/-- The filters of a group under an operator. -/
def Filter.listOfJson (tag : String) : Json → Except Fault (List Filter)
  | .array items => Filter.ofItems items
  | _ => .error (.groupOperand tag)
termination_by structural j => j

/-- The filters of the items of an array. -/
def Filter.ofItems : List Json → Except Fault (List Filter)
  | [] => .ok []
  | j :: items => do
    let filter ← Filter.ofJson j
    let filters ← Filter.ofItems items
    return filter :: filters
termination_by structural items => items

end

end SqlBuilder
