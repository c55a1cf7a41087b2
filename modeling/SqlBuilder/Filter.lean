import SqlBuilder.Value

/-!
# Filters

Conditions as trees: a field with an operand, a comparison, a group of filters
joined by one connective, or a pattern. `describe` is the text that messages
show for a filter.
-/

namespace SqlBuilder

/-- A comparison with a single operand. -/
inductive Comparison where
  | ne
  | gt
  | gte
  | lt
  | lte
  deriving DecidableEq, Repr

namespace Comparison

/-- The operator in a statement. -/
def symbol : Comparison → String
  | .ne => "!="
  | .gt => ">"
  | .gte => ">="
  | .lt => "<"
  | .lte => "<="

/-- The key that stands for the comparison in a filter document. -/
def tag : Comparison → String
  | .ne => "$ne"
  | .gt => "$gt"
  | .gte => "$gte"
  | .lt => "$lt"
  | .lte => "$lte"

/-- The comparison with a given tag. -/
def ofTag? : String → Option Comparison
  | "$ne" => some .ne
  | "$gt" => some .gt
  | "$gte" => some .gte
  | "$lt" => some .lt
  | "$lte" => some .lte
  | _ => none

/-- The name of the comparison in the description of a filter. -/
def describe : Comparison → String
  | .ne => "Ne"
  | .gt => "Gt"
  | .gte => "Gte"
  | .lt => "Lt"
  | .lte => "Lte"

/-- A comparison is found under its own tag and no other. -/
theorem ofTag?_eq_some {t : String} {op : Comparison} : ofTag? t = some op ↔ t = op.tag := by
  constructor
  · intro h
    unfold ofTag? at h
    split at h <;> simp_all [tag] <;> subst h <;> rfl
  · rintro rfl
    cases op <;> rfl

end Comparison

/-- What a text is matched with. -/
inductive Pattern where
  /-- A pattern with wildcards, or a number. -/
  | value (v : Value)
  /-- A narrow regular expression. -/
  | regex (source : String)
  deriving DecidableEq

mutual

/-- A condition. -/
inductive Filter where
  | field (key : String) (operand : Operand)
  | eq (operand : Operand)
  | compare (op : Comparison) (operand : Operand)
  | all (filters : List Filter)
  | any (filters : List Filter)
  | like (pattern : Pattern)

/-- What a field or an operator is applied to. -/
inductive Operand where
  | value (v : Value)
  | list (vs : List Value)
  | filter (f : Filter)

end

/-- The description of a pattern. -/
def Pattern.describe : Pattern → String
  | .value v => "Value(" ++ v.describe ++ ")"
  | .regex s => "Regex(" ++ Text.quoted s ++ ")"

mutual

/-- The description of a filter. -/
def Filter.describe : Filter → String
  | .field key operand => "Field(" ++ Text.quoted key ++ ", " ++ operand.describe ++ ")"
  | .eq operand => "Eq(" ++ operand.describe ++ ")"
  | .compare op operand => "Cmp(" ++ op.describe ++ ", " ++ operand.describe ++ ")"
  | .all filters => "And([" ++ ", ".intercalate (Filter.describeAll filters) ++ "])"
  | .any filters => "Or([" ++ ", ".intercalate (Filter.describeAll filters) ++ "])"
  | .like pattern => "Like(" ++ pattern.describe ++ ")"
termination_by structural f => f

/-- The description of an operand. -/
def Operand.describe : Operand → String
  | .value v => "Value(" ++ v.describe ++ ")"
  | .list vs => "List(" ++ Value.describeAll vs ++ ")"
  | .filter f => "Filter(" ++ f.describe ++ ")"
termination_by structural o => o

/-- The descriptions of the filters of a group. -/
def Filter.describeAll : List Filter → List String
  | [] => []
  | f :: fs => f.describe :: Filter.describeAll fs
termination_by structural fs => fs

end

end SqlBuilder
