import SqlBuilder.Encoder
import SqlBuilder.Filter.Wildcard

/-!
# Conditions

The text of a filter in a statement. A filter becomes a clause, or a bare list
of encoded values, which only the field around it can turn into a clause.
-/

namespace SqlBuilder

/-- What a filter becomes. -/
inductive Compiled where
  /-- A condition, or a piece of one. -/
  | clause (text : String)
  /-- The encoded values of an equality with a list. -/
  | values (literals : List String)
  deriving DecidableEq, Repr

/-- The text of a clause; a bare list of values is none. -/
def Compiled.intoClause : Compiled → Except Fault String
  | .clause text => .ok text
  | .values literals => .error (.listWithoutColumn literals)

/-- Whether a text can be the key of a field: a column, not an operator. -/
def Filter.isFieldKey (key : String) : Bool :=
  key.toList.head? ≠ some '$' && Name.isSafe .filterKey key

namespace Encoder

/-- The encoded values, up to the first that cannot be encoded. -/
def encodeAll (e : Encoder) (vs : List Value) : Except Fault (List String) := vs.mapM e.encode

/-- The clause of a pattern. -/
def pattern (e : Encoder) : Pattern → Except Fault String
  | .regex source => do
    let literal ← e.encode (.text (Wildcard.ofRegex source))
    return "LIKE " ++ literal
  | .value v =>
    match v with
    | .text _ | .int _ | .float _ | .bool _ => do
      let literal ← e.encode v
      return "LIKE " ++ literal
    | _ => .error .patternOperand

/-- The clause of a field and what its operand becomes. -/
def fieldClause (key : String) : Compiled → String
  | .values literals => "(" ++ " OR ".intercalate (literals.map (key ++ " = " ++ ·)) ++ ")"
  | .clause text => key ++ " " ++ text

/-- What an equality becomes. -/
def compileEquality (e : Encoder) : Operand → Except Fault Compiled
  | .value v => do
    let literal ← e.encode v
    return .clause ("= " ++ literal)
  | .list vs => do
    let literals ← e.encodeAll vs
    return .values literals
  | .filter f => .error (.equalityOperand f)

mutual

/-- What a filter becomes. -/
def compile (e : Encoder) : Filter → Except Fault Compiled
  | .field key operand =>
    if Filter.isFieldKey key then e.compileField key operand
    else .error (.notAFilterKey key)
  | .eq operand => e.compileEquality operand
  | .compare op operand => e.compileComparison op operand
  | .all filters =>
    if filters.isEmpty then .error (.groupOperand "$and")
    else do
      let clauses ← e.compileClauses filters
      return .clause (" AND ".intercalate clauses)
  | .any filters =>
    if filters.isEmpty then .error (.groupOperand "$or")
    else do
      let clauses ← e.compileClauses filters
      return .clause (" OR ".intercalate clauses)
  | .like p => do
    let clause ← e.pattern p
    return .clause clause
termination_by structural f => f

/-- What the field with a key becomes. -/
def compileField (e : Encoder) (key : String) : Operand → Except Fault Compiled
  | .value v => do
    let literal ← e.encode v
    return .clause (key ++ " = " ++ literal)
  | .filter f => do
    let inner ← e.compile f
    return .clause (fieldClause key inner)
  | .list vs => .error (.fieldOperand key vs)
termination_by structural o => o

/-- What a comparison becomes. -/
def compileComparison (e : Encoder) (op : Comparison) : Operand → Except Fault Compiled
  | .value v => do
    let literal ← e.encode v
    return .clause (op.symbol ++ " " ++ literal)
  | .filter f => do
    let inner ← e.compile f
    let clause ← inner.intoClause
    return .clause (op.symbol ++ " " ++ clause)
  | .list vs => .error (.comparisonOperand op vs)
termination_by structural o => o

/-- The clauses of the filters of a group. -/
def compileClauses (e : Encoder) : List Filter → Except Fault (List String)
  | [] => .ok []
  | f :: fs => do
    let compiled ← e.compile f
    let clause ← compiled.intoClause
    let clauses ← e.compileClauses fs
    return clause :: clauses
termination_by structural fs => fs

end

/-- The clause of a filter. -/
def condition (e : Encoder) (f : Filter) : Except Fault String := do
  let compiled ← e.compile f
  compiled.intoClause

/-- The clause of a filter between parentheses. -/
def parenthesized (e : Encoder) (f : Filter) : Except Fault String := do
  let clause ← e.condition f
  return "(" ++ clause ++ ")"

end Encoder

end SqlBuilder
