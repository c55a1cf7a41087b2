import SqlBuilder.Fault

/-!
# Values in JSON

The JSON values that stand for literals, and the objects that stand for rows.
-/

namespace SqlBuilder

/-- The literal of a JSON number written as an integer: an integer where it
fits 64 bits with a sign, the nearest double otherwise. -/
def Value.ofInteger (n : Int) : Value :=
  if -Int.pow 2 63 ≤ n ∧ n < Int.pow 2 63 then .int (Int64.ofInt n) else .float (Binary64.ofInt n)

/-- The literal of a JSON value. Arrays and objects have none. -/
def Value.ofJson : Json → Except Fault Value
  | .null => .ok .null
  | .bool b => .ok (.bool b)
  | .integer n => .ok (.ofInteger n)
  | .real x => .ok (.float (.finite x))
  | .text s => .ok (.text s)
  | j => .error (.unsafeJson j)

/-- The columns and values of a JSON object, in its order. -/
def rowOfJson : Json → Except Fault (List (String × Value))
  | .object entries => entries.mapM fun entry => do
    let value ← Value.ofJson entry.2
    return (entry.1, value)
  | j => .error (.unsafeJson j)

end SqlBuilder
