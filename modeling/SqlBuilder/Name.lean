import SqlBuilder.Fault

/-!
# Names

Names of tables, columns, views and variables. A name is safe when it is not
empty and consists of ASCII letters, digits, underscores and the extra
characters that a rule allows.

* `Name.sanitize` — a text without the characters that a rule does not allow;
* `Name.isSafe` — whether a text is a safe name;
* `Name.require` — the same as a check that names the offender;
* `Name.isQualified` — whether a text is a `table.column` reference.
-/

namespace SqlBuilder

/-- The extra characters that a name can have. -/
structure NameRule where
  period : Bool := false
  /-- Both parentheses. -/
  parens : Bool := false
  asterisk : Bool := false
  atSign : Bool := false
  dollarSign : Bool := false
  deriving DecidableEq, Repr

namespace NameRule

/-- No extra characters. -/
def plain : NameRule := { }

/-- Columns with or without their table. -/
def qualified : NameRule := { period := true }

/-- Selected columns: `t.*`, `count()`. -/
def selection : NameRule := { period := true, parens := true, asterisk := true }

/-- Session variables: `@name`. -/
def variableName : NameRule := { period := true, atSign := true }

/-- Keys of filters: columns and operators. -/
def filterKey : NameRule := { period := true, dollarSign := true }

/-- Whether a name can have the character. -/
def allows (rule : NameRule) (c : Char) : Bool :=
  c.isAlphanum || c = '_' || match c with
    | '.' => rule.period
    | '(' | ')' => rule.parens
    | '*' => rule.asterisk
    | '@' => rule.atSign
    | '$' => rule.dollarSign
    | _ => false

end NameRule

namespace Name

/-- The text without the characters that the rule does not allow. -/
def sanitize (rule : NameRule) (s : String) : String := String.ofList (s.toList.filter rule.allows)

/-- Whether the characters make a safe name: at least one, all allowed. -/
def isSafeList (rule : NameRule) (cs : List Char) : Bool := !cs.isEmpty && cs.all rule.allows

/-- Whether the text is a safe name. -/
def isSafe (rule : NameRule) (s : String) : Bool := isSafeList rule s.toList

/-- The text itself if it is a safe name. -/
def require (rule : NameRule) (s : String) : Except Fault String :=
  if isSafe rule s then .ok s else .error (.unsafeText s)

/-- The texts themselves if all are safe names; the first that is not is
refused. -/
def requireAll (rule : NameRule) (names : List String) : Except Fault (List String) :=
  names.mapM (require rule)

/-- The characters before and after the first period. -/
def splitAtPeriod? (cs : List Char) : Option (List Char × List Char) :=
  match cs.span (· ≠ '.') with
  | (before, _ :: after) => some (before, after)
  | (_, []) => none

/-- Whether the text is a `table.column` reference: plain names before and
after its first period. -/
def isQualified (s : String) : Bool :=
  match splitAtPeriod? s.toList with
  | some (table, column) => isSafeList .plain table && isSafeList .plain column
  | none => false

end Name

/-- A checked column reference. -/
def Value.ofReference (s : String) : Except Fault Value :=
  if Name.isQualified s then .ok (.column s) else .error (.unsafeText s)

end SqlBuilder
