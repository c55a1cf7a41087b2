import SqlBuilder.Filter
import SqlBuilder.Json
import SqlBuilder.Method
import SqlBuilder.Statement
import SqlBuilder.Table.ColumnType

/-!
# Faults

Why a call is refused. Every cause is a constructor; `kind` sorts the causes
into the classes that callers distinguish, and `message` is the wording.
-/

namespace SqlBuilder

/-- The class of a fault. -/
inductive FaultKind where
  /-- A name, value, filter or inner statement could break out of its place. -/
  | injection
  /-- The dialect refuses the call. -/
  | unsupported
  /-- Something is missing or does not fit. -/
  | malformed
  /-- The operation is never performed. -/
  | notImplemented
  /-- A configuration cannot be used. -/
  | configuration
  deriving DecidableEq, Repr

/-- Why a call is refused. -/
inductive Fault where
  /-- A text that is unsafe where it was given. -/
  | unsafeText (text : String)
  /-- A JSON value that stands for no literal or no row. -/
  | unsafeJson (json : Json)
  /-- A double that is infinite or undefined. -/
  | notFinite (x : Binary64)
  /-- A character that no argument of a function call may contain. -/
  | unsafeArgument (c : Char) (call : String)
  /-- A selected column that is neither a name nor a function call. -/
  | unsafeColumn (column : Column)
  /-- A JSON value that is no filter. -/
  | notAFilter (json : Json)
  /-- A filter key that is no column. -/
  | notAFilterKey (key : String)
  /-- An equality with a filter in place of a value. -/
  | equalityOperand (f : Filter)
  /-- A comparison with a list in place of a value. -/
  | comparisonOperand (op : Comparison) (vs : List Value)
  /-- A value for a column of a table that is not registered. -/
  | unregisteredTable (table : String) (value : Value)
  /-- An inner statement without a verb. -/
  | emptyInnerStatement (user : String)
  /-- A verb that the dialect refuses. -/
  | verbRefused (verb : VerbMethod) (dialect : String)
  /-- A clause that the dialect refuses. -/
  | clauseRefused (clause : ClauseMethod) (dialect : String)
  /-- A replacement of rows where the family has none. -/
  | replaceRefused (dialect : String)
  /-- An assignment of variables where the family has none. -/
  | variablesRefused (dialect : String)
  /-- A redirection of results where the family has none. -/
  | intoRefused (dialect : String)
  /-- An operator that filters do not have. -/
  | unknownOperator (tag : String)
  /-- A group without filters, or with something else in place of a list. -/
  | groupOperand (tag : String)
  /-- A pattern that is neither a text nor a number. -/
  | patternOperand
  /-- A field with a bare list of values. -/
  | fieldOperand (key : String) (vs : List Value)
  /-- A list of encoded values outside a field. -/
  | listWithoutColumn (literals : List String)
  /-- A table without columns. -/
  | noDefinitions (table : String)
  /-- A word that is no column type. -/
  | unknownType (word : String)
  /-- A column with a word that is no column type. -/
  | unknownColumnType (column word : String)
  /-- A column whose type has no length. -/
  | unexpectedLength (column : String) (type : ColumnType)
  /-- A column whose type cannot count rows. -/
  | uncountable (column : String) (type : ColumnType)
  /-- An index without a table or without columns. -/
  | emptyIndex
  /-- A row without columns. -/
  | emptyRow (verb : Verb) (table : String)
  /-- An assignment of nothing. -/
  | emptyAssignment
  /-- A clause without names. -/
  | emptyClause (clause : ClauseMethod)
  /-- A statement without a verb. -/
  | noVerb
  /-- A union without operands. -/
  | noOperands
  /-- An override for paging at another clause. -/
  | notALimit
  /-- The execution of a statement. -/
  | notExecutable (dialect : String)
  /-- A configuration text that does not parse or does not fit. -/
  | unreadableConfiguration
  /-- A configuration file that cannot be read. -/
  | missingConfiguration (path : String)
  /-- A configuration that selects no dialect. -/
  | blankDialect
  /-- A configured dialect without a name. -/
  | blankName
  /-- Two configured dialects with one name. -/
  | duplicateName (name : String)
  /-- A configured dialect based on one that is not registered. -/
  | unknownBase (name base : String)
  /-- A configured verb that does not exist. -/
  | unknownVerb (name : String)
  /-- A configured clause that does not exist. -/
  | unknownClause (name : String)
  /-- A selected dialect that is not registered. -/
  | unknownDialect (name : String)
  /-- A refusal by a validator or an override, in its own words. -/
  | other (kind : FaultKind) (words : String)

namespace Fault

/-- The class of a fault. -/
def kind : Fault → FaultKind
  | .unsafeText _ | .unsafeJson _ | .notFinite _ | .unsafeArgument _ _ | .unsafeColumn _
  | .notAFilter _ | .notAFilterKey _ | .equalityOperand _ | .comparisonOperand _ _
  | .unregisteredTable _ _ | .emptyInnerStatement _ => .injection
  | .verbRefused _ _ | .clauseRefused _ _ | .replaceRefused _ | .variablesRefused _
  | .intoRefused _ => .unsupported
  | .unknownOperator _ | .groupOperand _ | .patternOperand | .fieldOperand _ _
  | .listWithoutColumn _ | .noDefinitions _ | .unknownType _ | .unknownColumnType _ _
  | .unexpectedLength _ _ | .uncountable _ _ | .emptyIndex | .emptyRow _ _ | .emptyAssignment
  | .emptyClause _ | .noVerb | .noOperands | .notALimit => .malformed
  | .notExecutable _ => .notImplemented
  | .unreadableConfiguration | .missingConfiguration _ | .blankDialect | .blankName
  | .duplicateName _ | .unknownBase _ _ | .unknownVerb _ | .unknownClause _
  | .unknownDialect _ => .configuration
  | .other kind _ => kind

/-- What a fault says, without the words for its class. -/
def detail : Fault → String
  | .unsafeText text => text
  | .unsafeJson json => json.compact
  | .notFinite x => x.text .plain
  | .unsafeArgument c call => "at '" ++ c.toString ++ "' in " ++ call
  | .unsafeColumn column => column.text
  | .notAFilter json => json.compact ++ " should be an object literal"
  | .notAFilterKey key => key ++ " should be an object literal"
  | .equalityOperand f => "$eq takes a value or a list of values, not " ++ f.describe
  | .comparisonOperand op vs => op.tag ++ " takes a single value, not " ++ Value.describeAll vs
  | .unregisteredTable table value => table ++ ", " ++ value.display
  | .emptyInnerStatement user => user ++ " requires a built statement, got an empty builder"
  | .verbRefused verb dialect => verb.name ++ " not supported by " ++ dialect
  | .clauseRefused clause dialect => clause.name ++ " clause not supported by " ++ dialect
  | .replaceRefused dialect => dialect ++ " does not support replace"
  | .variablesRefused dialect => dialect ++ " does not support SET and @varname constructs"
  | .intoRefused dialect => "INTO not supported by " ++ dialect
  | .unknownOperator tag => tag ++ " not supported"
  | .groupOperand tag => tag ++ " takes an array of objects as the value"
  | .patternOperand => "$like takes a value that is of type string or number"
  | .fieldOperand key vs =>
    key ++ " takes a value or an object literal, not " ++ Value.describeAll vs
  | .listWithoutColumn literals =>
    "$eq with a list of values needs a column: [" ++ ", ".intercalate literals ++ "]"
  | .noDefinitions table => table ++ " needs at least one column definition"
  | .unknownType word => word ++ " not supported"
  | .unknownColumnType column word => column ++ " of " ++ word ++ " not supported"
  | .unexpectedLength column type => column ++ " of " ++ type.keyword ++ " takes no length"
  | .uncountable column type => column ++ " of " ++ type.keyword ++ " cannot be AUTO_INCREMENT"
  | .emptyIndex => "Must define an index on something."
  | .emptyRow verb table => verb.keyword ++ " " ++ table ++ " needs at least one column"
  | .emptyAssignment => "set needs at least one name and value"
  | .emptyClause clause => clause.name ++ " needs at least one name"
  | .noVerb => "Don't know how to assemble SQL statement for verb <none>"
  | .noOperands => "UNION needs two statements"
  | .notALimit => "limit override called for another clause"
  | .notExecutable dialect => "execute not supported by " ++ dialect
  | .unreadableConfiguration => "the configuration cannot be read"
  | .missingConfiguration path => "failed to read config file " ++ path
  | .blankDialect => "dialect must not be empty"
  | .blankName => "dialects.name must not be empty"
  | .duplicateName name => "duplicate dialect name: " ++ name
  | .unknownBase name base => name ++ ": unknown base dialect " ++ base
  | .unknownVerb name => "unknown verb method: " ++ name
  | .unknownClause name => "unknown clause method: " ++ name
  | .unknownDialect name => "unknown dialect: " ++ name
  | .other _ words => words

/-- The words in front of the detail of a fault. -/
def preamble : FaultKind → String
  | .injection => "injection error: "
  | .configuration => "Configuration error: "
  | .unsupported | .malformed | .notImplemented => ""

/-- The message of a fault. -/
def message (f : Fault) : String := preamble f.kind ++ f.detail

end Fault

end SqlBuilder
