import SqlBuilder.Fault
import SqlBuilder.Text.Space

/-!
# Function calls

The texts of function calls that may stand in a statement without quotes: a
name, then arguments between balanced parentheses. Arguments are words,
numbers, quoted texts and calls; a quoted text can contain anything.

* `FunctionCall.scanned?` — the call at the beginning of a text, as the scan of
  its arguments finds it;
* `FunctionCall.leading?` — the same, with calls that have no arguments told at
  a glance;
* `FunctionCall.isWhole` — whether a text is a call and nothing else.
-/

namespace SqlBuilder.FunctionCall

/-- Whether a function's name can have the character: ASCII letters, the
underscore, and the long s and the kelvin sign, which are letters s and k in
another case. -/
def isNameChar (c : Char) : Bool :=
  c.isAlpha || c = '_' || c = '\u017f' || c = '\u212a'

/-- Whether an argument can have the character outside quotes, parentheses
aside. -/
def isArgumentChar (c : Char) : Bool :=
  Text.isSpace c || c.isAlphanum || c = ',' || c = '.'

/-- How the scan of the arguments ends. -/
inductive Scan where
  /-- The closing parenthesis was found; the characters after it. -/
  | closed (rest : List Char)
  /-- The text ended, or a semicolon stood outside quotes. -/
  | unfinished
  /-- This character stood outside quotes. -/
  | refused (c : Char)
  deriving DecidableEq, Repr

mutual

/-- Scans arguments outside quotes, inside `depth + 1` open parentheses. -/
def scanArguments (depth : Nat) : List Char → Scan
  | [] => .unfinished
  | c :: rest =>
    if c = '\'' ∨ c = '"' then scanQuoted depth c rest
    -- A semicolon ends the statement, and with it the text that can be a call.
    else if c = ';' then .unfinished
    else if c = '(' then scanArguments (depth + 1) rest
    else if c = ')' then
      match depth with
      | 0 => .closed rest
      | depth + 1 => scanArguments depth rest
    else if isArgumentChar c then scanArguments depth rest
    else .refused c
termination_by structural cs => cs

/-- Scans a quoted text up to its closing quote `q`; a backslash takes the
character after it. -/
def scanQuoted (depth : Nat) (q : Char) : List Char → Scan
  | [] => .unfinished
  | '\\' :: [] => .unfinished
  | '\\' :: _ :: rest => scanQuoted depth q rest
  | c :: rest => if c = q then scanArguments depth rest else scanQuoted depth q rest
termination_by structural cs => cs

end

/-- The characters after the name of a function and its opening parenthesis. -/
def afterOpening? (cs : List Char) : Option (List Char) :=
  match cs.span isNameChar with
  | (_ :: _, '(' :: rest) => some rest
  | _ => none

/-- Whether the text is a name and an empty pair of parentheses. -/
def isBare (s : String) : Bool :=
  match s.toList.span isNameChar with
  | (_ :: _, ['(', ')']) => true
  | _ => false

/-- The function call at the beginning of a text, as the scan finds it. There is
none where the text does not begin with a call, or where the call is not
complete; a character that no argument can have is refused. -/
def scanned? (s : String) : Except Fault (Option String) :=
  let cs := s.toList
  match afterOpening? cs with
  | none => .ok none
  | some arguments =>
    match scanArguments 0 arguments with
    | .closed rest => .ok (some (String.ofList (cs.take (cs.length - rest.length))))
    | .unfinished => .ok none
    | .refused c => .error (.unsafeArgument c s)

/-- The function call at the beginning of a text. A call without arguments needs
no scan. -/
def leading? (s : String) : Except Fault (Option String) :=
  if isBare s then .ok (some s) else scanned? s

/-- Whether the text is a function call and nothing else. -/
def isWhole (s : String) : Except Fault Bool :=
  match leading? s with
  | .ok call => .ok (call = some s)
  | .error fault => .error fault

end SqlBuilder.FunctionCall
