import SqlBuilder.Text.Space

/-!
# Wildcards of narrow regular expressions

A regular expression with anchors and stars only, as a pattern with `%` for any
characters. A missing anchor becomes a `%` at that end.
-/

namespace SqlBuilder.Wildcard

/-- Every star as a percent sign. -/
def starsToPercents (cs : List Char) : List Char := cs.map fun c => if c = '*' then '%' else c

/-- Whether the pattern is held at its end: its last character is a dollar
sign, and it has no other. -/
def anchoredAtEnd (cs : List Char) : Bool := cs.getLast? == some '$' && !cs.dropLast.contains '$'

/-- The pattern of a regular expression. White space next to an added percent
sign is dropped; an expression with an anchor in an odd place keeps its
characters. -/
def patternOf (cs : List Char) : List Char :=
  let s := starsToPercents cs
  match s.head? == some '^', anchoredAtEnd s with
  | true, true => s.tail.dropLast
  | true, false => Text.dropSpaceEnd s.tail ++ ['%']
  | false, true => '%' :: Text.dropSpace s.dropLast
  | false, false => if s.contains '^' || s.contains '$' then s else '%' :: s ++ ['%']

/-- The pattern of a regular expression. -/
def ofRegex (regex : String) : String := String.ofList (patternOf regex.toList)

end SqlBuilder.Wildcard
