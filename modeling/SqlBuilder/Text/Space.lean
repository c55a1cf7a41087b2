/-!
# White space

The characters with the Unicode property White_Space, and the trimming of a
text at both ends. Main statements:

* `toList_trim` — trimming drops a run of white space from each end;
* `dropSpace_cons`, `dropSpaceEnd_append_singleton` — nothing more is dropped.
-/

namespace SqlBuilder.Text

/-- Whether a character has the Unicode property White_Space. -/
def isSpace (c : Char) : Bool :=
  let n := c.toNat
  (9 ≤ n && n ≤ 13) || n == 0x20 || n == 0x85 || n == 0xA0 || n == 0x1680
    || (0x2000 ≤ n && n ≤ 0x200A) || n == 0x2028 || n == 0x2029 || n == 0x202F
    || n == 0x205F || n == 0x3000

/-- The list without its leading white space. -/
def dropSpace (cs : List Char) : List Char := cs.dropWhile isSpace

/-- The list without its trailing white space. -/
def dropSpaceEnd (cs : List Char) : List Char := (cs.reverse.dropWhile isSpace).reverse

/-- The text without leading white space. -/
def trimStart (s : String) : String := String.ofList (dropSpace s.toList)

/-- The text without trailing white space. -/
def trimEnd (s : String) : String := String.ofList (dropSpaceEnd s.toList)

/-- The text without white space at either end. -/
def trim (s : String) : String := String.ofList (dropSpaceEnd (dropSpace s.toList))

/-- Whether nothing but white space is in the text. -/
def isBlank (s : String) : Bool := s.toList.all isSpace

/-! ## Small laws -/

theorem toList_trim (s : String) : (trim s).toList = dropSpaceEnd (dropSpace s.toList) := by
  simp [trim]

/-- Nothing is dropped in front of a character that is no white space. -/
theorem dropSpace_cons {c : Char} {cs : List Char} (h : isSpace c = false) :
    dropSpace (c :: cs) = c :: cs := by
  simp [dropSpace, h]

/-- Nothing is dropped after a character that is no white space. -/
theorem dropSpaceEnd_append_singleton {c : Char} {cs : List Char} (h : isSpace c = false) :
    dropSpaceEnd (cs ++ [c]) = cs ++ [c] := by
  simp [dropSpaceEnd, h]

end SqlBuilder.Text
