import SqlBuilder.Encoder
import SqlBuilder.Proofs.Quotation

/-!
# Literals

What the encoder writes for a value, as a database reads it.

* `unescape` — the characters that the body of a quoted literal stands for;
* `unescape_escape` — nothing is lost between the quotes;
* `segment?_quote` — the body of a quoted literal never closes it;
* `encode_text_roundTrip` — a text comes back from its literal.
-/

namespace SqlBuilder

open Quotation

namespace Encoder

/-! ## Escapes and what they stand for -/

/-- The character that stands behind a backslash. -/
def escapeLetter? (family : Family) : Char → Option Char
  | '0' => some '\x00'
  | 'n' => some '\n'
  | 'r' => some '\r'
  | 'b' => some '\x08'
  | 't' => some '\t'
  | 'Z' => some '\x1a'
  | '"' => some '"'
  | '\\' => some '\\'
  | '\'' => if family = .sqlite then none else some '\''
  | _ => none

/-- The characters that the body of a literal stands for, with the escapes of
the family undone: nothing where a backslash begins no escape, or where an
apostrophe stands alone. -/
def unescape (family : Family) : List Char → Option (List Char)
  | [] => some []
  | '\\' :: [] => none
  | '\\' :: letter :: rest =>
    match escapeLetter? family letter with
    | some c => (unescape family rest).map (c :: ·)
    | none => none
  | '\'' :: '\'' :: rest =>
    if family = .sqlite then (unescape family rest).map ('\'' :: ·) else none
  | c :: rest => if c = '\'' then none else (unescape family rest).map (c :: ·)

/-- One escaped character: it stays, gets a backslash with a letter that stands
for it, or is an apostrophe written twice. -/
theorem escapeChar_cases (family : Family) (c : Char) :
    (c ≠ '"' ∧ c ≠ '\\' ∧ c ≠ '\'' ∧ escapeChar family c = [c]) ∨
    (∃ letter, escapeLetter? family letter = some c ∧ escapeChar family c = ['\\', letter]) ∨
    (family = .sqlite ∧ c = '\'' ∧ escapeChar family c = ['\'', '\'']) := by
  unfold escapeChar
  split
  -- only the apostrophe depends on the family
  case h_7 =>
    by_cases hf : family = .sqlite
    · exact .inr (.inr ⟨hf, rfl, if_pos hf⟩)
    · refine .inr (.inl ⟨'\'', ?_, if_neg hf⟩)
      rw [escapeLetter?, if_neg hf]
  -- any other character is told from the ones above by being none of them
  case h_10 _ hApostrophe hQuote hBackslash =>
    exact .inl ⟨hQuote, hBackslash, hApostrophe, rfl⟩
  all_goals exact .inr (.inl ⟨_, rfl, rfl⟩)

/-- An escaped character stands for that character, whatever comes after it. -/
theorem unescape_escapeChar (family : Family) (c : Char) (rest : List Char) :
    unescape family (escapeChar family c ++ rest) = (unescape family rest).map (c :: ·) := by
  rcases escapeChar_cases family c with ⟨-, hb, ha, h⟩ | ⟨letter, hl, h⟩ | ⟨hf, rfl, h⟩
  · rw [h]
    show unescape family (c :: rest) = _
    -- the reader looks one character ahead
    cases rest <;> simp [unescape, hb, ha]
  · rw [h]
    show unescape family ('\\' :: letter :: rest) = _
    rw [unescape, hl]
  · rw [h]
    show unescape family ('\'' :: '\'' :: rest) = _
    rw [unescape, if_pos hf]

/-- Nothing is lost by escaping. -/
theorem unescape_escape (family : Family) (cs : List Char) :
    unescape family (escape family cs) = some cs := by
  unfold escape
  induction cs with
  | nil => rfl
  | cons c cs ih => rw [List.flatMap_cons, unescape_escapeChar, ih, Option.map_some]

/-! ## Quoted literals -/

theorem toList_quote (family : Family) (s : String) :
    (quote family s).toList = '"' :: (escape family s.toList ++ ['"']) := by
  simp [quote]

/-- An escaped character leaves a segment between double quotes as it was. -/
theorem after_escapeChar (family : Family) (c : Char) :
    Mode.after (.inside '"') (escapeChar family c) = .inside '"' := by
  rcases escapeChar_cases family c with ⟨hq, hb, -, h⟩ | ⟨letter, -, h⟩ | ⟨-, -, h⟩
  · rw [h]
    simp [Mode.after, Mode.next, hq, hb]
  · rw [h]
    simp [Mode.after, Mode.next]
  · rw [h]
    rfl

theorem after_escape (family : Family) (cs : List Char) :
    Mode.after (.inside '"') (escape family cs) = .inside '"' := by
  unfold escape
  induction cs with
  | nil => rfl
  | cons c cs ih => rw [List.flatMap_cons, after_append, after_escapeChar, ih]

/-- Nothing of an escaped character is seen from outside. -/
theorem shell_escapeChar (family : Family) (c : Char) :
    shell (.inside '"') (escapeChar family c) = [] := by
  rcases escapeChar_cases family c with ⟨hq, hb, -, h⟩ | ⟨letter, -, h⟩ | ⟨-, -, h⟩
  · rw [h]
    simp [shell]
  · rw [h]
    simp [shell, Mode.next]
  · rw [h]
    rfl

theorem shell_escape (family : Family) (cs : List Char) :
    shell (.inside '"') (escape family cs) = [] := by
  unfold escape
  induction cs with
  | nil => rfl
  | cons c cs ih =>
    rw [List.flatMap_cons, shell_append, shell_escapeChar, after_escapeChar, ih]
    rfl

theorem isClosed_quote (family : Family) (s : String) : IsClosed (quote family s).toList := by
  rw [toList_quote, Quotation.IsClosed, after_cons, after_append]
  show Mode.after (Mode.after (.inside '"') (escape family s.toList)) ['"'] = .outside
  rw [after_escape]
  rfl

/-- From outside a quoted literal is one segment. -/
theorem shell_quote (family : Family) (s : String) :
    shell .outside (quote family s).toList = [none] := by
  rw [toList_quote]
  show none :: shell (.inside '"') (escape family s.toList ++ ['"']) = [none]
  rw [shell_append, shell_escape, after_escape]
  rfl

/-- A segment between double quotes goes on behind an escaped character. -/
theorem leave?_escapeChar (family : Family) (c : Char) (rest : List Char) :
    leave? (.inside '"') (escapeChar family c ++ rest)
      = (leave? (.inside '"') rest).map fun p => (escapeChar family c ++ p.1, p.2) := by
  rcases escapeChar_cases family c with ⟨hq, hb, -, h⟩ | ⟨letter, -, h⟩ | ⟨-, -, h⟩
  · rw [h]
    simp [leave?, Mode.next, hq, hb]
  · rw [h]
    simp [leave?, Mode.next, Function.comp_def]
  · rw [h]
    simp [leave?, Mode.next, Function.comp_def]

theorem leave?_escape (family : Family) (cs rest : List Char) :
    leave? (.inside '"') (escape family cs ++ '"' :: rest)
      = some (escape family cs ++ ['"'], rest) := by
  unfold escape
  induction cs with
  | nil => rfl
  | cons c cs ih =>
    rw [List.flatMap_cons, List.append_assoc, leave?_escapeChar, ih, List.append_assoc]
    rfl

/-- The body of a quoted literal never closes it. -/
theorem segment?_quote (family : Family) (s : String) :
    segment? (quote family s).toList = some ((quote family s).toList, []) := by
  rw [toList_quote, segment?, if_pos (by decide), leave?_escape]
  rfl

/-- A quoted literal tells its text. -/
theorem quote_injective {family : Family} {s t : String} (h : quote family s = quote family t) :
    s = t := by
  have hlist : escape family s.toList = escape family t.toList := by
    have := congrArg String.toList h
    simpa [toList_quote] using this
  -- undoing the escapes on both sides leaves the texts
  have hchars := congrArg (unescape family) hlist
  rw [unescape_escape, unescape_escape, Option.some.injEq] at hchars
  exact String.toList_inj.mp hchars

/-! ## Texts -/

/-- The text that a text value stands for: without white space at its ends, and
two double quotes stand for nothing. -/
def meantText (s : String) : String :=
  if Text.trim s = "\"\"" then "" else Text.trim s

theorem quote_empty (family : Family) : quote family "" = "\"\"" := by
  cases family <;> rfl

/-- A text that is neither a registered column nor a variable is quoted. -/
theorem encode_text {e : Encoder} {s : String}
    (hcolumn : e.schemas.isColumnName (Text.trim s) = false)
    (hat : (Text.trim s).toList.head? ≠ some '@') :
    e.encode (.text s) = .ok (quote e.family (meantText s)) := by
  show e.encodeText s = _
  unfold encodeText meantText
  simp only [hcolumn, Bool.false_eq_true, if_false, if_neg hat]
  by_cases hquotes : Text.trim s = "\"\""
  · rw [if_pos (.inr hquotes), if_pos hquotes, quote_empty]
  · rw [if_neg hquotes]
    split
    · next h =>
      have hempty : Text.trim s = "" := h.resolve_right hquotes
      rw [hempty, quote_empty]
    · rfl

/-- **A text comes back from its literal.** A text that is neither a registered
column nor a variable is written as a double-quoted literal which ends at its
own closing quote whatever follows, and whose body stands for the trimmed text.
So texts with one literal differ at most in white space at their ends, or one
is empty and the other two double quotes. -/
theorem encode_text_roundTrip {e : Encoder} {s : String}
    (hcolumn : e.schemas.isColumnName (Text.trim s) = false)
    (hat : (Text.trim s).toList.head? ≠ some '@') :
    (∃ literal body, e.encode (.text s) = .ok literal ∧
      literal.toList = '"' :: (body ++ ['"']) ∧
      (∀ rest, segment? (literal.toList ++ rest) = some (literal.toList, rest)) ∧
      unescape e.family body
        = some (if Text.trim s = "\"\"" then [] else (Text.trim s).toList)) ∧
    ∀ (e' : Encoder) (s' : String), e'.family = e.family →
      e'.schemas.isColumnName (Text.trim s') = false →
      (Text.trim s').toList.head? ≠ some '@' →
      e'.encode (.text s') = e.encode (.text s) →
      Text.trim s' = Text.trim s ∨
        (Text.trim s' = "" ∧ Text.trim s = "\"\"") ∨
        (Text.trim s' = "\"\"" ∧ Text.trim s = "") := by
  constructor
  · refine ⟨quote e.family (meantText s), escape e.family (meantText s).toList,
      encode_text hcolumn hat, toList_quote _ _, ?_, ?_⟩
    · intro rest
      exact segment?_append (segment?_quote _ _) rest
    · rw [unescape_escape]
      unfold meantText
      split <;> rfl
  · -- a literal tells the meant text, and only two double quotes mean another text than they are
    intro e' s' hfamily hcolumn' hat' hsame
    rw [encode_text hcolumn' hat', encode_text hcolumn hat, hfamily, Except.ok.injEq] at hsame
    have hmeant : meantText s' = meantText s := quote_injective hsame
    unfold meantText at hmeant
    split at hmeant <;> split at hmeant
    · next h' h => exact .inl (h'.trans h.symm)
    · next h' h => exact .inr (.inr ⟨h', hmeant.symm⟩)
    · next h' h => exact .inr (.inl ⟨hmeant, h⟩)
    · exact .inl hmeant

/-- The round trip of a text with both kinds of quotes, a backslash in front of
the last of them, and a line end among others that are dropped. -/
theorem encode_text_roundTrip_hostile :
    let e : Encoder := { family := .sqlite, clock := .universal }
    let s := " it's\n\\\" \n"
    let kept := "it's\n\\\""
    e.schemas.isColumnName (Text.trim s) = false ∧
    (Text.trim s).toList.head? ≠ some '@' ∧ Text.trim s = kept ∧
    ∃ literal body, e.encode (.text s) = .ok literal ∧
      literal.toList = '"' :: (body ++ ['"']) ∧
      (∀ rest, segment? (literal.toList ++ rest) = some (literal.toList, rest)) ∧
      unescape .sqlite body = some kept.toList := by
  intro e s kept
  have hcolumn : e.schemas.isColumnName (Text.trim s) = false := by decide
  have hat : (Text.trim s).toList.head? ≠ some '@' := by decide
  have hkept : Text.trim s = kept := by decide
  have hroundTrip := (encode_text_roundTrip hcolumn hat).1
  rw [hkept, if_neg (by decide)] at hroundTrip
  exact ⟨hcolumn, hat, hkept, hroundTrip⟩

end Encoder

end SqlBuilder
