import SqlBuilder.Proofs.Literal

/-!
# Doubled quotes

SQLite knows no backslash escapes. It reads a quoted token by another rule: the
quote around the token stands for itself when it is written twice, a backslash
is a character like any other, and the token ends at the first quote that stands
alone. Here the literals of the SQLite family are read by that rule.

The encoder writes apostrophes twice for this family, but the quote around its
literals is the other one, and that one gets a backslash. So a literal is one
token exactly when its text has no double quote. At the first double quote of
any other text the token ends, and the rest of the text is read as SQL; if that
quote is the last character, it makes a pair with the closing quote, and the
token goes on into whatever follows the literal.

* `Doubling.close?`, `Doubling.token?` — the rule;
* `token?_quote` — the token at the beginning of a literal without double quotes;
* `token?_quote_of_split` — the token at the beginning of any other literal;
* `encode_text_isToken_iff` — which texts SQLite reads as they are meant.
-/

namespace SqlBuilder

open Quotation

namespace Doubling

/-- The characters up to the first `q` that stands alone, and those after it.
Right behind a `q` it is the next character that decides: another `q` makes a
pair, and anything else is outside already. -/
def close? (q : Char) (behind : Bool) : List Char → Option (List Char × List Char)
  | [] => if behind then some ([], []) else none
  | c :: cs =>
    if behind then
      if c = q then (close? q false cs).map fun p => (c :: p.1, p.2) else some ([], c :: cs)
    else (close? q (c = q) cs).map fun p => (c :: p.1, p.2)
termination_by structural cs => cs

/-- The quoted token at the beginning of a text, both quotes included, and the
characters after it. -/
def token? : List Char → Option (List Char × List Char)
  | [] => none
  | q :: cs => if isQuote q then (close? q false cs).map fun p => (q :: p.1, p.2) else none

variable {q : Char}

/-- A quote that stands alone ends the token. -/
theorem close?_alone {rest : List Char} (h : rest.head? ≠ some q) :
    close? q false (q :: rest) = some ([q], rest) := by
  cases rest with
  | nil => simp [close?]
  | cons d rest =>
    have hd : d ≠ q := by simpa using h
    simp [close?, hd]

/-- Two quotes in a row are a part of the token. -/
theorem close?_pair (rest : List Char) :
    close? q false (q :: q :: rest)
      = (close? q false rest).map fun p => (q :: q :: p.1, p.2) := by
  simp [close?, Function.comp_def]

/-- Characters other than the quote are a part of the token. -/
theorem close?_append {cs : List Char} (h : q ∉ cs) (rest : List Char) :
    close? q false (cs ++ rest) = (close? q false rest).map fun p => (cs ++ p.1, p.2) := by
  induction cs with
  | nil => simp
  | cons c cs ih =>
    rw [List.mem_cons, not_or] at h
    have hc : c ≠ q := Ne.symm h.1
    simp [close?, hc, ih h.2, Function.comp_def]

/-- The end of a token has at least the closing quote. -/
theorem ne_nil_of_close? {cs : List Char} {p : List Char × List Char}
    (h : close? q false cs = some p) : p.1 ≠ [] := by
  cases cs with
  | nil => simp [close?] at h
  | cons c cs =>
    obtain ⟨p', -, rfl⟩ := Option.map_eq_some_iff.mp h
    simp

end Doubling

namespace Encoder

open Doubling

variable {family : Family}

/-! ## Double quotes among escaped characters -/

theorem mem_escapeChar {c : Char} : '"' ∈ escapeChar family c ↔ c = '"' := by
  unfold escapeChar
  split
  case h_7 => split <;> simp
  all_goals simp_all [eq_comm]

/-- Escaping adds no double quotes and takes none away. -/
theorem mem_escape {cs : List Char} : '"' ∈ escape family cs ↔ '"' ∈ cs := by
  simp [escape, mem_escapeChar]

theorem escape_append (cs ds : List Char) :
    escape family (cs ++ ds) = escape family cs ++ escape family ds := by
  simp [escape]

/-- No escaped text begins with a double quote. -/
theorem head?_escape (cs : List Char) : (escape family cs).head? ≠ some '"' := by
  cases cs with
  | nil => simp [escape]
  | cons c cs =>
    -- what comes first is the character itself, a backslash or an apostrophe
    rcases escapeChar_cases family c with ⟨hquote, -, -, h⟩ | ⟨letter, -, h⟩ | ⟨-, -, h⟩
    · simp [escape, h, hquote]
    · simp [escape, h]
    · simp [escape, h]

/-! ## Tokens at the beginning of literals -/

theorem token?_quote_eq (family : Family) (s : String) (rest : List Char) :
    token? ((quote family s).toList ++ rest)
      = (close? '"' false (escape family s.toList ++ '"' :: rest)).map
          fun p => ('"' :: p.1, p.2) := by
  rw [toList_quote]
  simp [token?, isQuote]

/-- Without a double quote in its text, a literal is one token. -/
theorem token?_quote {s : String} (h : '"' ∉ s.toList) {rest : List Char}
    (hrest : rest.head? ≠ some '"') :
    token? ((quote family s).toList ++ rest) = some ((quote family s).toList, rest) := by
  have hbody : '"' ∉ escape family s.toList := mt mem_escape.mp h
  rw [token?_quote_eq, close?_append hbody, close?_alone hrest, toList_quote]
  rfl

/-- **What becomes of the first double quote of a text.** If more of the text
comes after it, the token ends there; otherwise the token takes in the closing
quote and goes on behind the literal. -/
theorem token?_quote_of_split {s : String} {before after : List Char}
    (hs : s.toList = before ++ '"' :: after) (hbefore : '"' ∉ before) (rest : List Char) :
    token? ((quote family s).toList ++ rest)
      = if after = [] then
          (close? '"' false rest).map fun p => ((quote family s).toList ++ p.1, p.2)
        else some ('"' :: (escape family before ++ ['\\', '"']),
          escape family after ++ '"' :: rest) := by
  -- up to the quote there is nothing that could end the token
  have hbody : '"' ∉ escape family before ++ ['\\'] := by
    simp [mem_escape, hbefore]
  have hescape : escape family s.toList
      = (escape family before ++ ['\\']) ++ '"' :: escape family after := by
    rw [hs, escape_append]
    simp [escape, escapeChar]
  rw [token?_quote_eq, hescape, List.append_assoc, close?_append hbody, List.cons_append]
  by_cases hafter : after = []
  · -- the quote and the closing quote are a pair
    subst hafter
    rw [if_pos rfl, show escape family [] = [] from rfl, List.nil_append, close?_pair,
      toList_quote, hescape]
    simp [escape, Function.comp_def]
  · have hnext : (escape family after ++ '"' :: rest).head? ≠ some '"' := by
      have hhead : (escape family after).head? ≠ some '"' := head?_escape after
      cases hcs : escape family after with
      | nil =>
        -- nothing but the empty text escapes to nothing
        have hdecoded := unescape_escape family after
        rw [hcs] at hdecoded
        simp [unescape] at hdecoded
        exact absurd hdecoded hafter
      | cons c cs =>
        rw [hcs] at hhead
        simpa using hhead
    rw [if_neg hafter, close?_alone hnext]
    simp

/-- With a double quote in its text, a literal is not a token, whatever comes
after it. -/
theorem token?_quote_ne {s : String} (h : '"' ∈ s.toList) (rest : List Char) :
    token? ((quote family s).toList ++ rest) ≠ some ((quote family s).toList, rest) := by
  obtain ⟨before, after, hs, hbefore⟩ := List.eq_append_cons_of_mem h
  rw [token?_quote_of_split hs hbefore]
  intro heq
  split at heq
  · -- the token is longer than the literal
    obtain ⟨p, hp, hpair⟩ := Option.map_eq_some_iff.mp heq
    rw [Prod.mk.injEq, List.append_right_eq_self] at hpair
    exact ne_nil_of_close? hp hpair.1
  · -- the token is shorter than the literal
    have hlength := congrArg (List.length ∘ Prod.fst) (Option.some.inj heq)
    rw [toList_quote, hs, escape_append] at hlength
    simp [escape, escapeChar] at hlength

/-! ## Texts -/

/-- **What SQLite reads.** A text that is neither a registered column nor a
variable is written as a literal, and that literal is one token, whatever comes
after it, exactly when the text has no double quote. The first double quote of
any other text ends the token, and the rest of the text is outside it; if it is
the last character, the token goes on behind the literal. -/
theorem encode_text_isToken_iff {useUtc : Bool} {clock : LocalClock} {schemas : Schemas}
    {s : String}
    (hcolumn : schemas.isColumnName (Text.trim s) = false)
    (hat : (Text.trim s).toList.head? ≠ some '@') :
    let e : Encoder := { family := .sqlite, useUtc, clock, schemas }
    ∃ literal, e.encode (.text s) = .ok literal ∧
      (∀ rest : List Char, rest.head? ≠ some '"' →
        (token? (literal.toList ++ rest) = some (literal.toList, rest) ↔
          '"' ∉ (meantText s).toList)) ∧
      ∀ before after, (meantText s).toList = before ++ '"' :: after → '"' ∉ before →
        ∀ rest, token? (literal.toList ++ rest)
          = if after = [] then (close? '"' false rest).map fun p => (literal.toList ++ p.1, p.2)
            else some ('"' :: (escape .sqlite before ++ ['\\', '"']),
              escape .sqlite after ++ '"' :: rest) := by
  intro e
  refine ⟨quote .sqlite (meantText s), encode_text hcolumn hat, ?_, ?_⟩
  · intro rest hrest
    constructor
    · intro htoken hmem
      exact token?_quote_ne hmem rest htoken
    · intro hmem
      exact token?_quote hmem hrest
  · intro before after hs hbefore rest
    exact token?_quote_of_split hs hbefore rest

/-- An apostrophe and a backslash at the end of a text do no harm, also in front
of more SQL. -/
theorem encode_text_isToken_iff_apostrophe :
    Schemas.empty.isColumnName (Text.trim "it's \\") = false ∧
      (Text.trim "it's \\").toList.head? ≠ some '@' ∧
      encode { family := .sqlite, clock := .universal } (.text "it's \\")
        = .ok "\"it''s \\\\\"" ∧
      token? ("\"it''s \\\\\"".toList ++ " OR a = 1".toList)
        = some ("\"it''s \\\\\"".toList, " OR a = 1".toList) := by
  have hcolumn : Schemas.empty.isColumnName (Text.trim "it's \\") = false := by decide
  have hat : (Text.trim "it's \\").toList.head? ≠ some '@' := by decide
  have hmeant : '"' ∉ (meantText "it's \\").toList := by decide
  have hencode : encode { family := .sqlite, clock := .universal } (.text "it's \\")
      = .ok "\"it''s \\\\\"" := rfl
  obtain ⟨literal, hliteral, htoken, -⟩ :=
    @encode_text_isToken_iff false .universal _ _ hcolumn hat
  obtain rfl := Except.ok.inj (hencode.symm.trans hliteral)
  exact ⟨hcolumn, hat, hencode, (htoken " OR a = 1".toList (by decide)).mpr hmeant⟩

/-- A text that gets out of its literal under SQLite: the token has nothing but a
backslash in it, and what comes after it is read as SQL. -/
theorem literal_falls_apart :
    encode { family := .sqlite, clock := .universal } (.text "\" OR 1=1 --")
        = .ok "\"\\\" OR 1=1 --\"" ∧
      token? "\"\\\" OR 1=1 --\"".toList ≠ some ("\"\\\" OR 1=1 --\"".toList, []) ∧
      token? "\"\\\" OR 1=1 --\"".toList
        = some ("\"\\\"".toList, " OR 1=1 --\"".toList) := by
  exact ⟨rfl, by decide, by decide⟩

end Encoder

end SqlBuilder
