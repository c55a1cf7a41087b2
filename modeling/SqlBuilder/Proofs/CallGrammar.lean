import SqlBuilder.Proofs.CallScan

/-!
# The grammar of function calls

The texts that may stand in a statement without quotes are those of a small
grammar: a name, then between parentheses any number of characters of words and
numbers, quoted texts, and groups between parentheses. The scan accepts the
grammar and nothing else, although it only counts parentheses; and of a text that
does not begin with a call it tells whether the text is refused.

An argument of the grammar is passed over by the scan, whatever stands behind it
and however deep it stands, so that a call is found at the beginning of every
text that begins with it. No call is therefore the beginning of another one.

* `IsNameLetter`, `IsWordLetter` — the alphabets, and that the scan has the same;
* `IsArgument`, `IsCall` — the grammar;
* `scanArguments_of_isArgument` — an argument is passed over;
* `isCall_of_scanned` — what is scanned belongs to the grammar;
* `IsRefused` — the texts that are refused;
* `recognizes_calls` — the calls, the refusals and everything else.
-/

namespace SqlBuilder.FunctionCall

open Quotation

/-! ## The alphabets -/

/-- A letter of ASCII. -/
def IsLetter (c : Char) : Prop := 'a' ≤ c ∧ c ≤ 'z' ∨ 'A' ≤ c ∧ c ≤ 'Z'

/-- A digit of ASCII. -/
def IsDigit (c : Char) : Prop := '0' ≤ c ∧ c ≤ '9'

/-- The characters with the Unicode property White_Space. -/
def whiteSpace : List Nat :=
  [0x9, 0xA, 0xB, 0xC, 0xD, 0x20, 0x85, 0xA0, 0x1680, 0x2000, 0x2001, 0x2002, 0x2003, 0x2004,
    0x2005, 0x2006, 0x2007, 0x2008, 0x2009, 0x200A, 0x2028, 0x2029, 0x202F, 0x205F, 0x3000]

/-- A character of the name of a function: a letter of ASCII, the underscore, or
one of the two other characters that are a letter of ASCII in another case, the
long s and the kelvin sign. -/
def IsNameLetter (c : Char) : Prop :=
  IsLetter c ∨ c = '_' ∨ c = '\u017f' ∨ c = '\u212a'

/-- A character of a word or number, or between them. -/
def IsWordLetter (c : Char) : Prop :=
  c.toNat ∈ whiteSpace ∨ IsLetter c ∨ IsDigit c ∨ c = ',' ∨ c = '.'

theorem isUpper_iff {c : Char} : c.isUpper = true ↔ 'A' ≤ c ∧ c ≤ 'Z' :=
  decide_eq_true_iff

theorem isLower_iff {c : Char} : c.isLower = true ↔ 'a' ≤ c ∧ c ≤ 'z' := by
  show (decide ('a' ≤ c) && decide (c ≤ 'z')) = true ↔ _
  rw [Bool.and_eq_true, decide_eq_true_eq, decide_eq_true_eq]

theorem isAlpha_iff {c : Char} : c.isAlpha = true ↔ IsLetter c := by
  show (c.isUpper || c.isLower) = true ↔ _
  rw [Bool.or_eq_true, isUpper_iff, isLower_iff]
  exact or_comm

theorem isDigit_iff {c : Char} : c.isDigit = true ↔ IsDigit c := by
  simp only [Char.isDigit, IsDigit, Bool.and_eq_true, decide_eq_true_eq, Char.le_def]

theorem isSpace_iff {c : Char} : Text.isSpace c = true ↔ c.toNat ∈ whiteSpace := by
  simp only [Text.isSpace, whiteSpace, Bool.or_eq_true, Bool.and_eq_true, decide_eq_true_eq,
    beq_iff_eq, List.mem_cons, List.not_mem_nil, or_false]
  omega

/-- The names that the scan looks for are made of the letters of names. -/
theorem isNameChar_iff {c : Char} : isNameChar c = true ↔ IsNameLetter c := by
  simp only [isNameChar, IsNameLetter, Bool.or_eq_true, decide_eq_true_eq, isAlpha_iff, or_assoc]

/-- What the scan passes over outside quotes, parentheses apart, are the characters
of words and numbers. -/
theorem isArgumentChar_iff {c : Char} : isArgumentChar c = true ↔ IsWordLetter c := by
  simp only [isArgumentChar, IsWordLetter, Char.isAlphanum, Bool.or_eq_true, decide_eq_true_eq,
    isSpace_iff, isAlpha_iff, isDigit_iff, or_assoc]

/-- What stops the scan outside quotes is any other character, quotes and
parentheses apart. -/
theorem isForeign_iff {c : Char} :
    isForeign c = true ↔ ¬IsWordLetter c ∧ c ≠ '\'' ∧ c ≠ '"' ∧ c ≠ '(' ∧ c ≠ ')' := by
  rw [← isArgumentChar_iff]
  simp only [isForeign, isQuote, Bool.not_eq_true', Bool.or_eq_false_iff, decide_eq_false_iff_not,
    Bool.not_eq_true]
  tauto

/-! ## The grammar -/

/-- What can stand between two quotes: a backslash takes the character after it,
and the quote itself does not stand alone. -/
inductive IsQuotedText (q : Char) : List Char → Prop
  | nil : IsQuotedText q []
  | escaped (c : Char) {cs : List Char} (h : IsQuotedText q cs) : IsQuotedText q ('\\' :: c :: cs)
  | char {c : Char} {cs : List Char} (hc : c ≠ '\\') (hq : c ≠ q) (h : IsQuotedText q cs) :
    IsQuotedText q (c :: cs)

/-- A piece of the arguments: a character of a word or number, a text between two
quotes of one kind, or a group of pieces between parentheses. -/
inductive IsArgument : List Char → Prop
  | char {c : Char} (hc : IsWordLetter c) : IsArgument [c]
  | quoted {q : Char} {cs : List Char} (hq : q = '\'' ∨ q = '"') (h : IsQuotedText q cs) :
    IsArgument (q :: (cs ++ [q]))
  | group {pieces : List (List Char)} (h : ∀ piece ∈ pieces, IsArgument piece) :
    IsArgument ('(' :: (pieces.flatten ++ [')']))

/-- The name of a function. -/
structure IsName (name : List Char) : Prop where
  ne_nil : name ≠ []
  letters : ∀ c ∈ name, IsNameLetter c

theorem IsName.chars {name : List Char} (h : IsName name) : ∀ c ∈ name, isNameChar c = true :=
  fun c hc => isNameChar_iff.mpr (h.letters c hc)

/-- The text of a call: a name, and any number of pieces between parentheses. -/
def IsCall (cs : List Char) : Prop :=
  ∃ (name : List Char) (pieces : List (List Char)), IsName name ∧
    (∀ piece ∈ pieces, IsArgument piece) ∧ cs = name ++ '(' :: (pieces.flatten ++ [')'])

/-! ## Arguments are passed over -/

theorem ne_backslash_of_isQuote {q : Char} (hq : isQuote q = true) : q ≠ '\\' := by
  rintro rfl
  revert hq
  decide

/-- The scan leaves a quoted text at its closing quote. -/
theorem scanQuoted_of_isQuotedText {q : Char} (hq : isQuote q = true) {cs : List Char}
    (h : IsQuotedText q cs) (depth : Nat) (rest : List Char) :
    scanQuoted depth q (cs ++ q :: rest) = scanArguments depth rest := by
  induction h with
  | nil => rw [List.nil_append, scanQuoted_cons depth q (ne_backslash_of_isQuote hq), if_pos rfl]
  | escaped c _ ih =>
    rw [List.cons_append, List.cons_append, scanQuoted_backslash]
    exact ih
  | char hc hne _ ih =>
    rw [List.cons_append, scanQuoted_cons depth q hc, if_neg hne]
    exact ih

/-- What is passed over piece by piece is passed over as a whole. -/
theorem scanArguments_flatten {pieces : List (List Char)}
    (h : ∀ piece ∈ pieces, ∀ depth rest,
      scanArguments depth (piece ++ rest) = scanArguments depth rest)
    (depth : Nat) (rest : List Char) :
    scanArguments depth (pieces.flatten ++ rest) = scanArguments depth rest := by
  induction pieces with
  | nil => rfl
  | cons piece pieces ih =>
    have hpieces := ih fun piece' hmem => h piece' (List.mem_cons_of_mem piece hmem)
    rw [List.flatten_cons, List.append_assoc, h piece List.mem_cons_self, hpieces]

/-- **The scan passes over an argument**, whatever stands behind it and however
deep it stands. -/
theorem scanArguments_of_isArgument {piece : List Char} (h : IsArgument piece) (depth : Nat)
    (rest : List Char) : scanArguments depth (piece ++ rest) = scanArguments depth rest := by
  induction h generalizing depth rest with
  | char hc => exact scanArguments_argument (isArgumentChar_iff.mpr hc) depth rest
  | @quoted q cs hq h =>
    have hsplit : q :: (cs ++ [q]) ++ rest = q :: (cs ++ q :: rest) := by simp
    have hquote : isQuote q = true := isQuote_iff.mpr hq
    rw [hsplit, scanArguments_quote hquote, scanQuoted_of_isQuotedText hquote h]
  | @group pieces _ ih =>
    have hsplit : '(' :: (pieces.flatten ++ [')']) ++ rest
        = '(' :: (pieces.flatten ++ ')' :: rest) := by simp
    -- the group opens one parenthesis and closes it again
    rw [hsplit, scanArguments_opening, scanArguments_flatten ih, scanArguments_closing]

/-- A call is found at the beginning of every text that begins with it. -/
theorem leading?_of_isCall {s p : String} (hp : IsCall p.toList) {rest : List Char}
    (hs : s.toList = p.toList ++ rest) : leading? s = .ok (some p) := by
  obtain ⟨name, pieces, hname, hpieces, hcall⟩ := hp
  have hsplit : s.toList = name ++ '(' :: (pieces.flatten ++ [')'] ++ rest) := by
    rw [hs, hcall]
    simp
  have hscan : scanArguments 0 (pieces.flatten ++ [')'] ++ rest) = .closed rest := by
    have hpassed := fun piece hmem => scanArguments_of_isArgument (hpieces piece hmem)
    rw [List.append_assoc, scanArguments_flatten hpassed]
    exact scanArguments_last rest
  rw [leading?_eq_scanned?, scanned?_eq_of_closed hname.ne_nil hname.chars hsplit hscan, ← hcall,
    String.ofList_toList]

/-! ## What is scanned belongs to the grammar -/

/-- Arguments up to the parenthesis that closes the call, inside `depth` further
groups that are closed on the way. -/
inductive ClosesAll : Nat → List Char → Prop
  | last {pieces : List (List Char)} (h : ∀ piece ∈ pieces, IsArgument piece) :
    ClosesAll 0 (pieces.flatten ++ [')'])
  | group {depth : Nat} {pieces : List (List Char)} {cs : List Char}
    (h : ∀ piece ∈ pieces, IsArgument piece) (hrest : ClosesAll depth cs) :
    ClosesAll (depth + 1) (pieces.flatten ++ ')' :: cs)

/-- A piece in front of arguments is one of them. -/
theorem ClosesAll.cons {depth : Nat} {piece cs : List Char} (hpiece : IsArgument piece)
    (h : ClosesAll depth cs) : ClosesAll depth (piece ++ cs) := by
  cases h with
  | last h =>
    rw [← List.append_assoc, ← List.flatten_cons]
    exact .last (List.forall_mem_cons.mpr ⟨hpiece, h⟩)
  | group h hrest =>
    rw [← List.append_assoc, ← List.flatten_cons]
    exact .group (List.forall_mem_cons.mpr ⟨hpiece, h⟩) hrest

/-- What the scan reads in a mode: outside quotes arguments, and in a quoted text
the rest of it first. -/
def Reads (depth : Nat) : Mode → List Char → Prop
  | .outside, cs => ClosesAll depth cs
  | .inside q, cs => ∃ quoted rest, IsQuotedText q quoted ∧ cs = quoted ++ q :: rest ∧
      ClosesAll depth rest
  | .escaped q, cs => ∃ c quoted rest, IsQuotedText q quoted ∧ cs = c :: (quoted ++ q :: rest) ∧
      ClosesAll depth rest

theorem reads_of_scanned {m : Mode} {depth : Nat} {cs : List Char} (h : Scanned m depth cs) :
    Reads depth m cs := by
  have hnone : ∀ piece ∈ ([] : List (List Char)), IsArgument piece := List.forall_mem_nil _
  induction h with
  | close => exact ClosesAll.last hnone
  | closing _ ih => exact ClosesAll.group hnone ih
  | opening _ ih =>
    -- the innermost group is complete, and a piece of the arguments around it
    cases ih with
    | @group _ pieces rest h hrest =>
      have hsplit : '(' :: (pieces.flatten ++ ')' :: rest)
          = '(' :: (pieces.flatten ++ [')']) ++ rest := by simp
      rw [hsplit]
      exact hrest.cons (.group h)
  | argument hc _ ih => exact ClosesAll.cons (.char (isArgumentChar_iff.mp hc)) ih
  | @quote depth q cs hq _ ih =>
    obtain ⟨quoted, rest, hquoted, rfl, hrest⟩ := ih
    have hsplit : q :: (quoted ++ q :: rest) = q :: (quoted ++ [q]) ++ rest := by simp
    rw [hsplit]
    exact hrest.cons (.quoted (isQuote_iff.mp hq) hquoted)
  | @quoted m depth c cs hm _ ih =>
    cases m with
    | outside => exact absurd rfl hm
    | escaped q =>
      obtain ⟨quoted, rest, hquoted, rfl, hrest⟩ := ih
      exact ⟨c, quoted, rest, hquoted, rfl, hrest⟩
    | inside q =>
      simp only [Mode.next] at ih
      by_cases hbackslash : c = '\\'
      · rw [if_pos hbackslash] at ih
        obtain ⟨d, quoted, rest, hquoted, rfl, hrest⟩ := ih
        exact ⟨'\\' :: d :: quoted, rest, .escaped d hquoted, by rw [hbackslash]; rfl, hrest⟩
      · rw [if_neg hbackslash] at ih
        by_cases hquote : c = q
        · -- the closing quote
          rw [if_pos hquote] at ih
          exact ⟨[], cs, .nil, by rw [hquote]; rfl, ih⟩
        · rw [if_neg hquote] at ih
          obtain ⟨quoted, rest, hquoted, rfl, hrest⟩ := ih
          exact ⟨c :: quoted, rest, .char hbackslash hquote hquoted, rfl, hrest⟩

/-- **What is scanned after a name is a call** of the grammar. -/
theorem isCall_of_scanned {name used : List Char} (hname : IsName name)
    (h : Scanned .outside 0 used) : IsCall (name ++ '(' :: used) := by
  have hreads : ClosesAll 0 used := reads_of_scanned h
  cases hreads with
  | @last pieces hpieces => exact ⟨name, pieces, hname, hpieces, rfl⟩

/-- **The calls that are found** are the calls of the grammar at the beginning of
the text. -/
theorem leading?_eq_some_iff {s p : String} :
    leading? s = .ok (some p) ↔ p.toList <+: s.toList ∧ IsCall p.toList := by
  constructor
  · intro h
    obtain ⟨name, used, rest, hne, hchars, hused, hs, hp⟩ := exists_scanned_of_leading h
    refine ⟨⟨rest, hs.symm⟩, ?_⟩
    rw [hp]
    exact isCall_of_scanned ⟨hne, fun c hc => isNameChar_iff.mp (hchars c hc)⟩ hused
  · rintro ⟨⟨rest, hs⟩, hp⟩
    exact leading?_of_isCall hp hs.symm

/-! ## Texts that do not begin with a call -/

/-- The text is refused for a character: it begins with a name and an opening
parenthesis, and the character is the first one outside quotes that is no
character of a word or number, no quote and no parenthesis. It stands in front of
the parenthesis that closes the call, and it is no semicolon. -/
def IsRefused (s : String) (c : Char) : Prop :=
  ∃ name used rest, IsName name ∧ s.toList = name ++ '(' :: (used ++ c :: rest) ∧
    IsClosed used ∧ GoesOn .outside 1 used ∧
    (¬IsWordLetter c ∧ c ≠ '\'' ∧ c ≠ '"' ∧ c ≠ '(' ∧ c ≠ ')') ∧ c ≠ ';'

/-- A name and an opening parenthesis are found where they stand. -/
theorem afterOpening?_eq_some_iff {cs arguments : List Char} :
    afterOpening? cs = some arguments ↔ ∃ name, IsName name ∧ cs = name ++ '(' :: arguments := by
  constructor
  · intro h
    obtain ⟨name, hne, hchars, hcs⟩ := exists_name_of_afterOpening h
    exact ⟨name, ⟨hne, fun c hc => isNameChar_iff.mp (hchars c hc)⟩, hcs⟩
  · rintro ⟨name, hname, rfl⟩
    exact afterOpening?_name hname.ne_nil hname.chars arguments

theorem leading?_eq_error_iff {s : String} {fault : Fault} :
    leading? s = .error fault ↔ ∃ c, IsRefused s c ∧ fault = .unsafeArgument c s := by
  have hscan : ∀ {arguments : List Char} {c : Char},
      scanArguments 0 arguments = .refused c ↔ ∃ used rest, arguments = used ++ c :: rest ∧
        IsClosed used ∧ GoesOn .outside 1 used ∧ isForeign c = true ∧ c ≠ ';' := by
    intro arguments c
    rw [show scanArguments 0 arguments = scanFrom .outside 0 arguments from rfl, scanFrom_eq_iff]
    constructor
    · rintro ⟨used, rest, rfl, hused, hstops⟩
      generalize hafter : Mode.after .outside used = after at hstops
      cases hstops with
      | foreign _ hc hsemicolon rest => exact ⟨used, rest, rfl, hafter, hused, hc, hsemicolon⟩
    · rintro ⟨used, rest, rfl, hclosed, hused, hc, hsemicolon⟩
      refine ⟨used, c :: rest, rfl, hused, ?_⟩
      rw [show Mode.after .outside used = .outside from hclosed]
      exact .foreign _ hc hsemicolon rest
  rw [leading?_eq_scanned?]
  constructor
  · intro h
    cases hopening : afterOpening? s.toList with
    | none =>
      simp only [scanned?, hopening] at h
      cases h
    | some arguments =>
      simp only [scanned?, hopening] at h
      split at h
      · cases h
      · cases h
      · next c hc =>
        obtain ⟨name, hname, hs⟩ := afterOpening?_eq_some_iff.mp hopening
        obtain ⟨used, rest, rfl, hrefused⟩ := hscan.mp hc
        rw [isForeign_iff] at hrefused
        exact ⟨c, ⟨name, used, rest, hname, hs, hrefused⟩, (Except.error.inj h).symm⟩
  · rintro ⟨c, ⟨name, used, rest, hname, hs, hrefused⟩, rfl⟩
    have hopening : afterOpening? s.toList = some (used ++ c :: rest) :=
      afterOpening?_eq_some_iff.mpr ⟨name, hname, hs⟩
    have hrefusal : scanArguments 0 (used ++ c :: rest) = .refused c :=
      hscan.mpr ⟨used, rest, rfl, by rwa [isForeign_iff]⟩
    simp only [scanned?, hopening, hrefusal]

/-- **Calls are recognized.** What is found at the beginning of a text is the one
call of the grammar with which the text begins; a call is found whatever stands
behind it, with the scan and without. A text is refused, as an attempt to break
out, exactly for the first character outside quotes that has no place before the
closing parenthesis, semicolons apart; and in every other text nothing is found.
All the way through the arguments, up to and with the character that decides the
scan, no more parentheses are closed than are open. -/
theorem recognizes_calls (s : String) :
    (∀ p, leading? s = .ok (some p) ↔ p.toList <+: s.toList ∧ IsCall p.toList) ∧
    (∀ p q : String, p.toList <+: s.toList → IsCall p.toList → q.toList <+: s.toList →
      IsCall q.toList → p = q) ∧
    (IsCall s.toList → ∀ rest, leading? (s ++ rest) = .ok (some s)) ∧
    leading? s = scanned? s ∧
    (∀ fault, leading? s = .error fault ↔
      fault.kind = .injection ∧ ∃ c, IsRefused s c ∧ fault = .unsafeArgument c s) ∧
    (leading? s = .ok none ↔
      (¬∃ p : String, p.toList <+: s.toList ∧ IsCall p.toList) ∧ ¬∃ c, IsRefused s c) ∧
    (∀ arguments, ∃ used rest, arguments = used ++ rest ∧
      Stops (Mode.after .outside used) (1 + balance .outside used) rest
        (scanArguments 0 arguments) ∧
      ∀ part, part <+: used ++ rest.take 1 → 0 ≤ 1 + balance .outside part) := by
  refine ⟨fun p => leading?_eq_some_iff, ?_, ?_, leading?_eq_scanned? s, ?_, ?_, ?_⟩
  · intro p q hpPrefix hp hqPrefix hq
    -- both are what is found
    have hfoundP := leading?_eq_some_iff.mpr ⟨hpPrefix, hp⟩
    have hfoundQ := leading?_eq_some_iff.mpr ⟨hqPrefix, hq⟩
    rw [hfoundP, Except.ok.injEq, Option.some.injEq] at hfoundQ
    exact hfoundQ
  · intro hs rest
    exact leading?_of_isCall hs String.toList_append
  · intro fault
    rw [leading?_eq_error_iff]
    constructor
    · rintro ⟨c, hc, rfl⟩
      exact ⟨rfl, c, hc, rfl⟩
    · exact And.right
  · constructor
    · intro h
      refine ⟨?_, ?_⟩
      · rintro ⟨p, hp⟩
        rw [leading?_eq_some_iff.mpr hp] at h
        cases h
      · rintro ⟨c, hc⟩
        rw [leading?_eq_error_iff.mpr ⟨c, hc, rfl⟩] at h
        cases h
    · rintro ⟨hcall, hrefused⟩
      -- of the three outcomes two are excluded
      cases h : leading? s with
      | error fault =>
        obtain ⟨c, hc, -⟩ := leading?_eq_error_iff.mp h
        exact absurd ⟨c, hc⟩ hrefused
      | ok found =>
        cases found with
        | none => rfl
        | some p => exact absurd ⟨p, leading?_eq_some_iff.mp h⟩ hcall
  · intro arguments
    obtain ⟨used, rest, r, rfl, hused, hstops⟩ := exists_stops .outside 0 arguments
    have hscan : scanArguments 0 (used ++ rest) = r :=
      scanFrom_eq_iff.mpr ⟨used, rest, rfl, hused, hstops⟩
    rw [← hscan] at hstops
    refine ⟨used, rest, rfl, hstops, fun part hpart => ?_⟩
    exact counter_nonneg hused hstops hpart

/-- A call with a parenthesis between quotes, an escaped quote and a group inside
it, in front of something else; and a text that is refused for an operator. -/
theorem recognizes_calls_nested :
    let call := "F('\\')',(b))"
    IsCall call.toList ∧ leading? (call ++ "; DROP TABLE t") = .ok (some call) ∧
      leading? "F((a)*b)" = .error (.unsafeArgument '*' "F((a)*b)") := by
  intro call
  have hquoted : IsArgument ['\'', '\\', '\'', ')', '\''] :=
    .quoted (.inl rfl) (.escaped '\'' (.char (by decide) (by decide) .nil))
  have hcomma : IsArgument [','] := .char (.inr (.inr (.inr (.inl rfl))))
  have hletter : IsArgument ['b'] := .char (.inr (.inl (.inl (by decide))))
  have hgroup : IsArgument ['(', 'b', ')'] := .group (List.forall_mem_singleton.mpr hletter)
  have hname : IsName ['F'] :=
    ⟨List.cons_ne_nil _ _, List.forall_mem_singleton.mpr (.inl (.inr (by decide)))⟩
  have hcall : IsCall call.toList :=
    ⟨['F'], [_, _, _], hname, List.forall_mem_cons.mpr ⟨hquoted, List.forall_mem_cons.mpr
      ⟨hcomma, List.forall_mem_singleton.mpr hgroup⟩⟩, by decide⟩
  have hgoesOn : GoesOn .outside 1 ['(', 'a', ')'] := by
    simp only [goesOn_cons, goesOn_nil]
    decide
  have hforeign : IsRefused "F((a)*b)" '*' :=
    ⟨['F'], ['(', 'a', ')'], ['b', ')'], hname, by decide, by decide, hgoesOn,
      isForeign_iff.mp (by decide), by decide⟩
  obtain ⟨-, -, hextends, -⟩ := recognizes_calls call
  obtain ⟨-, -, -, -, hrefuses, -⟩ := recognizes_calls "F((a)*b)"
  exact ⟨hcall, hextends hcall _, (hrefuses _).mpr ⟨rfl, _, hforeign, rfl⟩⟩

end SqlBuilder.FunctionCall
