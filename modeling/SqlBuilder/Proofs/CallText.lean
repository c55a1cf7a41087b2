import Mathlib.Data.List.TakeDrop
import SqlBuilder.FunctionCall
import SqlBuilder.Proofs.Quotation

/-!
# Texts of function calls

A function call is written into a statement as it was given. What stands between
quotes in it can be anything; the scan makes sure that every quote and every
parenthesis is closed and that nothing but words, commas and blanks stands
between them.

* `Scanned` — the arguments of a call, as the scan reads them;
* `scanned_of_scanArguments`, `scanned_of_scanQuoted` — the two halves of the
  scan;
* `leading?_eq_scanned?` — calls without arguments are told without a scan, and
  the scan would find them;
* `exists_scanned_of_leading`, `exists_scanned_of_isWhole` — the text of a
  function call: a name and its arguments;
* `isClosed_of_isWhole`, `isCallChar_of_isWhole` — what follows for its text.
-/

namespace SqlBuilder.FunctionCall

open Quotation

/-- The characters that a function call has outside quotes. -/
def isCallChar (c : Char) : Bool := isNameChar c || isArgumentChar c || c = '(' || c = ')'

/-- What the scan reads in the mode `m`, inside `depth + 1` open parentheses, up
to the parenthesis that closes the call. -/
inductive Scanned : Mode → Nat → List Char → Prop
  | close : Scanned .outside 0 [')']
  | closing {depth : Nat} {cs : List Char} (h : Scanned .outside depth cs) :
    Scanned .outside (depth + 1) (')' :: cs)
  | opening {depth : Nat} {cs : List Char} (h : Scanned .outside (depth + 1) cs) :
    Scanned .outside depth ('(' :: cs)
  | argument {depth : Nat} {c : Char} {cs : List Char} (hc : isArgumentChar c = true)
    (h : Scanned .outside depth cs) : Scanned .outside depth (c :: cs)
  | quote {depth : Nat} {q : Char} {cs : List Char} (hq : isQuote q = true)
    (h : Scanned (.inside q) depth cs) : Scanned .outside depth (q :: cs)
  /-- Inside quotes there can be any character. -/
  | quoted {m : Mode} {depth : Nat} {c : Char} {cs : List Char} (hm : m ≠ .outside)
    (h : Scanned (m.next c) depth cs) : Scanned m depth (c :: cs)

/-! ## The scan -/

theorem scanQuoted_backslash (depth : Nat) (q c : Char) (cs : List Char) :
    scanQuoted depth q ('\\' :: c :: cs) = scanQuoted depth q cs := by
  rw [scanQuoted]

theorem scanQuoted_cons (depth : Nat) (q : Char) {c : Char} (hc : c ≠ '\\') (cs : List Char) :
    scanQuoted depth q (c :: cs)
      = if c = q then scanArguments depth cs else scanQuoted depth q cs := by
  rw [scanQuoted] <;> simp [hc]

mutual

theorem scanned_of_scanArguments (depth : Nat) : ∀ (cs : List Char) {rest : List Char},
    scanArguments depth cs = .closed rest →
    ∃ used, cs = used ++ rest ∧ Scanned .outside depth used
  | [], rest, h => by cases h
  | c :: cs, rest, h => by
    rw [scanArguments.eq_def] at h
    dsimp only at h
    split at h
    · next hquote =>
      obtain ⟨used, rfl, hused⟩ := scanned_of_scanQuoted depth c cs h
      exact ⟨c :: used, rfl, .quote (by simpa [isQuote] using hquote) hused⟩
    split at h
    · -- a semicolon ends the scan
      cases h
    split at h
    · next hopen =>
      subst hopen
      obtain ⟨used, rfl, hused⟩ := scanned_of_scanArguments (depth + 1) cs h
      exact ⟨'(' :: used, rfl, .opening hused⟩
    split at h
    · next hclose =>
      subst hclose
      split at h
      · -- the parenthesis of the call itself
        cases h
        exact ⟨[')'], rfl, .close⟩
      · next depth =>
        obtain ⟨used, rfl, hused⟩ := scanned_of_scanArguments depth cs h
        exact ⟨')' :: used, rfl, .closing hused⟩
    split at h
    · next hargument =>
      obtain ⟨used, rfl, hused⟩ := scanned_of_scanArguments depth cs h
      exact ⟨c :: used, rfl, .argument hargument hused⟩
    · cases h

theorem scanned_of_scanQuoted (depth : Nat) (q : Char) : ∀ (cs : List Char) {rest : List Char},
    scanQuoted depth q cs = .closed rest →
    ∃ used, cs = used ++ rest ∧ Scanned (.inside q) depth used
  | [], rest, h => by cases h
  | [c], rest, h => by
    by_cases hc : c = '\\'
    · subst hc
      cases h
    · rw [scanQuoted_cons depth q hc] at h
      split at h <;> cases h
  | c :: d :: cs, rest, h => by
    by_cases hc : c = '\\'
    · -- a backslash takes the next character, whatever it is
      subst hc
      rw [scanQuoted_backslash] at h
      obtain ⟨used, rfl, hused⟩ := scanned_of_scanQuoted depth q cs h
      have hnext : Mode.next (.inside q) '\\' = .escaped q := by rw [Mode.next, if_pos rfl]
      refine ⟨'\\' :: d :: used, rfl, .quoted Mode.noConfusion ?_⟩
      rw [hnext]
      exact .quoted Mode.noConfusion hused
    · rw [scanQuoted_cons depth q hc] at h
      split at h
      · next hq =>
        obtain ⟨used, hrest, hused⟩ := scanned_of_scanArguments depth (d :: cs) h
        have hnext : Mode.next (.inside q) c = .outside := by rw [Mode.next, if_neg hc, if_pos hq]
        refine ⟨c :: used, by rw [hrest]; rfl, .quoted Mode.noConfusion ?_⟩
        rw [hnext]
        exact hused
      · next hq =>
        obtain ⟨used, hrest, hused⟩ := scanned_of_scanQuoted depth q (d :: cs) h
        have hnext : Mode.next (.inside q) c = .inside q := by
          rw [Mode.next, if_neg hc, if_neg hq]
        refine ⟨c :: used, by rw [hrest]; rfl, .quoted Mode.noConfusion ?_⟩
        rw [hnext]
        exact hused

end

/-! ## What is scanned -/

theorem isQuote_of_isNameChar {c : Char} (h : isNameChar c = true) : isQuote c = false :=
  isQuote_eq_false rfl rfl h

theorem isQuote_of_isArgumentChar {c : Char} (h : isArgumentChar c = true) : isQuote c = false :=
  isQuote_eq_false (by decide) (by decide) h

theorem next_of_not_isQuote {c : Char} (h : isQuote c = false) :
    Mode.next .outside c = .outside := by
  rw [Mode.next, h]
  rfl

theorem next_of_isQuote {q : Char} (h : isQuote q = true) : Mode.next .outside q = .inside q := by
  rw [Mode.next, if_pos h]

/-- The arguments of a call leave no quote open. -/
theorem Scanned.after {m : Mode} {depth : Nat} {cs : List Char} (h : Scanned m depth cs) :
    m.after cs = .outside := by
  induction h with
  | close => rfl
  | closing _ ih => exact ih
  | opening _ ih => exact ih
  | argument hc _ ih =>
    rw [after_cons, next_of_not_isQuote (isQuote_of_isArgumentChar hc)]
    exact ih
  | quote hq _ ih =>
    rw [after_cons, next_of_isQuote hq]
    exact ih
  | quoted _ _ ih => exact ih

/-- Outside quotes the arguments of a call have the characters of calls. -/
theorem Scanned.isCallChar {m : Mode} {depth : Nat} {cs : List Char} (h : Scanned m depth cs)
    {c : Char} (hc : some c ∈ shell m cs) : isCallChar c = true := by
  -- outside quotes, the first character is seen and the rest follows
  have houtside : ∀ {d : Char} {cs : List Char}, isQuote d = false →
      FunctionCall.isCallChar d = true →
      (some c ∈ shell .outside cs → FunctionCall.isCallChar c = true) →
      some c ∈ shell .outside (d :: cs) → FunctionCall.isCallChar c = true := by
    intro d cs hquote hd ih hmem
    rw [shell, next_of_not_isQuote hquote, hquote] at hmem
    rcases List.mem_cons.mp hmem with hcd | hmem
    · exact Option.some.inj hcd ▸ hd
    · exact ih hmem
  induction h with
  | close => exact houtside (by decide) (by decide) (fun h => absurd h List.not_mem_nil) hc
  | closing _ ih => exact houtside (by decide) (by decide) ih hc
  | opening _ ih => exact houtside (by decide) (by decide) ih hc
  | argument hd _ ih =>
    exact houtside (isQuote_of_isArgumentChar hd) (by simp [FunctionCall.isCallChar, hd]) ih hc
  | quote hq _ ih =>
    rw [shell, if_pos hq, next_of_isQuote hq] at hc
    rcases List.mem_cons.mp hc with hcd | hc
    · cases hcd
    · exact ih hc
  | @quoted m depth d cs hm _ ih =>
    -- nothing in a segment is seen from outside
    cases m with
    | outside => exact absurd rfl hm
    | inside q => exact ih hc
    | escaped q => exact ih hc

/-! ## Whole calls -/

/-- The name of a function and its opening parenthesis. -/
theorem exists_name_of_afterOpening {cs arguments : List Char}
    (h : afterOpening? cs = some arguments) :
    ∃ name, name ≠ [] ∧ (∀ c ∈ name, isNameChar c = true) ∧ cs = name ++ '(' :: arguments := by
  unfold afterOpening? at h
  rw [List.span_eq_takeWhile_dropWhile] at h
  split at h
  · next c name rest hspan =>
    rw [Prod.mk.injEq] at hspan
    obtain ⟨hname, hrest⟩ := hspan
    obtain rfl : rest = arguments := Option.some.inj h
    refine ⟨c :: name, List.cons_ne_nil c name, fun d hd => ?_, ?_⟩
    · rw [← hname] at hd
      exact List.all_eq_true.mp List.all_takeWhile d hd
    · rw [← hname, ← hrest, List.takeWhile_append_dropWhile]
  · cases h

/-- A name ends at the opening parenthesis. -/
theorem afterOpening?_name {name : List Char} (hne : name ≠ [])
    (hname : ∀ c ∈ name, isNameChar c = true) (arguments : List Char) :
    afterOpening? (name ++ '(' :: arguments) = some arguments := by
  have hspan : (name ++ '(' :: arguments).span isNameChar = (name, '(' :: arguments) := by
    rw [List.span_eq_takeWhile_dropWhile, List.takeWhile_append_of_pos hname,
      List.dropWhile_append_of_pos hname, List.takeWhile_cons_of_neg (by decide),
      List.dropWhile_cons_of_neg (by decide), List.append_nil]
  rw [afterOpening?, hspan]
  cases name with
  | nil => exact absurd rfl hne
  | cons c name => rfl

/-- The scan finds the call that ends where its arguments do. -/
theorem scanned?_eq_of_closed {s : String} {name used rest : List Char} (hne : name ≠ [])
    (hname : ∀ c ∈ name, isNameChar c = true) (hs : s.toList = name ++ '(' :: (used ++ rest))
    (h : scanArguments 0 (used ++ rest) = .closed rest) :
    scanned? s = .ok (some (String.ofList (name ++ '(' :: used))) := by
  have hcall : s.toList.take (s.toList.length - rest.length) = name ++ '(' :: used := by
    have hsplit : s.toList = (name ++ '(' :: used) ++ rest := by
      rw [hs, List.append_assoc, List.cons_append]
    rw [hsplit, List.length_append, Nat.add_sub_cancel, List.take_left]
  have hopening := afterOpening?_name hne hname (used ++ rest)
  rw [← hs] at hopening
  unfold scanned?
  simp only [hopening, h, hcall]

/-- **A call without arguments needs no scan**: the scan would find it, too. -/
theorem leading?_eq_scanned? (s : String) : leading? s = scanned? s := by
  unfold leading?
  split
  · next hbare =>
    unfold isBare at hbare
    rw [List.span_eq_takeWhile_dropWhile] at hbare
    split at hbare
    · next c name hspan =>
      rw [Prod.mk.injEq] at hspan
      obtain ⟨hname, hrest⟩ := hspan
      have hs : s.toList = (c :: name) ++ '(' :: ([')'] ++ []) := by
        rw [← hname, List.append_nil, ← hrest, List.takeWhile_append_dropWhile]
      have hchars : ∀ d ∈ c :: name, isNameChar d = true := by
        rw [← hname]
        exact fun d hd => List.all_eq_true.mp List.all_takeWhile d hd
      have hwhole : String.ofList ((c :: name) ++ '(' :: [')']) = s := by
        rw [← String.ofList_toList (s := s), hs]
        rfl
      rw [scanned?_eq_of_closed (List.cons_ne_nil c name) hchars hs rfl, hwhole]
    · cases hbare
  · rfl

/-- What a call at the beginning of a text consists of. -/
theorem exists_scanned_of_leading {s p : String} (h : leading? s = .ok (some p)) :
    ∃ name used rest, name ≠ [] ∧ (∀ c ∈ name, isNameChar c = true) ∧
      Scanned .outside 0 used ∧ s.toList = p.toList ++ rest ∧ p.toList = name ++ '(' :: used := by
  rw [leading?_eq_scanned?] at h
  cases hopening : afterOpening? s.toList with
  | none =>
    simp only [scanned?, hopening] at h
    cases h
  | some arguments =>
    simp only [scanned?, hopening] at h
    cases hscan : scanArguments 0 arguments with
    | unfinished =>
      rw [hscan] at h
      cases h
    | refused c =>
      rw [hscan] at h
      cases h
    | closed rest =>
      obtain ⟨name, hne, hname, hs⟩ := exists_name_of_afterOpening hopening
      obtain ⟨used, rfl, hused⟩ := scanned_of_scanArguments 0 arguments hscan
      have hp := scanned?_eq_of_closed hne hname hs hscan
      simp only [scanned?, hopening] at hp
      rw [h, Except.ok.injEq, Option.some.injEq] at hp
      subst hp
      refine ⟨name, used, rest, hne, hname, hused, ?_, String.toList_ofList⟩
      rw [String.toList_ofList, hs, List.append_assoc, List.cons_append]

/-- **The text of a function call** is a name, an opening parenthesis and
arguments up to the parenthesis that closes the call. -/
theorem exists_scanned_of_isWhole {s : String} (h : isWhole s = .ok true) :
    ∃ name arguments, name ≠ [] ∧ (∀ c ∈ name, isNameChar c = true) ∧
      Scanned .outside 0 arguments ∧ s.toList = name ++ '(' :: arguments := by
  have hleading : leading? s = .ok (some s) := by
    unfold isWhole at h
    split at h
    · next call hcall =>
      rw [Except.ok.injEq, decide_eq_true_eq] at h
      rw [hcall, h]
    · cases h
  obtain ⟨name, used, -, hne, hname, hused, -, hs⟩ := exists_scanned_of_leading hleading
  exact ⟨name, used, hne, hname, hused, hs⟩

theorem isClosed_of_isWhole {s : String} (h : isWhole s = .ok true) : IsClosed s.toList := by
  obtain ⟨name, arguments, -, hname, hscanned, hs⟩ := exists_scanned_of_isWhole h
  have hclosed : IsClosed name := isClosed_of_forall fun c hc => isQuote_of_isNameChar (hname c hc)
  have harguments : IsClosed ('(' :: arguments) := hscanned.after
  rw [hs]
  exact hclosed.append harguments

theorem isCallChar_of_isWhole {s : String} (h : isWhole s = .ok true) {c : Char}
    (hc : some c ∈ shell .outside s.toList) : isCallChar c = true := by
  obtain ⟨name, arguments, -, hname, hscanned, hs⟩ := exists_scanned_of_isWhole h
  have hquotes : ∀ d ∈ name, isQuote d = false := fun d hd => isQuote_of_isNameChar (hname d hd)
  rw [hs, (isClosed_of_forall hquotes).shell_append, shell_of_forall hquotes] at hc
  rcases List.mem_append.mp hc with hc | hc
  · obtain ⟨d, hd, hdc⟩ := List.mem_map.mp hc
    rw [← Option.some.inj hdc, isCallChar, hname d hd]
    rfl
  · rcases List.mem_cons.mp hc with hc | hc
    · exact Option.some.inj hc ▸ rfl
    · exact hscanned.isCallChar hc

end SqlBuilder.FunctionCall
