import SqlBuilder.Proofs.CallText

/-!
# The scan of a call as a machine

The scan of the arguments of a call reads one character after the other. It
knows whether it stands between quotes and how many parentheses are open, and
nothing of how they are nested. Every scan is cut here into what it reads without
stopping and the character that decides it. Both parts are described by the
quoted segments of the text and by counting, so that the outcome of a scan can be
told without scanning.

* `scanFrom_cons` — what one character does that does not stop the scan;
* `balance` — the parentheses that a text opens and closes outside quotes;
* `GoesOn`, `Stops` — what a scan reads, and what decides it;
* `scanFrom_eq_iff` — the outcome of every scan;
* `counter_nonneg` — the number of open parentheses never falls below zero.
-/

namespace SqlBuilder.FunctionCall

open Quotation

/-! ## One character of the scan -/

theorem scanArguments_quote {q : Char} (hq : isQuote q = true) (depth : Nat) (cs : List Char) :
    scanArguments depth (q :: cs) = scanQuoted depth q cs := by
  have hquote : q = '\'' ∨ q = '"' := by simpa [isQuote] using hq
  rw [scanArguments.eq_def]
  simp only [if_pos hquote]

theorem scanArguments_opening (depth : Nat) (cs : List Char) :
    scanArguments depth ('(' :: cs) = scanArguments (depth + 1) cs := by
  rw [scanArguments.eq_def]
  simp

theorem scanArguments_closing (depth : Nat) (cs : List Char) :
    scanArguments (depth + 1) (')' :: cs) = scanArguments depth cs := by
  rw [scanArguments.eq_def]
  simp

/-- The parenthesis of the call itself ends the scan. -/
theorem scanArguments_last (cs : List Char) : scanArguments 0 (')' :: cs) = .closed cs := by
  rw [scanArguments.eq_def]
  simp

theorem scanArguments_semicolon (depth : Nat) (cs : List Char) :
    scanArguments depth (';' :: cs) = .unfinished := by
  rw [scanArguments.eq_def]
  simp

/-- No character of an argument is one that the scan acts upon. -/
theorem not_delimiter_of_isArgumentChar {c : Char} (hc : isArgumentChar c = true) :
    c ≠ ';' ∧ c ≠ '(' ∧ c ≠ ')' := by
  refine ⟨?_, ?_, ?_⟩ <;>
  · rintro rfl
    revert hc
    decide

theorem scanArguments_argument {c : Char} (hc : isArgumentChar c = true) (depth : Nat)
    (cs : List Char) : scanArguments depth (c :: cs) = scanArguments depth cs := by
  have hquote : ¬(c = '\'' ∨ c = '"') := by
    simpa [isQuote] using isQuote_of_isArgumentChar hc
  obtain ⟨hsemicolon, hopening, hclosing⟩ := not_delimiter_of_isArgumentChar hc
  rw [scanArguments.eq_def]
  simp only [if_neg hquote, if_neg hsemicolon, if_neg hopening, if_neg hclosing, if_pos hc]

/-- A character that no argument can have outside quotes, and that is no
parenthesis. -/
def isForeign (c : Char) : Bool := !(isQuote c || isArgumentChar c || c = '(' || c = ')')

theorem scanArguments_foreign {c : Char} (hc : isForeign c = true) (hsemicolon : c ≠ ';')
    (depth : Nat) (cs : List Char) : scanArguments depth (c :: cs) = .refused c := by
  simp only [isForeign, Bool.not_eq_true', Bool.or_eq_false_iff, decide_eq_false_iff_not] at hc
  obtain ⟨⟨⟨hquote, hargument⟩, hopening⟩, hclosing⟩ := hc
  have hquote : ¬(c = '\'' ∨ c = '"') := by simpa [isQuote] using hquote
  rw [scanArguments.eq_def]
  simp [if_neg hquote, if_neg hsemicolon, if_neg hopening, if_neg hclosing, hargument]

/-! ## What a scan reads, and what decides it -/

/-- What a character adds to the number of open parentheses. Between quotes it
adds nothing. -/
def change (m : Mode) (c : Char) : Int :=
  match m with
  | .outside => if c = '(' then 1 else if c = ')' then -1 else 0
  | _ => 0

/-- How many more parentheses a text opens than it closes, outside quotes. -/
def balance (m : Mode) (cs : List Char) : Int :=
  (shell m cs).count (some '(') - (shell m cs).count (some ')')

theorem balance_nil (m : Mode) : balance m [] = 0 := by
  cases m <;> rfl

theorem balance_append (m : Mode) (a b : List Char) :
    balance m (a ++ b) = balance m a + balance (m.after a) b := by
  unfold balance
  rw [shell_append, List.count_append, List.count_append]
  omega

theorem balance_cons (m : Mode) (c : Char) (cs : List Char) :
    balance m (c :: cs) = change m c + balance (m.next c) cs := by
  have hhead : balance m [c] = change m c := by
    cases m with
    | outside =>
      by_cases hopening : c = '('
      · subst hopening
        decide
      by_cases hclosing : c = ')'
      · subst hclosing
        decide
      -- a placeholder counts as little as a character that is no parenthesis
      have hcount : ∀ p : Char, c ≠ p → (shell .outside [c]).count (some p) = 0 := by
        intro p hp
        rw [List.count_eq_zero, shell, shell]
        split <;> simp [Ne.symm hp]
      rw [balance, hcount _ hopening, hcount _ hclosing, change, if_neg hopening, if_neg hclosing]
      rfl
    | inside q => rfl
    | escaped q => rfl
  have happend := balance_append m [c] cs
  rw [hhead] at happend
  exact happend

/-- The text is read without a stop, if `n` parentheses are open in front of it:
outside quotes there are characters of arguments and parentheses only, and at no
point all parentheses are closed. -/
structure GoesOn (m : Mode) (n : Int) (cs : List Char) : Prop where
  chars : ∀ c, some c ∈ shell m cs → isForeign c = false
  counter : ∀ part, part <+: cs → 0 < n + balance m part

theorem goesOn_nil {m : Mode} {n : Int} : GoesOn m n [] ↔ 0 < n := by
  constructor
  · intro h
    simpa [balance_nil] using h.counter [] (List.prefix_refl [])
  · intro hn
    refine ⟨fun c hc => ?_, fun part hpart => ?_⟩
    · cases m <;> cases hc
    · rw [List.prefix_nil.mp hpart, balance_nil]
      omega

theorem goesOn_cons {m : Mode} {n : Int} {c : Char} {cs : List Char} :
    GoesOn m n (c :: cs) ↔
      0 < n ∧ (m = .outside → isForeign c = false) ∧ GoesOn (m.next c) (n + change m c) cs := by
  have hcounter : ∀ part, n + balance m (c :: part) = n + change m c + balance (m.next c) part := by
    intro part
    rw [balance_cons]
    omega
  constructor
  · intro h
    have hpositive : 0 < n := by
      simpa [balance_nil] using h.counter [] List.nil_prefix
    refine ⟨hpositive, ?_, ?_, ?_⟩
    · rintro rfl
      by_cases hquote : isQuote c = true
      · simp [isForeign, hquote]
      · exact h.chars c (by simp [shell, hquote])
    · intro d hd
      refine h.chars d ?_
      -- what is seen behind the first character is seen in the whole
      cases m with
      | outside => exact List.mem_cons_of_mem _ hd
      | inside q => exact hd
      | escaped q => exact hd
    · intro part hpart
      have hwhole := h.counter (c :: part) ((List.prefix_cons_inj c).mpr hpart)
      rw [hcounter] at hwhole
      exact hwhole
  · rintro ⟨hpositive, hc, hrest⟩
    refine ⟨fun d hd => ?_, fun part hpart => ?_⟩
    · cases m with
      | outside =>
        rw [shell] at hd
        rcases List.mem_cons.mp hd with hfirst | hd
        · split at hfirst
          · cases hfirst
          · rw [Option.some.inj hfirst]
            exact hc rfl
        · exact hrest.chars d hd
      | inside q => exact hrest.chars d hd
      | escaped q => exact hrest.chars d hd
    · cases part with
      | nil =>
        rw [balance_nil]
        omega
      | cons d part =>
        obtain ⟨rfl, hrestPart⟩ := List.cons_prefix_cons.mp hpart
        rw [hcounter]
        exact hrest.counter part hrestPart

/-- What decides a scan that has come so far, with `n` parentheses open, and its
outcome: the end of the text, the parenthesis that closes the call, a semicolon,
or another character for which there is no place. -/
inductive Stops : Mode → Int → List Char → Scan → Prop
  | atEnd (m : Mode) (n : Int) : Stops m n [] .unfinished
  | closing {n : Int} (hn : n = 1) (rest : List Char) :
    Stops .outside n (')' :: rest) (.closed rest)
  | semicolon (n : Int) (rest : List Char) : Stops .outside n (';' :: rest) .unfinished
  | foreign (n : Int) {c : Char} (hc : isForeign c = true) (hsemicolon : c ≠ ';')
    (rest : List Char) : Stops .outside n (c :: rest) (.refused c)

/-- The scan from a mode on. Behind a backslash it goes on as if the backslash
were still to be read. -/
def scanFrom (m : Mode) (depth : Nat) (cs : List Char) : Scan :=
  match m with
  | .outside => scanArguments depth cs
  | .inside q => scanQuoted depth q cs
  | .escaped q => scanQuoted depth q ('\\' :: cs)

/-- A character that does not stop the scan changes its mode and the number of
open parentheses. -/
theorem scanFrom_cons {m : Mode} {depth n : Nat} {c : Char}
    (hc : m = .outside → isForeign c = false) (hn : (n : Int) = depth + change m c)
    (cs : List Char) : scanFrom m depth (c :: cs) = scanFrom (m.next c) n cs := by
  cases m with
  | outside =>
    have hplace := hc rfl
    simp only [isForeign, Bool.not_eq_false', Bool.or_eq_true, decide_eq_true_eq] at hplace
    simp only [change] at hn
    rcases hplace with ((hquote | hargument) | rfl) | rfl
    · have hopening : c ≠ '(' := by rintro rfl; cases hquote
      have hclosing : c ≠ ')' := by rintro rfl; cases hquote
      rw [if_neg hopening, if_neg hclosing] at hn
      obtain rfl : n = depth := by omega
      rw [next_of_isQuote hquote]
      exact scanArguments_quote hquote n cs
    · obtain ⟨-, hopening, hclosing⟩ := not_delimiter_of_isArgumentChar hargument
      rw [if_neg hopening, if_neg hclosing] at hn
      obtain rfl : n = depth := by omega
      rw [next_of_not_isQuote (isQuote_of_isArgumentChar hargument)]
      exact scanArguments_argument hargument n cs
    · obtain rfl : n = depth + 1 := by
        simp at hn
        omega
      exact scanArguments_opening depth cs
    · -- the parenthesis closes a group, since one more stays open
      obtain rfl : depth = n + 1 := by
        simp at hn
        omega
      exact scanArguments_closing n cs
  | inside q =>
    obtain rfl : n = depth := by
      simp only [change] at hn
      omega
    by_cases hbackslash : c = '\\'
    · rw [Mode.next, if_pos hbackslash, hbackslash]
      rfl
    · rw [Mode.next, if_neg hbackslash]
      show scanQuoted n q (c :: cs) = _
      rw [scanQuoted_cons n q hbackslash]
      split <;> rfl
  | escaped q =>
    obtain rfl : n = depth := by
      simp only [change] at hn
      omega
    exact scanQuoted_backslash n q c cs

/-- The scan reads what does not stop it, and goes on behind it. -/
theorem scanFrom_append {m : Mode} {depth : Nat} {used : List Char}
    (h : GoesOn m (depth + 1) used) (rest : List Char) :
    ∃ n : Nat, (n : Int) = depth + balance m used ∧
      scanFrom m depth (used ++ rest) = scanFrom (m.after used) n rest := by
  induction used generalizing m depth with
  | nil =>
    refine ⟨depth, ?_, rfl⟩
    rw [balance_nil]
    omega
  | cons c used ih =>
    obtain ⟨-, hc, hused⟩ := goesOn_cons.mp h
    have hpositive := hused.counter [] List.nil_prefix
    rw [balance_nil] at hpositive
    -- one parenthesis is open behind the character, that of the call
    obtain ⟨next, hnext⟩ : ∃ next : Nat, (next : Int) = depth + change m c :=
      ⟨(depth + change m c).toNat, by omega⟩
    have hused' : GoesOn (m.next c) (next + 1) used := by
      have heq : (next : Int) + 1 = depth + 1 + change m c := by omega
      rw [heq]
      exact hused
    obtain ⟨n, hn, hscan⟩ := ih hused'
    refine ⟨n, ?_, ?_⟩
    · rw [balance_cons]
      omega
    · rw [List.cons_append, scanFrom_cons hc hnext, hscan]
      rfl

theorem scanFrom_of_stops {m : Mode} {depth : Nat} {rest : List Char} {r : Scan}
    (h : Stops m (depth + 1) rest r) : scanFrom m depth rest = r := by
  cases h with
  | atEnd => cases m <;> rfl
  | closing hn rest =>
    obtain rfl : depth = 0 := by omega
    exact scanArguments_last rest
  | semicolon _ rest => exact scanArguments_semicolon depth rest
  | foreign _ hc hsemicolon rest => exact scanArguments_foreign hc hsemicolon depth rest

/-- Every text is read up to something that decides its scan. -/
theorem exists_stops (m : Mode) (depth : Nat) (cs : List Char) :
    ∃ used rest r, cs = used ++ rest ∧ GoesOn m (depth + 1) used ∧
      Stops (m.after used) (depth + 1 + balance m used) rest r := by
  induction cs generalizing m depth with
  | nil => exact ⟨[], [], _, rfl, goesOn_nil.mpr (by omega), .atEnd _ _⟩
  | cons c cs ih =>
    have hnothing : GoesOn m (depth + 1) [] := goesOn_nil.mpr (by omega)
    by_cases hforeign : m = .outside ∧ isForeign c = true
    · obtain ⟨rfl, hc⟩ := hforeign
      by_cases hsemicolon : c = ';'
      · subst hsemicolon
        exact ⟨[], _, _, rfl, hnothing, .semicolon _ cs⟩
      · exact ⟨[], _, _, rfl, hnothing, .foreign _ hc hsemicolon cs⟩
    by_cases hlast : m = .outside ∧ c = ')' ∧ depth = 0
    · obtain ⟨rfl, rfl, rfl⟩ := hlast
      exact ⟨[], _, _, rfl, hnothing, .closing (by rw [balance_nil]; rfl) cs⟩
    -- otherwise the scan goes on behind the character
    have hc : m = .outside → isForeign c = false := by
      intro hm
      exact Bool.of_not_eq_true fun hc => hforeign ⟨hm, hc⟩
    have hopen : 0 ≤ (depth : Int) + change m c := by
      unfold change
      split
      · split
        · omega
        split
        · next hclosing =>
          have hdepth : depth ≠ 0 := fun hdepth => hlast ⟨rfl, hclosing, hdepth⟩
          omega
        · omega
      · omega
    obtain ⟨n, hn⟩ : ∃ n : Nat, (n : Int) = depth + change m c :=
      ⟨(depth + change m c).toNat, by omega⟩
    obtain ⟨used, rest, r, rfl, hused, hstops⟩ := ih (m.next c) n
    have hcounter : (n : Int) + 1 = depth + 1 + change m c := by omega
    have hwhole : (n : Int) + 1 + balance (m.next c) used
        = depth + 1 + balance m (c :: used) := by
      rw [balance_cons]
      omega
    rw [hwhole] at hstops
    rw [hcounter] at hused
    exact ⟨c :: used, rest, r, rfl, goesOn_cons.mpr ⟨by omega, hc, hused⟩, hstops⟩

/-- **The outcome of a scan** is decided by the first character that stops it. -/
theorem scanFrom_eq_iff {m : Mode} {depth : Nat} {cs : List Char} {r : Scan} :
    scanFrom m depth cs = r ↔ ∃ used rest, cs = used ++ rest ∧ GoesOn m (depth + 1) used ∧
      Stops (m.after used) (depth + 1 + balance m used) rest r := by
  have houtcome : ∀ used rest r, GoesOn m (depth + 1) used →
      Stops (m.after used) (depth + 1 + balance m used) rest r →
      scanFrom m depth (used ++ rest) = r := by
    intro used rest r hused hstops
    obtain ⟨n, hn, hscan⟩ := scanFrom_append hused rest
    have hcounter : (depth : Int) + 1 + balance m used = n + 1 := by omega
    rw [hcounter] at hstops
    rw [hscan, scanFrom_of_stops hstops]
  constructor
  · rintro rfl
    obtain ⟨used, rest, r, rfl, hused, hstops⟩ := exists_stops m depth cs
    rw [houtcome used rest r hused hstops]
    exact ⟨used, rest, rfl, hused, hstops⟩
  · rintro ⟨used, rest, rfl, hused, hstops⟩
    exact houtcome used rest r hused hstops

/-- Neither what is read nor what decides the scan closes more parentheses than
are open. -/
theorem counter_nonneg {m : Mode} {n : Int} {used rest : List Char} {r : Scan}
    (hused : GoesOn m n used) (hstops : Stops (m.after used) (n + balance m used) rest r)
    {part : List Char} (hpart : part <+: used ++ rest.take 1) : 0 ≤ n + balance m part := by
  have hbefore : ∀ part, part <+: used → 0 ≤ n + balance m part := fun part hpart =>
    Int.le_of_lt (hused.counter part hpart)
  have hlast : ∀ c cs, rest = c :: cs → 0 ≤ n + balance m (used ++ [c]) := by
    intro c cs hrest
    have hall := hused.counter used (List.prefix_refl used)
    rw [balance_append, balance_cons, balance_nil]
    subst hrest
    generalize m.after used = after at *
    cases hstops with
    | closing hn =>
      -- the last parenthesis is closed
      have hchange : change .outside ')' = -1 := rfl
      omega
    | semicolon =>
      have hchange : change .outside ';' = 0 := rfl
      omega
    | foreign _ hc =>
      have hchange : change .outside c = 0 := by
        simp only [isForeign, Bool.not_eq_true', Bool.or_eq_false_iff,
          decide_eq_false_iff_not] at hc
        rw [change, if_neg hc.1.2, if_neg hc.2]
      omega
  cases rest with
  | nil => exact hbefore part (by simpa using hpart)
  | cons c cs =>
    have hpart' : part <+: used ++ [c] := by simpa using hpart
    rcases List.prefix_concat_iff.mp hpart' with rfl | hpart'
    · exact hlast c cs rfl
    · exact hbefore part hpart'

end SqlBuilder.FunctionCall
