import SqlBuilder.Proofs.Quotation

/-!
# Reading conditions with precedence

How a database reads the text of a condition. The text falls into words and
parentheses; parentheses bind first, then `AND`, then `OR`. A condition is
therefore a disjunction of conjunctions of operands, and an operand is a
comparison of a key with a literal or a condition between parentheses.

* `lexemes` — words and parentheses, found outside quotes;
* `IsDisjunction` — the grammar;
* `parse` — the reader, a machine with one level for every open parenthesis;
* `parse_eq_some_iff` — the reader finds what the grammar says, and nothing
  else: the grammar is not ambiguous, and a text without a reading, of which
  there are some among the conditions, is none that the grammar derives;
* `IsDisjunction.join`, `IsDisjunction.orElse` — conditions put together.

A word is a connective by its place alone: a key can be called `AND`.
-/

namespace SqlBuilder.Precedence

open Quotation

/-! ## Lexemes -/

/-- A word or a parenthesis. -/
inductive Lexeme where
  | word (text : String)
  | opening
  | closing
  deriving DecidableEq, Repr

/-- The lexemes of a character that separates words outside quotes. -/
def delimiter? : Char → Option (List Lexeme)
  | ' ' => some []
  | '(' => some [.opening]
  | ')' => some [.closing]
  | _ => none

/-- The word of the characters since the last separator, if there are any. -/
def wordOf (pending : List Char) : List Lexeme :=
  if pending.isEmpty then [] else [.word (String.ofList pending)]

/-- The lexemes of a text, with the characters of a word that has begun. -/
def lex : Mode → List Char → List Char → List Lexeme
  | _, pending, [] => wordOf pending
  | m, pending, c :: cs =>
    match m, delimiter? c with
    | .outside, some xs => wordOf pending ++ xs ++ lex .outside [] cs
    | m, _ => lex (m.next c) (pending ++ [c]) cs

/-- The lexemes of a text. -/
def lexemes (text : String) : List Lexeme := lex .outside [] text.toList

theorem lex_delimiter {d : Char} {xs : List Lexeme} (hd : delimiter? d = some xs)
    (pending cs : List Char) :
    lex .outside pending (d :: cs) = wordOf pending ++ xs ++ lex .outside [] cs := by
  rw [lex.eq_def]
  dsimp only
  rw [hd]

theorem lex_char {m : Mode} {c : Char} (hc : m = .outside → delimiter? c = none)
    (pending cs : List Char) : lex m pending (c :: cs) = lex (m.next c) (pending ++ [c]) cs := by
  rw [lex.eq_def]
  dsimp only
  cases m with
  | outside => rw [hc rfl]
  | inside q => rfl
  | escaped q => rfl

/-- Separators are no quotes. -/
theorem next_of_delimiter {d : Char} {xs : List Lexeme} (hd : delimiter? d = some xs) :
    Mode.next .outside d = .outside := by
  unfold delimiter? at hd
  split at hd
  · rfl
  · rfl
  · rfl
  · cases hd

/-- A separator outside quotes ends what is before it. -/
theorem lex_append {m : Mode} {a : List Char} (ha : m.after a = .outside) {d : Char}
    {xs : List Lexeme} (hd : delimiter? d = some xs) (pending b : List Char) :
    lex m pending (a ++ d :: b) = lex m pending a ++ xs ++ lex .outside [] b := by
  induction a generalizing m pending with
  | nil =>
    obtain rfl : m = .outside := ha
    rw [List.nil_append, lex_delimiter hd, lex]
  | cons c a ih =>
    rw [after_cons] at ha
    rw [List.cons_append]
    by_cases hc : m = .outside ∧ ∃ ys, delimiter? c = some ys
    · -- an earlier separator is split off, and the reader is outside again
      obtain ⟨rfl, ys, hys⟩ := hc
      rw [next_of_delimiter hys] at ha
      rw [lex_delimiter hys, lex_delimiter hys, ih ha]
      simp only [List.append_assoc]
    · have hchar : m = .outside → delimiter? c = none := fun hm =>
        Option.eq_none_iff_forall_ne_some.mpr fun ys hys => hc ⟨hm, ys, hys⟩
      rw [lex_char hchar, lex_char hchar, ih ha]

/-- A text with no separator outside quotes is a single word. -/
theorem lex_word {m : Mode} {w : List Char}
    (h : ∀ c, some c ∈ shell m w → delimiter? c = none) (pending : List Char) :
    lex m pending w = wordOf (pending ++ w) := by
  induction w generalizing m pending with
  | nil => rw [lex, List.append_nil]
  | cons c w ih =>
    have hchar : m = .outside → delimiter? c = none := by
      rintro rfl
      by_cases hquote : isQuote c = true
      · -- a quote is no separator, although the shell does not show it
        unfold isQuote at hquote
        rw [Bool.or_eq_true, decide_eq_true_eq, decide_eq_true_eq] at hquote
        rcases hquote with rfl | rfl <;> rfl
      · refine h c ?_
        rw [shell, if_neg hquote]
        exact List.mem_cons_self
    have hrest : ∀ d, some d ∈ shell (m.next c) w → delimiter? d = none := by
      intro d hd
      refine h d ?_
      cases m with
      | outside => exact List.mem_cons_of_mem _ hd
      | inside q => exact hd
      | escaped q => exact hd
    rw [lex_char hchar, ih hrest, List.append_assoc, List.singleton_append]

/-! ## Readings -/

/-- What an operand of a condition is read as: a comparison, by its text, or a
group between parentheses. A group is a disjunction of conjunctions, of which
the last one stands apart. -/
inductive Reading where
  | atom (text : String)
  | group (earlier : List (List Reading)) (last : List Reading)

mutual

/-- Whether an operand holds when the comparisons have the truth values
`truth`. -/
def Reading.holds (truth : String → Bool) : Reading → Bool
  | .atom text => truth text
  | .group earlier last => Reading.anyHolds truth earlier || Reading.allHold truth last
termination_by structural r => r

/-- Whether a conjunction holds. -/
def Reading.allHold (truth : String → Bool) : List Reading → Bool
  | [] => true
  | r :: rs => r.holds truth && Reading.allHold truth rs
termination_by structural rs => rs

/-- Whether one of some conjunctions holds. -/
def Reading.anyHolds (truth : String → Bool) : List (List Reading) → Bool
  | [] => false
  | p :: ps => Reading.allHold truth p || Reading.anyHolds truth ps
termination_by structural ps => ps

end

/-- A disjunction of conjunctions, of which the last one stands apart: it is the
one that goes on behind an `AND`. -/
structure Disjunction where
  earlier : List (List Reading)
  last : List Reading

namespace Disjunction

/-- The empty conjunction. -/
def unit : Disjunction := ⟨[], []⟩

/-- An operand on its own. -/
def single (r : Reading) : Disjunction := ⟨[], [r]⟩

/-- Whether a disjunction holds. -/
def holds (truth : String → Bool) (s : Disjunction) : Bool :=
  Reading.anyHolds truth s.earlier || Reading.allHold truth s.last

/-- A disjunction with an `AND` behind it and another one behind that. The
conjunctions that meet become one. -/
def join : Disjunction → Disjunction → Disjunction
  | ⟨earlier, last⟩, ⟨[], last'⟩ => ⟨earlier, last ++ last'⟩
  | ⟨earlier, last⟩, ⟨p :: ps, last'⟩ => ⟨earlier ++ (last ++ p) :: ps, last'⟩

/-- A disjunction with an `OR` behind it and another one behind that. -/
def orElse (s t : Disjunction) : Disjunction := ⟨s.earlier ++ s.last :: t.earlier, t.last⟩

@[simp] theorem unit_join (s : Disjunction) : unit.join s = s := by
  obtain ⟨earlier, last⟩ := s
  cases earlier <;> rfl

@[simp] theorem join_unit (s : Disjunction) : s.join unit = s := by
  show Disjunction.mk s.earlier (s.last ++ []) = s
  rw [List.append_nil]

theorem join_assoc (s t u : Disjunction) : (s.join t).join u = s.join (t.join u) := by
  obtain ⟨es, ls⟩ := s
  obtain ⟨et, lt⟩ := t
  obtain ⟨eu, lu⟩ := u
  cases et <;> cases eu <;> simp [join]

theorem orElse_assoc (s t u : Disjunction) : (s.orElse t).orElse u = s.orElse (t.orElse u) := by
  simp [orElse]

/-- What is joined to a disjunction is joined to its last conjunction. -/
theorem join_orElse (s t u : Disjunction) : (s.join t).orElse u = s.join (t.orElse u) := by
  obtain ⟨es, ls⟩ := s
  obtain ⟨et, lt⟩ := t
  cases et <;> simp [join, orElse]

theorem orElse_join (s t u : Disjunction) : (s.orElse t).join u = s.orElse (t.join u) := by
  obtain ⟨et, lt⟩ := t
  obtain ⟨eu, lu⟩ := u
  cases eu <;> simp [join, orElse]

/-- Behind an `OR` a new conjunction begins. -/
theorem orElse_unit_join (s t : Disjunction) : (s.orElse unit).join t = s.orElse t := by
  obtain ⟨et, lt⟩ := t
  cases et <;> simp [join, orElse, unit]

end Disjunction

/-! ## The grammar -/

/-- The operators of comparisons. -/
def isOperator (w : String) : Bool := ["=", "!=", ">", ">=", "<", "<=", "LIKE"].contains w

/-- The text of a comparison. -/
def atomText (key op literal : String) : String := key ++ " " ++ op ++ " " ++ literal

mutual

/-- An operand: a comparison, or a condition between parentheses. -/
inductive IsOperand : List Lexeme → Reading → Prop
  | atom (key : String) {op : String} (literal : String) (h : isOperator op = true) :
    IsOperand [.word key, .word op, .word literal] (.atom (atomText key op literal))
  | group {xs : List Lexeme} {s : Disjunction} (h : IsDisjunction xs s) :
    IsOperand (.opening :: (xs ++ [.closing])) (.group s.earlier s.last)

/-- Operands with `AND` between them. -/
inductive IsConjunction : List Lexeme → List Reading → Prop
  | one {xs : List Lexeme} {r : Reading} (h : IsOperand xs r) : IsConjunction xs [r]
  | and {xs ys : List Lexeme} {p : List Reading} {r : Reading} (h : IsConjunction xs p)
    (hr : IsOperand ys r) : IsConjunction (xs ++ .word "AND" :: ys) (p ++ [r])

/-- Conjunctions with `OR` between them. -/
inductive IsDisjunction : List Lexeme → Disjunction → Prop
  | one {xs : List Lexeme} {p : List Reading} (h : IsConjunction xs p) : IsDisjunction xs ⟨[], p⟩
  | or {xs ys : List Lexeme} {s : Disjunction} {p : List Reading} (h : IsDisjunction xs s)
    (hp : IsConjunction ys p) : IsDisjunction (xs ++ .word "OR" :: ys) (s.orElse ⟨[], p⟩)

end

/-! ## The reader -/

/-- What the reader expects next. -/
inductive Expected where
  | operand
  | operator (key : String)
  | literal (key op : String)
  | connective

/-- Reads lexemes. `outer` has a disjunction for every open parenthesis, the
innermost first; `level` is what has been read since. -/
def read (outer : List Disjunction) (level : Disjunction) (expected : Expected) :
    List Lexeme → Option Disjunction
  | [] =>
    match outer, expected with
    | [], .connective => some level
    | _, _ => none
  | x :: xs =>
    match expected, x with
    | .operand, .opening => read (level :: outer) .unit .operand xs
    | .operand, .word key => read outer level (.operator key) xs
    | .operator key, .word op =>
      if isOperator op then read outer level (.literal key op) xs else none
    | .literal key op, .word literal =>
      read outer (level.join (.single (.atom (atomText key op literal)))) .connective xs
    | .connective, .word w =>
      if w = "AND" then read outer level .operand xs
      else if w = "OR" then read outer (level.orElse .unit) .operand xs
      else none
    | .connective, .closing =>
      match outer with
      | [] => none
      | o :: outer => read outer (o.join (.single (.group level.earlier level.last))) .connective xs
    | _, _ => none

/-- The reading of the text of a condition. -/
def parse (text : String) : Option Disjunction := read [] .unit .operand (lexemes text)

/-! ## The reader follows the grammar -/

mutual

theorem read_operand : ∀ {xs : List Lexeme} {r : Reading}, IsOperand xs r →
    ∀ (outer : List Disjunction) (level : Disjunction) (rest : List Lexeme),
      read outer level .operand (xs ++ rest) = read outer (level.join (.single r)) .connective rest
  | _, _, .atom key literal h, outer, level, rest => by
    show (if _ then _ else _) = _
    rw [if_pos h]
    rfl
  | _, _, .group h, outer, level, rest => by
    show read (level :: outer) .unit .operand (_ ++ _ ++ rest) = _
    rw [List.append_assoc, read_disjunction h, Disjunction.unit_join]
    rfl

theorem read_conjunction : ∀ {xs : List Lexeme} {p : List Reading}, IsConjunction xs p →
    ∀ (outer : List Disjunction) (level : Disjunction) (rest : List Lexeme),
      read outer level .operand (xs ++ rest) = read outer (level.join ⟨[], p⟩) .connective rest
  | _, _, .one h, outer, level, rest => read_operand h outer level rest
  | _, _, .and h hr, outer, level, rest => by
    rw [List.append_assoc, read_conjunction h]
    show read _ _ .operand (_ ++ rest) = _
    rw [read_operand hr, Disjunction.join_assoc]
    rfl

theorem read_disjunction : ∀ {xs : List Lexeme} {s : Disjunction}, IsDisjunction xs s →
    ∀ (outer : List Disjunction) (level : Disjunction) (rest : List Lexeme),
      read outer level .operand (xs ++ rest) = read outer (level.join s) .connective rest
  | _, _, .one h, outer, level, rest => read_conjunction h outer level rest
  | _, _, .or h hp, outer, level, rest => by
    rw [List.append_assoc, read_disjunction h]
    show read _ _ .operand (_ ++ rest) = _
    rw [read_conjunction hp, Disjunction.orElse_unit_join, Disjunction.join_orElse]

end

/-- What the grammar derives is read. -/
theorem parse_of_isDisjunction {text : String} {s : Disjunction}
    (h : IsDisjunction (lexemes text) s) : parse text = some s := by
  have hread := read_disjunction h [] .unit []
  rw [List.append_nil, Disjunction.unit_join] at hread
  exact hread

/-! ## Conditions put together -/

/-- An operand behind an `AND` joins the last conjunction. -/
theorem IsDisjunction.and : ∀ {xs ys : List Lexeme} {s : Disjunction} {r : Reading},
    IsDisjunction xs s → IsOperand ys r →
    IsDisjunction (xs ++ .word "AND" :: ys) (s.join (.single r))
  | _, _, _, _, .one h, hr => .one (.and h hr)
  | _, _, _, _, .or h hp, hr => by
    rw [List.append_assoc, List.cons_append, Disjunction.orElse_join]
    exact .or h (.and hp hr)

/-- A whole conjunction behind an `AND` joins the last one. -/
theorem IsDisjunction.joinConjunction : ∀ {xs ys : List Lexeme} {s : Disjunction}
    {p : List Reading}, IsDisjunction xs s → IsConjunction ys p →
    IsDisjunction (xs ++ .word "AND" :: ys) (s.join ⟨[], p⟩)
  | _, _, _, _, h, .one hr => h.and hr
  | _, _, s, _, h, .and (p := p) (r := r) hp hr => by
    have hjoin : s.join ⟨[], p ++ [r]⟩ = (s.join ⟨[], p⟩).join (.single r) :=
      (Disjunction.join_assoc s ⟨[], p⟩ (.single r)).symm
    rw [hjoin, ← List.cons_append, ← List.append_assoc]
    exact (h.joinConjunction hp).and hr

/-- A condition behind an `AND` begins in the last conjunction of what is before
it. -/
theorem IsDisjunction.join : ∀ {xs ys : List Lexeme} {s t : Disjunction},
    IsDisjunction xs s → IsDisjunction ys t →
    IsDisjunction (xs ++ .word "AND" :: ys) (s.join t)
  | _, _, _, _, h, .one hp => h.joinConjunction hp
  | _, _, _, _, h, .or ht hp => by
    rw [← Disjunction.join_orElse, ← List.cons_append, ← List.append_assoc]
    exact .or (h.join ht) hp

theorem IsDisjunction.orElse : ∀ {xs ys : List Lexeme} {s t : Disjunction},
    IsDisjunction xs s → IsDisjunction ys t →
    IsDisjunction (xs ++ .word "OR" :: ys) (s.orElse t)
  | _, _, _, _, h, .one hp => .or h hp
  | _, _, _, _, h, .or ht hp => by
    rw [← Disjunction.orElse_assoc, ← List.cons_append, ← List.append_assoc]
    exact .or (h.orElse ht) hp

/-! ## The grammar follows the reader -/

/-- What has been read on one level, before the lexeme that is expected. -/
inductive Begun : Disjunction → Expected → List Lexeme → Prop
  | start : Begun .unit .operand []
  | done {xs : List Lexeme} {s : Disjunction} (h : IsDisjunction xs s) : Begun s .connective xs
  | and {xs : List Lexeme} {s : Disjunction} (h : IsDisjunction xs s) :
    Begun s .operand (xs ++ [.word "AND"])
  | or {xs : List Lexeme} {s : Disjunction} (h : IsDisjunction xs s) :
    Begun (s.orElse .unit) .operand (xs ++ [.word "OR"])
  | key {xs : List Lexeme} {s : Disjunction} (h : Begun s .operand xs) (key : String) :
    Begun s (.operator key) (xs ++ [.word key])
  | operator {xs : List Lexeme} {s : Disjunction} (h : Begun s .operand xs) (key : String)
    {op : String} (hop : isOperator op = true) :
    Begun s (.literal key op) (xs ++ [.word key] ++ [.word op])

/-- What has been read on the levels around, up to the parenthesis that opened
the current one. -/
inductive Enclosing : List Disjunction → List Lexeme → Prop
  | none : Enclosing [] []
  | level {outer : List Disjunction} {o : Disjunction} {xs ys : List Lexeme}
    (h : Enclosing outer xs) (ho : Begun o .operand ys) :
    Enclosing (o :: outer) (xs ++ ys ++ [.opening])

/-- An operand where one is expected completes a condition. -/
theorem Begun.operand_read {level : Disjunction} {xs ys : List Lexeme} {r : Reading}
    (h : Begun level .operand xs) (hr : IsOperand ys r) :
    IsDisjunction (xs ++ ys) (level.join (.single r)) := by
  cases h with
  | start =>
    rw [List.nil_append, Disjunction.unit_join]
    exact .one (.one hr)
  | and h =>
    rw [List.append_assoc, List.singleton_append]
    exact h.and hr
  | or h =>
    rw [List.append_assoc, List.singleton_append, Disjunction.orElse_unit_join]
    exact .or h (.one hr)

/-- What is read is derived, together with all that was read before. -/
theorem isDisjunction_of_read {rest : List Lexeme} {outer : List Disjunction}
    {level s : Disjunction} {expected : Expected} {xs ys : List Lexeme}
    (houter : Enclosing outer xs) (hlevel : Begun level expected ys)
    (h : read outer level expected rest = some s) : IsDisjunction (xs ++ ys ++ rest) s := by
  induction rest generalizing outer level expected xs ys with
  | nil =>
    rw [read.eq_def] at h
    dsimp only at h
    split at h
    · -- the text ends where no parenthesis is open and no operand is missing
      cases houter
      cases hlevel with
      | done hdone =>
        rw [List.append_nil, List.nil_append]
        exact Option.some.inj h ▸ hdone
    · cases h
  | cons x rest ih =>
    have hassoc : xs ++ ys ++ x :: rest = xs ++ (ys ++ [x]) ++ rest := by simp
    rw [read.eq_def] at h
    dsimp only at h
    split at h
    · -- an opening parenthesis begins a level
      have hderived := ih (.level houter hlevel) .start h
      simpa using hderived
    · -- a key, an operator and a literal are taken in, one after the other
      next key =>
      rw [hassoc]
      exact ih houter (.key hlevel key) h
    · next key op =>
      rw [hassoc]
      split at h
      · next hop =>
        cases hlevel with
        | key hlevel => exact ih houter (.operator hlevel key hop) h
      · cases h
    · next key op literal =>
      rw [hassoc]
      cases hlevel with
      | operator hlevel _ hop =>
        have hatom := hlevel.operand_read (.atom key literal hop)
        refine ih houter (.done ?_) h
        simpa using hatom
    · -- behind an operand a word has to be a connective
      next w =>
      rw [hassoc]
      cases hlevel with
      | done hdone =>
        split at h
        · next hand => exact ih houter (hand ▸ .and hdone) h
        · split at h
          · next hor => exact ih houter (hor ▸ .or hdone) h
          · cases h
    · -- a closing parenthesis completes an operand of the level around
      cases houter with
      | none => cases h
      | level houter ho =>
        cases hlevel with
        | done hdone =>
          have hoperand := ho.operand_read (.group hdone)
          have hderived := ih houter (.done hoperand) h
          simpa using hderived
    · cases h

/-- **The reader and the grammar agree.** A text is read as the one disjunction
that the grammar derives, and not at all where the grammar derives none. So the
readings of conditions can be found by derivation, and refuted by evaluation. -/
theorem parse_eq_some_iff {text : String} {s : Disjunction} :
    parse text = some s ↔ IsDisjunction (lexemes text) s := by
  constructor
  · intro h
    exact isDisjunction_of_read .none .start h
  · exact parse_of_isDisjunction

end SqlBuilder.Precedence
