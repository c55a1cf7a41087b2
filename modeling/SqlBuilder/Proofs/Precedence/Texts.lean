import Mathlib.Data.List.Forall2
import SqlBuilder.Proofs.Precedence

/-!
# Texts of conditions

Texts that leave no quote open are read piece by piece: a comparison of words,
texts with a connective between them, a text between parentheses.

* `IsWord` — texts that are a single word;
* `Spells` — texts with their reading;
* `spells_atom`, `Spells.and`, `Spells.or`, `Spells.parens` — the pieces;
* `spells_joinAll`, `spells_orElseAll` — groups with one connective.
-/

namespace SqlBuilder.Precedence

open Quotation

/-! ## Words -/

/-- A text that is a single word wherever it stands between separators. -/
structure IsWord (t : String) : Prop where
  ne : t.toList ≠ []
  closed : IsClosed t.toList
  undivided : ∀ c, some c ∈ shell .outside t.toList → delimiter? c = none

theorem lexemes_word {t : String} (h : IsWord t) : lexemes t = [.word t] := by
  unfold lexemes
  rw [lex_word h.undivided, List.nil_append, wordOf, if_neg, String.ofList_toList]
  rw [List.isEmpty_iff]
  exact h.ne

/-- No separator is among characters that no separator is among. -/
theorem delimiter?_eq_none {p : Char → Bool} (hblank : p ' ' = false) (hopening : p '(' = false)
    (hclosing : p ')' = false) {c : Char} (h : p c = true) : delimiter? c = none := by
  unfold delimiter?
  split
  · exact Bool.noConfusion (hblank.symm.trans h)
  · exact Bool.noConfusion (hopening.symm.trans h)
  · exact Bool.noConfusion (hclosing.symm.trans h)
  · rfl

/-- A text of characters that are neither quotes nor separators is a word. -/
theorem isWord_of_forall {p : Char → Bool} (hquotes : p '\'' = false ∧ p '"' = false)
    (hseparators : p ' ' = false ∧ p '(' = false ∧ p ')' = false) {t : String}
    (hne : t.toList ≠ []) (h : ∀ c ∈ t.toList, p c = true) : IsWord t := by
  have hquotes : ∀ c ∈ t.toList, isQuote c = false := fun c hc =>
    isQuote_eq_false hquotes.1 hquotes.2 (h c hc)
  refine ⟨hne, isClosed_of_forall hquotes, fun c hc =>
    delimiter?_eq_none hseparators.1 hseparators.2.1 hseparators.2.2 (h c ?_)⟩
  rw [shell_of_forall hquotes, List.mem_map] at hc
  obtain ⟨d, hd, hdc⟩ := hc
  exact Option.some.inj hdc ▸ hd

/-- A word between blanks. -/
theorem lexemes_between {a w : String} (ha : IsClosed a.toList) (hw : IsWord w) (b : String) :
    lexemes (a ++ " " ++ w ++ " " ++ b) = lexemes a ++ .word w :: lexemes b := by
  have htoList : (a ++ " " ++ w ++ " " ++ b).toList
      = a.toList ++ ' ' :: (w.toList ++ ' ' :: b.toList) := by simp
  have hword := lexemes_word hw
  unfold lexemes at *
  -- both blanks stand outside quotes
  rw [htoList, lex_append ha rfl, lex_append hw.closed rfl, hword]
  simp

/-- A text that leaves no quote open and is derived as a disjunction. -/
structure Spells (text : String) (s : Disjunction) : Prop where
  closed : IsClosed text.toList
  derived : IsDisjunction (lexemes text) s

theorem Spells.parse {text : String} {s : Disjunction} (h : Spells text s) :
    parse text = some s :=
  parse_eq_some_iff.mpr h.derived

theorem isClosed_between {a w b : String} (ha : IsClosed a.toList) (hw : IsClosed w.toList)
    (hb : IsClosed b.toList) : IsClosed (a ++ " " ++ w ++ " " ++ b).toList := by
  have hblank : IsClosed " ".toList := by decide
  simp only [String.toList_append]
  exact (((ha.append hblank).append hw).append hblank).append hb

theorem spells_atom {key op literal : String} (hkey : IsWord key) (hop : isOperator op = true)
    (hopWord : IsWord op) (hliteral : IsWord literal) :
    Spells (atomText key op literal) (.single (.atom (atomText key op literal))) where
  closed := isClosed_between hkey.closed hopWord.closed hliteral.closed
  derived := by
    show IsDisjunction (lexemes (key ++ " " ++ op ++ " " ++ literal)) _
    rw [lexemes_between hkey.closed hopWord, lexemes_word hkey, lexemes_word hliteral]
    exact .one (.one (.atom key literal hop))

/-- Two texts with a connective between them, in any bracketing. -/
theorem between_eq (a b : String) {w separator : String} (h : separator = " " ++ w ++ " ") :
    a ++ separator ++ b = a ++ " " ++ w ++ " " ++ b := by
  rw [h]
  simp only [String.append_assoc]

theorem Spells.and {a b : String} {s t : Disjunction} (ha : Spells a s) (hb : Spells b t) :
    Spells (a ++ " AND " ++ b) (s.join t) := by
  have hword : IsWord "AND" :=
    isWord_of_forall (p := Char.isAlpha) ⟨rfl, rfl⟩ ⟨rfl, rfl, rfl⟩ (by decide)
      (List.all_eq_true.mp rfl)
  rw [between_eq a b (show " AND " = " " ++ "AND" ++ " " from rfl)]
  refine ⟨isClosed_between ha.closed hword.closed hb.closed, ?_⟩
  rw [lexemes_between ha.closed hword]
  exact ha.derived.join hb.derived

theorem Spells.or {a b : String} {s t : Disjunction} (ha : Spells a s) (hb : Spells b t) :
    Spells (a ++ " OR " ++ b) (s.orElse t) := by
  have hword : IsWord "OR" :=
    isWord_of_forall (p := Char.isAlpha) ⟨rfl, rfl⟩ ⟨rfl, rfl, rfl⟩ (by decide)
      (List.all_eq_true.mp rfl)
  rw [between_eq a b (show " OR " = " " ++ "OR" ++ " " from rfl)]
  refine ⟨isClosed_between ha.closed hword.closed hb.closed, ?_⟩
  rw [lexemes_between ha.closed hword]
  exact ha.derived.orElse hb.derived

theorem Spells.parens {a : String} {s : Disjunction} (ha : Spells a s) :
    Spells ("(" ++ a ++ ")") (.single (.group s.earlier s.last)) where
  closed := by
    simp only [String.toList_append]
    exact (IsClosed.append (by decide) ha.closed).append (by decide)
  derived := by
    have hlexemes : lexemes ("(" ++ a ++ ")") = .opening :: (lexemes a ++ [.closing]) := by
      have htoList : ("(" ++ a ++ ")").toList = '(' :: (a.toList ++ ')' :: []) := by simp
      unfold lexemes
      rw [htoList, lex_delimiter rfl, lex_append ha.closed rfl]
      simp [wordOf, lex]
    rw [hlexemes]
    exact .one (.one (.group ha.derived))

/-! ## Texts with one connective -/

/-- Disjunctions with `AND` between them. -/
def Disjunction.joinAll (ss : List Disjunction) : Disjunction := ss.foldr .join .unit

/-- Disjunctions with `OR` between them. -/
def Disjunction.orElseAll : List Disjunction → Disjunction
  | [] => .unit
  | [s] => s
  | s :: t :: ss => s.orElse (orElseAll (t :: ss))

theorem spells_joinAll {texts : List String} {ss : List Disjunction}
    (h : List.Forall₂ Spells texts ss) (hne : texts ≠ []) :
    Spells (" AND ".intercalate texts) (.joinAll ss) := by
  induction h with
  | nil => exact absurd rfl hne
  | @cons a s texts ss ha hrest ih =>
    cases hrest with
    | nil =>
      rw [String.intercalate_singleton]
      show Spells a (s.join .unit)
      rw [Disjunction.join_unit]
      exact ha
    | cons hb hrest =>
      rw [String.intercalate_cons_cons]
      exact ha.and (ih (List.cons_ne_nil _ _))

theorem spells_orElseAll {texts : List String} {ss : List Disjunction}
    (h : List.Forall₂ Spells texts ss) (hne : texts ≠ []) :
    Spells (" OR ".intercalate texts) (.orElseAll ss) := by
  induction h with
  | nil => exact absurd rfl hne
  | @cons a s texts ss ha hrest ih =>
    cases hrest with
    | nil =>
      rw [String.intercalate_singleton]
      exact ha
    | cons hb hrest =>
      rw [String.intercalate_cons_cons]
      exact ha.or (ih (List.cons_ne_nil _ _))

end SqlBuilder.Precedence
