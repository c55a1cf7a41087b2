import SqlBuilder.Proofs.Agreement
import SqlBuilder.Proofs.Contents
import SqlBuilder.Proofs.LiteralForm
import SqlBuilder.Proofs.Precedence.Texts

/-!
# Conditions of filter trees

A filter is a tree of groups over comparisons. Its condition is the same tree
printed without parentheses, except those around the comparisons of a list of
values, and a database reads it with precedence.

* `Filter.IsCondition` — trees of groups over comparisons;
* `Filter.holds` — what such a tree means;
* `Filter.reading` — the disjunction that its condition is read as;
* `spells_compile` — the condition is indeed read so.
-/

namespace SqlBuilder

open Precedence

/-! ## Trees of groups over comparisons -/

/-- Operands of a field that make a comparison with a value, a pattern or one of
some values. -/
inductive Operand.IsComparison : Operand → Prop
  | value (v : Value) : Operand.IsComparison (.value v)
  | eq (v : Value) : Operand.IsComparison (.filter (.eq (.value v)))
  | oneOf (vs : List Value) (hne : vs ≠ []) : Operand.IsComparison (.filter (.eq (.list vs)))
  | compare (op : Comparison) (v : Value) :
    Operand.IsComparison (.filter (.compare op (.value v)))
  | like (p : Pattern) : Operand.IsComparison (.filter (.like p))

mutual

/-- Trees of non-empty groups over comparisons. -/
inductive Filter.IsCondition : Filter → Prop
  | field (key : String) {o : Operand} (h : o.IsComparison) : Filter.IsCondition (.field key o)
  | all {fs : List Filter} (hne : fs ≠ []) (h : Filter.AllConditions fs) :
    Filter.IsCondition (.all fs)
  | any {fs : List Filter} (hne : fs ≠ []) (h : Filter.AllConditions fs) :
    Filter.IsCondition (.any fs)

/-- Lists of such trees. -/
inductive Filter.AllConditions : List Filter → Prop
  | nil : Filter.AllConditions []
  | cons {f : Filter} {fs : List Filter} (h : f.IsCondition) (hrest : Filter.AllConditions fs) :
    Filter.AllConditions (f :: fs)

end

/-! ## What a tree means -/

namespace Encoder

variable (e : Encoder)

/-- The literal of a value. There is none for a value that cannot be encoded. -/
def literal (v : Value) : String := (e.encode v).toOption.getD ""

/-- The literal of a pattern. -/
def patternLiteral : Pattern → String
  | .value v => e.literal v
  | .regex source => e.literal (.text (Wildcard.ofRegex source))

/-- The comparisons of a field, one of which has to hold. -/
def comparisons (key : String) : Operand → List String
  | .value v => [atomText key "=" (e.literal v)]
  | .filter (.eq (.value v)) => [atomText key "=" (e.literal v)]
  | .filter (.eq (.list vs)) => vs.map fun v => atomText key "=" (e.literal v)
  | .filter (.compare op (.value v)) => [atomText key op.symbol (e.literal v)]
  | .filter (.like p) => [atomText key "LIKE" (e.patternLiteral p)]
  | _ => []

end Encoder

mutual

/-- Whether a tree holds when the comparisons have the truth values `truth`. -/
def Filter.holds (e : Encoder) (truth : String → Bool) : Filter → Bool
  | .field key operand => (e.comparisons key operand).any truth
  | .all filters => Filter.allHold e truth filters
  | .any filters => Filter.anyHolds e truth filters
  | _ => false
termination_by structural f => f

/-- Whether all trees of a group hold. -/
def Filter.allHold (e : Encoder) (truth : String → Bool) : List Filter → Bool
  | [] => true
  | f :: fs => f.holds e truth && Filter.allHold e truth fs
termination_by structural fs => fs

/-- Whether one of the trees of a group holds. -/
def Filter.anyHolds (e : Encoder) (truth : String → Bool) : List Filter → Bool
  | [] => false
  | f :: fs => f.holds e truth || Filter.anyHolds e truth fs
termination_by structural fs => fs

end

/-! ## What a database reads -/

/-- The disjunction that the condition of a field is read as: the comparison, or
a group of comparisons. -/
def Encoder.fieldReading (e : Encoder) (key : String) (operand : Operand) : Disjunction :=
  let s := Disjunction.orElseAll
    ((e.comparisons key operand).map fun text => .single (.atom text))
  match operand with
  | .filter (.eq (.list _)) => .single (.group s.earlier s.last)
  | _ => s

mutual

/-- The disjunction that the condition of a tree is read as. -/
def Filter.reading (e : Encoder) : Filter → Disjunction
  | .field key operand => e.fieldReading key operand
  | .all filters => .joinAll (Filter.readings e filters)
  | .any filters => .orElseAll (Filter.readings e filters)
  | _ => .unit
termination_by structural f => f

/-- The disjunctions that the conditions of the trees of a group are read as. -/
def Filter.readings (e : Encoder) : List Filter → List Disjunction
  | [] => []
  | f :: fs => f.reading e :: Filter.readings e fs
termination_by structural fs => fs

end

/-! ## The words of a comparison -/

theorem isWord_of_isLiteral {family : Family} {t : String} (h : IsLiteral family t) :
    IsWord t := by
  cases h with
  | quoted s =>
    refine ⟨by simp [Encoder.toList_quote], Encoder.isClosed_quote family s, fun c hc => ?_⟩
    rw [Encoder.shell_quote] at hc
    simp at hc
  | word hne hchars =>
    exact isWord_of_forall (p := isWordChar) ⟨rfl, rfl⟩ ⟨rfl, rfl, rfl⟩ hne hchars
  | negative ht hd hchars =>
    exact isWord_of_forall (p := isBareChar) ⟨rfl, rfl⟩ ⟨rfl, rfl, rfl⟩ (by simp [ht])
      (isBareChar_of_negative ht hd hchars)

theorem isWord_of_isFieldKey {key : String} (h : Filter.isFieldKey key = true) : IsWord key := by
  rw [Filter.isFieldKey, Bool.and_eq_true] at h
  obtain ⟨hne, hchars⟩ := Name.isSafe_iff.mp h.2
  exact isWord_of_forall (p := NameRule.allows .filterKey) ⟨rfl, rfl⟩ ⟨rfl, rfl, rfl⟩ hne hchars

/-- The characters of operators. -/
def isOperatorChar (c : Char) : Bool := c.isAlpha || c = '=' || c = '!' || c = '<' || c = '>'

theorem isWord_symbol (op : Comparison) : IsWord op.symbol := by
  refine isWord_of_forall (p := isOperatorChar) ⟨rfl, rfl⟩ ⟨rfl, rfl, rfl⟩ ?_ ?_
  · cases op <;> decide
  · cases op <;> exact List.all_eq_true.mp rfl

theorem isOperator_symbol (op : Comparison) : isOperator op.symbol = true := by
  cases op <;> rfl

theorem isWord_equals : IsWord "=" :=
  isWord_of_forall (p := isOperatorChar) ⟨rfl, rfl⟩ ⟨rfl, rfl, rfl⟩ (by decide)
    (List.all_eq_true.mp rfl)

theorem isWord_like : IsWord "LIKE" :=
  isWord_of_forall (p := isOperatorChar) ⟨rfl, rfl⟩ ⟨rfl, rfl, rfl⟩ (by decide)
    (List.all_eq_true.mp rfl)

/-! ## The text of a tree -/

namespace Encoder

variable {e : Encoder}

theorem literal_of_encode {v : Value} {t : String} (h : e.encode v = .ok t) : e.literal v = t := by
  rw [literal, h]
  rfl

/-- A comparison of a key with the literal of a checked value. -/
theorem spells_comparison (hs : e.schemas.IsPlain) {key op : String} (hkey : IsWord key)
    (hop : isOperator op = true) (hopWord : IsWord op) {v : Value} (hv : v.IsChecked) {t : String}
    (h : e.encode v = .ok t) :
    Spells (atomText key op t) (.single (.atom (atomText key op (e.literal v)))) := by
  rw [literal_of_encode h]
  exact spells_atom hkey hop hopWord (isWord_of_isLiteral (isLiteral_encode hs hv h))

/-- A pattern is the literal of a checked value behind its operator. -/
theorem encode_of_pattern {p : Pattern} (hp : ∀ v ∈ p.values, v.IsChecked) {t : String}
    (h : e.pattern p = .ok t) :
    ∃ v literal, v.IsChecked ∧ e.encode v = .ok literal ∧ t = "LIKE " ++ literal ∧
      e.patternLiteral p = e.literal v := by
  have hlike : ∀ v : Value, v.IsChecked → e.patternLiteral p = e.literal v →
      (do let literal ← e.encode v; return "LIKE " ++ literal) = .ok t →
      ∃ v literal, v.IsChecked ∧ e.encode v = .ok literal ∧ t = "LIKE " ++ literal ∧
        e.patternLiteral p = e.literal v := by
    intro v hv hsame h
    obtain ⟨literal, hliteral, ht⟩ := ok_of_bind h
    exact ⟨v, literal, hv, hliteral, (Except.ok.inj ht).symm, hsame⟩
  cases p with
  | regex source => exact hlike (.text (Wildcard.ofRegex source)) trivial rfl h
  | value v =>
    cases v with
    | text s => exact hlike (.text s) trivial rfl h
    | int n => exact hlike (.int n) trivial rfl h
    | float x => exact hlike (.float x) trivial rfl h
    | bool b => exact hlike (.bool b) trivial rfl h
    | null => cases h
    | instant m => cases h
    | wall m => cases h
    | column reference => cases h

/-- A key with an operator and a literal behind it, however they are
bracketed. -/
theorem atomText_eq (key op literal : String) :
    atomText key op literal = key ++ " " ++ (op ++ " " ++ literal) := by
  unfold atomText
  simp only [String.append_assoc]

/-- The condition of a field is one comparison, or a group of comparisons. -/
theorem spells_field (hs : e.schemas.IsPlain) {key : String} (hkey : IsWord key) {o : Operand}
    (ho : o.IsComparison) (hv : ∀ v ∈ o.values, v.IsChecked) {c : Compiled}
    (h : e.compileField key o = .ok c) :
    ∃ text, c = .clause text ∧ Spells text (e.fieldReading key o) := by
  cases ho with
  | value v =>
    obtain ⟨literal, hliteral, hc⟩ := ok_of_bind h
    refine ⟨_, (Except.ok.inj hc).symm, ?_⟩
    rw [between_eq key literal (show " = " = " " ++ "=" ++ " " from rfl)]
    exact spells_comparison hs hkey rfl isWord_equals (hv v List.mem_cons_self) hliteral
  | eq v =>
    obtain ⟨inner, hinner, hc⟩ := ok_of_bind h
    obtain ⟨literal, hliteral, hclause⟩ := ok_of_bind hinner
    obtain rfl := Except.ok.inj hclause
    refine ⟨_, (Except.ok.inj hc).symm, ?_⟩
    have hatom := spells_comparison hs hkey (show isOperator "=" = true from rfl) isWord_equals
      (hv v List.mem_cons_self) hliteral
    rw [atomText_eq] at hatom
    exact hatom
  | compare op v =>
    obtain ⟨inner, hinner, hc⟩ := ok_of_bind h
    obtain ⟨literal, hliteral, hclause⟩ := ok_of_bind hinner
    obtain rfl := Except.ok.inj hclause
    refine ⟨_, (Except.ok.inj hc).symm, ?_⟩
    have hatom := spells_comparison hs hkey (isOperator_symbol op) (isWord_symbol op)
      (hv v List.mem_cons_self) hliteral
    rw [atomText_eq] at hatom
    exact hatom
  | like p =>
    obtain ⟨inner, hinner, hc⟩ := ok_of_bind h
    obtain ⟨t, ht, hclause⟩ := ok_of_bind hinner
    obtain rfl := Except.ok.inj hclause
    refine ⟨_, (Except.ok.inj hc).symm, ?_⟩
    obtain ⟨v, literal, hchecked, hliteral, rfl, hsame⟩ := encode_of_pattern hv ht
    have hatom := spells_comparison hs hkey (show isOperator "LIKE" = true from rfl) isWord_like
      hchecked hliteral
    rw [atomText_eq, ← hsame] at hatom
    exact hatom
  | oneOf vs hne =>
    obtain ⟨inner, hinner, hc⟩ := ok_of_bind h
    obtain ⟨literals, hliterals, hclause⟩ := ok_of_bind hinner
    obtain rfl := Except.ok.inj hclause
    refine ⟨_, (Except.ok.inj hc).symm, Spells.parens ?_⟩
    -- one comparison for each value, in the order of the list
    have hforall := forall₂_of_mapM hliterals
    refine spells_orElseAll ?_ ?_
    · show List.Forall₂ Spells (literals.map (key ++ " = " ++ ·))
        ((vs.map fun v => atomText key "=" (e.literal v)).map fun text => .single (.atom text))
      rw [List.map_map, List.forall₂_map_left_iff, List.forall₂_map_right_iff]
      refine List.Forall₂.flip (List.forall₂_iff_zip.mpr ⟨hforall.length_eq, fun {v l} hmem => ?_⟩)
      have hliteral : e.encode v = .ok l := (List.forall₂_iff_zip.mp hforall).2 hmem
      show Spells (key ++ " = " ++ l) (.single (.atom (atomText key "=" (e.literal v))))
      rw [between_eq key l (show " = " = " " ++ "=" ++ " " from rfl)]
      exact spells_comparison hs hkey rfl isWord_equals (hv v (List.of_mem_zip hmem).1) hliteral
    · cases hforall with
      | nil => exact absurd rfl hne
      | cons _ _ => exact List.cons_ne_nil _ _

theorem texts_ne_nil {fs : List Filter} (hne : fs ≠ []) {texts : List String}
    (h : List.Forall₂ Spells texts (Filter.readings e fs)) : texts ≠ [] := by
  rintro rfl
  cases fs with
  | nil => exact hne rfl
  | cons f fs => cases h

mutual

/-- **What the condition of a tree is read as.** -/
theorem spells_compile (hs : e.schemas.IsPlain) : ∀ {f : Filter} {c : Compiled},
    f.IsCondition → (∀ v ∈ f.values, v.IsChecked) → e.compile f = .ok c →
    ∃ text, c = .clause text ∧ Spells text (f.reading e)
  | _, _, .field key ho, hv, h => by
    rw [Encoder.compile] at h
    split at h
    · next hkey => exact spells_field hs (isWord_of_isFieldKey hkey) ho hv h
    · cases h
  | _, _, .all hne hfs, hv, h => by
    rw [Encoder.compile] at h
    split at h
    · cases h
    · obtain ⟨clauses, hclauses, hc⟩ := ok_of_bind h
      have hspells := spells_compileClauses hs hfs hv hclauses
      refine ⟨_, (Except.ok.inj hc).symm, spells_joinAll hspells (texts_ne_nil hne hspells)⟩
  | _, _, .any hne hfs, hv, h => by
    rw [Encoder.compile] at h
    split at h
    · cases h
    · obtain ⟨clauses, hclauses, hc⟩ := ok_of_bind h
      have hspells := spells_compileClauses hs hfs hv hclauses
      refine ⟨_, (Except.ok.inj hc).symm, spells_orElseAll hspells (texts_ne_nil hne hspells)⟩

theorem spells_compileClauses (hs : e.schemas.IsPlain) : ∀ {fs : List Filter}
    {texts : List String}, Filter.AllConditions fs → (∀ v ∈ Filter.valuesOfAll fs, v.IsChecked) →
    e.compileClauses fs = .ok texts → List.Forall₂ Spells texts (Filter.readings e fs)
  | _, _, .nil, _, h => by
    obtain rfl := Except.ok.inj h
    exact .nil
  | _, _, .cons hf hfs, hv, h => by
    obtain ⟨compiled, hcompiled, hrest⟩ := ok_of_bind h
    obtain ⟨text, rfl, hspells⟩ := spells_compile hs hf
      (fun v hmem => hv v (List.mem_append_left _ hmem)) hcompiled
    obtain ⟨_, htext, hrest⟩ := ok_of_bind hrest
    obtain rfl := Except.ok.inj htext
    obtain ⟨texts, htexts, hcons⟩ := ok_of_bind hrest
    obtain rfl := Except.ok.inj hcons
    exact .cons hspells (spells_compileClauses hs hfs
      (fun v hmem => hv v (List.mem_append_right _ hmem)) htexts)

end

end Encoder

end SqlBuilder
