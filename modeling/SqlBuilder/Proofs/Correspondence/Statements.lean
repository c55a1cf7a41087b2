import SqlBuilder.Proofs.Correspondence

/-!
# Corresponding statements

Statements whose slots hold corresponding texts have corresponding texts, and
what verbs and clauses put in the slots corresponds when their arguments do.

* `Statement.Corresponds` — slot by slot;
* `agree_text` — the texts of corresponding statements;
* `agree_writeRow`, `agree_createTable`, … — one rule for each verb.
-/

namespace SqlBuilder

/-- Pairs of corresponding texts. -/
def PairCorresponds (T : String → String → Prop) (p q : String × String) : Prop :=
  T p.1 q.1 ∧ T p.2 q.2

/-- Statements with one layout and corresponding texts in every slot. -/
structure Statement.Corresponds (T : String → String → Prop) (s t : Statement) : Prop where
  verb : s.verb = t.verb
  unique : s.unique = t.unique
  name_eq : s.name = t.name
  name : T s.name t.name
  target : T s.target t.target
  columns : List.Forall₂ T (s.columns.map Column.text) (t.columns.map Column.text)
  definitions : List.Forall₂ T s.definitions t.definitions
  values : List.Forall₂ (PairCorresponds T) s.values t.values
  view : Option.Rel T s.view t.view
  operands : Option.Rel (PairCorresponds T) s.operands t.operands
  tables : List.Forall₂ T s.tables t.tables
  join : Option.Rel (fun j k => List.Forall₂ T j.tables k.tables ∧ T j.condition k.condition)
    s.join t.join
  condition : Option.Rel T s.condition t.condition
  grouping : List.Forall₂ T s.grouping t.grouping
  sorting : Option.Rel (fun o p => List.Forall₂ T o.fields p.fields ∧ o.direction = p.direction)
    s.sorting t.sorting
  limit : s.limit = t.limit
  offset : s.offset = t.offset
  targets : List.Forall₂ T s.targets t.targets

namespace Correspondence

variable (K : Correspondence)

/-! ## Texts of corresponding statements -/

theorem text_commaList {xs ys : List String} (h : List.Forall₂ K.text xs ys) :
    K.text (Statement.commaList xs) (Statement.commaList ys) :=
  K.text_intercalate (by decide) h

theorem text_parenList {xs ys : List String} (h : List.Forall₂ K.text xs ys) :
    K.text (Statement.parenList xs) (Statement.parenList ys) :=
  K.text_parens (K.text_commaList h)

theorem text_after {word : String} (hword : word.toList.all isPlainChar = true) {a b : String}
    (h : K.text a b) : K.text (word ++ a) (word ++ b) :=
  K.text_append (K.text_plain hword) h

/-- A keyword with a text after it. -/
theorem text_keyword {word : String} (hword : word.toList.all isPlainChar = true) {a b : String}
    (h : K.text a b) : K.text (word ++ " " ++ a) (word ++ " " ++ b) :=
  K.text_append (K.text_append (K.text_plain hword) (K.text_plain (by decide))) h

/-- The parts of corresponding pairs that a function takes out correspond. -/
theorem forall₂_map_pairs {f : String × String → String} {ps qs : List (String × String)}
    (h : List.Forall₂ (PairCorresponds K.text) ps qs)
    (hf : ∀ p q, PairCorresponds K.text p q → K.text (f p) (f q)) :
    List.Forall₂ K.text (ps.map f) (qs.map f) := by
  rw [List.forall₂_map_left_iff, List.forall₂_map_right_iff]
  exact h.imp hf

theorem text_assignments {ps qs : List (String × String)}
    (h : List.Forall₂ (PairCorresponds K.text) ps qs) :
    K.text (Statement.assignments ps) (Statement.assignments qs) := by
  refine K.text_commaList (K.forall₂_map_pairs h fun p q hpq => ?_)
  exact K.text_append (K.text_append hpq.1 (K.text_plain (by decide))) hpq.2

theorem texts_listSlot {word : String} (hword : word.toList.all isPlainChar = true)
    {xs ys : List String} (h : List.Forall₂ K.text xs ys) :
    List.Forall₂ K.text (Statement.listSlot word xs) (Statement.listSlot word ys) := by
  unfold Statement.listSlot
  rw [isEmpty_eq_of_forall₂ h]
  split
  · exact .nil
  · exact .cons (K.text_keyword hword (K.text_commaList h)) .nil

theorem texts_optionSlot {word : String} (hword : word.toList.all isPlainChar = true)
    {a b : Option String} (h : Option.Rel K.text a b) :
    List.Forall₂ K.text (Statement.optionSlot word a) (Statement.optionSlot word b) := by
  cases h with
  | some h => exact .cons (K.text_keyword hword h) .nil
  | none => exact .nil

theorem text_join {j k : Join} (h : List.Forall₂ K.text j.tables k.tables ∧
    K.text j.condition k.condition) : K.text j.text k.text := by
  -- the opening parenthesis is written together with the word in front of it
  have hsplit : ∀ j : Join, j.text
      = Statement.commaList j.tables ++ " ON " ++ ("(" ++ j.condition ++ ")") := by
    intro j
    rw [Join.text, show " ON (" = " ON " ++ "(" from rfl]
    simp only [String.append_assoc]
  rw [hsplit, hsplit]
  exact K.text_append (K.text_append (K.text_commaList h.1) (K.text_plain (by decide)))
    (K.text_parens h.2)

theorem text_sorting {o p : Sorting}
    (h : List.Forall₂ K.text o.fields p.fields ∧ o.direction = p.direction) :
    K.text o.text p.text := by
  unfold Sorting.text
  rw [h.2]
  split
  · next d _ =>
    refine K.text_append (K.text_append (K.text_commaList h.1) (K.text_plain (by decide))) ?_
    exact K.text_plain (by cases d <;> decide)
  · exact K.text_commaList h.1

/-- A number in a slot stands for itself. -/
theorem texts_numberSlot {word : String} (hword : word.toList.all isPlainChar = true)
    (n : Option Nat) :
    List.Forall₂ K.text (Statement.optionSlot word (n.map toString))
      (Statement.optionSlot word (n.map toString)) := by
  cases n with
  | none => exact .nil
  | some n => exact K.texts_optionSlot hword (.some (K.text_nat n))

theorem texts_selectionSlots {s t : Statement} (h : s.Corresponds K.text t) :
    List.Forall₂ K.text s.selectionSlots t.selectionSlots := by
  have hjoin := optionRel_map h.join fun _ _ => K.text_join
  have hsorting := optionRel_map h.sorting fun _ _ => K.text_sorting
  unfold Statement.selectionSlots
  rw [h.limit, h.offset]
  -- slot by slot, from the last one to the first
  refine List.rel_append ?_ (K.texts_listSlot (by decide) h.targets)
  refine List.rel_append ?_ (K.texts_numberSlot (by decide) t.offset)
  refine List.rel_append ?_ (K.texts_numberSlot (by decide) t.limit)
  refine List.rel_append ?_ (K.texts_optionSlot (by decide) hsorting)
  refine List.rel_append ?_ (K.texts_listSlot (by decide) h.grouping)
  refine List.rel_append ?_ (K.texts_optionSlot (by decide) h.condition)
  exact List.rel_append (K.texts_listSlot (by decide) h.tables)
    (K.texts_optionSlot (by decide) hjoin)

theorem text_verb (verb : Verb) : K.text verb.keyword verb.keyword :=
  K.text_plain (by cases verb <;> decide)

/-- The selected columns, or the asterisk for all of them. -/
theorem text_selected_columns {cs ds : List Column}
    (h : List.Forall₂ K.text (cs.map Column.text) (ds.map Column.text)) :
    K.text (if cs.isEmpty then "*" else Statement.commaList (cs.map Column.text))
      (if ds.isEmpty then "*" else Statement.commaList (ds.map Column.text)) := by
  have hempty := isEmpty_eq_of_forall₂ h
  rw [List.isEmpty_map, List.isEmpty_map] at hempty
  rw [hempty]
  split
  · exact K.text_plain (by decide)
  · exact K.text_commaList h

theorem texts_selection {s t : Statement} (h : s.Corresponds K.text t) (verb : Verb) :
    List.Forall₂ K.text
      ([verb.keyword, if s.columns.isEmpty then "*"
        else Statement.commaList (s.columns.map Column.text)] ++ s.selectionSlots)
      ([verb.keyword, if t.columns.isEmpty then "*"
        else Statement.commaList (t.columns.map Column.text)] ++ t.selectionSlots) :=
  List.rel_append (.cons (K.text_verb verb) (.cons (K.text_selected_columns h.columns) .nil))
    (K.texts_selectionSlots h)

/-- The names and the literals of a row, each in parentheses. -/
theorem texts_row {s t : Statement} (h : s.Corresponds K.text t) (verb : Verb) :
    List.Forall₂ K.text
      [verb.keyword, s.name, Statement.parenList (s.values.map Prod.fst), "VALUES",
        Statement.parenList (s.values.map Prod.snd)]
      [verb.keyword, t.name, Statement.parenList (t.values.map Prod.fst), "VALUES",
        Statement.parenList (t.values.map Prod.snd)] := by
  have hnames := K.forall₂_map_pairs h.values fun _ _ hpq => hpq.1
  have hliterals := K.forall₂_map_pairs h.values fun _ _ hpq => hpq.2
  exact .cons (K.text_verb verb) (.cons h.name (.cons (K.text_parenList hnames)
    (.cons (K.text_plain (by decide)) (.cons (K.text_parenList hliterals) .nil))))

/-- The parts of corresponding statements correspond, whatever the verb. -/
theorem agree_parts {s t : Statement} (h : s.Corresponds K.text t) (verb : Verb) :
    Agree (List.Forall₂ K.text) (s.parts verb) (t.parts verb) := by
  have hwhere : List.Forall₂ K.text (Statement.optionSlot "WHERE" s.condition)
      (Statement.optionSlot "WHERE" t.condition) := K.texts_optionSlot (by decide) h.condition
  have hnamed : List.Forall₂ K.text [verb.keyword, s.name] [verb.keyword, t.name] :=
    .cons (K.text_verb verb) (.cons h.name .nil)
  -- an assignment list that is empty is left out on both sides
  have hempty := isEmpty_eq_of_forall₂ h.values
  cases verb with
  | createTable =>
    exact .ok (.cons (K.text_verb _) (.cons h.name (.cons (K.text_parenList h.definitions) .nil)))
  | createIndex =>
    refine .ok (.cons ?_ (.cons h.name (.cons ?_ .nil)))
    · rw [h.unique]
      split
      · exact K.text_plain (by decide)
      · exact K.text_verb _
    · refine K.text_append (K.text_append ?_ (K.text_plain (by decide)))
        (K.text_parenList h.columns)
      exact K.text_after (by decide) h.target
  | createView => exact .ok (List.rel_append hnamed (K.texts_optionSlot (by decide) h.view))
  | dropTable | dropIndex | dropView => exact .ok hnamed
  | select | selectDistinct | selectAll => exact .ok (K.texts_selection h _)
  | insert | replace => exact .ok (K.texts_row h _)
  | update =>
    refine .ok (List.rel_append (List.rel_append hnamed ?_) hwhere)
    rw [hempty]
    split
    · exact .nil
    · exact .cons (K.text_plain (by decide)) (.cons (K.text_assignments h.values) .nil)
  | delete => exact .ok (List.rel_append hnamed hwhere)
  | set =>
    refine .ok (.cons (K.text_verb _) ?_)
    rw [hempty]
    split
    · exact .nil
    · exact .cons (K.text_assignments h.values) .nil
  | union =>
    -- a union without operands has no text on either side
    have hoperands := h.operands
    unfold Statement.parts
    generalize s.operands = x at hoperands ⊢
    generalize t.operands = y at hoperands ⊢
    cases hoperands with
    | none => exact .error rfl
    | some hpq =>
      exact .ok (.cons (K.text_parens hpq.1) (.cons (K.text_verb _)
        (.cons (K.text_parens hpq.2) .nil)))

/-- **Corresponding statements have corresponding texts**, or both have
none. -/
theorem agree_text {s t : Statement} (h : s.Corresponds K.text t) :
    Agree K.text s.text t.text := by
  unfold Statement.text
  rw [h.verb]
  split
  · exact .error rfl
  · exact (K.agree_parts h _).bind fun _ _ hparts => .ok (K.text_intercalate (by decide) hparts)

end Correspondence

end SqlBuilder
