import SqlBuilder.Proofs.Conditions
import SqlBuilder.Proofs.Effects

/-!
# The grammar of conditions

A condition is a comparison of a key with a literal, two conditions with a
connective between them, or a condition in parentheses. The literals are those of
the values of the filter, each of them once and in their order, so that there are
as many comparisons in a condition as there are values in the filter. What a
filter becomes is put together from pieces of such texts: a key stands in front
of whatever its operand has become, and an operator in front of its operand, even
if that is a piece that cannot stand there. Which filters become conditions is
therefore a question of what stands where.

* `Filter.written` — the values of a filter as they are written;
* `IsCond` — the grammar;
* `Filter.isPlaced` — operators stand behind a key, fields where a condition
  begins, and operators are applied to values;
* `fits_compile` — such filters become conditions, or pieces that are conditions
  behind a key;
* `Filter.hasEmptyGroup`, `hasEmptyGroup_compile` — empty groups are refused, at
  any depth;
* `grammatical_of_accepted` — the filters of calls;
* `pieces_accepted` — filters with something out of place, accepted all the same.

Something out of place can still give a condition: a key may be called `AND`,
and then a misplaced field reads as a connective.
-/

namespace SqlBuilder

open Precedence

/-- The value of a pattern as it is written: a regular expression is written as the
text with wildcards that it is translated to. -/
def Pattern.written : Pattern → Value
  | .value v => v
  | .regex source => .text (Wildcard.ofRegex source)

mutual

/-- The values of a filter as they are written, in their order. -/
def Filter.written : Filter → List Value
  | .field _ operand => operand.written
  | .eq operand => operand.written
  | .compare _ operand => operand.written
  | .all filters => Filter.writtenOfAll filters
  | .any filters => Filter.writtenOfAll filters
  | .like pattern => [pattern.written]
termination_by structural f => f

/-- The values of an operand as they are written. -/
def Operand.written : Operand → List Value
  | .value v => [v]
  | .list vs => vs
  | .filter f => f.written
termination_by structural o => o

/-- The values of the filters of a group as they are written. -/
def Filter.writtenOfAll : List Filter → List Value
  | [] => []
  | f :: fs => f.written ++ Filter.writtenOfAll fs
termination_by structural fs => fs

end

theorem Filter.writtenOfAll_eq (fs : List Filter) :
    Filter.writtenOfAll fs = (fs.map Filter.written).flatten := by
  induction fs with
  | nil => rfl
  | cons f fs ih => rw [Filter.writtenOfAll, ih, List.map_cons, List.flatten_cons]

/-- The texts of conditions with the literals of some values, each value once and
in the order of the list. -/
inductive IsCond (e : Encoder) : List Value → String → Prop
  | atom {key op literal : String} {v : Value} (hkey : Filter.isFieldKey key = true)
    (hop : isOperator op = true) (hliteral : e.encode v = .ok literal) :
    IsCond e [v] (key ++ " " ++ op ++ " " ++ literal)
  | and {us vs : List Value} {a b : String} (ha : IsCond e us a) (hb : IsCond e vs b) :
    IsCond e (us ++ vs) (a ++ " AND " ++ b)
  | or {us vs : List Value} {a b : String} (ha : IsCond e us a) (hb : IsCond e vs b) :
    IsCond e (us ++ vs) (a ++ " OR " ++ b)
  | parens {vs : List Value} {a : String} (ha : IsCond e vs a) : IsCond e vs ("(" ++ a ++ ")")

/-- Every condition has a comparison in it. -/
theorem IsCond.ne_nil {e : Encoder} {vs : List Value} {t : String} (h : IsCond e vs t) :
    vs ≠ [] := by
  induction h with
  | atom => exact List.cons_ne_nil _ _
  | and _ _ ih _ | or _ _ ih _ => exact List.append_ne_nil_of_left_ne_nil ih _
  | parens _ ih => exact ih

/-! ## Filters with everything in its place -/

/-- Where a filter stands. -/
inductive Place where
  /-- Where a condition begins. -/
  | first
  /-- Right behind the key of a field. -/
  | behindKey
  deriving DecidableEq, Repr

mutual

/-- Whether a filter and everything in it is where it makes sense. A group is
where its first member is, and the others begin conditions of their own. -/
def Filter.isPlaced : Place → Filter → Bool
  | .first, .field _ operand => operand.isPlaced
  | .behindKey, .eq (.value _) => true
  | .behindKey, .eq (.list vs) => !vs.isEmpty
  | .behindKey, .compare _ (.value _) => true
  | .behindKey, .like _ => true
  | place, .all filters => Filter.arePlaced place filters
  | place, .any filters => Filter.arePlaced place filters
  | _, _ => false
termination_by structural _ f => f

/-- Whether the operand of a field makes sense there. -/
def Operand.isPlaced : Operand → Bool
  | .value _ => true
  | .list _ => false
  | .filter f => f.isPlaced .behindKey
termination_by structural o => o

/-- Whether the members of a group are where they make sense. -/
def Filter.arePlaced : Place → List Filter → Bool
  | _, [] => true
  | place, f :: fs => f.isPlaced place && Filter.arePlaced .first fs
termination_by structural _ fs => fs

end

mutual

/-- Whether a filter is a group without members or has one in it. -/
def Filter.hasEmptyGroup : Filter → Bool
  | .field _ operand => operand.hasEmptyGroup
  | .eq operand => operand.hasEmptyGroup
  | .compare _ operand => operand.hasEmptyGroup
  | .all filters => filters.isEmpty || Filter.haveEmptyGroup filters
  | .any filters => filters.isEmpty || Filter.haveEmptyGroup filters
  | .like _ => false
termination_by structural f => f

/-- Whether an operand has an empty group in it. -/
def Operand.hasEmptyGroup : Operand → Bool
  | .value _ => false
  | .list _ => false
  | .filter f => f.hasEmptyGroup
termination_by structural o => o

/-- Whether one of some filters has an empty group in it. -/
def Filter.haveEmptyGroup : List Filter → Bool
  | [] => false
  | f :: fs => f.hasEmptyGroup || Filter.haveEmptyGroup fs
termination_by structural fs => fs

end

namespace Encoder

variable {e : Encoder}

/-! ## Pieces of conditions -/

/-- What stands at a place is a condition there, or behind every key. -/
def Fits (e : Encoder) (place : Place) (vs : List Value) (c : Compiled) : Prop :=
  match place with
  | .first => ∃ t, c = .clause t ∧ IsCond e vs t
  | .behindKey => ∀ key, Filter.isFieldKey key = true → IsCond e vs (fieldClause key c)

/-- An operator with a literal fits behind a key. -/
theorem fits_operator {op literal : String} {v : Value} (hop : isOperator op = true)
    (hliteral : e.encode v = .ok literal) :
    Fits e .behindKey [v] (.clause (op ++ " " ++ literal)) := by
  intro key hkey
  show IsCond e [v] (key ++ " " ++ (op ++ " " ++ literal))
  rw [← atomText_eq]
  exact .atom hkey hop hliteral

/-- The equality of a key with a literal. -/
theorem isCond_equality {key literal : String} {v : Value} (hkey : Filter.isFieldKey key = true)
    (hliteral : e.encode v = .ok literal) : IsCond e [v] (key ++ " = " ++ literal) := by
  rw [between_eq key literal (show " = " = " " ++ "=" ++ " " from rfl)]
  exact .atom hkey rfl hliteral

section Groups

variable {separator : String}
  (hseparator : ∀ {us vs : List Value} {a b : String}, IsCond e us a → IsCond e vs b →
    IsCond e (us ++ vs) (a ++ separator ++ b))

include hseparator

/-- Whatever two conditions can have between them, more of them can. -/
theorem isCond_intercalate {vss : List (List Value)} {texts : List String}
    (h : List.Forall₂ (IsCond e) vss texts) (hne : texts ≠ []) :
    IsCond e vss.flatten (separator.intercalate texts) := by
  induction h with
  | nil => exact absurd rfl hne
  | @cons vs t vss texts ht htexts ih =>
    rw [List.flatten_cons]
    cases htexts with
    | nil =>
      rw [String.intercalate_singleton, List.flatten_nil, List.append_nil]
      exact ht
    | cons hs hrest =>
      rw [String.intercalate_cons_cons]
      exact hseparator ht (ih (List.cons_ne_nil _ _))

end Groups

/-- The first of some texts fits the place, and the others are conditions. -/
def FitTogether (e : Encoder) (place : Place) : List (List Value) → List String → Prop
  | vs :: vss, t :: texts => Fits e place vs (.clause t) ∧ List.Forall₂ (IsCond e) vss texts
  | [], [] => True
  | _, _ => False

/-- Where a condition begins, all members of a group are conditions. -/
theorem isCond_of_fitTogether {vss : List (List Value)} {texts : List String}
    (h : FitTogether e .first vss texts) : List.Forall₂ (IsCond e) vss texts := by
  match vss, texts, h with
  | [], [], _ => exact .nil
  | vs :: vss, t :: texts, ⟨⟨_, ht, hcond⟩, hrest⟩ =>
    obtain rfl := Compiled.clause.inj ht
    exact .cons hcond hrest

/-- A group fits where its first member does. -/
theorem fits_intercalate {separator : String}
    (hseparator : ∀ {us vs : List Value} {a b : String}, IsCond e us a → IsCond e vs b →
      IsCond e (us ++ vs) (a ++ separator ++ b))
    {place : Place} {vss : List (List Value)} {texts : List String}
    (h : FitTogether e place vss texts) (hne : texts ≠ []) :
    Fits e place vss.flatten (.clause (separator.intercalate texts)) := by
  cases place with
  | first => exact ⟨_, rfl, isCond_intercalate hseparator (isCond_of_fitTogether h) hne⟩
  | behindKey =>
    intro key hkey
    match vss, texts, h with
    | [], [], _ => exact absurd rfl hne
    | vs :: vss, t :: texts, ⟨ht, hrest⟩ =>
      -- the key goes to the first member
      have hall : List.Forall₂ (IsCond e) (vs :: vss) ((key ++ " " ++ t) :: texts) :=
        .cons (ht key hkey) hrest
      have hcond := isCond_intercalate hseparator hall (List.cons_ne_nil _ _)
      show IsCond e _ (key ++ " " ++ separator.intercalate (t :: texts))
      cases texts with
      | nil => simpa only [String.intercalate_singleton] using hcond
      | cons s texts =>
        simpa only [String.intercalate_cons_cons, String.append_assoc] using hcond

theorem clauses_ne_nil {fs : List Filter} {texts : List String}
    (h : e.compileClauses fs = .ok texts) (hne : fs.isEmpty ≠ true) : texts ≠ [] := by
  cases fs with
  | nil => exact absurd rfl hne
  | cons f fs =>
    obtain ⟨_, -, hrest⟩ := ok_of_bind h
    obtain ⟨_, -, hrest⟩ := ok_of_bind hrest
    obtain ⟨_, -, htexts⟩ := ok_of_bind hrest
    rw [← Except.ok.inj htexts]
    exact List.cons_ne_nil _ _

/-- A key with some values is a group of equalities. -/
theorem fits_values {vs : List Value} (hne : vs ≠ []) {literals : List String}
    (h : e.encodeAll vs = .ok literals) : Fits e .behindKey vs (.values literals) := by
  intro key hkey
  have hliterals := forall₂_of_mapM h
  have hequalities : List.Forall₂ (IsCond e) (vs.map fun v => [v])
      (literals.map (key ++ " = " ++ ·)) := by
    rw [List.forall₂_map_left_iff, List.forall₂_map_right_iff]
    exact hliterals.imp fun _ _ hliteral => isCond_equality hkey hliteral
  have hsome : literals.map (key ++ " = " ++ ·) ≠ [] := by
    simpa using ne_nil_of_forall₂ hliterals hne
  have hgroup : IsCond e _ (" OR ".intercalate (literals.map (key ++ " = " ++ ·))) :=
    isCond_intercalate .or hequalities hsome
  rw [← List.flatMap_def, List.flatMap_singleton'] at hgroup
  exact .parens hgroup

/-- A pattern is an operator with a literal. -/
theorem fits_pattern {p : Pattern} {t : String} (h : e.pattern p = .ok t) :
    Fits e .behindKey [p.written] (.clause t) := by
  have hlike : ∀ v : Value, (do let literal ← e.encode v; return "LIKE " ++ literal) = .ok t →
      Fits e .behindKey [v] (.clause t) := by
    intro v hv
    obtain ⟨literal, hliteral, ht⟩ := ok_of_bind hv
    obtain rfl := Except.ok.inj ht
    have hop : isOperator "LIKE" = true := rfl
    exact fits_operator hop hliteral
  cases p with
  | regex source => exact hlike _ h
  | value v => cases v <;> first | exact hlike _ h | cases h

/-! ## What placed filters become -/

mutual

/-- **A placed filter becomes something that fits its place.** -/
theorem fits_compile : ∀ {f : Filter} {place : Place} {c : Compiled}, f.isPlaced place = true →
    e.compile f = .ok c → Fits e place f.written c
  | .field key operand, .first, c, hplaced, h => by
    rw [compile] at h
    by_cases hkey : Filter.isFieldKey key = true
    · rw [if_pos hkey] at h
      exact fits_compileField hkey hplaced h
    · rw [if_neg hkey] at h
      cases h
  | .eq (.value v), .behindKey, c, _, h => by
    obtain ⟨literal, hliteral, hc⟩ := ok_of_bind h
    obtain rfl := Except.ok.inj hc
    have hop : isOperator "=" = true := rfl
    exact fits_operator hop hliteral
  | .eq (.list vs), .behindKey, c, hplaced, h => by
    obtain ⟨literals, hliterals, hc⟩ := ok_of_bind h
    obtain rfl := Except.ok.inj hc
    have hne : vs ≠ [] := by simpa [Filter.isPlaced] using hplaced
    exact fits_values hne hliterals
  | .compare op (.value v), .behindKey, c, _, h => by
    obtain ⟨literal, hliteral, hc⟩ := ok_of_bind h
    obtain rfl := Except.ok.inj hc
    exact fits_operator (isOperator_symbol op) hliteral
  | .like p, .behindKey, c, _, h => by
    obtain ⟨t, ht, hc⟩ := ok_of_bind h
    obtain rfl := Except.ok.inj hc
    exact fits_pattern ht
  | .all fs, place, c, hplaced, h => by
    rw [compile] at h
    -- an empty group is refused before anything else
    by_cases hempty : fs.isEmpty = true
    · rw [if_pos hempty] at h
      cases h
    · rw [if_neg hempty] at h
      obtain ⟨texts, htexts, hc⟩ := ok_of_bind h
      obtain rfl := Except.ok.inj hc
      have hmembers : Filter.arePlaced place fs = true := by cases place <;> exact hplaced
      have htogether := fits_compileClauses hmembers htexts
      rw [Filter.written, Filter.writtenOfAll_eq]
      exact fits_intercalate .and htogether (clauses_ne_nil htexts hempty)
  | .any fs, place, c, hplaced, h => by
    rw [compile] at h
    by_cases hempty : fs.isEmpty = true
    · rw [if_pos hempty] at h
      cases h
    · rw [if_neg hempty] at h
      obtain ⟨texts, htexts, hc⟩ := ok_of_bind h
      obtain rfl := Except.ok.inj hc
      have hmembers : Filter.arePlaced place fs = true := by cases place <;> exact hplaced
      have htogether := fits_compileClauses hmembers htexts
      rw [Filter.written, Filter.writtenOfAll_eq]
      exact fits_intercalate .or htogether (clauses_ne_nil htexts hempty)

theorem fits_compileField {key : String} (hkey : Filter.isFieldKey key = true) :
    ∀ {o : Operand} {c : Compiled}, o.isPlaced = true → e.compileField key o = .ok c →
      Fits e .first o.written c
  | .value v, c, _, h => by
    obtain ⟨literal, hliteral, hc⟩ := ok_of_bind h
    exact ⟨_, (Except.ok.inj hc).symm, isCond_equality hkey hliteral⟩
  | .filter f, c, hplaced, h => by
    obtain ⟨inner, hinner, hc⟩ := ok_of_bind h
    exact ⟨_, (Except.ok.inj hc).symm, fits_compile hplaced hinner key hkey⟩

theorem fits_compileClauses : ∀ {fs : List Filter} {place : Place} {texts : List String},
    Filter.arePlaced place fs = true → e.compileClauses fs = .ok texts →
      FitTogether e place (fs.map Filter.written) texts
  | [], place, texts, _, h => by
    obtain rfl := Except.ok.inj h
    trivial
  | f :: fs, place, texts, hplaced, h => by
    rw [Filter.arePlaced, Bool.and_eq_true] at hplaced
    obtain ⟨compiled, hcompiled, hrest⟩ := ok_of_bind h
    obtain ⟨t, ht, hrest⟩ := ok_of_bind hrest
    obtain ⟨rest, hclauses, htexts⟩ := ok_of_bind hrest
    obtain rfl := Except.ok.inj htexts
    have hfirst : Fits e place f.written compiled := fits_compile hplaced.1 hcompiled
    have hothers : FitTogether e .first (fs.map Filter.written) rest :=
      fits_compileClauses hplaced.2 hclauses
    -- a bare list of values is no member of a group
    cases compiled with
    | values literals => cases ht
    | clause _ =>
      obtain rfl := Except.ok.inj ht
      exact ⟨hfirst, isCond_of_fitTogether hothers⟩

end

/-! ## Empty groups -/

mutual

/-- No filter with an empty group in it becomes anything. -/
theorem hasEmptyGroup_compile : ∀ {f : Filter} {c : Compiled}, e.compile f = .ok c →
    f.hasEmptyGroup = false
  | .field key o, c, h => by
    rw [compile] at h
    by_cases hkey : Filter.isFieldKey key = true
    · rw [if_pos hkey] at h
      exact hasEmptyGroup_compileField h
    · rw [if_neg hkey] at h
      cases h
  | .eq (.value v), _, _ => rfl
  | .eq (.list vs), _, _ => rfl
  | .eq (.filter f), _, h => by cases h
  | .compare op (.value v), _, _ => rfl
  | .compare op (.list vs), _, h => by cases h
  | .compare op (.filter f), c, h => by
    obtain ⟨inner, hinner, -⟩ := ok_of_bind h
    have hinside : f.hasEmptyGroup = false := hasEmptyGroup_compile hinner
    exact hinside
  | .all fs, c, h => by
    rw [compile] at h
    by_cases hempty : fs.isEmpty = true
    · rw [if_pos hempty] at h
      cases h
    · rw [if_neg hempty] at h
      obtain ⟨texts, htexts, -⟩ := ok_of_bind h
      rw [Filter.hasEmptyGroup, haveEmptyGroup_compileClauses htexts, Bool.or_false]
      exact Bool.of_not_eq_true hempty
  | .any fs, c, h => by
    rw [compile] at h
    by_cases hempty : fs.isEmpty = true
    · rw [if_pos hempty] at h
      cases h
    · rw [if_neg hempty] at h
      obtain ⟨texts, htexts, -⟩ := ok_of_bind h
      rw [Filter.hasEmptyGroup, haveEmptyGroup_compileClauses htexts, Bool.or_false]
      exact Bool.of_not_eq_true hempty
  | .like p, _, _ => rfl

theorem hasEmptyGroup_compileField {key : String} : ∀ {o : Operand} {c : Compiled},
    e.compileField key o = .ok c → o.hasEmptyGroup = false
  | .value v, _, _ => rfl
  | .list vs, _, _ => rfl
  | .filter f, c, h => by
    obtain ⟨inner, hinner, -⟩ := ok_of_bind h
    exact hasEmptyGroup_compile hinner

theorem haveEmptyGroup_compileClauses : ∀ {fs : List Filter} {texts : List String},
    e.compileClauses fs = .ok texts → Filter.haveEmptyGroup fs = false
  | [], _, _ => rfl
  | f :: fs, texts, h => by
    obtain ⟨compiled, hcompiled, hrest⟩ := ok_of_bind h
    obtain ⟨t, -, hrest⟩ := ok_of_bind hrest
    obtain ⟨rest, hclauses, -⟩ := ok_of_bind hrest
    rw [Filter.haveEmptyGroup, hasEmptyGroup_compile hcompiled,
      haveEmptyGroup_compileClauses hclauses]
    rfl

end

/-- A filter with a condition has no empty group, and placed filters have
conditions of the grammar. -/
theorem isCond_condition {f : Filter} {t : String} (h : e.condition f = .ok t) :
    f.hasEmptyGroup = false ∧ (f.isPlaced .first = true → IsCond e f.written t) := by
  obtain ⟨compiled, hcompiled, hclause⟩ := ok_of_bind h
  refine ⟨hasEmptyGroup_compile hcompiled, fun hplaced => ?_⟩
  obtain ⟨t', rfl, hcond⟩ := fits_compile hplaced hcompiled
  obtain rfl := Except.ok.inj hclause
  exact hcond

end Encoder

/-! ## The filters of calls -/

namespace Builder

variable {b after : Builder}

/-- An accepted clause has made its change. -/
theorem fills_of_accepted (hb : b.settings.dialect.PagesOnly) {c : ClauseCall}
    (h : b.perform (.clause c) = (after, .ok ())) :
    ∃ change, b.settings.Fills c change ∧ after.statement = change b.statement := by
  have heffect := effect_of_accepted hb (congrArg Prod.snd h)
  rw [h] at heffect
  cases heffect with
  | clause hfills => exact ⟨_, hfills, rfl⟩

/-- **Accepted conditions are grammatical**, if everything in their filters is
in its place: a comparison for each value of the filter, with its literal, and
connectives and parentheses. And no filter with an empty group in it, to any
depth, is accepted. This goes for the conditions on rows, the conditions of joins
and the conditions in parentheses. -/
theorem grammatical_of_accepted {b : Builder} (hb : b.settings.dialect.PagesOnly) (f : Filter) :
    (∀ after, b.perform (.clause (.filterBy f)) = (after, .ok ()) →
      f.hasEmptyGroup = false ∧ ∃ t, after.statement.condition = some t ∧
        (f.isPlaced .first = true → IsCond b.encoder f.written t)) ∧
    (∀ tables after, b.perform (.clause (.join tables f)) = (after, .ok ()) →
      f.hasEmptyGroup = false ∧ ∃ t, after.statement.join = some ⟨tables, t⟩ ∧
        (f.isPlaced .first = true → IsCond b.encoder f.written t)) ∧
    (∀ t, b.encoder.parenthesized f = .ok t →
      f.hasEmptyGroup = false ∧ (f.isPlaced .first = true → IsCond b.encoder f.written t)) := by
  refine ⟨fun after h => ?_, fun tables after h => ?_, fun t h => ?_⟩
  · obtain ⟨change, hfills, hafter⟩ := fills_of_accepted hb h
    cases hfills with
    | @filterBy _ t ht =>
      obtain ⟨hgroups, hcond⟩ := Encoder.isCond_condition ht
      exact ⟨hgroups, t, by rw [hafter], hcond⟩
  · obtain ⟨change, hfills, hafter⟩ := fills_of_accepted hb h
    cases hfills with
    | @join _ _ t _ _ ht =>
      obtain ⟨hgroups, hcond⟩ := Encoder.isCond_condition ht
      exact ⟨hgroups, t, by rw [hafter], hcond⟩
  · obtain ⟨clause, hclause, ht⟩ := ok_of_bind h
    obtain rfl := Except.ok.inj ht
    obtain ⟨hgroups, hcond⟩ := Encoder.isCond_condition hclause
    exact ⟨hgroups, fun hplaced => .parens (hcond hplaced)⟩

/-- Nested groups, the first of them behind a key, under three calls. -/
theorem grammatical_of_accepted_nested :
    let f : Filter := .all
      [.field "a" (.filter (.any [.compare .gt (.value (.int 1)), .field "b" (.value .null)])),
        .field "c" (.filter (.eq (.list [.text "x", .bool true]))),
        .field "d" (.filter (.like (.regex "^y")))]
    let text := "a > 1 OR b = NULL AND (c = \"x\" OR c = true) AND d LIKE \"y%\""
    let b := Builder.ofDialect .mysql55 .universal
    (b.perform (.clause (.filterBy f))).2 = .ok () ∧
      (b.perform (.clause (.filterBy f))).1.statement.condition = some text ∧
      (b.perform (.clause (.join ["t"] f))).2 = .ok () ∧
      b.encoder.parenthesized f = .ok ("(" ++ text ++ ")") ∧
      f.hasEmptyGroup = false ∧
      f.written = [.int 1, .null, .text "x", .bool true, .text "y%"] ∧
      IsCond b.encoder f.written text ∧ IsCond b.encoder f.written ("(" ++ text ++ ")") := by
  intro f text b
  have hb : b.settings.dialect.PagesOnly := Dialect.pagesOnly_mysql55
  have hplaced : f.isPlaced .first = true := by decide +kernel
  have haccepted : b.perform (.clause (.filterBy f))
      = ({ b with statement := { b.statement with condition := some text } }, .ok ()) := rfl
  have hparens : b.encoder.parenthesized f = .ok ("(" ++ text ++ ")") := rfl
  obtain ⟨hwhere, -, hp⟩ := grammatical_of_accepted hb f
  obtain ⟨hgroups, t, ht, hcond⟩ := hwhere _ haccepted
  obtain rfl : text = t := Option.some.inj ht
  have hwritten : f.written = [.int 1, .null, .text "x", .bool true, .text "y%"] := by
    decide +kernel
  exact ⟨rfl, rfl, rfl, hparens, hgroups, hwritten, hcond hplaced, (hp _ hparens).2 hplaced⟩

end Builder

/-! ## Pieces that are accepted -/

/-- What stands behind the key, the operator and the blanks of a comparison. -/
def behindOperator? (cs : List Char) : Option (List Char) :=
  match cs.span (NameRule.allows .filterKey) with
  | (_, ' ' :: rest) =>
    match rest.span (· ≠ ' ') with
    | (op, ' ' :: literal) => if isOperator (String.ofList op) then some literal else none
    | _ => none
  | _ => none

/-- There is no blank in an operator. -/
theorem ne_blank_of_isOperator {op : String} (h : isOperator op = true) :
    ∀ c ∈ op.toList, decide (c ≠ ' ') = true := by
  have hmem : op ∈ ["=", "!=", ">", ">=", "<", "<=", "LIKE"] := List.contains_iff_mem.mp h
  simp only [List.mem_cons, List.not_mem_nil, or_false] at hmem
  rcases hmem with rfl | rfl | rfl | rfl | rfl | rfl | rfl <;> exact List.all_eq_true.mp rfl

theorem behindOperator?_atom {key op literal : String} (hkey : Filter.isFieldKey key = true)
    (hop : isOperator op = true) :
    behindOperator? (key ++ " " ++ op ++ " " ++ literal).toList = some literal.toList := by
  rw [Filter.isFieldKey, Bool.and_eq_true] at hkey
  obtain ⟨-, hchars⟩ := Name.isSafe_iff.mp hkey.2
  have hlist : (key ++ " " ++ op ++ " " ++ literal).toList
      = key.toList ++ ' ' :: (op.toList ++ ' ' :: literal.toList) := by simp
  have hspan : (key.toList ++ ' ' :: (op.toList ++ ' ' :: literal.toList)).span
      (NameRule.allows .filterKey) = (key.toList, ' ' :: (op.toList ++ ' ' :: literal.toList)) := by
    rw [List.span_eq_takeWhile_dropWhile, List.takeWhile_append_of_pos hchars,
      List.dropWhile_append_of_pos hchars]
    simp [NameRule.allows, NameRule.filterKey]
  have hword : (op.toList ++ ' ' :: literal.toList).span (· ≠ ' ')
      = (op.toList, ' ' :: literal.toList) := by
    rw [List.span_eq_takeWhile_dropWhile, List.takeWhile_append_of_pos (ne_blank_of_isOperator hop),
      List.dropWhile_append_of_pos (ne_blank_of_isOperator hop)]
    simp
  simp only [hlist, behindOperator?, hspan, hword, String.ofList_toList, if_pos hop]

/-- A condition with one value and no parenthesis in front is one comparison. -/
theorem IsCond.behindOperator?_eq {e : Encoder} {v : Value} {t : String} (h : IsCond e [v] t)
    (hopen : t.toList.head? ≠ some '(') :
    ∃ literal, e.encode v = .ok literal ∧ behindOperator? t.toList = some literal.toList := by
  generalize hvs : [v] = vs at h
  cases h with
  | atom hkey hop hliteral =>
    obtain rfl := List.singleton_injective hvs
    exact ⟨_, hliteral, behindOperator?_atom hkey hop⟩
  | and ha hb | or ha hb =>
    -- two conditions have a value each
    have hus := List.length_pos_iff.mpr ha.ne_nil
    have hvs' := List.length_pos_iff.mpr hb.ne_nil
    have hlength := congrArg List.length hvs
    rw [List.length_singleton, List.length_append] at hlength
    omega
  | parens ha => exact absurd (by simp) hopen

/-- An operator without a key, two keys, no values for a key and two operators
are accepted: only a bare list of values is refused as a condition, and a key
and an operator stand in front of whatever their operands have become. -/
theorem pieces_accepted :
    let b := Builder.new .universal
    let accepts (f : Filter) (t : String) : Prop :=
      b.perform (.clause (.filterBy f))
        = ({ b with statement := { Statement.empty with condition := some t } }, .ok ())
    let one : Operand := .value (.int 1)
    let keyless : Filter := .eq one
    let twoKeys : Filter := .field "a" (.filter (.field "b" one))
    let noValues : Filter := .field "a" (.filter (.eq (.list [])))
    let twoOperators : Filter := .field "a" (.filter (.compare .gt (.filter (.compare .lt one))))
    (accepts keyless "= 1" ∧ ¬ IsCond b.encoder keyless.written "= 1") ∧
      (accepts twoKeys "a b = 1" ∧ ¬ IsCond b.encoder twoKeys.written "a b = 1") ∧
      (accepts noValues "()" ∧ ¬ IsCond b.encoder noValues.written "()") ∧
      (accepts twoOperators "a > < 1" ∧ ¬ IsCond b.encoder twoOperators.written "a > < 1") := by
  intro b accepts one keyless twoKeys noValues twoOperators
  have hone : ∀ {t : String}, t.toList.head? ≠ some '(' → behindOperator? t.toList ≠ some ['1'] →
      ¬ IsCond b.encoder [.int 1] t := by
    intro t hopen hbehind hcond
    obtain ⟨literal, hliteral, heq⟩ := hcond.behindOperator?_eq hopen
    obtain rfl := Except.ok.inj hliteral
    exact hbehind heq
  exact ⟨⟨rfl, hone (by decide) (by decide)⟩, ⟨rfl, hone (by decide) (by decide)⟩,
    ⟨rfl, fun hcond => hcond.ne_nil rfl⟩, ⟨rfl, hone (by decide) (by decide)⟩⟩

end SqlBuilder
