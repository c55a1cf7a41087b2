import SqlBuilder.Proofs.Correspondence.Statements
import SqlBuilder.Proofs.Methods

/-!
# Corresponding calls

Calls of one method whose arguments correspond. Builders inside a call stand in
a relation that is left open, so that it can be the one between the builders
that receive the calls. The built-in methods take corresponding calls to
corresponding statements, or refuse both for the same kind of fault.

* `VerbCall.Corresponds`, `ClauseCall.Corresponds`, `Call.Corresponds` — calls;
* `agree_start` — the statements that verbs start;
* `agree_fill` — the slots that clauses fill;
* `agree_assignments` — the texts of assigned values.
-/

namespace SqlBuilder

/-- A selected column whose name may be selected; an expression with an alias
has no parentheses but those of a function call. -/
def Column.IsSelectable (selectable : String → Prop) : Column → Prop
  | .name n => selectable n
  | .aliased _ _ => True

/-- Calls of one verb with corresponding arguments. -/
inductive VerbCall.Corresponds (K : Correspondence) (B : Builder → Builder → Prop) :
    VerbCall Builder → VerbCall Builder → Prop
  | createTable (name : String) {cs ds : List (String × ColumnDefinition)}
    (h : AgreeingPairs (ColumnDefinition.Corresponds K.value) cs ds) :
    VerbCall.Corresponds K B (.createTable name cs) (.createTable name ds)
  | dropTable (name : String) : VerbCall.Corresponds K B (.dropTable name) (.dropTable name)
  | createIndex (name : String) (options : IndexOptions) :
    VerbCall.Corresponds K B (.createIndex name options) (.createIndex name options)
  | dropIndex (name : String) : VerbCall.Corresponds K B (.dropIndex name) (.dropIndex name)
  | createView (name : String) {v w : Builder} (h : B v w) :
    VerbCall.Corresponds K B (.createView name v) (.createView name w)
  | dropView (name : String) : VerbCall.Corresponds K B (.dropView name) (.dropView name)
  | insert (table : String) {row row' : List (String × Value)}
    (h : AgreeingPairs K.value row row') :
    VerbCall.Corresponds K B (.insert table row) (.insert table row')
  | replace (table : String) {row row' : List (String × Value)}
    (h : AgreeingPairs K.value row row') :
    VerbCall.Corresponds K B (.replace table row) (.replace table row')
  | update (table : String) : VerbCall.Corresponds K B (.update table) (.update table)
  | deleteFrom (table : String) :
    VerbCall.Corresponds K B (.deleteFrom table) (.deleteFrom table)
  | select (columns : List Column) (options : SelectOptions)
    (h : ∀ c ∈ columns, c.IsSelectable K.selectable) :
    VerbCall.Corresponds K B (.select columns options) (.select columns options)
  | union {v w v' w' : Builder} (hleft : B v w) (hright : B v' w') :
    VerbCall.Corresponds K B (.union v v') (.union w w')

/-- Calls of one clause with corresponding arguments. -/
inductive ClauseCall.Corresponds (K : Correspondence) : ClauseCall → ClauseCall → Prop
  | fromTables (tables : List String) :
    ClauseCall.Corresponds K (.fromTables tables) (.fromTables tables)
  | join (tables : List String) {f g : Filter} (h : Filter.Corresponds K.value f g) :
    ClauseCall.Corresponds K (.join tables f) (.join tables g)
  | filterBy {f g : Filter} (h : Filter.Corresponds K.value f g) :
    ClauseCall.Corresponds K (.filterBy f) (.filterBy g)
  | limit (index : Nat) (count : Option Nat) :
    ClauseCall.Corresponds K (.limit index count) (.limit index count)
  | offset (index : Nat) : ClauseCall.Corresponds K (.offset index) (.offset index)
  | orderBy (fields : List String) (direction : Option Direction) :
    ClauseCall.Corresponds K (.orderBy fields direction) (.orderBy fields direction)
  | groupBy (fields : List String) :
    ClauseCall.Corresponds K (.groupBy fields) (.groupBy fields)
  | intoTargets (targets : List String) :
    ClauseCall.Corresponds K (.intoTargets targets) (.intoTargets targets)

/-- Calls of one method with corresponding arguments. -/
inductive Call.Corresponds (K : Correspondence) (B : Builder → Builder → Prop) :
    Call Builder → Call Builder → Prop
  | verb {c d : VerbCall Builder} (h : VerbCall.Corresponds K B c d) :
    Call.Corresponds K B (.verb c) (.verb d)
  | clause {c d : ClauseCall} (h : ClauseCall.Corresponds K c d) :
    Call.Corresponds K B (.clause c) (.clause d)
  | set {ps qs : List (String × Value)} (h : AgreeingPairs K.assigned ps qs) :
    Call.Corresponds K B (.set ps) (.set qs)

theorem VerbCall.Corresponds.method_eq {K : Correspondence} {B : Builder → Builder → Prop}
    {c d : VerbCall Builder} (h : VerbCall.Corresponds K B c d) : c.method = d.method := by
  cases h <;> rfl

theorem VerbCall.Corresponds.afterVerb_eq {K : Correspondence} {B : Builder → Builder → Prop}
    {c d : VerbCall Builder} (h : VerbCall.Corresponds K B c d) (s : Settings) :
    s.afterVerb c = s.afterVerb d := by
  cases h <;> rfl

theorem ClauseCall.Corresponds.method_eq {K : Correspondence} {c d : ClauseCall}
    (h : ClauseCall.Corresponds K c d) : c.method = d.method := by
  cases h <;> rfl

namespace Correspondence

variable {K : Correspondence}

/-! ## Fresh statements -/

variable (K) in
/-- A fresh statement corresponds to itself. -/
theorem corresponds_named (verb : Verb) {name : String} (h : K.text name name) :
    (Statement.named verb name).Corresponds K.text (Statement.named verb name) where
  verb := rfl
  unique := rfl
  name_eq := rfl
  name := h
  target := K.text_plain rfl
  columns := .nil
  definitions := .nil
  values := .nil
  view := .none
  operands := .none
  tables := .nil
  join := .none
  condition := .none
  grouping := .nil
  sorting := .none
  limit := rfl
  offset := rfl
  targets := .nil

variable (K) in
theorem corresponds_ofVerb (verb : Verb) :
    (Statement.ofVerb verb).Corresponds K.text (Statement.ofVerb verb) :=
  K.corresponds_named verb (K.text_plain rfl)

variable (K) in
theorem corresponds_empty : Statement.empty.Corresponds K.text Statement.empty :=
  { K.corresponds_ofVerb .select with verb := rfl }

theorem agree_named (verb : Verb) (name : String) :
    Agree (Statement.Corresponds K.text) (Settings.named verb name)
      (Settings.named verb name) :=
  (K.agree_require .plain rfl name).bind fun a b hab => by
    obtain ⟨rfl, h⟩ := hab
    exact .ok (K.corresponds_named verb h)

/-! ## Tables -/

variable (K) in
theorem agree_typeText (column : String) (type : ColumnType) (length : Option Nat) :
    Agree K.text (ColumnDefinition.typeText column type length)
      (ColumnDefinition.typeText column type length) := by
  have hkeyword : K.text type.keyword type.keyword := K.text_plain (by cases type <;> decide)
  cases length with
  | none => exact .ok hkeyword
  | some n =>
    unfold ColumnDefinition.typeText
    dsimp only
    split
    · have htext := K.text_append hkeyword (K.text_parens (K.text_nat n))
      simp only [← String.append_assoc] at htext
      exact .ok htext
    · exact .error rfl

theorem agree_defaultText {e : Encoder} (he : K.schemas e.schemas) {v w : Option Value}
    (h : Option.Rel K.value v w) :
    Agree (List.Forall₂ K.text) (ColumnDefinition.defaultText e v)
      (ColumnDefinition.defaultText e w) := by
  cases h with
  | none => exact .ok .nil
  | some h =>
    exact (K.encode he h).bind fun _ _ hlit => .ok (.cons (K.text_after (by decide) hlit) .nil)

/-- A word that is there when a flag is set. -/
theorem texts_flag {word : String} (hword : word.toList.all isPlainChar = true) (flag : Bool) :
    List.Forall₂ K.text (if flag then [word] else []) (if flag then [word] else []) := by
  cases flag with
  | true => exact .cons (K.text_plain hword) .nil
  | false => exact .nil

theorem agree_definition {e : Encoder} (he : K.schemas e.schemas) (name : String)
    {c d : ColumnDefinition} (h : c.Corresponds K.value d) :
    Agree K.text (c.text e name) (d.text e name) := by
  have hdefault := agree_defaultText he h.defaultValue
  -- the two definitions are one but for the default value
  rw [h.same] at hdefault ⊢
  generalize d.defaultValue = v at hdefault ⊢
  unfold ColumnDefinition.text
  refine (K.agree_require .plain rfl name).bind fun a b hab => ?_
  obtain ⟨rfl, hname⟩ := hab
  dsimp only
  split
  · exact .error rfl
  · refine (K.agree_typeText a _ _).bind fun typed typed' htyped => ?_
    split
    · exact .error rfl
    · refine hdefault.bind fun preset preset' hpreset => .ok ?_
      apply K.text_intercalate (by decide)
      refine List.rel_append ?_ (texts_flag (by decide) _)
      refine List.rel_append ?_ hpreset
      refine List.rel_append ?_ (texts_flag (by decide) _)
      exact List.rel_append (.cons hname (.cons htyped .nil)) (texts_flag (by decide) _)

theorem agree_createTable {s : Settings} (hs : K.schemas s.schemas) (name : String)
    {cs ds : List (String × ColumnDefinition)}
    (h : AgreeingPairs (ColumnDefinition.Corresponds K.value) cs ds) :
    Agree (Statement.Corresponds K.text) (s.createTable name cs) (s.createTable name ds) := by
  unfold Settings.createTable
  refine (K.agree_require .plain rfl name).bind fun a b hab => ?_
  obtain ⟨rfl, hname⟩ := hab
  rw [isEmpty_eq_of_forall₂ h]
  split
  · exact .error rfl
  · have hdefinitions : Agree (List.Forall₂ K.text) (cs.mapM fun c => c.2.text s.encoder c.1)
        (ds.mapM fun d => d.2.text s.encoder d.1) := by
      refine Agree.mapM h fun c d hcd => ?_
      rw [hcd.1]
      exact agree_definition hs d.1 hcd.2
    refine hdefinitions.bind fun _ _ hds => .ok ?_
    exact { K.corresponds_named .createTable hname with definitions := hds }

theorem agree_createIndex (name : String) (o : IndexOptions) :
    Agree (Statement.Corresponds K.text) (Settings.createIndex name o)
      (Settings.createIndex name o) := by
  unfold Settings.createIndex
  refine (K.agree_require .plain rfl name).bind fun a b hab => ?_
  obtain ⟨rfl, hname⟩ := hab
  dsimp only
  split
  · exact .error rfl
  · refine (K.agree_require .plain rfl _).bind fun target target' htarget => ?_
    refine (K.agree_requireAll .plain rfl _).bind fun columns columns' hcolumns => ?_
    refine .ok { K.corresponds_named .createIndex hname with
      target := htarget.2, unique := rfl, columns := ?_ }
    show List.Forall₂ K.text ((columns.map Column.name).map Column.text)
      ((columns'.map Column.name).map Column.text)
    -- plain names are their own texts
    rw [List.map_map, List.map_map, show Column.text ∘ Column.name = id from rfl, List.map_id,
      List.map_id]
    exact hcolumns

/-! ## Inner statements -/

theorem agree_innerText (user : String) {v w : Builder}
    (h : v.statement.Corresponds K.text w.statement) :
    Agree K.text (v.innerText user) (w.innerText user) := by
  unfold Builder.innerText
  rw [h.verb]
  split
  · exact .error rfl
  · exact K.agree_text h

theorem agree_createView (name : String) {v w : Builder}
    (h : v.statement.Corresponds K.text w.statement) :
    Agree (Statement.Corresponds K.text) (Settings.createView name v)
      (Settings.createView name w) := by
  refine (K.agree_require .plain rfl name).bind fun a b hab => ?_
  obtain ⟨rfl, hname⟩ := hab
  refine (agree_innerText a h).bind fun _ _ hbody => .ok ?_
  exact { K.corresponds_named .createView hname with view := .some hbody }

theorem agree_union {v w v' w' : Builder} (hleft : v.statement.Corresponds K.text w.statement)
    (hright : v'.statement.Corresponds K.text w'.statement) :
    Agree (Statement.Corresponds K.text) (Settings.union v v') (Settings.union w w') := by
  refine (agree_innerText "union" hleft).bind fun _ _ hl => ?_
  refine (agree_innerText "union" hright).bind fun _ _ hr => .ok ?_
  exact { K.corresponds_ofVerb .union with operands := .some ⟨hl, hr⟩ }

/-! ## Rows -/

theorem agree_writtenValue {s : Settings} (hs : K.schemas s.schemas) (table : String)
    {p q : String × Value} (h : p.1 = q.1 ∧ K.value p.2 q.2) :
    Agree (PairCorresponds K.text) (s.writtenValue table p) (s.writtenValue table q) := by
  unfold Settings.writtenValue
  rw [h.1]
  refine (K.agree_require .qualified rfl q.1).bind fun column column' hcolumn => ?_
  rw [← hcolumn.1]
  refine (K.check hs h.2).bind fun _ _ hvalue => ?_
  refine (K.encode (e := s.encoder) hs hvalue).bind fun _ _ hlit => .ok ?_
  exact ⟨hcolumn.1 ▸ hcolumn.2, hlit⟩

theorem agree_writeRow {s : Settings} (hs : K.schemas s.schemas) (verb : Verb) (table : String)
    {row row' : List (String × Value)} (h : AgreeingPairs K.value row row') :
    Agree (Statement.Corresponds K.text) (s.writeRow verb table row)
      (s.writeRow verb table row') := by
  unfold Settings.writeRow
  refine (K.agree_require .plain rfl table).bind fun a b hab => ?_
  obtain ⟨rfl, hname⟩ := hab
  rw [isEmpty_eq_of_forall₂ h]
  split
  · exact .error rfl
  · refine (Agree.mapM h fun _ _ hpq => agree_writtenValue hs a hpq).bind fun _ _ hvalues => ?_
    exact .ok { K.corresponds_named verb hname with values := hvalues }

/-! ## Selections -/

/-- A selectable column that is safe stands for itself. -/
theorem text_of_isSafe {c : Column} (hsafe : c.isSafe = .ok true)
    (h : c.IsSelectable K.selectable) : K.text c.text c.text := by
  cases c with
  | name n =>
    rw [Column.isSafe] at hsafe
    split at hsafe
    · next hname => exact K.text_selected hname h
    · exact K.text_call hsafe
  | aliased expression label =>
    have hexpression : K.text expression expression ∧ Name.isSafe .plain label = true := by
      rw [Column.isSafe] at hsafe
      -- the expression is a plain name or a function call
      by_cases hplain : Name.isSafe .plain expression = true
      · rw [if_pos hplain] at hsafe
        exact ⟨K.text_name rfl hplain, Except.ok.inj hsafe⟩
      · rw [if_neg hplain] at hsafe
        obtain ⟨safe, hcall, hboth⟩ := ok_of_bind hsafe
        have hsafe : (safe && Name.isSafe .plain label) = true := Except.ok.inj hboth
        rw [Bool.and_eq_true] at hsafe
        obtain ⟨rfl, hlabel⟩ := hsafe
        exact ⟨K.text_call hcall, hlabel⟩
    exact K.text_append (K.text_append hexpression.1 (K.text_plain (by decide)))
      (K.text_name rfl hexpression.2)

/-- A column that passes its check is the column itself, and safe. -/
theorem isSafe_of_require {c d : Column} (h : c.require = .ok d) : d = c ∧ c.isSafe = .ok true := by
  obtain ⟨safe, hsafe, hresult⟩ := ok_of_bind h
  cases safe with
  | true => exact ⟨(Except.ok.inj hresult).symm, hsafe⟩
  | false => cases hresult

theorem agree_select (columns : List Column) (o : SelectOptions)
    (h : ∀ c ∈ columns, c.IsSelectable K.selectable) :
    Agree (Statement.Corresponds K.text) (Settings.select columns o)
      (Settings.select columns o) := by
  have hcolumns : Agree (List.Forall₂ fun c d => K.text c.text d.text)
      (columns.mapM Column.require) (columns.mapM Column.require) := by
    have hself : List.Forall₂ (fun c d => c = d ∧ c.IsSelectable K.selectable) columns columns :=
      List.forall₂_same.mpr fun c hc => ⟨rfl, h c hc⟩
    refine Agree.mapM hself fun c d hcd => ?_
    obtain ⟨rfl, hselectable⟩ := hcd
    refine Agree.refl fun d hd => ?_
    obtain ⟨rfl, hsafe⟩ := isSafe_of_require hd
    exact text_of_isSafe hsafe hselectable
  refine hcolumns.bind fun _ _ hcs => .ok { K.corresponds_ofVerb o.verb with columns := ?_ }
  exact List.forall₂_map_left_iff.mpr (List.forall₂_map_right_iff.mpr hcs)

/-- **Verbs start corresponding statements.** -/
theorem agree_start {s : Settings} (hs : K.schemas s.schemas) {B : Builder → Builder → Prop}
    (hB : ∀ v w, B v w → v.statement.Corresponds K.text w.statement) {c d : VerbCall Builder}
    (h : VerbCall.Corresponds K B c d) :
    Agree (Statement.Corresponds K.text) (s.start c) (s.start d) := by
  cases h with
  | createTable name h => exact agree_createTable hs name h
  | dropTable name => exact agree_named .dropTable name
  | createIndex name o => exact agree_createIndex name o
  | dropIndex name => exact agree_named .dropIndex name
  | createView name h => exact agree_createView name (hB _ _ h)
  | dropView name => exact agree_named .dropView name
  | insert table h => exact agree_writeRow hs .insert table h
  | replace table h =>
    unfold Settings.start
    dsimp only
    split
    · exact .error rfl
    · exact agree_writeRow hs .replace table h
  | update table => exact agree_named .update table
  | deleteFrom table => exact agree_named .delete table
  | select columns o h => exact agree_select columns o h
  | union hleft hright => exact agree_union (hB _ _ hleft) (hB _ _ hright)

/-! ## Clauses -/

theorem agree_clauseNames (clause : ClauseMethod) (rule : NameRule) (hrule : rule.parens = false)
    (names : List String) :
    Agree (List.Forall₂ K.text) (Settings.clauseNames clause rule names)
      (Settings.clauseNames clause rule names) := by
  unfold Settings.clauseNames
  split
  · exact .error rfl
  · exact K.agree_requireAll rule hrule names

/-- **Clauses make corresponding changes.** -/
theorem agree_fill {s : Settings} (hs : K.schemas s.schemas) {c d : ClauseCall}
    (h : ClauseCall.Corresponds K c d) :
    Agree (fun f g => ∀ s t : Statement, s.Corresponds K.text t →
        (f s).Corresponds K.text (g t)) (s.fill c) (s.fill d) := by
  cases h with
  | fromTables tables =>
    refine (agree_clauseNames (K := K) .fromTables .plain rfl tables).bind fun _ _ hnames => ?_
    exact .ok fun s t hst => { hst with tables := hnames }
  | join tables h =>
    refine (agree_clauseNames (K := K) .join .plain rfl tables).bind fun _ _ hnames => ?_
    refine (agree_condition (e := s.encoder) hs h).bind fun _ _ hcondition => ?_
    exact .ok fun s t hst => { hst with join := .some ⟨hnames, hcondition⟩ }
  | filterBy h =>
    refine (agree_condition (e := s.encoder) hs h).bind fun _ _ hcondition => ?_
    exact .ok fun s t hst => { hst with condition := .some hcondition }
  | limit index count =>
    cases count with
    | none => exact .ok fun s t hst => { hst with limit := rfl }
    | some count => exact .ok fun s t hst => { hst with limit := rfl, offset := rfl }
  | offset index => exact .ok fun s t hst => { hst with offset := rfl }
  | orderBy fields direction =>
    refine (agree_clauseNames (K := K) .orderBy .qualified rfl fields).bind fun _ _ hnames => ?_
    exact .ok fun s t hst => { hst with sorting := .some ⟨hnames, rfl⟩ }
  | groupBy fields =>
    refine (agree_clauseNames (K := K) .groupBy .qualified rfl fields).bind fun _ _ hnames => ?_
    exact .ok fun s t hst => { hst with grouping := hnames }
  | intoTargets targets =>
    unfold Settings.fill
    dsimp only
    split
    · exact .error rfl
    · refine (agree_clauseNames (K := K) .intoTargets .variableName rfl targets).bind
        fun _ _ hnames => ?_
      exact .ok fun s t hst => { hst with targets := hnames }

/-! ## Assignments -/

/-- A text that stands as a function call stands for itself. -/
theorem text_of_callText? {v : Value} {call : String} (h : Settings.callText? v = some call) :
    K.text call call := by
  unfold Settings.callText? at h
  split at h
  · split at h
    · next hwhole => exact Option.some.inj h ▸ K.text_call hwhole
    · cases h
  · cases h

theorem agree_assignment {s : Settings} (hs : K.schemas s.schemas) (table : Option String)
    {p q : String × Value} (h : p.1 = q.1 ∧ K.assigned p.2 q.2) :
    Agree (PairCorresponds K.text) (s.assignment table p) (s.assignment table q) := by
  unfold Settings.assignment
  -- both values are function calls, the same one, or neither is
  rw [h.1, ← K.callText?_eq h.2]
  refine (K.agree_require .qualified rfl q.1).bind fun name name' hname => ?_
  rw [← hname.1]
  have htext : K.text name name := hname.1 ▸ hname.2
  cases hcall : Settings.callText? p.2 with
  | some call => exact .ok ⟨htext, text_of_callText? hcall⟩
  | none =>
    have hvalue : K.value p.2 q.2 := K.value_of_assigned h.2
    have hliteral : ∀ v w, K.value v w → Agree (PairCorresponds K.text)
        (do let literal ← s.encoder.encode v; return (name, literal))
        (do let literal ← s.encoder.encode w; return (name, literal)) := fun v w hvw =>
      (K.encode (e := s.encoder) hs hvw).bind fun _ _ hlit => .ok ⟨htext, hlit⟩
    -- the value is checked only where the table is known
    cases table with
    | some table => exact (K.check hs hvalue).bind hliteral
    | none => exact hliteral _ _ hvalue

/-- **Corresponding values are assigned as corresponding texts.** -/
theorem agree_assignments {s : Settings} (hs : K.schemas s.schemas) (table : Option String)
    {ps qs : List (String × Value)} (h : AgreeingPairs K.assigned ps qs) :
    Agree (List.Forall₂ (PairCorresponds K.text)) (s.assignments table ps)
      (s.assignments table qs) := by
  unfold Settings.assignments
  rw [isEmpty_eq_of_forall₂ h]
  split
  · exact .error rfl
  · exact Agree.mapM h fun _ _ hpq => agree_assignment hs table hpq

theorem agree_assignColumns {s : Settings} (hs : K.schemas s.schemas) {st tt : Statement}
    (hst : st.Corresponds K.text tt) {ps qs : List (String × Value)}
    (h : AgreeingPairs K.assigned ps qs) :
    Agree (Statement.Corresponds K.text) (s.assignColumns st ps) (s.assignColumns tt qs) := by
  have hassigned : Agree (List.Forall₂ (PairCorresponds K.text))
      (s.assignments (some st.name) ps) (s.assignments (some tt.name) qs) :=
    hst.name_eq ▸ agree_assignments hs (some st.name) h
  refine hassigned.bind fun _ _ hvalues => ?_
  exact .ok { hst with values := List.rel_append hst.values hvalues }

theorem agree_assignVariables {s : Settings} (hs : K.schemas s.schemas)
    {ps qs : List (String × Value)} (h : AgreeingPairs K.assigned ps qs) :
    Agree (Statement.Corresponds K.text) (s.assignVariables ps) (s.assignVariables qs) := by
  refine (agree_assignments hs none h).bind fun _ _ hvalues => .ok ?_
  have hmark : K.text s.variableMark s.variableMark := by
    unfold Settings.variableMark
    split <;> exact K.text_plain (by decide)
  refine { K.corresponds_ofVerb .set with values := ?_ }
  refine List.forall₂_map_left_iff.mpr (List.forall₂_map_right_iff.mpr ?_)
  exact hvalues.imp fun _ _ hpq => ⟨K.text_append hmark hpq.1, hpq.2⟩

end Correspondence

end SqlBuilder
