import SqlBuilder.Proofs.Agreement
import SqlBuilder.Proofs.Contents
import SqlBuilder.Proofs.Dispatch

/-!
# The effects of accepted calls

A call that is accepted has passed every check of its method, and its effect is
one of a few: a verb starts a statement, a clause changes a slot of its own, an
assignment goes on with an update or starts a statement. This module says so
once. What holds of all runs is then argued by cases on the effects, and no
method is opened again.

* `Settings.Starts` — the statements that verbs start, and what was checked;
* `Settings.Fills` — the changes that clauses make, and what was checked;
* `Settings.literalFor` — the literals of rows and assignments;
* `Builder.Effect` — the builder after an accepted call;
* `perform_cases` — a call is rejected and changes nothing, or has its effect;
* `step_cases` — the same for steps, with the changes of settings;
* `settings_perform` — what a call does to the settings;
* `dialect_step` — the dialects that a run goes through.
-/

namespace SqlBuilder

/-! ## Checked names -/

/-- A list whose items all pass a check is what comes out of the check. -/
theorem eq_of_forall₂ {α : Type} {P : α → Prop} {xs ys : List α}
    (h : List.Forall₂ (fun x y => y = x ∧ P x) xs ys) : ys = xs ∧ ∀ x ∈ xs, P x := by
  induction h with
  | nil => exact ⟨rfl, fun _ hx => absurd hx List.not_mem_nil⟩
  | cons hxy _ ih =>
    obtain ⟨rfl, hP⟩ := hxy
    obtain ⟨rfl, hall⟩ := ih
    exact ⟨rfl, List.forall_mem_cons.mpr ⟨hP, hall⟩⟩

namespace Name

theorem require_ok {rule : NameRule} {s t : String} (h : require rule s = .ok t) :
    t = s ∧ isSafe rule s = true := by
  unfold require at h
  split at h
  · next hsafe => exact ⟨(Except.ok.inj h).symm, hsafe⟩
  · cases h

theorem requireAll_ok {rule : NameRule} {names checked : List String}
    (h : requireAll rule names = .ok checked) :
    checked = names ∧ ∀ n ∈ names, isSafe rule n = true :=
  eq_of_forall₂ ((forall₂_of_mapM h).imp fun _ _ hn => require_ok hn)

end Name

/-- A selection has one of three verbs. -/
theorem SelectOptions.verb_cases (o : SelectOptions) :
    o.verb = .select ∨ o.verb = .selectDistinct ∨ o.verb = .selectAll := by
  cases hall : o.all with
  | true => simp [verb, hall]
  | false => cases hdistinct : o.distinct <;> simp [verb, hall, hdistinct]

namespace Settings

variable {s : Settings}

/-! ## Verbs -/

/-- The statement that an accepted verb starts. -/
inductive Starts (s : Settings) : VerbCall Builder → Statement → Prop
  | createTable {name : String} {columns : List (String × ColumnDefinition)}
    {definitions : List String} (hname : Name.isSafe .plain name = true) (hne : columns ≠ [])
    (h : List.Forall₂ (fun c d => c.2.text s.encoder c.1 = .ok d) columns definitions) :
    Starts s (.createTable name columns)
      { Statement.named .createTable name with definitions := definitions }
  | dropTable {name : String} (hname : Name.isSafe .plain name = true) :
    Starts s (.dropTable name) (.named .dropTable name)
  | createIndex {name : String} {o : IndexOptions} (hname : Name.isSafe .plain name = true)
    (htarget : Name.isSafe .plain (o.table.getD "") = true) (hne : o.columns ≠ [])
    (h : ∀ c ∈ o.columns, Name.isSafe .plain c = true) :
    Starts s (.createIndex name o)
      { Statement.named .createIndex name with
        unique := o.unique, target := o.table.getD "", columns := o.columns.map .name }
  | dropIndex {name : String} (hname : Name.isSafe .plain name = true) :
    Starts s (.dropIndex name) (.named .dropIndex name)
  | createView {name body : String} {view : Builder} (hname : Name.isSafe .plain name = true)
    (hbody : view.statement.text = .ok body) :
    Starts s (.createView name view) { Statement.named .createView name with view := some body }
  | dropView {name : String} (hname : Name.isSafe .plain name = true) :
    Starts s (.dropView name) (.named .dropView name)
  | insert {table : String} {row : List (String × Value)} {values : List (String × String)}
    (htable : Name.isSafe .plain table = true) (hne : row ≠ [])
    (h : List.Forall₂ (fun p q => s.writtenValue table p = .ok q) row values) :
    Starts s (.insert table row) { Statement.named .insert table with values := values }
  | replace {table : String} {row : List (String × Value)} {values : List (String × String)}
    (hfamily : s.dialect.family ≠ .postgresql) (htable : Name.isSafe .plain table = true)
    (hne : row ≠ [])
    (h : List.Forall₂ (fun p q => s.writtenValue table p = .ok q) row values) :
    Starts s (.replace table row) { Statement.named .replace table with values := values }
  | update {table : String} (htable : Name.isSafe .plain table = true) :
    Starts s (.update table) (.named .update table)
  | deleteFrom {table : String} (htable : Name.isSafe .plain table = true) :
    Starts s (.deleteFrom table) (.named .delete table)
  | select {columns : List Column} {o : SelectOptions}
    (h : ∀ c ∈ columns, c.isSafe = .ok true) :
    Starts s (.select columns o) { Statement.ofVerb o.verb with columns := columns }
  | union {left right : Builder} {leftText rightText : String}
    (hleft : left.statement.text = .ok leftText) (hright : right.statement.text = .ok rightText) :
    Starts s (.union left right)
      { Statement.ofVerb .union with operands := some (leftText, rightText) }

theorem named_ok {verb : Verb} {name : String} {st : Statement} (h : named verb name = .ok st) :
    st = .named verb name ∧ Name.isSafe .plain name = true := by
  obtain ⟨_, hname, hst⟩ := ok_of_bind h
  obtain ⟨rfl, hsafe⟩ := Name.require_ok hname
  exact ⟨(Except.ok.inj hst).symm, hsafe⟩

theorem writeRow_ok {verb : Verb} {table : String} {row : List (String × Value)} {st : Statement}
    (h : s.writeRow verb table row = .ok st) :
    Name.isSafe .plain table = true ∧ row ≠ [] ∧
      ∃ values, st = { Statement.named verb table with values := values } ∧
        List.Forall₂ (fun p q => s.writtenValue table p = .ok q) row values := by
  obtain ⟨_, htable, hrest⟩ := ok_of_bind h
  obtain ⟨rfl, hsafe⟩ := Name.require_ok htable
  by_cases hempty : row.isEmpty = true
  · rw [if_pos hempty] at hrest
    cases hrest
  · rw [if_neg hempty] at hrest
    obtain ⟨values, hvalues, hst⟩ := ok_of_bind hrest
    refine ⟨hsafe, ?_, values, (Except.ok.inj hst).symm, forall₂_of_mapM hvalues⟩
    simpa using hempty

theorem createTable_ok {name : String} {columns : List (String × ColumnDefinition)}
    {st : Statement} (h : s.createTable name columns = .ok st) :
    s.Starts (.createTable name columns) st := by
  obtain ⟨_, hname, hrest⟩ := ok_of_bind h
  obtain ⟨rfl, hsafe⟩ := Name.require_ok hname
  by_cases hempty : columns.isEmpty = true
  · rw [if_pos hempty] at hrest
    cases hrest
  · rw [if_neg hempty] at hrest
    obtain ⟨definitions, hdefinitions, hst⟩ := ok_of_bind hrest
    obtain rfl := Except.ok.inj hst
    exact .createTable hsafe (by simpa using hempty) (forall₂_of_mapM hdefinitions)

theorem createIndex_ok {name : String} {o : IndexOptions} {st : Statement}
    (h : createIndex name o = .ok st) : s.Starts (.createIndex name o) st := by
  obtain ⟨_, hname, hrest⟩ := ok_of_bind h
  obtain ⟨rfl, hsafe⟩ := Name.require_ok hname
  -- a missing table and missing columns are one fault
  by_cases hnothing : o.table.getD "" = "" ∨ o.columns.isEmpty = true
  · rw [if_pos hnothing] at hrest
    cases hrest
  · rw [if_neg hnothing] at hrest
    obtain ⟨target, htarget, hrest⟩ := ok_of_bind hrest
    obtain ⟨rfl, htargetSafe⟩ := Name.require_ok htarget
    obtain ⟨_, hcolumns, hst⟩ := ok_of_bind hrest
    obtain ⟨rfl, hcolumnsSafe⟩ := Name.requireAll_ok hcolumns
    obtain rfl := Except.ok.inj hst
    have hne : o.columns ≠ [] := by
      rintro hnil
      exact hnothing (.inr (by rw [hnil]; rfl))
    exact .createIndex hsafe htargetSafe hne hcolumnsSafe

/-- The text of an inner statement is the text of that statement. -/
theorem innerText_ok {user body : String} {b : Builder} (h : b.innerText user = .ok body) :
    b.statement.text = .ok body := by
  unfold Builder.innerText at h
  split at h
  · cases h
  · exact h

theorem createView_ok {name : String} {view : Builder} {st : Statement}
    (h : createView name view = .ok st) : s.Starts (.createView name view) st := by
  obtain ⟨_, hname, hrest⟩ := ok_of_bind h
  obtain ⟨rfl, hsafe⟩ := Name.require_ok hname
  obtain ⟨body, hbody, hst⟩ := ok_of_bind hrest
  obtain rfl := Except.ok.inj hst
  exact .createView hsafe (innerText_ok hbody)

theorem select_ok {columns : List Column} {o : SelectOptions} {st : Statement}
    (h : select columns o = .ok st) : s.Starts (.select columns o) st := by
  obtain ⟨selected, hselected, hst⟩ := ok_of_bind h
  obtain rfl := Except.ok.inj hst
  have hself : List.Forall₂ (fun c d => d = c ∧ c.isSafe = .ok true) columns selected := by
    refine (forall₂_of_mapM hselected).imp fun c d hcd => ?_
    obtain ⟨safe, hsafe, hd⟩ := ok_of_bind hcd
    cases safe with
    | true => exact ⟨(Except.ok.inj hd).symm, hsafe⟩
    | false => cases hd
  obtain ⟨rfl, hall⟩ := eq_of_forall₂ hself
  exact .select hall

theorem union_ok {left right : Builder} {st : Statement} (h : union left right = .ok st) :
    s.Starts (.union left right) st := by
  obtain ⟨leftText, hleft, hrest⟩ := ok_of_bind h
  obtain ⟨rightText, hright, hst⟩ := ok_of_bind hrest
  obtain rfl := Except.ok.inj hst
  exact .union (innerText_ok hleft) (innerText_ok hright)

/-- **What an accepted verb starts.** -/
theorem starts_of_start {c : VerbCall Builder} {st : Statement} (h : s.start c = .ok st) :
    s.Starts c st := by
  cases c with
  | createTable name columns => exact createTable_ok h
  | dropTable name =>
    obtain ⟨rfl, hname⟩ := named_ok h
    exact .dropTable hname
  | createIndex name o => exact createIndex_ok h
  | dropIndex name =>
    obtain ⟨rfl, hname⟩ := named_ok h
    exact .dropIndex hname
  | createView name view => exact createView_ok h
  | dropView name =>
    obtain ⟨rfl, hname⟩ := named_ok h
    exact .dropView hname
  | insert table row =>
    obtain ⟨htable, hne, values, rfl, hvalues⟩ := writeRow_ok h
    exact .insert htable hne hvalues
  | replace table row =>
    unfold start at h
    dsimp only at h
    split at h
    · cases h
    · next hfamily =>
      obtain ⟨htable, hne, values, rfl, hvalues⟩ := writeRow_ok h
      exact .replace hfamily htable hne hvalues
  | update table =>
    obtain ⟨rfl, htable⟩ := named_ok h
    exact .update htable
  | deleteFrom table =>
    obtain ⟨rfl, htable⟩ := named_ok h
    exact .deleteFrom htable
  | select columns o => exact select_ok h
  | union left right => exact union_ok h

/-! ## Clauses -/

/-- The change that an accepted clause makes. -/
inductive Fills (s : Settings) : ClauseCall → (Statement → Statement) → Prop
  | fromTables {tables : List String} (hne : tables ≠ [])
    (h : ∀ t ∈ tables, Name.isSafe .plain t = true) :
    Fills s (.fromTables tables) fun st => { st with tables := tables }
  | join {tables : List String} {f : Filter} {condition : String} (hne : tables ≠ [])
    (h : ∀ t ∈ tables, Name.isSafe .plain t = true)
    (hcondition : s.encoder.condition f = .ok condition) :
    Fills s (.join tables f) fun st => { st with join := some ⟨tables, condition⟩ }
  | filterBy {f : Filter} {condition : String}
    (hcondition : s.encoder.condition f = .ok condition) :
    Fills s (.filterBy f) fun st => { st with condition := some condition }
  | limit (index : Nat) : Fills s (.limit index none) fun st => { st with limit := some index }
  | page (index count : Nat) :
    Fills s (.limit index (some count)) fun st =>
      { st with limit := some count, offset := some index }
  | offset (index : Nat) : Fills s (.offset index) fun st => { st with offset := some index }
  | orderBy {fields : List String} (direction : Option Direction) (hne : fields ≠ [])
    (h : ∀ f ∈ fields, Name.isSafe .qualified f = true) :
    Fills s (.orderBy fields direction) fun st => { st with sorting := some ⟨fields, direction⟩ }
  | groupBy {fields : List String} (hne : fields ≠ [])
    (h : ∀ f ∈ fields, Name.isSafe .qualified f = true) :
    Fills s (.groupBy fields) fun st => { st with grouping := fields }
  | intoTargets {targets : List String} (hfamily : s.dialect.family ≠ .sqlite)
    (hne : targets ≠ []) (h : ∀ t ∈ targets, Name.isSafe .variableName t = true) :
    Fills s (.intoTargets targets) fun st => { st with targets := targets }

theorem clauseNames_ok {clause : ClauseMethod} {rule : NameRule} {names checked : List String}
    (h : clauseNames clause rule names = .ok checked) :
    checked = names ∧ names ≠ [] ∧ ∀ n ∈ names, Name.isSafe rule n = true := by
  unfold clauseNames at h
  split at h
  · cases h
  · next hempty =>
    obtain ⟨rfl, hsafe⟩ := Name.requireAll_ok h
    exact ⟨rfl, by simpa using hempty, hsafe⟩

/-- **What an accepted clause changes.** -/
theorem fills_of_fill {c : ClauseCall} {change : Statement → Statement}
    (h : s.fill c = .ok change) : s.Fills c change := by
  cases c with
  | fromTables tables =>
    obtain ⟨_, hnames, hchange⟩ := ok_of_bind h
    obtain ⟨rfl, hne, hsafe⟩ := clauseNames_ok hnames
    exact Except.ok.inj hchange ▸ .fromTables hne hsafe
  | join tables f =>
    obtain ⟨_, hnames, hrest⟩ := ok_of_bind h
    obtain ⟨rfl, hne, hsafe⟩ := clauseNames_ok hnames
    obtain ⟨condition, hcondition, hchange⟩ := ok_of_bind hrest
    exact Except.ok.inj hchange ▸ .join hne hsafe hcondition
  | filterBy f =>
    obtain ⟨condition, hcondition, hchange⟩ := ok_of_bind h
    exact Except.ok.inj hchange ▸ .filterBy hcondition
  | limit index count =>
    cases count with
    | none => exact Except.ok.inj h ▸ .limit index
    | some count => exact Except.ok.inj h ▸ .page index count
  | offset index => exact Except.ok.inj h ▸ .offset index
  | orderBy fields direction =>
    obtain ⟨_, hnames, hchange⟩ := ok_of_bind h
    obtain ⟨rfl, hne, hsafe⟩ := clauseNames_ok hnames
    exact Except.ok.inj hchange ▸ .orderBy direction hne hsafe
  | groupBy fields =>
    obtain ⟨_, hnames, hchange⟩ := ok_of_bind h
    obtain ⟨rfl, hne, hsafe⟩ := clauseNames_ok hnames
    exact Except.ok.inj hchange ▸ .groupBy hne hsafe
  | intoTargets targets =>
    unfold fill at h
    dsimp only at h
    split at h
    · cases h
    · next hfamily =>
      obtain ⟨_, hnames, hchange⟩ := ok_of_bind h
      obtain ⟨rfl, hne, hsafe⟩ := clauseNames_ok hnames
      exact Except.ok.inj hchange ▸ .intoTargets hfamily hne hsafe

/-- No clause changes what a statement does, to what, or with which values. -/
theorem Fills.keeps {c : ClauseCall} {change : Statement → Statement} (h : s.Fills c change)
    (st : Statement) :
    (change st).verb = st.verb ∧ (change st).name = st.name ∧ (change st).values = st.values := by
  cases h <;> exact ⟨rfl, rfl, rfl⟩

/-! ## Written pairs -/

/-- The value that is written under a name. Only columns of a table have
validators. -/
def valueFor (s : Settings) (table : Option String) (name : String) (v : Value) :
    Except Fault Value :=
  match table with
  | some table => s.schemas.check table name v
  | none => .ok v

/-- The literal that is written for a value under a name. -/
def literalFor (s : Settings) (table : Option String) (name : String) (v : Value) :
    Except Fault String := do
  let w ← s.valueFor table name v
  s.encoder.encode w

/-- A pair of a row is written with its name and the literal of its value. -/
theorem writtenValue_ok {table : String} {p : String × Value} {q : String × String}
    (h : s.writtenValue table p = .ok q) :
    q.1 = p.1 ∧ Name.isSafe .qualified p.1 = true ∧
      s.literalFor (some table) p.1 p.2 = .ok q.2 := by
  obtain ⟨_, hname, hrest⟩ := ok_of_bind h
  obtain ⟨rfl, hsafe⟩ := Name.require_ok hname
  obtain ⟨w, hw, hrest⟩ := ok_of_bind hrest
  obtain ⟨literal, hliteral, hq⟩ := ok_of_bind hrest
  obtain rfl := Except.ok.inj hq
  refine ⟨rfl, hsafe, ?_⟩
  simp only [literalFor, valueFor, hw]
  exact hliteral

/-- A pair is assigned with its name, and with a function call as it stands or
the literal of its value. -/
theorem assignment_ok {table : Option String} {p : String × Value} {q : String × String}
    (h : s.assignment table p = .ok q) :
    q.1 = p.1 ∧ Name.isSafe .qualified p.1 = true ∧
      (callText? p.2 = some q.2 ∨
        callText? p.2 = none ∧ s.literalFor table p.1 p.2 = .ok q.2) := by
  obtain ⟨_, hname, hrest⟩ := ok_of_bind h
  obtain ⟨rfl, hsafe⟩ := Name.require_ok hname
  cases hcall : callText? p.2 with
  | some call =>
    rw [hcall] at hrest
    obtain rfl := Except.ok.inj hrest
    exact ⟨rfl, hsafe, .inl rfl⟩
  | none =>
    rw [hcall] at hrest
    cases table with
    | none | some table =>
      obtain ⟨w, hw, hrest⟩ := ok_of_bind hrest
      obtain ⟨literal, hliteral, hq⟩ := ok_of_bind hrest
      obtain rfl := Except.ok.inj hq
      refine ⟨rfl, hsafe, .inr ⟨rfl, ?_⟩⟩
      simp only [literalFor, valueFor, hw]
      exact hliteral

theorem assignments_ok {table : Option String} {pairs : List (String × Value)}
    {values : List (String × String)} (h : s.assignments table pairs = .ok values) :
    pairs ≠ [] ∧ List.Forall₂ (fun p q => s.assignment table p = .ok q) pairs values := by
  unfold assignments at h
  split at h
  · cases h
  · next hempty => exact ⟨by simpa using hempty, forall₂_of_mapM h⟩

end Settings

/-! ## Calls -/

namespace Builder

variable {b : Builder}

/-- The builder after an accepted call. -/
inductive Effect (b : Builder) : Call Builder → Builder → Prop
  | verb {c : VerbCall Builder} {st : Statement} (h : b.settings.Starts c st) :
    Effect b (.verb c) ⟨b.settings.afterVerb c, st⟩
  | clause {c : ClauseCall} {change : Statement → Statement} (h : b.settings.Fills c change) :
    Effect b (.clause c) { b with statement := change b.statement }
  | toColumns {pairs : List (String × Value)} {values : List (String × String)}
    (hupdate : b.inUpdate = true)
    (h : b.settings.assignments (some b.statement.name) pairs = .ok values) :
    Effect b (.set pairs)
      { b with statement := { b.statement with values := b.statement.values ++ values } }
  | toVariables {pairs : List (String × Value)} {values : List (String × String)}
    (hupdate : b.inUpdate = false) (hfamily : b.settings.dialect.family ≠ .sqlite)
    (h : b.settings.assignments none pairs = .ok values) :
    Effect b (.set pairs)
      { b with statement := { Statement.ofVerb .set with
          values := values.map fun p => (b.settings.variableMark ++ p.1, p.2) } }

/-- The built-in methods have their effects. -/
theorem effect_of_builtIn {c : Call Builder} {after : Builder} (hgate : b.gate c = .ok ())
    (h : b.builtIn c = .ok after) : b.Effect c after := by
  cases c with
  | verb c =>
    obtain ⟨st, hst, hafter⟩ := ok_of_bind h
    obtain rfl := Except.ok.inj hafter
    exact .verb (Settings.starts_of_start hst)
  | clause c =>
    obtain ⟨change, hchange, hafter⟩ := ok_of_bind h
    obtain rfl := Except.ok.inj hafter
    exact .clause (Settings.fills_of_fill hchange)
  | set pairs =>
    simp only [builtIn] at h
    simp only [gate] at hgate
    cases hupdate : b.inUpdate with
    | true =>
      rw [hupdate, if_pos rfl] at h
      obtain ⟨st, hst, hafter⟩ := ok_of_bind h
      obtain ⟨values, hvalues, hst⟩ := ok_of_bind hst
      obtain rfl := Except.ok.inj hst
      obtain rfl := Except.ok.inj hafter
      exact .toColumns hupdate hvalues
    | false =>
      simp only [hupdate, Bool.false_eq_true, if_false] at h hgate
      -- the door has refused the families without variables
      have hfamily : b.settings.dialect.family ≠ .sqlite := by
        intro hsqlite
        rw [if_pos hsqlite] at hgate
        cases hgate
      obtain ⟨st, hst, hafter⟩ := ok_of_bind h
      obtain ⟨values, hvalues, hst⟩ := ok_of_bind hst
      obtain rfl := Except.ok.inj hst
      obtain rfl := Except.ok.inj hafter
      exact .toVariables hupdate hfamily hvalues

/-- **A call is rejected and changes nothing, or it is accepted and has its
effect**, under a dialect that overrides nothing but paging. -/
theorem perform_cases (hb : b.settings.dialect.PagesOnly) (c : Call Builder) :
    (∃ fault, b.perform c = (b, .error fault)) ∨
      ∃ after, b.perform c = (after, .ok ()) ∧ b.Effect c after := by
  rw [perform_eq_settle hb]
  cases hgate : b.gate c with
  | error fault => exact .inl ⟨fault, rfl⟩
  | ok _ =>
    cases hmethod : b.builtIn c with
    | error fault => exact .inl ⟨fault, rfl⟩
    | ok after => exact .inr ⟨after, rfl, effect_of_builtIn hgate hmethod⟩

theorem effect_of_accepted (hb : b.settings.dialect.PagesOnly) {c : Call Builder}
    (h : (b.perform c).2 = .ok ()) : b.Effect c (b.perform c).1 := by
  rcases b.perform_cases hb c with ⟨fault, hperform⟩ | ⟨after, hperform, heffect⟩
  · rw [hperform] at h
    cases h
  · rw [hperform]
    exact heffect

end Builder

/-! ## Steps -/

/-- The call that a step makes, if its arguments can be read. -/
def Step.call? : Step → Option (Call Builder)
  | .call c => some c
  | .insertJson table row => (rowOfJson row).toOption.map fun row => .verb (.insert table row)
  | .setJson values => (rowOfJson values).toOption.map .set
  | .filterByJson filter => (Filter.ofJson filter).toOption.map fun f => .clause (.filterBy f)
  | _ => none

namespace Builder

variable {b : Builder}

theorem performRead_map {α : Type} (x : Except Fault α) (f : α → Call Builder) :
    (∃ a, x = .ok a ∧ b.performRead (x.map f) = b.perform (f a)) ∨
      ∃ fault, x = .error fault ∧ b.performRead (x.map f) = (b, .error fault) := by
  cases x with
  | ok a => exact .inl ⟨a, rfl, rfl⟩
  | error fault => exact .inr ⟨fault, rfl, rfl⟩

/-- **A step makes a call, is rejected for what it is given, or changes the
settings.** -/
theorem step_cases (b : Builder) (s : Step) :
    (∃ c, s.call? = some c ∧ b.step s = b.perform c) ∨
      (s.call? = none ∧ ∃ fault, b.step s = (b, .error fault)) ∨
      s.call? = none ∧ ∃ settings : Settings,
        b.step s = ({ b with settings := settings }, .ok ()) ∧
        (settings.dialect = b.settings.dialect ∨ s = .setDialect settings.dialect) := by
  -- a document is read first, and one that cannot be read makes no call
  cases s with
  | call c => exact .inl ⟨c, rfl, rfl⟩
  | insertJson table row =>
    rcases b.performRead_map (rowOfJson row) fun row => .verb (.insert table row) with
      ⟨row', hrow, h⟩ | ⟨fault, hrow, h⟩
    · exact .inl ⟨_, by rw [Step.call?, hrow]; rfl, h⟩
    · exact .inr (.inl ⟨by rw [Step.call?, hrow]; rfl, fault, h⟩)
  | setJson values =>
    rcases b.performRead_map (rowOfJson values) .set with ⟨row, hrow, h⟩ | ⟨fault, hrow, h⟩
    · exact .inl ⟨_, by rw [Step.call?, hrow]; rfl, h⟩
    · exact .inr (.inl ⟨by rw [Step.call?, hrow]; rfl, fault, h⟩)
  | filterByJson filter =>
    rcases b.performRead_map (Filter.ofJson filter) fun f => .clause (.filterBy f) with
      ⟨f, hfilter, h⟩ | ⟨fault, hfilter, h⟩
    · exact .inl ⟨_, by rw [Step.call?, hfilter]; rfl, h⟩
    · exact .inr (.inl ⟨by rw [Step.call?, hfilter]; rfl, fault, h⟩)
  | setDialect d => exact .inr (.inr ⟨rfl, _, rfl, .inr rfl⟩)
  | setTerminator terminator => exact .inr (.inr ⟨rfl, _, rfl, .inl rfl⟩)
  | setUseUtc useUtc => exact .inr (.inr ⟨rfl, _, rfl, .inl rfl⟩)
  | register table columns => exact .inr (.inr ⟨rfl, _, rfl, .inl rfl⟩)

end Builder

/-! ## The settings of a run -/

namespace Builder

variable {b : Builder}

/-- A call is dispatched without changing other settings than its method
changes; an override sees the statement alone. -/
theorem settings_dispatch {P : Settings → Prop} (hb : P b.settings)
    {method : Except Fault Builder} (h : ∀ after, method = .ok after → P after.settings)
    (support : Support) (refusal : Fault) (call : Call Builder) :
    P (b.dispatch support refusal call method).1.settings := by
  cases support with
  | unsupported => exact hb
  | custom o => exact hb
  | supported =>
    cases hmethod : method with
    | ok after => exact h after hmethod
    | error fault => exact hb

/-- **A call keeps the settings**, under any dialect, but for a verb that
registers the table it creates. -/
theorem settings_perform (b : Builder) (c : Call Builder) :
    (b.perform c).1.settings = b.settings ∨
      ∃ v, c = .verb v ∧ (b.perform c).1.settings = b.settings.afterVerb v := by
  -- the methods of clauses and assignments change the statement alone
  have hkeeps : ∀ (x : Except Fault Statement) (after : Builder),
      (do let st ← x; return { b with statement := st }) = Except.ok after →
      after.settings = b.settings := by
    intro x after h
    obtain ⟨st, -, hafter⟩ := ok_of_bind h
    rw [← Except.ok.inj hafter]
  cases c with
  | verb c =>
    rw [perform_verb]
    have h := settings_dispatch
      (P := fun s => s = b.settings ∨ s = b.settings.afterVerb c) (b := b) (.inl rfl)
      (fun after (hafter : b.startVerb c = .ok after) => by
        obtain ⟨st, -, hafter⟩ := ok_of_bind hafter
        rw [← Except.ok.inj hafter]
        exact .inr rfl)
      (b.settings.dialect.verbs c.method)
      (.verbRefused c.method b.settings.dialect.description) (.verb c)
    exact h.imp_right fun h => ⟨c, rfl, h⟩
  | clause c =>
    rw [perform_clause]
    refine .inl (settings_dispatch (P := (· = b.settings)) rfl (fun after h => ?_) _ _ _)
    obtain ⟨change, -, hafter⟩ := ok_of_bind h
    rw [← Except.ok.inj hafter]
  | set pairs =>
    left
    rw [perform_set]
    split
    · exact settings_dispatch (P := (· = b.settings)) rfl (hkeeps _) _ _ _
    · split
      · rfl
      · exact settings_dispatch (P := (· = b.settings)) rfl (hkeeps _) _ _ _

theorem dialect_afterVerb (s : Settings) (c : VerbCall Builder) :
    (s.afterVerb c).dialect = s.dialect := by
  cases c <;> rfl

/-- No call changes the dialect, under any dialect. -/
theorem dialect_perform (b : Builder) (c : Call Builder) :
    (b.perform c).1.settings.dialect = b.settings.dialect := by
  rcases b.settings_perform c with h | ⟨v, -, h⟩
  · rw [h]
  · rw [h, dialect_afterVerb]

/-- The dialect after a step is the one before, or the one that the step sets. -/
theorem dialect_step (b : Builder) (s : Step) :
    (b.step s).1.settings.dialect = b.settings.dialect ∨
      s = .setDialect (b.step s).1.settings.dialect := by
  rcases b.step_cases s with ⟨c, -, h⟩ | ⟨-, fault, h⟩ | ⟨-, settings, h, hdialect⟩
  · rw [h]
    exact .inl (dialect_perform b c)
  · rw [h]
    exact .inl rfl
  · rw [h]
    exact hdialect

/-- What holds of the dialects of a run holds of the dialect after a step. -/
theorem dialect_of_step {P : Dialect → Prop} (hb : P b.settings.dialect) {s : Step}
    (hs : ∀ d, s = .setDialect d → P d) : P (b.step s).1.settings.dialect := by
  rcases b.dialect_step s with h | h
  · rw [h]
    exact hb
  · exact hs _ h

theorem run_cons (b : Builder) (s : Step) (steps : List Step) :
    b.run (s :: steps) = (b.step s).1.run steps := rfl

theorem run_append (b : Builder) (steps steps' : List Step) :
    b.run (steps ++ steps') = (b.run steps).run steps' := by
  unfold run
  rw [List.foldl_append]

/-- What holds of the dialects of a run holds of the dialect after it. -/
theorem dialect_of_run {P : Dialect → Prop} (hb : P b.settings.dialect) {steps : List Step}
    (hsteps : ∀ d, .setDialect d ∈ steps → P d) : P (b.run steps).settings.dialect := by
  induction steps generalizing b with
  | nil => exact hb
  | cons s steps ih =>
    rw [run_cons]
    have hafter : P (b.step s).1.settings.dialect :=
      dialect_of_step hb fun d hd => hsteps d (hd ▸ List.mem_cons_self)
    exact ih hafter fun d hd => hsteps d (List.mem_cons_of_mem s hd)

end Builder

end SqlBuilder
