import SqlBuilder.Proofs.Correspondence.Runs
import SqlBuilder.Proofs.Encodings
import SqlBuilder.Proofs.Validation

/-!
# Tables without columns

A created table is registered without columns. That leaves no trace in what a
builder writes: a text refers to a registered column, and a value is validated
for one, so that a table without columns is as good as none.

Two builders that differ by such tables only stay so along every run, under any
dialect, and answer alike at every step. What tells them apart is a question
about a table as such: whether it is registered, what its validators make of a
value, and which tables there are.

* `Schemas.SameColumns`, `Builder.SameColumns` — equal but for tables without
  columns;
* `Settings.SameColumns.start_eq`, `fill_eq`, `assignments_eq` — the built-in
  methods do not see these tables;
* `Builder.SameColumns.step`, `trace` — one step, and a run;
* `Builder.LooksLike` — the same answers to all other questions;
* `emptyTables_unseen` — builders that differ by such tables look alike along
  every run.
-/

namespace SqlBuilder

/-! ## Registered columns -/

namespace Schemas

variable {s t : Schemas}

/-- The registered columns of a table, which are none if the table is not
registered. -/
def columnsOf (s : Schemas) (table : String) : Keyed Validator := (s.tables.get? table).getD []

/-- The same tables but for tables without columns. -/
def SameColumns (s t : Schemas) : Prop := ∀ table, s.columnsOf table = t.columnsOf table

theorem validator?_eq (s : Schemas) (table column : String) :
    s.validator? table column = (s.columnsOf table).get? column := by
  unfold validator? columnsOf
  cases s.tables.get? table <;> rfl

theorem columnsOf_register (s : Schemas) (table name : String)
    (columns : List (String × Validator)) :
    (s.register table columns).columnsOf name
      = if name = table then Keyed.ofList columns else s.columnsOf name := by
  unfold register columnsOf
  rw [Keyed.get?_put]
  split <;> rfl

/-- A created table has the columns that it had before. -/
theorem columnsOf_ensure (s : Schemas) (table name : String) :
    (s.ensure table).columnsOf name = s.columnsOf name := by
  unfold ensure
  split
  · rfl
  · next hmissing =>
    -- what is not registered has no columns, and neither has what takes its place
    have hnone : s.tables.get? table = none := by simpa [Keyed.has] using hmissing
    unfold columnsOf
    rw [Keyed.get?_put]
    split
    · next hname =>
      rw [hname, hnone]
      rfl
    · rfl

/-- The validators of a registered table decide, whether it has columns or
not. -/
theorem applyOn_eq (s : Schemas) (table column : String) (v : Value) :
    s.applyOn table column v
      = if s.hasTable table then s.check table column v
        else .error (.unregisteredTable table v) := by
  unfold check
  split
  · rfl
  · next hmissing =>
    have hnone : s.tables.get? table = none := by simpa [hasTable, Keyed.has] using hmissing
    rw [applyOn, hnone]

namespace SameColumns

theorem validator?_eq (h : s.SameColumns t) (table column : String) :
    t.validator? table column = s.validator? table column := by
  rw [Schemas.validator?_eq, Schemas.validator?_eq, h table]

theorem isColumnName_eq (h : s.SameColumns t) (reference : String) :
    t.isColumnName reference = s.isColumnName reference := by
  unfold isColumnName
  split
  · rw [h.validator?_eq]
  · rfl

theorem check_eq (h : s.SameColumns t) (table column : String) (v : Value) :
    t.check table column v = s.check table column v := by
  rw [Schemas.check_eq, Schemas.check_eq, h.validator?_eq]

/-- A table that is registered anew has the same columns on both sides. -/
theorem register (h : s.SameColumns t) (table : String) (columns : List (String × Validator)) :
    (s.register table columns).SameColumns (t.register table columns) := by
  intro name
  rw [columnsOf_register, columnsOf_register, h name]

theorem ensure (h : s.SameColumns t) (table : String) :
    (s.ensure table).SameColumns (t.ensure table) := by
  intro name
  rw [columnsOf_ensure, columnsOf_ensure, h name]

/-- The validators of a table make the same of a value, unless the table is
registered on one side only. -/
theorem applyOn_eq (h : s.SameColumns t) {table : String}
    (hboth : t.hasTable table = s.hasTable table) (column : String) (v : Value) :
    t.applyOn table column v = s.applyOn table column v := by
  rw [Schemas.applyOn_eq, Schemas.applyOn_eq, hboth, h.check_eq]

/-- A table that is registered on one side only has no columns there, so that
every value passes. -/
theorem check_of_hasTable_ne (h : s.SameColumns t) {table : String}
    (hne : t.hasTable table ≠ s.hasTable table) (column : String) (v : Value) :
    s.check table column v = .ok v := by
  cases hs : s.hasTable table with
  | false => simp [check, hs]
  | true =>
    have ht : t.hasTable table = false := by simpa [hs] using hne
    rw [← h.check_eq]
    simp [check, ht]

end SameColumns

theorem sameColumns_ensure (s : Schemas) (table : String) : s.SameColumns (s.ensure table) :=
  fun name => (s.columnsOf_ensure table name).symm

end Schemas

/-! ## Settings -/

/-- The same settings but for tables without columns. -/
structure Settings.SameColumns (s t : Settings) : Prop where
  dialect : t.dialect = s.dialect
  terminator : t.terminator = s.terminator
  useUtc : t.useUtc = s.useUtc
  clock : t.clock = s.clock
  schemas : s.schemas.SameColumns t.schemas

namespace Settings.SameColumns

variable {s t : Settings}

/-- Values have the same literals. -/
theorem encode_eq (h : s.SameColumns t) (v : Value) : t.encoder.encode v = s.encoder.encode v := by
  have hfamily : t.encoder.family = s.encoder.family := congrArg Dialect.family h.dialect
  have hutc : t.encoder.useUtc = s.encoder.useUtc := h.useUtc
  have hclock : t.encoder.clock = s.encoder.clock := h.clock
  have hcolumn : ∀ r, t.encoder.schemas.isColumnName r = s.encoder.schemas.isColumnName r :=
    h.schemas.isColumnName_eq
  cases v with
  | null | bool | int | float | column => rfl
  | text x =>
    -- the only values that are looked up among the columns
    show t.encoder.encodeText x = s.encoder.encodeText x
    unfold Encoder.encodeText
    simp only [hfamily, hcolumn]
  | instant m => rw [Encoder.encode, Encoder.encode, hfamily, hutc, hclock]
  | wall m => rw [Encoder.encode, Encoder.encode, hfamily]

/-- Filters have the same clauses. -/
theorem condition_eq (h : s.SameColumns t) (f : Filter) :
    t.encoder.condition f = s.encoder.condition f :=
  Encoder.condition_congr fun v _ => h.encode_eq v

theorem writtenValue_eq (h : s.SameColumns t) (table : String) (p : String × Value) :
    t.writtenValue table p = s.writtenValue table p := by
  unfold writtenValue
  simp only [h.schemas.check_eq, h.encode_eq]

theorem assignment_eq (h : s.SameColumns t) (table : Option String) (p : String × Value) :
    t.assignment table p = s.assignment table p := by
  unfold assignment
  simp only [h.schemas.check_eq, h.encode_eq]

theorem writeRow_eq (h : s.SameColumns t) (verb : Verb) (table : String)
    (row : List (String × Value)) : t.writeRow verb table row = s.writeRow verb table row := by
  unfold writeRow
  simp only [funext (h.writtenValue_eq _)]

/-- **A verb starts the same statement.** -/
theorem start_eq (h : s.SameColumns t) (c : VerbCall Builder) : t.start c = s.start c := by
  cases c with
  | createTable name columns =>
    have htext : (fun c : String × ColumnDefinition => c.2.text t.encoder c.1)
        = fun c => c.2.text s.encoder c.1 :=
      funext fun c => ColumnDefinition.text_congr fun v _ => h.encode_eq v
    rw [start, start, createTable, createTable, htext]
  | insert table row => exact h.writeRow_eq .insert table row
  | replace table row => rw [start, start, h.dialect, h.writeRow_eq]
  | dropTable | createIndex | dropIndex | createView | dropView | update | deleteFrom | select
  | union => rfl

/-- **A clause makes the same change.** -/
theorem fill_eq (h : s.SameColumns t) (c : ClauseCall) : t.fill c = s.fill c := by
  cases c with
  | join tables f => rw [fill, fill, h.condition_eq]
  | filterBy f => rw [fill, fill, h.condition_eq]
  | intoTargets targets => rw [fill, fill, h.dialect]
  | limit index count => cases count <;> rfl
  | fromTables | offset | orderBy | groupBy => rfl

/-- **The same is assigned.** -/
theorem assignments_eq (h : s.SameColumns t) (table : Option String)
    (pairs : List (String × Value)) : t.assignments table pairs = s.assignments table pairs := by
  rw [assignments, assignments, funext (h.assignment_eq table)]

theorem assignColumns_eq (h : s.SameColumns t) (st : Statement) (pairs : List (String × Value)) :
    t.assignColumns st pairs = s.assignColumns st pairs := by
  rw [assignColumns, assignColumns, h.assignments_eq]

theorem assignVariables_eq (h : s.SameColumns t) (pairs : List (String × Value)) :
    t.assignVariables pairs = s.assignVariables pairs := by
  rw [assignVariables, assignVariables, variableMark, variableMark, h.dialect, h.assignments_eq]

/-- A created table is registered on both sides. -/
theorem afterVerb (h : s.SameColumns t) (c : VerbCall Builder) :
    (s.afterVerb c).SameColumns (t.afterVerb c) := by
  cases c with
  | createTable name columns => exact { h with schemas := h.schemas.ensure name }
  | dropTable | createIndex | dropIndex | createView | dropView | insert | replace | update
  | deleteFrom | select | union => exact h

end Settings.SameColumns

/-! ## Steps -/

/-- The same builder but for tables without columns. -/
structure Builder.SameColumns (b c : Builder) : Prop where
  settings : b.settings.SameColumns c.settings
  statement : c.statement = b.statement

/-- The same result, and the same builder but for tables without columns. -/
structure Outcome.SameColumns (o p : Outcome) : Prop where
  builder : o.1.SameColumns p.1
  result : p.2 = o.2

namespace Builder.SameColumns

variable {b c : Builder}

theorem inUpdate_eq (h : b.SameColumns c) : c.inUpdate = b.inUpdate := by
  rw [inUpdate, inUpdate, h.statement]

/-- A method that has the same result on both sides settles alike. -/
theorem settle (h : b.SameColumns c) {α : Type} (x : Except Fault α) {f g : α → Builder}
    (hfg : ∀ a, (f a).SameColumns (g a)) :
    Outcome.SameColumns (b.settle (x >>= fun a => .ok (f a)))
      (c.settle (x >>= fun a => .ok (g a))) := by
  cases x with
  | ok a => exact ⟨hfg a, rfl⟩
  | error fault => exact ⟨h, rfl⟩

/-- The dialect decides alike on both sides, and an override sees the same
statement. -/
theorem dispatch (h : b.SameColumns c) {x y : Except Fault Builder}
    (hxy : Outcome.SameColumns (b.settle x) (c.settle y)) (support : Support) (refusal : Fault)
    (call : Call Builder) :
    Outcome.SameColumns (b.dispatch support refusal call x)
      (c.dispatch support refusal call y) := by
  cases support with
  | supported => exact hxy
  | unsupported => exact ⟨h, rfl⟩
  | custom override =>
    -- an override is given the statement and the call, never the registered tables
    simp only [Builder.dispatch, h.statement]
    exact ⟨⟨h.settings, rfl⟩, rfl⟩

/-- **A call** has the same result. -/
theorem perform (h : b.SameColumns c) (call : Call Builder) :
    Outcome.SameColumns (b.perform call) (c.perform call) := by
  have hdialect : c.settings.dialect = b.settings.dialect := h.settings.dialect
  cases call with
  | verb v =>
    rw [perform_verb, perform_verb, hdialect]
    refine h.dispatch ?_ _ _ _
    rw [startVerb, startVerb, h.settings.start_eq]
    exact h.settle _ fun st => ⟨h.settings.afterVerb v, rfl⟩
  | clause v =>
    rw [perform_clause, perform_clause, hdialect]
    refine h.dispatch ?_ _ _ _
    rw [fillClause, fillClause, h.settings.fill_eq, h.statement]
    exact h.settle _ fun change => ⟨h.settings, rfl⟩
  | set pairs =>
    rw [perform_set, perform_set, hdialect, h.inUpdate_eq]
    split
    · refine h.dispatch ?_ _ _ _
      rw [assignColumns, assignColumns, h.statement, h.settings.assignColumns_eq]
      exact h.settle _ fun st => ⟨h.settings, rfl⟩
    · split
      · exact ⟨h, rfl⟩
      · refine h.dispatch ?_ _ _ _
        rw [assignVariables, assignVariables, h.settings.assignVariables_eq]
        exact h.settle _ fun st => ⟨h.settings, rfl⟩

theorem performRead (h : b.SameColumns c) (call : Except Fault (Call Builder)) :
    Outcome.SameColumns (b.performRead call) (c.performRead call) := by
  cases call with
  | ok call => exact h.perform call
  | error fault => exact ⟨h, rfl⟩

/-- **A step** has the same result. -/
theorem step (h : b.SameColumns c) (s : Step) : Outcome.SameColumns (b.step s) (c.step s) := by
  have hsettings := h.settings
  cases s with
  | call call => exact h.perform call
  | insertJson | setJson | filterByJson => exact h.performRead _
  | setDialect d => exact ⟨⟨{ hsettings with dialect := rfl }, h.statement⟩, rfl⟩
  | setTerminator terminator =>
    exact ⟨⟨{ hsettings with terminator := rfl }, h.statement⟩, rfl⟩
  | setUseUtc useUtc => exact ⟨⟨{ hsettings with useUtc := rfl }, h.statement⟩, rfl⟩
  | register table columns =>
    exact ⟨⟨{ hsettings with schemas := hsettings.schemas.register table columns }, h.statement⟩,
      rfl⟩

/-- **A run** has the same results step by step. -/
theorem trace (h : b.SameColumns c) (steps : List Step) :
    List.Forall₂ Outcome.SameColumns (b.trace steps) (c.trace steps) := by
  induction steps generalizing b c with
  | nil => exact .nil
  | cons s steps ih => exact .cons (h.step s) (ih (h.step s).builder)

theorem run (h : b.SameColumns c) (steps : List Step) :
    (b.run steps).SameColumns (c.run steps) := by
  induction steps generalizing b c with
  | nil => exact h
  | cons s steps ih => exact ih (h.step s).builder

end Builder.SameColumns

/-- **The registration of a created table** adds a table without columns. -/
theorem Builder.sameColumns_afterVerb (s : Settings) (v : VerbCall Builder) (st : Statement) :
    Builder.SameColumns ⟨s, st⟩ ⟨s.afterVerb v, st⟩ where
  statement := rfl
  settings := by
    cases v with
    | createTable name columns => exact ⟨rfl, rfl, rfl, rfl, s.schemas.sameColumns_ensure name⟩
    | dropTable | createIndex | dropIndex | createView | dropView | insert | replace | update
    | deleteFrom | select | union => exact ⟨rfl, rfl, rfl, rfl, fun _ => rfl⟩

/-! ## What callers see -/

/-- Builders that give the same answers, unless they are asked about a table
that one of them has registered and the other has not. -/
structure Builder.LooksLike (b c : Builder) : Prop where
  dialect : c.settings.dialect = b.settings.dialect
  terminator : c.settings.terminator = b.settings.terminator
  useUtc : c.settings.useUtc = b.settings.useUtc
  statement : c.statement = b.statement
  render : c.render = b.render
  renderWith : ∀ terminator, c.renderWith terminator = b.renderWith terminator
  execute : c.execute = b.execute
  dateText : ∀ m, c.dateText m = b.dateText m
  encode : ∀ v, c.encoder.encode v = b.encoder.encode v
  compile : ∀ f, c.encoder.compile f = b.encoder.compile f
  parenthesized : ∀ f, c.encoder.parenthesized f = b.encoder.parenthesized f
  isColumnName : ∀ reference,
    c.settings.schemas.isColumnName reference = b.settings.schemas.isColumnName reference
  applyOn : ∀ table, c.settings.schemas.hasTable table = b.settings.schemas.hasTable table →
    ∀ column v, c.settings.schemas.applyOn table column v
      = b.settings.schemas.applyOn table column v

theorem Builder.SameColumns.looksLike {b c : Builder} (h : b.SameColumns c) : b.LooksLike c where
  dialect := h.settings.dialect
  terminator := h.settings.terminator
  useUtc := h.settings.useUtc
  statement := h.statement
  render := by
    rw [render, render, Builder.renderWith, Builder.renderWith, h.statement,
      h.settings.terminator]
  renderWith := fun terminator => by rw [Builder.renderWith, Builder.renderWith, h.statement]
  execute := by rw [execute, execute, h.settings.dialect]
  dateText := fun m => by rw [dateText, dateText, h.settings.useUtc, h.settings.clock]
  encode := h.settings.encode_eq
  compile := fun f => Encoder.compile_congr fun v _ => h.settings.encode_eq v
  parenthesized := fun f => by
    rw [Encoder.parenthesized, Encoder.parenthesized]
    exact congrArg (· >>= fun clause => .ok ("(" ++ clause ++ ")")) (h.settings.condition_eq f)
  isColumnName := h.settings.schemas.isColumnName_eq
  applyOn := fun _ hboth column v => h.settings.schemas.applyOn_eq hboth column v

/-- **Tables without columns are not seen.** A builder with and without the
registration of a created table differs by such a table only. Builders that
differ so give the same result at every step of a run and look alike after it,
unless they are asked about a table that one of them has registered: that one
lets every value of the table pass, and the other refuses it. And validators
stay registered whatever a run creates, until it registers their table anew. -/
theorem emptyTables_unseen {b c : Builder} (h : b.SameColumns c) (steps : List Step) :
    (∀ (s : Settings) (v : VerbCall Builder) (st : Statement),
      Builder.SameColumns ⟨s, st⟩ ⟨s.afterVerb v, st⟩) ∧
    List.Forall₂ (fun o p => p.2 = o.2 ∧ o.1.LooksLike p.1) (b.trace steps) (c.trace steps) ∧
    (∀ table, (c.run steps).settings.schemas.hasTable table
        ≠ (b.run steps).settings.schemas.hasTable table →
      ∀ s ∈ [(b.run steps).settings.schemas, (c.run steps).settings.schemas], ∀ column v,
        s.applyOn table column v
          = if s.hasTable table then .ok v else .error (.unregisteredTable table v)) ∧
    ∀ table columns, (∀ s ∈ steps, s.columns? table = none) → ∀ column,
      ((b.step (.register table columns)).1.run steps).settings.schemas.validator? table column
        = (Keyed.ofList columns).get? column := by
  refine ⟨Builder.sameColumns_afterVerb, ?_, ?_, ?_⟩
  · exact (h.trace steps).imp fun _ _ hout => ⟨hout.result, hout.builder.looksLike⟩
  · intro table hne s hs column v
    have hschemas := (h.run steps).settings.schemas
    -- the side that knows the table has no validator for it
    have hpass := hschemas.check_of_hasTable_ne hne column v
    rw [Schemas.applyOn_eq]
    rcases List.mem_pair.mp hs with rfl | rfl
    · rw [hpass]
    · rw [hschemas.check_eq, hpass]
  · intro table columns hsteps column
    -- no step of the run registers the table, so that the step in front of it decides
    have hlast : Step.lastColumns? table steps = none := by
      rw [Step.lastColumns?, List.filterMap_eq_nil_iff.mpr hsteps]
      rfl
    rw [Builder.validator?_run, hlast, Builder.validator?_step, Step.columns?, if_pos rfl]

/-- An update of a created table that refers to a registered column, a rejected
value, and a second creation of the table with the validator. -/
theorem emptyTables_unseen_update :
    let positive : Validator := fun v =>
      if v = .int 0 then .error (.other .malformed "not positive") else .ok v
    let creation (table : String) : VerbCall Builder :=
      .createTable table [("a", { typeName := "INT" })]
    let b := (Builder.new .universal).run [.register "u" [("a", positive)]]
    let c : Builder := ⟨b.settings.afterVerb (creation "t"), b.statement⟩
    let steps : List Step := [.call (.verb (creation "u")),
      .call (.verb (.insert "u" [("a", .int 0)])), .call (.verb (.update "t")),
      .call (.set [("a", .text "u.a"), ("b", .text "t.a")])]
    b.SameColumns c ∧ b.settings.schemas.describe ≠ c.settings.schemas.describe ∧
      (c.trace steps).map Prod.snd
        = [.ok (), .error (.other .malformed "not positive"), .ok (), .ok ()] ∧
      (c.run steps).render = .ok "UPDATE t SET a = u.a, b = \"t.a\";" ∧
      List.Forall₂ (fun o p => p.2 = o.2 ∧ o.1.LooksLike p.1) (b.trace steps) (c.trace steps) ∧
      (b.run steps).settings.schemas.applyOn "t" "a" .null
        = .error (.unregisteredTable "t" .null) ∧
      (c.run steps).settings.schemas.applyOn "t" "a" .null = .ok .null ∧
      ((b.step (.register "u" [("a", positive)])).1.run steps).settings.schemas.validator? "u" "a"
        = some positive := by
  intro positive creation b c steps
  have h : b.SameColumns c := Builder.sameColumns_afterVerb b.settings (creation "t") b.statement
  obtain ⟨-, htrace, happly, hkept⟩ := emptyTables_unseen h steps
  have hb : (b.run steps).settings.schemas.hasTable "t" = false := by decide
  have hc : (c.run steps).settings.schemas.hasTable "t" = true := by decide
  have hrefused := happly "t" (by rw [hb, hc]; decide) _ List.mem_cons_self "a" .null
  have hpassed := happly "t" (by rw [hb, hc]; decide) _
    (List.mem_cons_of_mem _ List.mem_cons_self) "a" .null
  rw [hb] at hrefused
  rw [hc] at hpassed
  have hdescribe : b.settings.schemas.describe ≠ c.settings.schemas.describe := by decide
  have hresults : (c.trace steps).map Prod.snd
      = [.ok (), .error (.other .malformed "not positive"), .ok (), .ok ()] := rfl
  have htext : (c.run steps).render = .ok "UPDATE t SET a = u.a, b = \"t.a\";" :=
    ok_of_toOption (by decide +kernel)
  refine ⟨h, hdescribe, hresults, htext, htrace, hrefused, hpassed,
    hkept "u" [("a", positive)] (fun s hs => ?_) "a"⟩
  simp only [steps, List.mem_cons, List.not_mem_nil, or_false] at hs
  rcases hs with rfl | rfl | rfl | rfl <;> rfl

end SqlBuilder
