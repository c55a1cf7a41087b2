import SqlBuilder.Proofs.Effects

/-!
# What a call encodes

The values that a built-in method hands to the encoder, in order and up to the
first fault. A value behind a fault, and a text that is a function call, are
not among them. Of the dialect, the method sees the literals of these values;
three methods also single out a family. So under a dialect that writes the same
literals a method does the same, unless it singles out one of the two families.

* `upToFault` — the items of a list that are reached;
* `Filter.encoded`, `ColumnDefinition.encoded`, `Settings.encodedPair` — the
  values of arguments that are encoded;
* `Builder.encoded` — the values that a call encodes;
* `Builder.singlesOut` — the family that a call treats apart;
* `Encoder.condition_congr`, `Settings.start_congr`, `Settings.fill_congr` — results depend
  on the encoder only through these values;
* `Builder.builtIn_under` — the built-in methods under another dialect.
-/

namespace SqlBuilder

section Sequences

variable {α β : Type} {f g : α → Except Fault β}

/-- What follows a result matters where there is one. -/
theorem bind_congr_of_ok {x : Except Fault α} (h : ∀ a, x = .ok a → f a = g a) :
    x >>= f = x >>= g := by
  cases x with
  | ok a => exact h a rfl
  | error fault => rfl

/-- The items of a list that are reached: those up to the first fault. -/
def upToFault (f : α → Except Fault β) : List α → List α
  | [] => []
  | x :: xs =>
    x :: match f x with
      | .ok _ => upToFault f xs
      | .error _ => []

theorem mem_upToFault_cons {x y : α} {xs : List α} {r : β} (hx : f x = .ok r)
    (hy : y ∈ upToFault f xs) : y ∈ upToFault f (x :: xs) := by
  rw [upToFault, hx]
  exact List.mem_cons_of_mem _ hy

/-- What is made of a list depends on the items that are reached. -/
theorem mapM_congr_upToFault {xs : List α} (h : ∀ x ∈ upToFault f xs, g x = f x) :
    xs.mapM g = xs.mapM f := by
  induction xs with
  | nil => rfl
  | cons x xs ih =>
    have hx : g x = f x := h x List.mem_cons_self
    rw [List.mapM_cons, List.mapM_cons, hx]
    cases hresult : f x with
    | error fault => rfl
    | ok r =>
      have hxs : xs.mapM g = xs.mapM f := ih fun y hy => h y (mem_upToFault_cons hresult hy)
      rw [hxs]

end Sequences

/-! ## Filters -/

/-- The value of a pattern, unless it is of a kind that patterns do not have. -/
def Pattern.encoded : Pattern → List Value
  | .regex source => [.text (Wildcard.ofRegex source)]
  | .value v =>
    match v with
    | .text _ | .int _ | .float _ | .bool _ => [v]
    | _ => []

/-- The values of the operand of an equality that are encoded. -/
def Operand.encodedByEquality (e : Encoder) : Operand → List Value
  | .value v => [v]
  | .list vs => upToFault e.encode vs
  | .filter _ => []

mutual

/-- The values of a filter that are encoded. -/
def Filter.encoded (e : Encoder) : Filter → List Value
  | .field key operand => if Filter.isFieldKey key then operand.encoded e else []
  | .eq operand => operand.encodedByEquality e
  | .compare _ operand => operand.encoded e
  | .all filters => Filter.encodedOfAll e filters
  | .any filters => Filter.encodedOfAll e filters
  | .like pattern => pattern.encoded
termination_by structural f => f

/-- The values of the operand of a field or a comparison that are encoded. -/
def Operand.encoded (e : Encoder) : Operand → List Value
  | .value v => [v]
  | .filter f => f.encoded e
  | .list _ => []
termination_by structural o => o

/-- The values of the filters of a group that are encoded. -/
def Filter.encodedOfAll (e : Encoder) : List Filter → List Value
  | [] => []
  | f :: fs =>
    f.encoded e ++ match e.condition f with
      | .ok _ => Filter.encodedOfAll e fs
      | .error _ => []
termination_by structural fs => fs

end

namespace Encoder

variable {e e' : Encoder}

theorem pattern_congr {p : Pattern} (h : ∀ v ∈ p.encoded, e'.encode v = e.encode v) :
    e'.pattern p = e.pattern p := by
  cases p with
  | regex source =>
    have hsource := h (.text (Wildcard.ofRegex source)) List.mem_cons_self
    rw [pattern, pattern, hsource]
  | value v =>
    cases v with
    | text s | int n | float x | bool b =>
      have hv := h _ List.mem_cons_self
      simp only [pattern, hv]
    | null | instant m | wall m | column reference => rfl

theorem compileEquality_congr {o : Operand}
    (h : ∀ v ∈ o.encodedByEquality e, e'.encode v = e.encode v) :
    e'.compileEquality o = e.compileEquality o := by
  cases o with
  | value v =>
    have hv := h v List.mem_cons_self
    rw [compileEquality, compileEquality, hv]
  | list vs =>
    have hvs : e'.encodeAll vs = e.encodeAll vs := mapM_congr_upToFault h
    rw [compileEquality, compileEquality, hvs]
  | filter f => rfl

mutual

/-- **What a filter becomes depends on the literals of the values that it
encodes.** -/
theorem compile_congr : ∀ {f : Filter}, (∀ v ∈ f.encoded e, e'.encode v = e.encode v) →
    e'.compile f = e.compile f
  | .field key operand, h => by
    rw [compile, compile]
    rw [Filter.encoded] at h
    by_cases hkey : Filter.isFieldKey key = true
    · rw [if_pos hkey] at h
      rw [if_pos hkey, if_pos hkey]
      exact compileField_congr h
    · rw [if_neg hkey, if_neg hkey]
  | .eq operand, h => by
    rw [compile, compile]
    exact compileEquality_congr h
  | .compare op operand, h => by
    rw [compile, compile]
    exact compileComparison_congr h
  | .all filters, h => by
    rw [compile, compile, compileClauses_congr h]
  | .any filters, h => by
    rw [compile, compile, compileClauses_congr h]
  | .like p, h => by
    rw [compile, compile, pattern_congr h]

theorem compileField_congr {key : String} : ∀ {o : Operand},
    (∀ v ∈ o.encoded e, e'.encode v = e.encode v) → e'.compileField key o = e.compileField key o
  | .value v, h => by
    rw [compileField, compileField, h v List.mem_cons_self]
  | .filter f, h => by
    rw [compileField, compileField, compile_congr h]
  | .list vs, _ => rfl

theorem compileComparison_congr {op : Comparison} : ∀ {o : Operand},
    (∀ v ∈ o.encoded e, e'.encode v = e.encode v) →
    e'.compileComparison op o = e.compileComparison op o
  | .value v, h => by
    rw [compileComparison, compileComparison, h v List.mem_cons_self]
  | .filter f, h => by
    rw [compileComparison, compileComparison, compile_congr h]
  | .list vs, _ => rfl

theorem compileClauses_congr : ∀ {fs : List Filter},
    (∀ v ∈ Filter.encodedOfAll e fs, e'.encode v = e.encode v) →
    e'.compileClauses fs = e.compileClauses fs
  | [], _ => rfl
  | f :: fs, h => by
    have hfirst : e'.compile f = e.compile f := compile_congr fun v hv => h v (by
      rw [Filter.encodedOfAll]
      exact List.mem_append_left _ hv)
    rw [compileClauses, compileClauses, hfirst]
    refine bind_congr_of_ok fun compiled hcompile => bind_congr_of_ok fun clause hclause => ?_
    -- the first is a condition, so the filters behind it are reached
    have hcondition : e.condition f = .ok clause := by
      rw [condition, hcompile]
      exact hclause
    have hrest : e'.compileClauses fs = e.compileClauses fs :=
      compileClauses_congr fun v hv => h v (by
        rw [Filter.encodedOfAll, hcondition]
        exact List.mem_append_right _ hv)
    rw [hrest]

end

theorem condition_congr {f : Filter} (h : ∀ v ∈ f.encoded e, e'.encode v = e.encode v) :
    e'.condition f = e.condition f := by
  rw [condition, condition, compile_congr h]

end Encoder

/-! ## Column definitions -/

namespace ColumnDefinition

/-- The default value, if nothing before it is wrong with the definition. -/
def encoded (e : Encoder) (name : String) (d : ColumnDefinition) : List Value :=
  match { d with defaultValue := none }.text e name with
  | .ok _ => d.defaultValue.toList
  | .error _ => []

theorem text_congr {e e' : Encoder} {name : String} {d : ColumnDefinition}
    (h : ∀ v ∈ d.encoded e name, e'.encode v = e.encode v) : d.text e' name = d.text e name := by
  refine bind_congr_of_ok fun column hname => ?_
  cases htype : ColumnType.ofName? d.typeName with
  | none => rfl
  | some type =>
    refine bind_congr_of_ok fun typed htyped => ?_
    by_cases hcount : (d.autoIncrement && !type.isInteger) = true
    · rw [if_pos hcount, if_pos hcount]
    · rw [if_neg hcount, if_neg hcount]
      -- nothing is wrong so far, and the default value is encoded
      have hbare : ∃ t, { d with defaultValue := none }.text e name = .ok t := by
        simp only [text, hname, htype, htyped, if_neg hcount, defaultText, bind, Except.bind]
        exact ⟨_, rfl⟩
      obtain ⟨t, hbare⟩ := hbare
      rw [encoded, hbare] at h
      have hpreset : defaultText e' d.defaultValue = defaultText e d.defaultValue := by
        cases hdefault : d.defaultValue with
        | none => rfl
        | some v =>
          rw [hdefault] at h
          rw [defaultText, defaultText, h v List.mem_cons_self]
      rw [hpreset]

end ColumnDefinition

/-! ## Written pairs -/

/-- Dialects that the built-in methods cannot tell apart. -/
structure Dialect.Resembles (d d' : Dialect) : Prop where
  family : d.family = d'.family
  description : d.description = d'.description

/-- The settings with another dialect. -/
def Settings.under (s : Settings) (d : Dialect) : Settings := { s with dialect := d }

namespace Settings

variable {s : Settings} {d : Dialect} {table : Option String} {p : String × Value}

@[simp] theorem dialect_under (s : Settings) (d : Dialect) : (s.under d).dialect = d := rfl

/-- Whether a value has the same literal under another dialect. -/
def WritesAlike (s : Settings) (d : Dialect) (v : Value) : Prop :=
  (s.under d).encoder.encode v = s.encoder.encode v

/-- The value of a pair that is encoded: the one that the validator of its
column makes, under a safe name. -/
def encodedPair (s : Settings) (table : Option String) (p : String × Value) : List Value :=
  if Name.isSafe .qualified p.1 then (s.valueFor table p.1 p.2).toOption.toList else []

/-- The value of an assigned pair that is encoded. A function call stands as it
is. -/
def encodedAssignment (s : Settings) (table : Option String) (p : String × Value) : List Value :=
  if (callText? p.2).isSome then [] else s.encodedPair table p

theorem mem_encodedPair {w : Value} (hname : Name.isSafe .qualified p.1 = true)
    (hw : s.valueFor table p.1 p.2 = .ok w) : w ∈ s.encodedPair table p := by
  rw [encodedPair, if_pos hname, hw]
  exact List.mem_cons_self

/-- A pair of a row depends on the literal of its value. -/
theorem writtenValue_congr {table : String}
    (h : ∀ v ∈ s.encodedPair (some table) p, s.WritesAlike d v) :
    (s.under d).writtenValue table p = s.writtenValue table p := by
  refine bind_congr_of_ok fun column hname => bind_congr_of_ok fun w hw => ?_
  obtain ⟨rfl, hsafe⟩ := Name.require_ok hname
  have hliteral : s.WritesAlike d w := h w (mem_encodedPair hsafe hw)
  rw [hliteral]

/-- An assigned pair depends on the literal of its value, unless it is a
function call. -/
theorem assignment_congr (h : ∀ v ∈ s.encodedAssignment table p, s.WritesAlike d v) :
    (s.under d).assignment table p = s.assignment table p := by
  refine bind_congr_of_ok fun name hname => ?_
  obtain ⟨rfl, hsafe⟩ := Name.require_ok hname
  cases hcall : callText? p.2 with
  | some call => rfl
  | none =>
    have hpair : s.encodedAssignment table p = s.encodedPair table p := by
      rw [encodedAssignment, hcall]
      rfl
    rw [hpair] at h
    have hliteral : ∀ w, s.valueFor table p.1 p.2 = .ok w →
        (s.under d).encoder.encode w = s.encoder.encode w :=
      fun w hw => h w (mem_encodedPair hsafe hw)
    cases table with
    | none | some table =>
      refine bind_congr_of_ok fun w hw => ?_
      simp only [hliteral w hw]

/-! ## Verbs and clauses -/

/-- The values of a row that are encoded. -/
def encodedRow (s : Settings) (table : String) (row : List (String × Value)) : List Value :=
  if Name.isSafe .plain table then
    (upToFault (s.writtenValue table) row).flatMap (s.encodedPair (some table))
  else []

/-- The values of a list of assignments that are encoded. -/
def encodedAssignments (s : Settings) (table : Option String) (pairs : List (String × Value)) :
    List Value :=
  (upToFault (s.assignment table) pairs).flatMap (s.encodedAssignment table)

/-- The default values of columns that are encoded. -/
def encodedDefaults (e : Encoder) (columns : List (String × ColumnDefinition)) : List Value :=
  (upToFault (fun c => c.2.text e c.1) columns).flatMap fun c => c.2.encoded e c.1

/-- The values that a verb encodes. -/
def encodedByVerb (s : Settings) : VerbCall Builder → List Value
  | .createTable name columns =>
    if Name.isSafe .plain name then encodedDefaults s.encoder columns else []
  | .insert table row => s.encodedRow table row
  | .replace table row =>
    if s.dialect.family = .postgresql then [] else s.encodedRow table row
  | _ => []

/-- The values that a clause encodes. -/
def encodedByClause (s : Settings) : ClauseCall → List Value
  | .join tables f =>
    match clauseNames .join .plain tables with
    | .ok _ => f.encoded s.encoder
    | .error _ => []
  | .filterBy f => f.encoded s.encoder
  | _ => []

theorem createTable_congr {name : String} {columns : List (String × ColumnDefinition)}
    (h : ∀ v ∈ s.encodedByVerb (.createTable name columns), s.WritesAlike d v) :
    (s.under d).createTable name columns = s.createTable name columns := by
  refine bind_congr_of_ok fun checked hname => ?_
  rw [encodedByVerb, if_pos (Name.require_ok hname).2] at h
  have hcolumns : (columns.mapM fun c => c.2.text (s.under d).encoder c.1)
      = columns.mapM fun c => c.2.text s.encoder c.1 :=
    mapM_congr_upToFault fun c hc => ColumnDefinition.text_congr fun v hv =>
      h v (List.mem_flatMap.mpr ⟨c, hc, hv⟩)
  rw [hcolumns]

theorem writeRow_congr {verb : Verb} {table : String} {row : List (String × Value)}
    (h : ∀ v ∈ s.encodedRow table row, s.WritesAlike d v) :
    (s.under d).writeRow verb table row = s.writeRow verb table row := by
  refine bind_congr_of_ok fun checked hname => ?_
  obtain ⟨hchecked, hsafe⟩ := Name.require_ok hname
  rw [encodedRow, if_pos hsafe] at h
  have hrow : row.mapM ((s.under d).writtenValue table) = row.mapM (s.writtenValue table) :=
    mapM_congr_upToFault fun p hp => writtenValue_congr fun v hv =>
      h v (List.mem_flatMap.mpr ⟨p, hp, hv⟩)
  rw [hchecked, hrow]

/-- An inner builder counts by its statement. -/
theorem innerText_congr {user : String} {b b' : Builder} (h : b'.statement = b.statement) :
    b'.innerText user = b.innerText user := by
  rw [Builder.innerText, Builder.innerText, h]

/-- **The statement that a verb starts** depends on the literals of the values
that it encodes and on the statements inside it, and `replace` on the family. -/
theorem start_congr {c : VerbCall Builder} {f : Builder → Builder}
    (hf : ∀ b, (f b).statement = b.statement)
    (hreplace : c.method = .replace → d.family = .postgresql ∨ s.dialect.family = .postgresql →
      d.Resembles s.dialect)
    (h : ∀ v ∈ s.encodedByVerb c, s.WritesAlike d v) :
    (s.under d).start (c.map f) = s.start c := by
  cases c with
  | createTable name columns => exact createTable_congr h
  | createView name view =>
    refine bind_congr_of_ok fun checked _ => ?_
    rw [innerText_congr (hf view)]
  | insert table row => exact writeRow_congr h
  | replace table row =>
    rw [VerbCall.map, start, start, dialect_under]
    rw [encodedByVerb] at h
    by_cases hrefuses : d.family = .postgresql ∨ s.dialect.family = .postgresql
    · have hresembles := hreplace rfl hrefuses
      have hfamily : s.dialect.family = .postgresql := by
        rcases hrefuses with hfamily | hfamily
        · rw [← hresembles.family, hfamily]
        · exact hfamily
      rw [hresembles.family, hresembles.description, if_pos hfamily, if_pos hfamily]
    · obtain ⟨hd, hs⟩ := not_or.mp hrefuses
      rw [if_neg hs] at h
      rw [if_neg hd, if_neg hs]
      exact writeRow_congr h
  | union left right =>
    show union (f left) (f right) = union left right
    rw [union, union, innerText_congr (hf left), innerText_congr (hf right)]
  | dropTable name | createIndex name o | dropIndex name | dropView name | update table
  | deleteFrom table | select columns o => rfl

/-- **The change that a clause makes** depends on the literals of the values
that it encodes, and `into` on the family. -/
theorem fill_congr {c : ClauseCall}
    (hinto : c.method = .intoTargets → d.family = .sqlite ∨ s.dialect.family = .sqlite →
      d.Resembles s.dialect)
    (h : ∀ v ∈ s.encodedByClause c, s.WritesAlike d v) : (s.under d).fill c = s.fill c := by
  cases c with
  | join tables f =>
    refine bind_congr_of_ok fun names hnames => ?_
    obtain ⟨rfl, -, -⟩ := clauseNames_ok hnames
    rw [encodedByClause, hnames] at h
    rw [Encoder.condition_congr h]
  | filterBy f =>
    rw [fill, fill, Encoder.condition_congr h]
  | intoTargets targets =>
    rw [fill, fill, dialect_under]
    by_cases hrefuses : d.family = .sqlite ∨ s.dialect.family = .sqlite
    · have hresembles := hinto rfl hrefuses
      rw [hresembles.family, hresembles.description]
    · obtain ⟨hd, hs⟩ := not_or.mp hrefuses
      rw [if_neg hd, if_neg hs]
  | limit index count => cases count <;> rfl
  | fromTables tables | offset index | orderBy fields direction | groupBy fields => rfl

theorem assignments_congr {pairs : List (String × Value)}
    (h : ∀ v ∈ s.encodedAssignments table pairs, s.WritesAlike d v) :
    (s.under d).assignments table pairs = s.assignments table pairs := by
  have hpairs : pairs.mapM ((s.under d).assignment table) = pairs.mapM (s.assignment table) :=
    mapM_congr_upToFault fun p hp => assignment_congr fun v hv =>
      h v (List.mem_flatMap.mpr ⟨p, hp, hv⟩)
  rw [assignments, assignments, hpairs]

end Settings

/-! ## Calls -/

/-- The builder under another dialect. -/
def Builder.under (b : Builder) (d : Dialect) : Builder := ⟨b.settings.under d, b.statement⟩

/-- An outcome under another dialect. -/
def Outcome.under (o : Outcome) (d : Dialect) : Outcome := (o.1.under d, o.2)

namespace Builder

variable {b : Builder} {d : Dialect}

@[simp] theorem settings_under (b : Builder) (d : Dialect) :
    (b.under d).settings = b.settings.under d := rfl

@[simp] theorem statement_under (b : Builder) (d : Dialect) :
    (b.under d).statement = b.statement := rfl

@[simp] theorem under_under (b : Builder) (d d' : Dialect) :
    (b.under d).under d' = b.under d' := rfl

theorem settle_under (b : Builder) (d : Dialect) (x : Except Fault Builder) :
    (b.under d).settle (x.map (·.under d)) = Outcome.under (b.settle x) d := by
  cases x <;> rfl

/-- The values that the built-in method of a call encodes. -/
def encoded (b : Builder) : Call Builder → List Value
  | .verb c => b.settings.encodedByVerb c
  | .clause c => b.settings.encodedByClause c
  | .set pairs =>
    b.settings.encodedAssignments (if b.inUpdate then some b.statement.name else none) pairs

/-- Whether the built-in method of a call treats a family apart. PostgreSQL
replaces no rows, SQLite has no `into`, and MySQL marks the names of variables. -/
def singlesOut (b : Builder) (family : Family) : Call Builder → Bool
  | .verb c => c.method = .replace && family = .postgresql
  | .clause c => c.method = .intoTargets && family = .sqlite
  | .set _ => !b.inUpdate && family = .mysql

/-- **The built-in methods under another dialect.** A method does the same under
any dialect that writes the same literals for the values that it encodes, unless
it singles out one of the two families. -/
theorem builtIn_under {c : Call Builder} {f : Builder → Builder}
    (hf : ∀ b, (f b).statement = b.statement)
    (hfamily : b.singlesOut d.family c = true ∨ b.singlesOut b.settings.dialect.family c = true →
      d.Resembles b.settings.dialect)
    (h : ∀ v ∈ b.encoded c, b.settings.WritesAlike d v) :
    (b.under d).builtIn (c.map f) = (b.builtIn c).map (·.under d) := by
  cases c with
  | verb c =>
    have hstart : (b.settings.under d).start (c.map f) = b.settings.start c :=
      Settings.start_congr hf (fun hc hpostgresql => hfamily (by simpa [singlesOut, hc])) h
    have hafter : (b.settings.under d).afterVerb (c.map f) = (b.settings.afterVerb c).under d := by
      cases c <;> rfl
    show (b.under d).startVerb (c.map f) = (b.startVerb c).map _
    rw [startVerb, startVerb, settings_under, hstart, hafter]
    cases b.settings.start c <;> rfl
  | clause c =>
    have hfill : (b.settings.under d).fill c = b.settings.fill c :=
      Settings.fill_congr (fun hc hsqlite => hfamily (by simpa [singlesOut, hc])) h
    show (b.under d).fillClause c = (b.fillClause c).map _
    rw [fillClause, fillClause, settings_under, hfill]
    cases b.settings.fill c <;> rfl
  | set pairs =>
    have hupdate : (b.under d).inUpdate = b.inUpdate := rfl
    rw [encoded] at h
    rw [Call.map, builtIn, builtIn, hupdate]
    by_cases hb : b.inUpdate = true
    · rw [if_pos hb] at h
      rw [if_pos hb, if_pos hb, assignColumns, assignColumns, Settings.assignColumns,
        Settings.assignColumns, settings_under, statement_under, Settings.assignments_congr h]
      cases b.settings.assignments (some b.statement.name) pairs <;> rfl
    · rw [if_neg hb] at h
      -- the names of variables are marked under both dialects or under neither
      have hmark : (b.settings.under d).variableMark = b.settings.variableMark := by
        rw [Settings.variableMark, Settings.variableMark, Settings.dialect_under]
        by_cases hmarks : d.family = .mysql ∨ b.settings.dialect.family = .mysql
        · have hresembles := hfamily (by simpa [singlesOut, hb])
          rw [hresembles.family]
        · obtain ⟨hd, hs⟩ := not_or.mp hmarks
          rw [if_neg hd, if_neg hs]
      rw [if_neg hb, if_neg hb, assignVariables, assignVariables, Settings.assignVariables,
        Settings.assignVariables, settings_under, hmark, Settings.assignments_congr h]
      cases b.settings.assignments none pairs <;> rfl

end Builder

end SqlBuilder
