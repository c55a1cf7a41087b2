import SqlBuilder.Proofs.LiteralForm
import SqlBuilder.Proofs.Retention

/-!
# Statements under way can be assembled

Whatever has been called, accepted or rejected, in whatever order: once a verb
has been accepted, the statement has a text, and before that it has none. No
text has empty parentheses or a keyword without its names, since every verb
fills the slots that its layout needs and no clause empties a slot.

The invariant has two halves. One is about the slots of the verb and is set up
by the verb alone, the other one is about the slots of clauses and holds under
every verb, also before there is one.

* `Statement.HasParts` — the slots that the layout of a verb needs;
* `Statement.HasNames` — the slots of clauses have no empty names;
* `isComplete_step`, `isComplete_run` — one step and a run keep both;
* `isSome_verb_step` — which steps set a verb;
* `assembles_of_run` — all of it for the runs of a new builder.
-/

namespace SqlBuilder

/-- Names of which none is empty. -/
def AreNames (names : List String) : Prop := ∀ n ∈ names, n ≠ ""

theorem areNames_nil : AreNames [] := fun _ hn => absurd hn List.not_mem_nil

theorem Name.ne_empty_of_isSafe {rule : NameRule} {s : String} (h : Name.isSafe rule s = true) :
    s ≠ "" := by
  rintro rfl
  exact (Name.isSafe_iff.mp h).1 rfl

theorem areNames_of_isSafe {rule : NameRule} {names : List String}
    (h : ∀ n ∈ names, Name.isSafe rule n = true) : AreNames names :=
  fun n hn => Name.ne_empty_of_isSafe (h n hn)

namespace Statement

/-- What the layout of a verb needs: a name, and something in every list that it
puts between parentheses. -/
def HasParts (s : Statement) : Verb → Prop
  | .createTable => s.name ≠ "" ∧ s.definitions ≠ []
  | .createIndex => s.name ≠ "" ∧ s.target ≠ "" ∧ s.columns ≠ []
  | .createView => s.name ≠ "" ∧ ∃ body, s.view = some body ∧ body ≠ ""
  | .insert | .replace => s.name ≠ "" ∧ s.values ≠ []
  | .set => s.values ≠ []
  | .union => ∃ left right, s.operands = some (left, right) ∧ left ≠ "" ∧ right ≠ ""
  | .dropTable | .dropIndex | .dropView | .update | .delete => s.name ≠ ""
  | .select | .selectDistinct | .selectAll => True

/-- What clauses have put into a statement has names, and none of them is
empty. -/
structure HasNames (s : Statement) : Prop where
  tables : AreNames s.tables
  join : ∀ j, s.join = some j → j.tables ≠ [] ∧ AreNames j.tables
  grouping : AreNames s.grouping
  sorting : ∀ o, s.sorting = some o → o.fields ≠ [] ∧ AreNames o.fields
  targets : AreNames s.targets

/-- A statement that lacks nothing. -/
structure IsComplete (s : Statement) : Prop where
  parts : ∀ verb, s.verb = some verb → s.HasParts verb
  names : s.HasNames

theorem hasNames_empty : Statement.empty.HasNames where
  tables := areNames_nil
  join := fun _ h => by cases h
  grouping := areNames_nil
  sorting := fun _ h => by cases h
  targets := areNames_nil

theorem isComplete_empty : Statement.empty.IsComplete where
  parts := fun _ h => by cases h
  names := hasNames_empty

variable {s : Statement}

/-! ## Texts of complete statements -/

/-- Every layout begins with something. -/
theorem head_of_parts {verb : Verb} {parts : List String} (h : s.parts verb = .ok parts) :
    ∃ first rest, parts = first :: rest ∧ first ≠ "" := by
  cases verb
  case union =>
    simp only [Statement.parts] at h
    split at h
    · obtain rfl := Except.ok.inj h
      exact ⟨_, _, rfl, by simp⟩
    · cases h
  case createIndex =>
    obtain rfl := Except.ok.inj h
    refine ⟨_, _, rfl, ?_⟩
    split <;> decide
  all_goals
    obtain rfl := Except.ok.inj h
    exact ⟨_, _, rfl, by decide⟩

/-- No text of a statement is empty. -/
theorem text_ne_empty {t : String} (h : s.text = .ok t) : t ≠ "" := by
  unfold text at h
  split at h
  · cases h
  · obtain ⟨parts, hparts, ht⟩ := ok_of_bind h
    obtain ⟨first, rest, rfl, hfirst⟩ := head_of_parts hparts
    obtain rfl := Except.ok.inj ht
    cases rest with
    | nil => simpa using hfirst
    | cons second rest => simp [hfirst]

/-- A statement with a verb has a text if the slots of the verb are filled. -/
theorem exists_text_of_hasParts {verb : Verb} (hverb : s.verb = some verb)
    (h : s.HasParts verb) : ∃ t, s.text = .ok t := by
  have hparts : ∃ parts, s.parts verb = .ok parts := by
    cases verb
    case union =>
      obtain ⟨left, right, hoperands, -, -⟩ := h
      simp [Statement.parts, hoperands]
    all_goals exact ⟨_, rfl⟩
  obtain ⟨parts, hparts⟩ := hparts
  exact ⟨_, text_of_parts hverb hparts⟩

theorem IsComplete.exists_text_iff (h : s.IsComplete) :
    (∃ t, s.text = .ok t) ↔ s.verb.isSome = true := by
  cases hverb : s.verb with
  | none => simp [text, hverb]
  | some verb => simpa using exists_text_of_hasParts hverb (h.parts verb hverb)

end Statement

/-! ## Calls -/

namespace Settings

open Statement

variable {s : Settings}

/-- An accepted verb sets itself and fills the slots of its layout. -/
theorem Starts.hasParts {c : VerbCall Builder} {st : Statement} (h : s.Starts c st) :
    ∃ verb, st.verb = some verb ∧ st.HasParts verb := by
  have hname : ∀ {name : String}, Name.isSafe .plain name = true → name ≠ "" := fun hsafe =>
    Name.ne_empty_of_isSafe hsafe
  cases h with
  | createTable hsafe hne h =>
    exact ⟨.createTable, rfl, hname hsafe, ne_nil_of_forall₂ h hne⟩
  | dropTable hsafe => exact ⟨.dropTable, rfl, hname hsafe⟩
  | createIndex hsafe htarget hne _ =>
    exact ⟨.createIndex, rfl, hname hsafe, hname htarget, by simpa using hne⟩
  | dropIndex hsafe => exact ⟨.dropIndex, rfl, hname hsafe⟩
  | createView hsafe hbody =>
    exact ⟨.createView, rfl, hname hsafe, _, rfl, text_ne_empty hbody⟩
  | dropView hsafe => exact ⟨.dropView, rfl, hname hsafe⟩
  | insert hsafe hne h => exact ⟨.insert, rfl, hname hsafe, ne_nil_of_forall₂ h hne⟩
  | replace _ hsafe hne h => exact ⟨.replace, rfl, hname hsafe, ne_nil_of_forall₂ h hne⟩
  | update hsafe => exact ⟨.update, rfl, hname hsafe⟩
  | deleteFrom hsafe => exact ⟨.delete, rfl, hname hsafe⟩
  | @select columns o _ =>
    refine ⟨o.verb, rfl, ?_⟩
    rcases o.verb_cases with h | h | h <;> rw [h] <;> trivial
  | union hleft hright =>
    exact ⟨.union, rfl, _, _, rfl, text_ne_empty hleft, text_ne_empty hright⟩

/-- A statement starts without clauses. -/
theorem Starts.hasNames {c : VerbCall Builder} {st : Statement} (h : s.Starts c st) :
    st.HasNames := by
  have hempty := hasNames_empty
  cases h <;>
    exact ⟨hempty.tables, hempty.join, hempty.grouping, hempty.sorting, hempty.targets⟩

/-- No clause touches the slots of a verb. -/
theorem Fills.hasParts_iff {c : ClauseCall} {change : Statement → Statement}
    (h : s.Fills c change) (st : Statement) (verb : Verb) :
    (change st).HasParts verb ↔ st.HasParts verb := by
  cases h <;> cases verb <;> exact Iff.rfl

/-- A clause puts names into its own slot. -/
theorem Fills.hasNames {c : ClauseCall} {change : Statement → Statement} (h : s.Fills c change)
    {st : Statement} (hst : st.HasNames) : (change st).HasNames := by
  cases h with
  | fromTables _ h => exact { hst with tables := areNames_of_isSafe h }
  | join hne h _ =>
    refine { hst with join := fun j hj => ?_ }
    obtain rfl := Option.some.inj hj
    exact ⟨hne, areNames_of_isSafe h⟩
  | orderBy _ hne h =>
    refine { hst with sorting := fun o ho => ?_ }
    obtain rfl := Option.some.inj ho
    exact ⟨hne, areNames_of_isSafe h⟩
  | groupBy _ h => exact { hst with grouping := areNames_of_isSafe h }
  | intoTargets _ _ h => exact { hst with targets := areNames_of_isSafe h }
  | _ => exact { hst with }

end Settings

namespace Builder

variable {b : Builder}

/-- An accepted call leaves a complete statement. -/
theorem isComplete_of_effect (hb : b.statement.IsComplete) {c : Call Builder} {after : Builder}
    (h : b.Effect c after) : after.statement.IsComplete := by
  cases h with
  | verb hstarts =>
    obtain ⟨verb, hverb, hparts⟩ := hstarts.hasParts
    refine ⟨fun verb' hverb' => ?_, hstarts.hasNames⟩
    obtain rfl := Option.some.inj (hverb.symm.trans hverb')
    exact hparts
  | clause hfills =>
    refine ⟨fun verb hverb => ?_, hfills.hasNames hb.names⟩
    rw [(hfills.keeps b.statement).1] at hverb
    exact (hfills.hasParts_iff _ _).mpr (hb.parts verb hverb)
  | toColumns hupdate _ =>
    -- the verb is an update, which can do without values
    have hverb : b.statement.verb = some .update := of_decide_eq_true hupdate
    refine ⟨fun verb hverb' => ?_, { hb.names with }⟩
    obtain rfl := Option.some.inj (hverb.symm.trans hverb')
    exact hb.parts .update hverb
  | @toVariables pairs assigned _ _ hvalues =>
    obtain ⟨hne, hassigned⟩ := Settings.assignments_ok hvalues
    refine ⟨fun verb hverb => ?_, { Statement.hasNames_empty with }⟩
    obtain rfl := Option.some.inj hverb
    simpa [Statement.HasParts] using ne_nil_of_forall₂ hassigned hne

/-- The verb is set by an accepted call that starts a statement, and by no
other. -/
theorem isSome_verb_of_effect {c : Call Builder} {after : Builder} (h : b.Effect c after)
    {s : Step} (hs : b.accepted? s = some c) :
    after.statement.verb.isSome = (b.statement.verb.isSome || b.startsStatement s) := by
  cases h with
  | verb hstarts =>
    obtain ⟨verb, hverb, -⟩ := hstarts.hasParts
    simp [startsStatement, hs, hverb]
  | clause hfills => simp [startsStatement, hs, (hfills.keeps b.statement).1]
  | toColumns hupdate _ => simp [startsStatement, hs, hupdate]
  | toVariables hupdate _ _ => simp [startsStatement, hs, hupdate, Statement.ofVerb]

/-! ## Steps and runs -/

/-- **A step leaves a complete statement.** -/
theorem isComplete_step (hb : b.settings.dialect.PagesOnly) (h : b.statement.IsComplete)
    (s : Step) : (b.step s).1.statement.IsComplete := by
  rcases step_effect hb s with ⟨-, hstatement⟩ | ⟨c, -, heffect⟩
  · rw [hstatement]
    exact h
  · exact isComplete_of_effect h heffect

theorem isSome_verb_step (hb : b.settings.dialect.PagesOnly) (s : Step) :
    (b.step s).1.statement.verb.isSome
      = (b.statement.verb.isSome || b.startsStatement s) := by
  rcases step_effect hb s with ⟨hnone, hstatement⟩ | ⟨c, hcall, heffect⟩
  · simp [hstatement, startsStatement, hnone]
  · exact isSome_verb_of_effect heffect hcall

/-- **A run leaves a complete statement**, and the verb is set when it was
before or when a step has started a statement. -/
theorem isComplete_run (hb : b.settings.dialect.PagesOnly) (h : b.statement.IsComplete)
    {steps : List Step} (hsteps : ∀ d, .setDialect d ∈ steps → d.PagesOnly) :
    (b.run steps).statement.IsComplete ∧
      ((b.run steps).statement.verb.isSome = true ↔
        b.statement.verb.isSome = true ∨ true ∈ b.along startsStatement steps) := by
  induction steps generalizing b with
  | nil => simpa [run, along] using h
  | cons s steps ih =>
    have hafter : (b.step s).1.settings.dialect.PagesOnly :=
      dialect_of_step hb fun d hd => hsteps d (hd ▸ List.mem_cons_self)
    obtain ⟨hcomplete, hverb⟩ := ih hafter (isComplete_step hb h s)
      fun d hd => hsteps d (List.mem_cons_of_mem s hd)
    rw [run_cons]
    refine ⟨hcomplete, hverb.trans ?_⟩
    rw [isSome_verb_step hb, Bool.or_eq_true, along, List.mem_cons, or_assoc, eq_comm (a := true)]

theorem exists_renderWith_iff (b : Builder) (terminator : String) :
    (∃ t, b.renderWith terminator = .ok t) ↔ ∃ t, b.statement.text = .ok t := by
  constructor
  · rintro ⟨t, ht⟩
    obtain ⟨text, htext, -⟩ := ok_of_bind ht
    exact ⟨text, htext⟩
  · rintro ⟨text, htext⟩
    refine ⟨text ++ terminator, ?_⟩
    rw [renderWith, htext]
    rfl

/-- **Reachable statements assemble.** After any run of a new builder, failed
calls included, the verb is set exactly if some step has started a statement,
there is a text exactly if the verb is set, and nothing that the text needs is
missing or empty. -/
theorem assembles_of_run {d : Dialect} (hd : d.PagesOnly) {clock : LocalClock} {steps : List Step}
    (hsteps : ∀ d', .setDialect d' ∈ steps → d'.PagesOnly) :
    let start := ofDialect d clock
    let b := start.run steps
    (b.statement.verb.isSome = true ↔ true ∈ start.along startsStatement steps) ∧
      (∀ terminator, (∃ t, b.renderWith terminator = .ok t) ↔ b.statement.verb.isSome = true) ∧
      b.statement.IsComplete := by
  intro start b
  obtain ⟨hcomplete, hverb⟩ :=
    isComplete_run (b := start) hd Statement.isComplete_empty hsteps
  refine ⟨?_, ?_, hcomplete⟩
  · rw [hverb]
    simp [start, ofDialect, Statement.empty]
  · intro terminator
    rw [exists_renderWith_iff]
    exact hcomplete.exists_text_iff

/-- A clause before any verb, a row without columns that is rejected, a union
under a dialect that pages in its own way, and a page that is not written. -/
theorem assembles_of_run_union :
    let inner := (Builder.new .universal).run [.call (.verb (.select [.name "a"] {}))]
    let steps : List Step :=
      [.call (.clause (.fromTables ["t"])), .call (.verb (.insert "t" [])),
        .setDialect .postgresql92, .call (.verb (.union inner inner)),
        .call (.clause (.limit 3 (some 5)))]
    let b := (ofDialect .sql92 .universal).run steps
    Dialect.PagesOnly .sql92 ∧ (∀ d', .setDialect d' ∈ steps → d'.PagesOnly) ∧
      true ∉ (ofDialect .sql92 .universal).along startsStatement (steps.take 3) ∧
      b.renderWith "" = .ok "(SELECT a) UNION (SELECT a)" ∧
      b.statement.verb.isSome = true ∧ b.statement.IsComplete := by
  intro inner steps b
  have hdialects : ∀ d', .setDialect d' ∈ steps → d'.PagesOnly := by
    intro d' hd'
    simp only [steps, List.mem_cons, List.not_mem_nil, or_false, reduceCtorEq, false_or,
      Step.setDialect.injEq] at hd'
    rw [hd']
    exact Dialect.pagesOnly_postgresql92
  have hstarted : true ∈ (ofDialect .sql92 .universal).along startsStatement steps := by
    decide +kernel
  obtain ⟨hverb, -, hcomplete⟩ := assembles_of_run Dialect.pagesOnly_sql92 hdialects
  exact ⟨Dialect.pagesOnly_sql92, hdialects, by decide +kernel, rfl, hverb.mpr hstarted,
    hcomplete⟩

end Builder

end SqlBuilder
