import SqlBuilder.Config
import SqlBuilder.Proofs.Retention

/-!
# What a family prohibits

Two families lack something whatever the entries of a dialect say. SQLite has
no variables, neither to assign nor to send results into, and PostgreSQL
replaces no rows. A dialect of such a family can support the methods again, by
its own edits or through a chain of configured dialects, but every path that
its entries open meets a second test of the family. So no run gets past it, as
long as it stays in the family and no override takes the place of a method.

* `Family.Permits` — the statements without anything that a family lacks;
* `Builder.isProhibited` — the calls that would put it there;
* `Effect.permits`, `permits_step`, `permits_run` — an accepted call, a step and
  a run keep it out;
* `refuses_of_isProhibited` — these calls fail;
* `prohibitions_cannot_be_configured_away` — both families together.
-/

namespace SqlBuilder

/-- A dialect of a family that overrides nothing but paging. -/
structure Dialect.IsOf (family : Family) (d : Dialect) : Prop where
  family : d.family = family
  pagesOnly : d.PagesOnly

/-- A statement that has nothing that a family lacks. -/
def Family.Permits (st : Statement) : Family → Prop
  | .sqlite => st.targets = [] ∧ st.verb ≠ some .set
  | .postgresql => st.verb ≠ some .replace
  | .standard | .mysql => True

theorem Family.permits_empty (family : Family) : family.Permits .empty := by
  have hverb : ∀ verb : Verb, Statement.empty.verb ≠ some verb := by
    intro verb h
    cases h
  cases family with
  | sqlite => exact ⟨rfl, hverb .set⟩
  | postgresql => exact hverb .replace
  | standard | mysql => exact trivial

namespace Settings

variable {s : Settings}

/-- A statement that a verb starts has no targets, is no assignment, and
replaces rows in the families that do so only. -/
theorem Starts.permits {c : VerbCall Builder} {st : Statement} (h : s.Starts c st) :
    s.dialect.family.Permits st := by
  have htargets : st.targets = [] := by cases h <;> rfl
  -- an assignment is started by `set` alone, which is no verb call
  have hset : st.verb ≠ some .set := by
    intro hverb
    cases h with
    | @select columns o =>
      have hverb : o.verb = .set := Option.some.inj hverb
      rcases o.verb_cases with h | h | h <;> rw [h] at hverb <;> cases hverb
    | _ => cases hverb
  have hreplace : s.dialect.family = .postgresql → st.verb ≠ some .replace := by
    intro hfamily hverb
    cases h with
    | replace hother => exact hother hfamily
    | @select columns o =>
      have hverb : o.verb = .replace := Option.some.inj hverb
      rcases o.verb_cases with h | h | h <;> rw [h] at hverb <;> cases hverb
    | _ => cases hverb
  cases hfamily : s.dialect.family with
  | sqlite => exact ⟨htargets, hset⟩
  | postgresql => exact hreplace hfamily
  | standard | mysql => exact trivial

/-- The only clause that gives a statement targets is refused where there are no
variables, and no clause changes the verb. -/
theorem Fills.permits {c : ClauseCall} {change : Statement → Statement} (h : s.Fills c change)
    {st : Statement} (hst : s.dialect.family.Permits st) :
    s.dialect.family.Permits (change st) := by
  have hverb : (change st).verb = st.verb := (h.keeps st).1
  cases hfamily : s.dialect.family with
  | sqlite =>
    rw [hfamily] at hst
    obtain ⟨htargets, hset⟩ := hst
    refine ⟨?_, hverb ▸ hset⟩
    cases h with
    | intoTargets hother => exact absurd hfamily hother
    | _ => exact htargets
  | postgresql =>
    rw [hfamily] at hst
    have hreplace : st.verb ≠ some .replace := hst
    show (change st).verb ≠ some .replace
    rw [hverb]
    exact hreplace
  | standard | mysql => exact trivial

end Settings

namespace Builder

variable {b : Builder} {family : Family}

/-! ## What a run keeps out -/

/-- **An accepted call keeps out what the family lacks.** -/
theorem Effect.permits {c : Call Builder} {after : Builder} (h : b.Effect c after)
    (hb : b.settings.dialect.family.Permits b.statement) :
    b.settings.dialect.family.Permits after.statement := by
  cases h with
  | verb hstarts => exact hstarts.permits
  | clause hfills => exact hfills.permits hb
  | toColumns hupdate hvalues =>
    -- only the values of the update are new
    cases hfamily : b.settings.dialect.family <;> rw [hfamily] at hb <;> exact hb
  | toVariables hupdate hother hvalues =>
    cases hfamily : b.settings.dialect.family with
    | sqlite => exact absurd hfamily hother
    | postgresql =>
      intro hverb
      cases hverb
    | standard | mysql => exact trivial

/-- **A step keeps out what the family lacks.** -/
theorem permits_step (hb : b.settings.dialect.IsOf family) (h : family.Permits b.statement)
    (s : Step) : family.Permits (b.step s).1.statement := by
  rcases step_effect hb.pagesOnly s with ⟨-, hsame⟩ | ⟨c, -, heffect⟩
  · rw [hsame]
    exact h
  · rw [← hb.family] at h ⊢
    exact heffect.permits h

/-- **A run within the family keeps out what the family lacks.** -/
theorem permits_run (hb : b.settings.dialect.IsOf family) (h : family.Permits b.statement)
    {steps : List Step} (hsteps : ∀ d, .setDialect d ∈ steps → d.IsOf family) :
    family.Permits (b.run steps).statement := by
  -- with the statement goes the family, since `setDialect` could change it
  induction steps generalizing b with
  | nil => exact h
  | cons s steps ih =>
    rw [run_cons]
    have hafter : (b.step s).1.settings.dialect.IsOf family :=
      dialect_of_step hb fun d hd => hsteps d (hd ▸ List.mem_cons_self)
    have hrest : ∀ d, .setDialect d ∈ steps → d.IsOf family := by
      intro d hd
      exact hsteps d (List.mem_cons_of_mem s hd)
    exact ih hafter (permits_step hb h s) hrest

/-! ## What is refused -/

/-- Whether a call asks for what a family lacks. -/
def isProhibited (b : Builder) : Family → Call Builder → Bool
  | .sqlite, .clause c => c.method = .intoTargets
  | .sqlite, .set _ => !b.inUpdate
  | .postgresql, .verb c => c.method = .replace
  | _, _ => false

/-- A step fails as unsupported and changes nothing. -/
def Refuses (b : Builder) (s : Step) : Prop :=
  ∃ fault : Fault, fault.kind = .unsupported ∧ b.step s = (b, .error fault)

/-- A call that its family forestalls or its entry refuses is not supported. -/
theorem kind_of_gate {c : Call Builder} {fault : Fault} (h : b.gate c = .error fault) :
    fault.kind = .unsupported := by
  cases hforestalled : b.isForestalled c with
  | true =>
    rw [gate_of_isForestalled hforestalled] at h
    obtain rfl := Except.error.inj h
    rfl
  | false =>
    rw [gate_eq hforestalled] at h
    cases hentry : b.entry c with
    | unsupported =>
      rw [hentry] at h
      obtain rfl := Except.error.inj h
      exact b.kind_refusal c
    | supported | custom override =>
      rw [hentry] at h
      cases h

/-- Behind the door, the built-in method refuses it as well. -/
theorem kind_of_builtIn {c : Call Builder}
    (hprohibited : b.isProhibited b.settings.dialect.family c = true) (hgate : b.gate c = .ok ()) :
    ∃ fault : Fault, fault.kind = .unsupported ∧ b.builtIn c = .error fault := by
  -- the methods test the family of the dialect that they find, not its entries
  cases hfamily : b.settings.dialect.family with
  | standard | mysql =>
    rw [hfamily] at hprohibited
    cases c <;> cases hprohibited
  | postgresql =>
    rw [hfamily] at hprohibited
    cases c with
    | verb c =>
      cases c with
      | replace table row =>
        refine ⟨.replaceRefused b.settings.dialect.description, rfl, ?_⟩
        simp only [builtIn, startVerb, Settings.start, if_pos hfamily]
        rfl
      | _ => cases hprohibited
    | clause c | set pairs => cases hprohibited
  | sqlite =>
    rw [hfamily] at hprohibited
    cases c with
    | verb c => cases hprohibited
    | clause c =>
      cases c with
      | intoTargets targets =>
        refine ⟨.intoRefused b.settings.dialect.description, rfl, ?_⟩
        simp only [builtIn, fillClause, Settings.fill, if_pos hfamily]
        rfl
      | _ => cases hprohibited
    | set pairs =>
      -- the family has already been asked at the door
      have hforestalled : b.isForestalled (.set pairs) = true := by
        simpa [isForestalled, isProhibited, hfamily] using hprohibited
      rw [gate_of_isForestalled hforestalled] at hgate
      cases hgate

/-- **A call for what the family lacks fails**, and changes nothing. -/
theorem refuses_of_isProhibited (hb : b.settings.dialect.IsOf family) {s : Step}
    {c : Call Builder} (hcall : s.call? = some c) (hprohibited : b.isProhibited family c = true) :
    b.Refuses s := by
  have hstep : b.step s = b.perform c := by
    rcases b.step_cases s with ⟨c', hcall', hstep⟩ | ⟨hnone, -⟩ | ⟨hnone, -⟩
    · rw [hcall] at hcall'
      obtain rfl := Option.some.inj hcall'
      exact hstep
    · rw [hcall] at hnone
      cases hnone
    · rw [hcall] at hnone
      cases hnone
  rw [← hb.family] at hprohibited
  rw [Refuses, hstep, perform_eq_settle hb.pagesOnly]
  -- the entry may refuse the call or let it through to the method
  cases hgate : b.gate c with
  | error fault => exact ⟨fault, kind_of_gate hgate, rfl⟩
  | ok _ =>
    obtain ⟨fault, hkind, hmethod⟩ := kind_of_builtIn hprohibited hgate
    refine ⟨fault, hkind, ?_⟩
    rw [hmethod]
    rfl

/-! ## New builders -/

/-- A builder that was just made, for a dialect or from a configuration. -/
inductive IsNew : Builder → Prop
  | ofDialect (d : Dialect) (clock : LocalClock) : IsNew (ofDialect d clock)
  | ofConfig {c : Config} {r r' : Registry} {clock : LocalClock} {b : Builder}
    (h : ofConfig c r clock = (r', .ok b)) : IsNew b

theorem IsNew.statement (h : b.IsNew) : b.statement = .empty := by
  cases h with
  | ofDialect d clock => rfl
  | @ofConfig c r r' clock _ h =>
    unfold Builder.ofConfig at h
    split at h
    · cases h
    · obtain rfl := Except.ok.inj (congrArg Prod.snd h)
      rfl

/-- **No entry of a dialect gives a family what it lacks.** A builder is new and
every dialect that it is given has the family, whatever its entries say, with no
override but paging. Under SQLite its statement never has targets and is never an
assignment, and every `into` and every assignment outside an update fails as
unsupported. Under PostgreSQL its statement never replaces rows, and every call
that would fails as unsupported. -/
theorem prohibitions_cannot_be_configured_away {b : Builder} (hnew : b.IsNew)
    (steps : List Step) :
    (b.settings.dialect.IsOf .sqlite → (∀ d, .setDialect d ∈ steps → d.IsOf .sqlite) →
      (b.run steps).statement.targets = [] ∧ (b.run steps).statement.verb ≠ some .set ∧
      (∀ s targets, s.call? = some (.clause (.intoTargets targets)) → (b.run steps).Refuses s) ∧
      ∀ s pairs, s.call? = some (.set pairs) → (b.run steps).inUpdate = false →
        (b.run steps).Refuses s) ∧
    (b.settings.dialect.IsOf .postgresql → (∀ d, .setDialect d ∈ steps → d.IsOf .postgresql) →
      (b.run steps).statement.verb ≠ some .replace ∧
      ∀ s table row, s.call? = some (.verb (.replace table row)) → (b.run steps).Refuses s) := by
  have hempty : ∀ family : Family, family.Permits b.statement := by
    intro family
    rw [hnew.statement]
    exact family.permits_empty
  refine ⟨fun hb hsteps => ?_, fun hb hsteps => ?_⟩
  · have hafter : (b.run steps).settings.dialect.IsOf .sqlite := dialect_of_run hb hsteps
    obtain ⟨htargets, hset⟩ := permits_run hb (hempty .sqlite) hsteps
    refine ⟨htargets, hset, fun s targets hcall => ?_, fun s pairs hcall hupdate => ?_⟩
    · exact refuses_of_isProhibited hafter hcall rfl
    · exact refuses_of_isProhibited hafter hcall (by simp [isProhibited, hupdate])
  · have hafter : (b.run steps).settings.dialect.IsOf .postgresql := dialect_of_run hb hsteps
    refine ⟨permits_run hb (hempty .postgresql) hsteps, fun s table row hcall => ?_⟩
    exact refuses_of_isProhibited hafter hcall rfl

/-- A configured dialect that supports `set` again, another one on top of it that
supports `into` again, and a change of the dialect; and a dialect of PostgreSQL's
family that supports `replace` again. -/
theorem prohibitions_cannot_be_configured_away_reenabled :
    let lax : DialectDefinition :=
      { name := "Lax", basedOn := some "SQLite3", verbs := [("set", true)] }
    let laxer : DialectDefinition :=
      { name := "Laxer", basedOn := some "Lax", clauses := [("into", true)] }
    let c : Config := { dialect := "Laxer", dialects := [lax, laxer] }
    let select : Step := .call (.verb (.select [.name "a"] {}))
    let replacing : Builder :=
      ofDialect (Dialect.define "Replacing" [.basedOn .postgresql92, .verb .replace .supported])
        .universal
    (∃ r b, ofConfig c .builtIn .universal = (r, .ok b) ∧
      b.settings.dialect.verbs .set = .supported ∧
      b.settings.dialect.clauses .intoTargets = .supported ∧
      (b.step select).2 = .ok () ∧
      (b.run [select]).Refuses (.call (.clause (.intoTargets ["x"]))) ∧
      (b.run [select, .setDialect .sqlite3]).Refuses (.call (.set [("x", .int 1)]))) ∧
    replacing.settings.dialect.verbs .replace = .supported ∧
      replacing.Refuses (.call (.verb (.replace "t" [("a", .int 1)]))) := by
  intro lax laxer c select replacing
  let d := Dialect.define "Laxer" [.basedOn (Dialect.define "Lax" [.basedOn .sqlite3,
    .verb .set .supported]), .clause .intoTargets .supported]
  have hconfig : ofConfig c .builtIn .universal = (_, .ok (ofDialect d .universal)) := rfl
  have hd : d.IsOf .sqlite := by
    refine ⟨rfl, fun m o h => ?_, fun m o h => ?_⟩ <;> cases m <;> cases h
  have hsqlite : Dialect.IsOf .sqlite .sqlite3 := ⟨rfl, Dialect.pagesOnly_sqlite3⟩
  have hselected := (prohibitions_cannot_be_configured_away (.ofConfig hconfig) [select]).1 hd
    (by simp [select])
  have hswitched := (prohibitions_cannot_be_configured_away (.ofConfig hconfig)
    [select, .setDialect .sqlite3]).1 hd (by simp [select, hsqlite])
  have hreplacing : replacing.settings.dialect.IsOf .postgresql := by
    refine ⟨rfl, fun m o h => ?_, fun m o h => ?_⟩
    · cases m <;> cases h
    · cases m with
      | limit => exact ⟨rfl, (Support.custom.inj h).symm⟩
      | _ => cases h
  have hreplaced := (prohibitions_cannot_be_configured_away (.ofDialect _ _) []).2 hreplacing
    (by simp)
  refine ⟨⟨_, _, hconfig, rfl, rfl, rfl, ?_, ?_⟩, rfl, ?_⟩
  · exact hselected.2.2.1 _ _ rfl
  · exact hswitched.2.2.2 _ _ rfl rfl
  · exact hreplaced.2 _ _ _ rfl

end Builder

end SqlBuilder
