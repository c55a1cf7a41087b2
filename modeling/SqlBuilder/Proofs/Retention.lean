import Mathlib.Data.List.ReduceOption
import SqlBuilder.Proofs.Effects
import SqlBuilder.Proofs.Layout

/-!
# Conditions are kept

A condition that was accepted for an update or a deletion is in its text, and so
is every assignment: nothing that happens in between can lose them, and nothing
from an earlier statement gets in. A condition lost on the way would change
every row of a table.

What a statement should say is collected along the run, from the steps alone: a
step that is accepted adds its assignments and puts its condition in place of
the one before. The invariant is that the statement under way holds exactly what
was collected.

* `Builder.along` — something that every step of a run gives;
* `startsStatement`, `assigned`, `filter?` — what a step gives;
* `IsWriting` — the invariant;
* `IsWriting.step`, `IsWriting.run` — one step and a run;
* `condition_is_kept` — the texts of updates and deletions.
-/

namespace SqlBuilder

namespace Builder

/-! ## What steps give -/

/-- The call that a step makes, if it is accepted. -/
def accepted? (b : Builder) (s : Step) : Option (Call Builder) :=
  match (b.step s).2 with
  | .ok _ => s.call?
  | .error _ => none

/-- Whether a step starts a statement: a verb, or an assignment to variables. -/
def startsStatement (b : Builder) (s : Step) : Bool :=
  match b.accepted? s with
  | some (.verb _) => true
  | some (.set _) => !b.inUpdate
  | _ => false

/-- The columns of a table that a step assigns, with the texts of their
values. -/
def assigned (table : String) (b : Builder) (s : Step) : List (String × String) :=
  match b.accepted? s with
  | some (.set pairs) => (b.settings.assignments (some table) pairs).toOption.getD []
  | _ => []

/-- The condition that a step sets. -/
def filter? (b : Builder) (s : Step) : Option String :=
  match b.accepted? s with
  | some (.clause (.filterBy f)) => (b.encoder.condition f).toOption
  | _ => none

/-- What the steps of a run give, each for the builder that it finds. -/
def along {α : Type} (f : Builder → Step → α) : Builder → List Step → List α
  | _, [] => []
  | b, s :: steps => f b s :: along f (b.step s).1 steps

/-- The columns that a run assigns, in order. -/
def allAssigned (table : String) (b : Builder) (steps : List Step) : List (String × String) :=
  (b.along (assigned table) steps).flatten

/-- The last condition that a run sets. -/
def lastFilter? (b : Builder) (steps : List Step) : Option String :=
  (b.along filter? steps).reduceOption.getLast?

variable {b : Builder} {s : Step}

theorem accepted?_of_ok {after : Builder} (h : b.step s = (after, .ok ())) :
    b.accepted? s = s.call? := by
  unfold accepted?
  rw [h]

theorem accepted?_of_error {fault : Fault} {after : Builder}
    (h : b.step s = (after, .error fault)) : b.accepted? s = none := by
  unfold accepted?
  rw [h]

/-- A step is not accepted and leaves the statement as it was, or it makes a
call and has the effect of that call. -/
theorem step_effect (hb : b.settings.dialect.PagesOnly) (s : Step) :
    (b.accepted? s = none ∧ (b.step s).1.statement = b.statement) ∨
      ∃ c, b.accepted? s = some c ∧ b.Effect c (b.step s).1 := by
  rcases b.step_cases s with ⟨c, hcall, hstep⟩ | ⟨-, fault, hstep⟩ | ⟨hcall, settings, hstep, -⟩
  · rcases b.perform_cases hb c with ⟨fault, hperform⟩ | ⟨after, hperform, heffect⟩
    · rw [hperform] at hstep
      exact .inl ⟨accepted?_of_error hstep, by rw [hstep]⟩
    · rw [hperform] at hstep
      refine .inr ⟨c, ?_, ?_⟩
      · rw [accepted?_of_ok hstep, hcall]
      · rw [hstep]
        exact heffect
  · exact .inl ⟨accepted?_of_error hstep, by rw [hstep]⟩
  · refine .inl ⟨?_, by rw [hstep]⟩
    rw [accepted?_of_ok hstep, hcall]

/-! ## The invariant -/

/-- The statement under way is the one of a verb about a table, with these
assignments and this condition. -/
structure IsWriting (b : Builder) (verb : Verb) (table : String)
    (values : List (String × String)) (condition : Option String) : Prop where
  verb : b.statement.verb = some verb
  name : b.statement.name = table
  values : b.statement.values = values
  condition : b.statement.condition = condition

variable {verb : Verb} {table : String} {values : List (String × String)}
  {condition : Option String}

/-- A step that makes no call, or whose call is rejected, gives nothing. -/
theorem IsWriting.of_not_accepted (h : b.IsWriting verb table values condition)
    (hs : b.accepted? s = none) {after : Builder} (hafter : after.statement = b.statement) :
    after.IsWriting verb table (values ++ b.assigned table s)
      ((b.filter? s).or condition) := by
  have hassigned : b.assigned table s = [] := by simp only [assigned, hs]
  have hfilter : b.filter? s = none := by simp only [filter?, hs]
  rw [hassigned, hfilter, List.append_nil, Option.none_or]
  exact ⟨hafter ▸ h.verb, hafter ▸ h.name, hafter ▸ h.values, hafter ▸ h.condition⟩

/-- A clause changes the condition if it is a filter, and nothing else of the
statement that an update or a deletion writes. -/
theorem IsWriting.of_fills (h : b.IsWriting verb table values condition) {c : ClauseCall}
    {change : Statement → Statement} (hfills : b.settings.Fills c change)
    (hs : b.accepted? s = some (.clause c)) :
    IsWriting { b with statement := change b.statement } verb table
      (values ++ b.assigned table s) ((b.filter? s).or condition) := by
  have hassigned : b.assigned table s = [] := by simp only [assigned, hs]
  rw [hassigned, List.append_nil]
  by_cases hfilterBy : ∃ f, c = .filterBy f
  · obtain ⟨f, rfl⟩ := hfilterBy
    cases hfills with
    | @filterBy _ text hcondition =>
      have hfilter : b.filter? s = some text := by
        simp only [filter?, hs]
        exact congrArg Except.toOption hcondition
      rw [hfilter]
      exact ⟨h.verb, h.name, h.values, rfl⟩
  · have hfilter : b.filter? s = none := by
      simp only [filter?, hs]
      split
      · next f hf => exact absurd ⟨f, by injection hf with hf; injection hf⟩ hfilterBy
      · rfl
    rw [hfilter, Option.none_or]
    -- every other clause has a slot of its own
    cases hfills with
    | filterBy _ => exact absurd ⟨_, rfl⟩ hfilterBy
    | _ => exact ⟨h.verb, h.name, h.values, h.condition⟩

/-- **A step keeps the invariant**, unless it starts a statement. -/
theorem IsWriting.step (hb : b.settings.dialect.PagesOnly)
    (h : b.IsWriting verb table values condition) (hs : b.startsStatement s = false) :
    (b.step s).1.IsWriting verb table (values ++ b.assigned table s)
      ((b.filter? s).or condition) := by
  rcases step_effect hb s with ⟨hnone, hstatement⟩ | ⟨c, haccepted, heffect⟩
  · exact h.of_not_accepted hnone hstatement
  generalize (b.step s).1 = after at heffect
  cases heffect with
  | verb _ =>
    simp only [startsStatement, haccepted] at hs
    cases hs
  | clause hfills => exact h.of_fills hfills haccepted
  | @toColumns pairs added hupdate hvalues =>
    have hassigned : b.assigned table s = added := by
      simp only [assigned, haccepted]
      rw [← h.name, hvalues]
      rfl
    have hfilter : b.filter? s = none := by simp only [filter?, haccepted]
    rw [hassigned, hfilter, Option.none_or]
    exact ⟨h.verb, h.name, by rw [← h.values], h.condition⟩
  | toVariables hupdate _ _ =>
    simp only [startsStatement, haccepted, hupdate] at hs
    cases hs

/-- The last of some conditions, of which the first one is set apart. -/
theorem getLast?_reduceOption_cons {α : Type} (x : Option α) (xs : List (Option α)) :
    (x :: xs).reduceOption.getLast? = xs.reduceOption.getLast?.or x := by
  cases x with
  | none => rw [List.reduceOption_cons_of_none, Option.or_none]
  | some a =>
    rw [List.reduceOption_cons_of_some, List.getLast?_cons]
    cases xs.reduceOption.getLast? <;> rfl

/-- **A run keeps the invariant** until a statement is started. -/
theorem IsWriting.run (hb : b.settings.dialect.PagesOnly) {steps : List Step}
    (hsteps : ∀ d, .setDialect d ∈ steps → d.PagesOnly)
    (h : b.IsWriting verb table values condition)
    (hgoesOn : true ∉ b.along startsStatement steps) :
    (b.run steps).IsWriting verb table (values ++ b.allAssigned table steps)
      ((b.lastFilter? steps).or condition) := by
  -- what was collected so far grows with every step
  induction steps generalizing b values condition with
  | nil => simpa [allAssigned, lastFilter?, along, Builder.run, List.reduceOption] using h
  | cons s steps ih =>
    rw [along, List.mem_cons, not_or] at hgoesOn
    have hafter : (b.step s).1.settings.dialect.PagesOnly :=
      dialect_of_step hb fun d hd => hsteps d (hd ▸ List.mem_cons_self)
    have hstep := h.step hb (Bool.of_not_eq_true (Ne.symm hgoesOn.1))
    have hrest := ih hafter (fun d hd => hsteps d (List.mem_cons_of_mem s hd)) hstep hgoesOn.2
    -- what the first step gives comes first
    have hvalues : b.allAssigned table (s :: steps)
        = b.assigned table s ++ (b.step s).1.allAssigned table steps := List.flatten_cons
    have hfilter : b.lastFilter? (s :: steps)
        = ((b.step s).1.lastFilter? steps).or (b.filter? s) := getLast?_reduceOption_cons _ _
    rw [run_cons, hvalues, hfilter, ← List.append_assoc, Option.or_assoc]
    exact hrest

/-! ## Updates and deletions -/

/-- A verb about a table starts with nothing else in its statement. -/
theorem isWriting_of_starts (hb : b.settings.dialect.PagesOnly) {c : VerbCall Builder}
    (hc : ∀ st, b.settings.Starts c st → st = .named verb table)
    (haccepted : (b.step (.call (.verb c))).2 = .ok ()) :
    (b.step (.call (.verb c))).1.IsWriting verb table [] none := by
  have heffect : b.Effect (.verb c) (b.step (.call (.verb c))).1 :=
    effect_of_accepted hb haccepted
  generalize (b.step (.call (.verb c))).1 = after at heffect
  obtain ⟨hstarts⟩ := heffect
  rw [hc _ hstarts]
  exact ⟨rfl, rfl, rfl, rfl⟩

/-- A run that starts a statement about a table, and none after it. -/
theorem isWriting_of_run (hb : b.settings.dialect.PagesOnly) {before after : List Step}
    (hdialects : ∀ d, .setDialect d ∈ before ++ after → d.PagesOnly) {c : VerbCall Builder}
    (hc : ∀ s : Settings, ∀ st, s.Starts c st → st = .named verb table)
    (haccepted : ((b.run before).step (.call (.verb c))).2 = .ok ())
    (hgoesOn : true ∉ ((b.run before).step (.call (.verb c))).1.along startsStatement after) :
    (b.run (before ++ .call (.verb c) :: after)).IsWriting verb table
      (((b.run before).step (.call (.verb c))).1.allAssigned table after)
      (((b.run before).step (.call (.verb c))).1.lastFilter? after) := by
  have hbefore : (b.run before).settings.dialect.PagesOnly :=
    dialect_of_run hb fun d hd => hdialects d (List.mem_append_left _ hd)
  have hopened : ((b.run before).step (.call (.verb c))).1.settings.dialect.PagesOnly :=
    dialect_of_step hbefore fun d hd => by cases hd
  have hstart := isWriting_of_starts hbefore (hc _) haccepted
  have hrun := hstart.run hopened (fun d hd => hdialects d (List.mem_append_right _ hd)) hgoesOn
  rw [List.nil_append, Option.or_none] at hrun
  rw [run_append, run_cons]
  exact hrun

/-- **Conditions are kept.** After a run in which the last statement started is
an update or a deletion, the text is exactly the verb, the table, in an update
the assignments accepted since then, and the last condition accepted since then,
whatever was accepted or rejected in between and whatever was set before. -/
theorem condition_is_kept {b : Builder} (hb : b.settings.dialect.PagesOnly)
    {before after : List Step} (hdialects : ∀ d, .setDialect d ∈ before ++ after → d.PagesOnly)
    (table : String) :
    let start (c : VerbCall Builder) : Outcome := (b.run before).step (.call (.verb c))
    let text (c : VerbCall Builder) : Except Fault String :=
      (b.run (before ++ .call (.verb c) :: after)).renderWith ""
    ((start (.update table)).2 = .ok () →
      true ∉ (start (.update table)).1.along startsStatement after →
      text (.update table) = .ok ("UPDATE " ++ table
        ++ Statement.assignmentPart ((start (.update table)).1.allAssigned table after)
        ++ Statement.conditionPart ((start (.update table)).1.lastFilter? after))) ∧
    ((start (.deleteFrom table)).2 = .ok () →
      true ∉ (start (.deleteFrom table)).1.along startsStatement after →
      text (.deleteFrom table) = .ok ("DELETE FROM " ++ table
        ++ Statement.conditionPart ((start (.deleteFrom table)).1.lastFilter? after))) := by
  intro start text
  constructor
  · intro haccepted hgoesOn
    have hc : ∀ s : Settings, ∀ st, s.Starts (.update table) st → st = .named .update table := by
      intro s st hstarts
      cases hstarts
      rfl
    have h := isWriting_of_run hb hdialects hc haccepted hgoesOn
    show (b.run _).renderWith "" = _
    rw [renderWith_empty, Statement.text_update h.verb, h.name, h.values, h.condition]
  · intro haccepted hgoesOn
    have hc : ∀ s : Settings, ∀ st, s.Starts (.deleteFrom table) st →
        st = .named .delete table := by
      intro s st hstarts
      cases hstarts
      rfl
    have h := isWriting_of_run hb hdialects hc haccepted hgoesOn
    show (b.run _).renderWith "" = _
    rw [renderWith_empty, Statement.text_delete h.verb, h.name, h.condition]

/-- Conditions before and after a verb, one of them rejected and one replaced,
with a change of the dialect, a registered table and other clauses in
between. -/
theorem condition_is_kept_among_others :
    let isOne (key : String) : Step :=
      .call (.clause (.filterBy (.field key (.value (.int 1)))))
    let before : List Step := [.call (.verb (.select [] {})), isOne "old"]
    let after : List Step :=
      [isOne "a", .call (.set [("x", .bool true)]), .setDialect .mysql55, isOne "$eq", isOne "b",
        .call (.clause (.limit 3 none)), .register "t" [], .call (.set [("y", .null)])]
    let text (c : VerbCall Builder) (after : List Step) : Except Fault String :=
      ((Builder.new .universal).run (before ++ .call (.verb c) :: after)).renderWith ""
    text (.update "t") after = .ok "UPDATE t SET x = true, y = NULL WHERE b = 1" ∧
      text (.deleteFrom "t") [] = .ok "DELETE FROM t" := by
  intro isOne before after text
  have hdialects : ∀ d, .setDialect d ∈ before ++ after → d.PagesOnly := by
    intro d hd
    simp only [before, after, isOne, List.mem_append, List.mem_cons, List.not_mem_nil, or_false,
      reduceCtorEq, false_or, Step.setDialect.injEq] at hd
    rw [hd]
    exact Dialect.pagesOnly_mysql55
  have hnone : ∀ d, .setDialect d ∈ before ++ [] → d.PagesOnly := by
    intro d hd
    exact hdialects d (List.mem_append_left _ (by simpa using hd))
  have hnew : (Builder.new .universal).settings.dialect.PagesOnly := Dialect.pagesOnly_sql92
  constructor
  · let opened := (((Builder.new .universal).run before).step (.call (.verb (.update "t")))).1
    have hgoesOn : true ∉ opened.along startsStatement after := by decide +kernel
    have hassigned : opened.allAssigned "t" after = [("x", "true"), ("y", "NULL")] := by
      decide +kernel
    have hfilter : opened.lastFilter? after = some "b = 1" := by decide +kernel
    have htext := (condition_is_kept hnew hdialects "t").1 rfl hgoesOn
    rw [hassigned, hfilter] at htext
    exact htext
  · exact (condition_is_kept hnew hnone "t").2 rfl List.not_mem_nil

end Builder

end SqlBuilder
