import SqlBuilder.Proofs.Effects

/-!
# Rejected calls

A call that is rejected leaves no trace, although a method could leave one: what
it has written before it fails stays written. The built-in methods write when
all their checks are behind them (`outcome_startVerb`, `outcome_fill` and the
two assignments), so that a fault in the last value of a row, in the last column
of a table or in a statement inside another one leaves the builder as it was:
its settings, its registered tables and every slot of its statement.

An override can break this, and only an override can: it may change the
statement and fail all the same. Overrides that do not are called atomic.

A caller that goes on after a fault can rely on it: its statement is the one that
the accepted steps alone lead to (`run_acceptedSteps`). That law is meant for the
users of the builder, and nothing else here rests on it.

* `Override.IsAtomic`, `Dialect.IsAtomic` — what is asked of overrides;
* `Dialect.PagesOnly.isAtomic` — paging is atomic;
* `perform_of_error`, `step_of_error` — a rejected call, a rejected step;
* `run_acceptedSteps` — rejected steps can be left out of a run.
-/

namespace SqlBuilder

/-! ## Atomic overrides -/

/-- An override that leaves the statement as it was wherever it fails. -/
def Override.IsAtomic (o : Override) : Prop :=
  ∀ st call fault, (o st call).2 = .error fault → (o st call).1 = st

/-- A dialect with nothing but atomic overrides. -/
structure Dialect.IsAtomic (d : Dialect) : Prop where
  verbs : ∀ m o, d.verbs m = .custom o → Override.IsAtomic o
  clauses : ∀ m o, d.clauses m = .custom o → Override.IsAtomic o

namespace Dialect

/-- Paging fails for other calls only, and then it changes nothing. -/
theorem isAtomic_pagingOverride : Override.IsAtomic pagingOverride := by
  intro st call fault h
  unfold pagingOverride at *
  split at h
  · cases h
  · cases h
  · rfl

theorem PagesOnly.isAtomic {d : Dialect} (h : d.PagesOnly) : d.IsAtomic where
  verbs := fun m o ho => absurd ho (h.verbs m o)
  clauses := by
    intro m o ho
    obtain ⟨-, rfl⟩ := h.clauses m o ho
    exact isAtomic_pagingOverride

end Dialect

namespace Builder

variable {b : Builder} {fault : Fault}

/-! ## Calls and steps -/

theorem settle_of_error {method : Except Fault Builder} (h : (b.settle method).2 = .error fault) :
    (b.settle method).1 = b := by
  cases method with
  | ok after => cases h
  | error _ => rfl

/-- A method that is rejected changes nothing, whoever rejects it: the dialect,
an atomic override or the built-in method. -/
theorem dispatch_of_error {support : Support}
    (hatomic : ∀ o, support = .custom o → Override.IsAtomic o) {refusal : Fault}
    {call : Call Builder} {method : Except Fault Builder}
    (h : (b.dispatch support refusal call method).2 = .error fault) :
    (b.dispatch support refusal call method).1 = b := by
  cases support with
  | supported => exact settle_of_error h
  | unsupported => rfl
  | custom o =>
    have hstatement : (o b.statement (call.map view)).1 = b.statement :=
      hatomic o rfl _ _ _ h
    show { b with statement := (o b.statement (call.map view)).1 } = b
    rw [hstatement]

/-- Under a dialect with nothing but atomic overrides, the override that a call
consults is atomic. -/
theorem isAtomic_of_entry (hb : b.settings.dialect.IsAtomic) {c : Call Builder} {o : Override}
    (ho : b.entry c = .custom o) : Override.IsAtomic o := by
  cases c with
  | verb c => exact hb.verbs _ o ho
  | clause c => exact hb.clauses _ o ho
  | set pairs =>
    -- an assignment is a clause in an update and a verb elsewhere
    rw [entry] at ho
    split at ho
    · exact hb.clauses _ o ho
    · exact hb.verbs _ o ho

theorem perform_of_error (hb : b.settings.dialect.IsAtomic) {c : Call Builder}
    (h : (b.perform c).2 = .error fault) : (b.perform c).1 = b := by
  cases hforestalled : b.isForestalled c with
  | true => rw [perform_of_isForestalled hforestalled]
  | false =>
    rw [perform_eq_dispatch hforestalled] at h ⊢
    exact dispatch_of_error (fun o ho => isAtomic_of_entry hb ho) h

theorem step_of_error (hb : b.settings.dialect.IsAtomic) {s : Step}
    (h : (b.step s).2 = .error fault) : (b.step s).1 = b := by
  rcases b.step_cases s with ⟨c, -, hstep⟩ | ⟨-, unreadable, hstep⟩ | ⟨-, settings, hstep, -⟩
  · rw [hstep] at h ⊢
    exact perform_of_error hb h
  · -- the arguments could not be read
    rw [hstep]
  · -- a change of the settings is never rejected
    rw [hstep] at h
    cases h

/-! ## Runs -/

/-- The steps of a run that are accepted when their turn comes. -/
def acceptedSteps (b : Builder) : List Step → List Step
  | [] => []
  | s :: steps =>
    match (b.step s).2 with
    | .ok _ => s :: (b.step s).1.acceptedSteps steps
    | .error _ => (b.step s).1.acceptedSteps steps

/-- **Rejected steps can be left out of a run**, if the dialects of the run have
atomic overrides only: whoever goes on after a fault need not start again. -/
theorem run_acceptedSteps (hb : b.settings.dialect.IsAtomic) {steps : List Step}
    (hsteps : ∀ d, .setDialect d ∈ steps → d.IsAtomic) :
    b.run (b.acceptedSteps steps) = b.run steps := by
  induction steps generalizing b with
  | nil => rfl
  | cons s steps ih =>
    have hafter : (b.step s).1.settings.dialect.IsAtomic :=
      dialect_of_step hb fun d hd => hsteps d (hd ▸ List.mem_cons_self)
    have hrest := ih hafter fun d hd => hsteps d (List.mem_cons_of_mem s hd)
    rw [acceptedSteps, run_cons]
    cases hresult : (b.step s).2 with
    | ok _ => exact hrest
    | error fault =>
      -- the rejected step has brought about the builder there was
      rw [step_of_error hb hresult] at *
      exact hrest

/-- **Rejected calls are atomic.** Whatever step is rejected, be it refused by
the dialect, by a check of its arguments or by an atomic override, it leaves
the builder exactly as it was. -/
theorem unchanged_of_rejected {b : Builder} (hb : b.settings.dialect.IsAtomic) {s : Step}
    {fault : Fault} (h : (b.step s).2 = .error fault) : (b.step s).1 = b :=
  step_of_error hb h

/-- In an update under PostgreSQL: an assignment whose last value is no variable,
and a table whose last column has a type that is unknown. -/
theorem unchanged_of_rejected_postgresql :
    let b := (Builder.ofDialect .postgresql92 .universal).run
      [.call (.verb (.update "t")), .call (.set [("a", .int 1)])]
    let set : Step := .call (.set [("b", .int 2), ("c", .text "@ x")])
    let create : Step := .call (.verb (.createTable "u" [("a", { typeName := "int" }),
      ("b", { typeName := "number" })]))
    b.renderWith "" = .ok "UPDATE t SET a = 1" ∧
      (b.step set).2 = .error (.unsafeText "@ x") ∧ (b.step set).1 = b ∧
      (b.step create).2 = .error (.unknownColumnType "b" "number") ∧ (b.step create).1 = b := by
  intro b set create
  have hatomic : b.settings.dialect.IsAtomic := Dialect.pagesOnly_postgresql92.isAtomic
  have hset : (b.step set).2 = .error (.unsafeText "@ x") := rfl
  have hcreate : (b.step create).2 = .error (.unknownColumnType "b" "number") := by rfl
  exact ⟨rfl, hset, unchanged_of_rejected hatomic hset, hcreate,
    unchanged_of_rejected hatomic hcreate⟩

end Builder

end SqlBuilder
