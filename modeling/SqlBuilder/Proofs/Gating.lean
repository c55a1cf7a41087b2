import SqlBuilder.Proofs.Dispatch
import SqlBuilder.Proofs.Encodings

/-!
# The entry that a call consults

The entry of a method decides what a call does: nothing, what an override does,
or what the built-in method does under a dialect that has no entries at all.

An override is given the current statement and the call. Of the builders inside
the call, the body of a view or the operands of a union, it is given the views:
their statements with all their settings, the dialects that they are under, the
terminators, the clocks and the registered tables.

One method does not wait for its entry. Outside an update the families without
variables refuse an assignment first, and an override is never asked
(`override_not_consulted`).

* `Dialect.IsBare` — the dialects without entries;
* `perform_under_bare` — a supported call under such a dialect;
* `follows_entry` — what a call does under each entry.
-/

namespace SqlBuilder

/-- A dialect without entries: every method is supported. -/
structure Dialect.IsBare (d : Dialect) : Prop where
  verbs : ∀ m, d.verbs m = .supported
  clauses : ∀ m, d.clauses m = .supported

/-- A dialect that does not differ in its family and description writes the same
literals. -/
theorem Dialect.Resembles.writesAlike {s : Settings} {d : Dialect} (h : d.Resembles s.dialect)
    (v : Value) : s.WritesAlike d v := by
  have hencoder : (s.under d).encoder = s.encoder := by
    rw [Settings.encoder, Settings.encoder, Settings.dialect_under, h.family]
    rfl
  rw [Settings.WritesAlike, hencoder]

theorem VerbCall.map_id {α : Type} (c : VerbCall α) : c.map id = c := by
  cases c <;> rfl

theorem Call.map_id {α : Type} (c : Call α) : c.map id = c := by
  cases c with
  | verb c => rw [Call.map, VerbCall.map_id]
  | clause c => rfl
  | set pairs => rfl

namespace Builder

variable {b : Builder} {d : Dialect} {c : Call Builder}

/-! ## Under a dialect without entries -/

theorem isForestalled_under (h : d.Resembles b.settings.dialect) (c : Call Builder) :
    (b.under d).isForestalled c = b.isForestalled c := by
  cases c with
  | verb c => rfl
  | clause c => rfl
  | set pairs => simp only [isForestalled, settings_under, Settings.dialect_under, h.family]; rfl

theorem entry_of_isBare (h : b.settings.dialect.IsBare) (c : Call Builder) :
    b.entry c = .supported := by
  cases c with
  | verb c => exact h.verbs c.method
  | clause c => exact h.clauses c.method
  | set pairs =>
    rw [entry, h.verbs, h.clauses]
    split <;> rfl

/-- A call whose entry supports it does what it does without any entries. -/
theorem perform_under_bare (hentry : b.entry c = .supported) (hbare : d.IsBare)
    (h : d.Resembles b.settings.dialect) :
    (b.under d).perform c = Outcome.under (b.perform c) d := by
  -- the family decides whether the entry is consulted at all, and both have the same
  cases hforestalled : b.isForestalled c with
  | true =>
    have hunder : (b.under d).isForestalled c = true := by
      rw [isForestalled_under h, hforestalled]
    rw [perform_of_isForestalled hforestalled, perform_of_isForestalled hunder, settings_under,
      Settings.dialect_under, h.description]
    rfl
  | false =>
    have hunder : (b.under d).isForestalled c = false := by
      rw [isForestalled_under h, hforestalled]
    have hmethod : (b.under d).builtIn c = (b.builtIn c).map (·.under d) := by
      have hmapped := builtIn_under (c := c) (f := id) (fun _ => rfl) (fun _ => h)
        fun v _ => h.writesAlike v
      rwa [Call.map_id] at hmapped
    rw [perform_eq_dispatch hforestalled, perform_eq_dispatch hunder, hentry,
      entry_of_isBare hbare, hmethod]
    exact settle_under b d (b.builtIn c)

/-! ## What a call does under each entry -/

/-- **A call follows its entry.** An entry that refuses the call makes it fail
and change nothing. An override decides the result and the statement, whatever
the built-in method or the family would have said, and nothing else changes. A
supported call does exactly what it does under a dialect of the same family and
description that has no entries. The one exception is an assignment of variables
where the family has none: it is refused whatever its entry. -/
theorem follows_entry (b : Builder) (c : Call Builder) :
    (b.entry c = .unsupported →
      ∃ fault, fault.kind = .unsupported ∧ b.perform c = (b, .error fault)) ∧
    (∀ override, b.entry c = .custom override → b.isForestalled c = false →
      b.perform c =
        ({ b with statement := (override b.statement (c.map view)).1 },
          (override b.statement (c.map view)).2)) ∧
    (b.entry c = .supported → ∀ d : Dialect, d.IsBare → d.Resembles b.settings.dialect →
      b.perform c = Outcome.under ((b.under d).perform c) b.settings.dialect) ∧
    (b.isForestalled c = true →
      b.perform c = (b, .error (.variablesRefused b.settings.dialect.description))) := by
  refine ⟨fun hentry => ?_, fun override hentry hforestalled => ?_,
    fun hentry d hbare hresembles => ?_, perform_of_isForestalled⟩
  · cases hforestalled : b.isForestalled c with
    | true => exact ⟨_, rfl, perform_of_isForestalled hforestalled⟩
    | false =>
      refine ⟨b.refusal c, b.kind_refusal c, ?_⟩
      rw [perform_eq_dispatch hforestalled, hentry]
      rfl
  · rw [perform_eq_dispatch hforestalled, hentry]
    rfl
  · rw [perform_under_bare hentry hbare hresembles]
    -- back under its own dialect, which no call changes
    have hdialect : (b.perform c).1.settings.dialect = b.settings.dialect := dialect_perform b c
    have hback : (b.perform c).1.under b.settings.dialect = (b.perform c).1 := by
      rw [← hdialect]
      rfl
    rw [Outcome.under, Outcome.under, under_under, hback]

/-- An assignment of variables that is overridden, and a replacement of rows that
is overridden in a family that has none; and the definition of a view, of which
the override looks at the terminator: the overrides alone decide. -/
theorem follows_entry_overridden :
    let renames : Override := fun st _ => ({ st with name := "z" }, .ok ())
    let peeks : Override := fun st call =>
      match call with
      | .verb (.createView _ view) => ({ st with name := view.terminator }, .ok ())
      | _ => (st, .ok ())
    let d := Dialect.define "D" [.basedOn .postgresql92, .verb .set (.custom renames),
      .verb .replace (.custom renames), .verb .createView (.custom peeks)]
    let b := Builder.ofDialect d .universal
    let inner := (Builder.new .universal).run [.setTerminator " GO"]
    let assigns : Call Builder := .set [("x", .int 1)]
    let replaces : Call Builder := .verb (.replace "t" [])
    let views : Call Builder := .verb (.createView "v" inner)
    b.entry assigns = .custom renames ∧ b.isForestalled assigns = false ∧
      b.perform assigns = ({ b with statement := { Statement.empty with name := "z" } }, .ok ()) ∧
    b.entry replaces = .custom renames ∧ b.isForestalled replaces = false ∧
      b.perform replaces
        = ({ b with statement := { Statement.empty with name := "z" } }, .ok ()) ∧
    b.entry views = .custom peeks ∧ b.isForestalled views = false ∧
      b.perform views
        = ({ b with statement := { Statement.empty with name := " GO" } }, .ok ()) := by
  intro renames peeks d b inner assigns replaces views
  have hassigns : b.isForestalled assigns = false := rfl
  have hreplaces : b.isForestalled replaces = false := rfl
  have hviews : b.isForestalled views = false := rfl
  exact ⟨rfl, hassigns, (follows_entry b assigns).2.1 renames rfl hassigns,
    rfl, hreplaces, (follows_entry b replaces).2.1 renames rfl hreplaces,
    rfl, hviews, (follows_entry b views).2.1 peeks rfl hviews⟩

/-- A family without variables refuses an assignment although the dialect
overrides it, and the override would have succeeded. -/
theorem override_not_consulted :
    let drops : Override := fun _ _ => (.named .dropTable "t", .ok ())
    let d := Dialect.define "D" [.basedOn .sqlite3, .verb .set (.custom drops)]
    let b := Builder.ofDialect d .universal
    let call : Call Builder := .set [("x", .int 1)]
    b.entry call = .custom drops ∧
      (drops b.statement (call.map view)).2 = .ok () ∧
      b.perform call = (b, .error (.variablesRefused "D")) ∧
      b.perform call ≠
        ({ b with statement := (drops b.statement (call.map view)).1 },
          (drops b.statement (call.map view)).2) := by
  intro drops d b call
  refine ⟨rfl, rfl, rfl, fun h => ?_⟩
  have hresult := congrArg Prod.snd h
  cases hresult

end Builder

end SqlBuilder
