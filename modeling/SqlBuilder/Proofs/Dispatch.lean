import SqlBuilder.Proofs.Methods

/-!
# The dispatch of calls

Every method has an entry in the dialect, and a call is dispatched on the entry
that it consults: it is refused, handed to an override, or run by the built-in
method. An assignment consults the entry of the clause in an update and the
entry of the verb elsewhere; outside an update the families without variables
refuse it before that.

Under a dialect that overrides nothing but paging, in the built-in way, a call
is either refused at the door or run by the built-in method.

* `Builder.entry`, `Builder.refusal` — the entry of a call, and its fault where
  the entry refuses it;
* `Builder.isForestalled` — the calls that are refused before that;
* `perform_eq_dispatch` — every other call is dispatched on its entry;
* `Dialect.PagesOnly` — the dialects that override nothing but paging, the
  built-in ones among them, and `Builder.PagesAtMost`, the same of one call;
* `Builder.gate`, `Builder.builtIn` — the door and the method;
* `perform_eq_settle` — a call is the one after the other.
-/

namespace SqlBuilder

/-- A dialect whose only override, if it has one, is the built-in paging. -/
structure Dialect.PagesOnly (d : Dialect) : Prop where
  verbs : ∀ m o, d.verbs m ≠ .custom o
  clauses : ∀ m o, d.clauses m = .custom o → m = .limit ∧ o = Dialect.pagingOverride

namespace Dialect

theorem pagesOnly_sql92 : sql92.PagesOnly where
  verbs := fun _ _ h => by cases h
  clauses := fun _ _ h => by cases h

theorem pagesOnly_mysql55 : mysql55.PagesOnly where
  verbs := fun _ _ h => by cases h
  clauses := fun _ _ h => by cases h

theorem pagesOnly_sqlite3 : sqlite3.PagesOnly where
  verbs := fun m _ h => by cases m <;> cases h
  clauses := fun m _ h => by cases m <;> cases h

theorem pagesOnly_postgresql92 : postgresql92.PagesOnly where
  verbs := fun m _ h => by cases m <;> cases h
  clauses := fun m _ h => by
    cases m
    case limit => exact ⟨rfl, (Support.custom.inj h).symm⟩
    all_goals cases h

end Dialect

/-- Whether a dialect lets a call through. -/
def Support.gate (support : Support) (refusal : Fault) : Except Fault Unit :=
  match support with
  | .unsupported => .error refusal
  | _ => .ok ()

namespace Builder

variable {b : Builder} {c : Call Builder}

/-- Whether a call reaches the built-in method. -/
def gate (b : Builder) : Call Builder → Except Fault Unit
  | .verb c =>
    (b.settings.dialect.verbs c.method).gate
      (.verbRefused c.method b.settings.dialect.description)
  | .clause c =>
    (b.settings.dialect.clauses c.method).gate
      (.clauseRefused c.method b.settings.dialect.description)
  | .set _ =>
    if b.inUpdate then
      (b.settings.dialect.clauses .set).gate
        (.clauseRefused .set b.settings.dialect.description)
    else if b.settings.dialect.family = .sqlite then
      .error (.variablesRefused b.settings.dialect.description)
    else
      (b.settings.dialect.verbs .set).gate (.verbRefused .set b.settings.dialect.description)

/-- The built-in method of a call. -/
def builtIn (b : Builder) : Call Builder → Except Fault Builder
  | .verb c => b.startVerb c
  | .clause c => b.fillClause c
  | .set pairs => if b.inUpdate then b.assignColumns pairs else b.assignVariables pairs

/-! ## Entries -/

/-- The entry of the dialect that a call consults. -/
def entry (b : Builder) : Call Builder → Support
  | .verb c => b.settings.dialect.verbs c.method
  | .clause c => b.settings.dialect.clauses c.method
  | .set _ => if b.inUpdate then b.settings.dialect.clauses .set else b.settings.dialect.verbs .set

/-- The fault of a call that its entry refuses. -/
def refusal (b : Builder) : Call Builder → Fault
  | .verb c => .verbRefused c.method b.settings.dialect.description
  | .clause c => .clauseRefused c.method b.settings.dialect.description
  | .set _ =>
    if b.inUpdate then .clauseRefused .set b.settings.dialect.description
    else .verbRefused .set b.settings.dialect.description

/-- Whether a call is refused before its entry is consulted: an assignment of
variables where the family has none. -/
def isForestalled (b : Builder) : Call Builder → Bool
  | .set _ => !b.inUpdate && b.settings.dialect.family = .sqlite
  | _ => false

theorem kind_refusal (b : Builder) (c : Call Builder) : (b.refusal c).kind = .unsupported := by
  cases c with
  | verb c => rfl
  | clause c => rfl
  | set pairs =>
    rw [refusal]
    split <;> rfl

/-- **A call is dispatched on its entry**, unless it is refused before that. -/
theorem perform_eq_dispatch (h : b.isForestalled c = false) :
    b.perform c = b.dispatch (b.entry c) (b.refusal c) c (b.builtIn c) := by
  cases c with
  | verb c => exact b.perform_verb c
  | clause c => exact b.perform_clause c
  | set pairs =>
    by_cases hupdate : b.inUpdate = true
    · simp only [perform_set, entry, refusal, builtIn, if_pos hupdate]
    · have hfamily : b.settings.dialect.family ≠ .sqlite := by
        simpa [isForestalled, hupdate] using h
      simp only [perform_set, entry, refusal, builtIn, if_neg hupdate, if_neg hfamily]

theorem perform_of_isForestalled (h : b.isForestalled c = true) :
    b.perform c = (b, .error (.variablesRefused b.settings.dialect.description)) := by
  cases c with
  | verb c => cases h
  | clause c => cases h
  | set pairs =>
    obtain ⟨hupdate, hfamily⟩ : b.inUpdate = false ∧ b.settings.dialect.family = .sqlite := by
      simpa [isForestalled] using h
    simp only [perform_set, hupdate, if_pos hfamily, Bool.false_eq_true, if_false]

/-- The door of a call is its entry. -/
theorem gate_eq (h : b.isForestalled c = false) : b.gate c = (b.entry c).gate (b.refusal c) := by
  cases c with
  | verb c | clause c => rfl
  | set pairs =>
    by_cases hupdate : b.inUpdate = true
    · simp only [gate, entry, refusal, if_pos hupdate]
    · have hfamily : b.settings.dialect.family ≠ .sqlite := by
        simpa [isForestalled, hupdate] using h
      simp only [gate, entry, refusal, if_neg hupdate, if_neg hfamily]

theorem gate_of_isForestalled (h : b.isForestalled c = true) :
    b.gate c = .error (.variablesRefused b.settings.dialect.description) := by
  cases c with
  | verb c | clause c => cases h
  | set pairs =>
    obtain ⟨hupdate, hfamily⟩ : b.inUpdate = false ∧ b.settings.dialect.family = .sqlite := by
      simpa [isForestalled] using h
    simp only [gate, hupdate, if_pos hfamily, Bool.false_eq_true, if_false]

/-! ## Calls that are not overridden -/

/-- A call is overridden by nothing but the built-in paging. -/
def PagesAtMost (b : Builder) (c : Call Builder) : Prop :=
  ∀ override, b.entry c = .custom override →
    override = Dialect.pagingOverride ∧ ∃ index count, c = .clause (.limit index count)

/-- Under a dialect that overrides nothing but paging, no call is overridden by
anything else. -/
theorem pagesAtMost_of_pagesOnly (hb : b.settings.dialect.PagesOnly) (c : Call Builder) :
    b.PagesAtMost c := by
  intro override hentry
  cases c with
  | verb c => exact absurd hentry (hb.verbs _ _)
  | clause c =>
    obtain ⟨hlimit, hpaging⟩ := hb.clauses _ _ hentry
    cases c with
    | limit index count => exact ⟨hpaging, index, count, rfl⟩
    | _ => cases hlimit
  | set pairs =>
    rw [entry] at hentry
    split at hentry
    · cases (hb.clauses _ _ hentry).1
    · exact absurd hentry (hb.verbs _ _)

/-- Paging fills the slots that the built-in method fills. -/
theorem pagingOverride_eq_fillClause (b : Builder) (index : Nat) (count : Option Nat) :
    b.dispatch (.custom Dialect.pagingOverride)
        (.clauseRefused .limit b.settings.dialect.description) (.clause (.limit index count))
        (b.fillClause (.limit index count))
      = b.settle (b.fillClause (.limit index count)) := by
  cases count <;> rfl

/-- A call that is overridden by nothing but paging is refused at the door or runs
the built-in method. -/
theorem perform_eq_settle_of_pagesAtMost (hc : b.PagesAtMost c) :
    b.perform c = b.settle (do b.gate c; b.builtIn c) := by
  cases hforestalled : b.isForestalled c with
  | true =>
    rw [perform_of_isForestalled hforestalled, gate_of_isForestalled hforestalled]
    rfl
  | false =>
    rw [perform_eq_dispatch hforestalled, gate_eq hforestalled]
    cases hentry : b.entry c with
    | supported | unsupported => rfl
    | custom override =>
      -- the one override that is left pages like the built-in method
      obtain ⟨rfl, index, count, rfl⟩ := hc override hentry
      exact pagingOverride_eq_fillClause b index count

/-- **A call is refused at the door or runs the built-in method**, where a
dialect overrides nothing but paging. -/
theorem perform_eq_settle {b : Builder} (h : b.settings.dialect.PagesOnly)
    (call : Call Builder) :
    b.perform call = b.settle (do b.gate call; b.builtIn call) :=
  perform_eq_settle_of_pagesAtMost (pagesAtMost_of_pagesOnly h call)

end Builder

end SqlBuilder
