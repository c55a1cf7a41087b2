import Mathlib.Data.List.Pairwise
import Mathlib.Data.List.Perm.Basic
import SqlBuilder.Proofs.Correspondence.Runs
import SqlBuilder.Proofs.Slots

/-!
# The order of clauses

Clauses can come in any order, as long as no two of them write the same slot.
What a clause does is decided by the settings, and for an assignment in an
update by the verb and the name of the statement, too. No clause writes any of
these, so every clause of a list gives the result that it would give alone. And
a clause reads nothing but its own slots, so two of them with different slots
can change places.

* `Statement.Writes` — changes that are confined to some slots, and
  `Statement.Writes.commute`, two of them with different slots;
* `Builder.continues` — the steps that go on with the statement;
* `Builder.change`, `Builder.written` — what such a step does to the statement,
  and the slots that it writes unless it fails;
* `step_of_alike` — such a step on any statement with the same verb and name;
* `run_eq_foldl`, `results_eq_map` — a run of them, and its results;
* `clauses_commute` — such a run in any order.
-/

namespace SqlBuilder

/-- A change of statements that is confined to some slots: it leaves all others,
and what it writes depends on what it finds in these slots only. -/
structure Statement.Writes (slots : List Slot) (change : Statement → Statement) : Prop where
  others : ∀ st slot, slot ∉ slots → (change st).get slot = st.get slot
  own : ∀ st st', (∀ slot ∈ slots, st.get slot = st'.get slot) →
    ∀ slot ∈ slots, (change st).get slot = (change st').get slot

namespace Statement.Writes

variable {slots slots' : List Slot} {f g : Statement → Statement}

theorem id : Writes [] id where
  others := fun _ _ _ => rfl
  own := fun _ _ _ _ hslot => absurd hslot List.not_mem_nil

/-- **Changes with different slots commute.** -/
theorem commute (hf : Writes slots f) (hg : Writes slots' g) (hslots : slots.Disjoint slots')
    (st : Statement) : g (f st) = f (g st) := by
  refine Statement.ext_get fun slot => ?_
  by_cases hslot : slot ∈ slots
  · -- the first change finds its own slots as they are without the second
    have hsame : ∀ own ∈ slots, st.get own = (g st).get own := by
      intro own hown
      exact (hg.others st own (hslots hown)).symm
    calc (g (f st)).get slot = (f st).get slot := hg.others _ _ (hslots hslot)
      _ = (f (g st)).get slot := hf.own _ _ hsame slot hslot
  · -- elsewhere the first change leaves no trace, neither before the second nor behind it
    have hsecond : (g (f st)).get slot = (g st).get slot := by
      by_cases hslot' : slot ∈ slots'
      · refine hg.own _ _ (fun own hown => ?_) slot hslot'
        exact hf.others st own fun hmem => hslots hmem hown
      · rw [hg.others _ _ hslot', hg.others _ _ hslot', hf.others _ _ hslot]
    calc (g (f st)).get slot = (g st).get slot := hsecond
      _ = (f (g st)).get slot := (hf.others _ _ hslot).symm

/-- New assignments behind those that are there. -/
theorem append (values : List (String × String)) :
    Writes [.values] fun st => { st with values := st.values ++ values } where
  others := by
    intro st slot hslot
    cases slot with
    | values => exact absurd List.mem_cons_self hslot
    | _ => rfl
  own := by
    intro st st' hsame slot hslot
    obtain rfl := List.mem_singleton.mp hslot
    have hvalues : st.values = st'.values := hsame .values List.mem_cons_self
    exact congrArg (· ++ values) hvalues

end Statement.Writes

/-- A clause writes its slots, whatever was in them. -/
theorem Settings.Fills.writes {s : Settings} {c : ClauseCall} {change : Statement → Statement}
    (h : s.Fills c change) : Statement.Writes c.slots change where
  others := fun st _ hslot => h.get hslot st
  own := by
    -- what the slot had before is lost, so nothing need be known about it
    intro st st' _ slot hslot
    cases h <;> cases slot <;> first | rfl | exact absurd hslot (by simp [ClauseCall.slots])

namespace Builder

variable {b b' : Builder} {s : Step}

/-! ## Steps that go on with the statement -/

/-- Whether a step goes on with the statement: a clause does, and an assignment
in an update. -/
def continues (b : Builder) : Step → Bool
  | .call (.clause _) | .filterByJson _ => true
  | .call (.set _) | .setJson _ => b.inUpdate
  | _ => false

/-- What a clause does to a statement, if the dialect lets it through. -/
def clauseChange (b : Builder) (c : ClauseCall) : Except Fault (Statement → Statement) := do
  b.gate (.clause c)
  b.settings.fill c

/-- What an assignment does to the statement of an update. -/
def assignmentChange (b : Builder) (pairs : List (String × Value)) :
    Except Fault (Statement → Statement) := do
  b.gate (.set pairs)
  let values ← b.settings.assignments (some b.statement.name) pairs
  return fun st => { st with values := st.values ++ values }

/-- What a step that goes on with the statement does to it. -/
def change (b : Builder) : Step → Except Fault (Statement → Statement)
  | .call (.clause c) => b.clauseChange c
  | .call (.set pairs) => b.assignmentChange pairs
  | .filterByJson filter => do
    let f ← Filter.ofJson filter
    b.clauseChange (.filterBy f)
  | .setJson values => do
    let pairs ← rowOfJson values
    b.assignmentChange pairs
  | _ => .ok id

/-- What a step does to the statement, which is nothing if it fails. -/
def changed (b : Builder) (s : Step) : Statement → Statement := (b.change s).toOption.getD id

/-- The slots that a step writes, which are none if it fails. -/
def written (b : Builder) (s : Step) : List Slot :=
  match (b.step s).2 with
  | .ok _ => s.slots
  | .error _ => []

theorem writes_of_clauseChange {c : ClauseCall} {change : Statement → Statement}
    (h : b.clauseChange c = .ok change) : Statement.Writes c.slots change := by
  obtain ⟨-, -, hfill⟩ := ok_of_bind h
  exact (Settings.fills_of_fill hfill).writes

theorem writes_of_assignmentChange {pairs : List (String × Value)}
    {change : Statement → Statement} (h : b.assignmentChange pairs = .ok change) :
    Statement.Writes [.values] change := by
  obtain ⟨-, -, hrest⟩ := ok_of_bind h
  obtain ⟨values, -, hchange⟩ := ok_of_bind hrest
  obtain rfl := Except.ok.inj hchange
  exact .append values

/-- What a step does is confined to its slots. -/
theorem writes_of_change {change : Statement → Statement} (h : b.change s = .ok change) :
    Statement.Writes s.slots change := by
  cases s with
  | call c =>
    cases c with
    | clause c => exact writes_of_clauseChange h
    | set pairs => exact writes_of_assignmentChange h
    | verb c =>
      obtain rfl := Except.ok.inj h
      exact .id
  | filterByJson filter =>
    obtain ⟨f, -, hchange⟩ := ok_of_bind h
    exact writes_of_clauseChange hchange
  | setJson values =>
    obtain ⟨pairs, -, hchange⟩ := ok_of_bind h
    exact writes_of_assignmentChange hchange
  | insertJson _ _ | setDialect _ | setTerminator _ | setUseUtc _ | register _ _ =>
    obtain rfl := Except.ok.inj h
    exact .id

/-! ## One step on many statements -/

/-- Builders with equal settings whose statements have the same verb and name. -/
structure Alike (b b' : Builder) : Prop where
  settings : b'.settings = b.settings
  verb : b'.statement.verb = b.statement.verb
  name : b'.statement.name = b.statement.name

theorem Alike.refl (b : Builder) : b.Alike b := ⟨rfl, rfl, rfl⟩

theorem Alike.inUpdate (h : b.Alike b') : b'.inUpdate = b.inUpdate := by
  rw [Builder.inUpdate, Builder.inUpdate, h.verb]

/-- A method that does nothing but change the statement. -/
theorem settle_change (b : Builder) (x : Except Fault (Statement → Statement)) :
    b.settle (do let change ← x; return { b with statement := change b.statement })
      = ({ b with statement := x.toOption.getD id b.statement }, x.map fun _ => ()) := by
  cases x <;> rfl

theorem perform_clause_of_alike (hb : b.settings.dialect.PagesOnly) (h : b.Alike b')
    (c : ClauseCall) :
    b'.perform (.clause c)
      = ({ b' with statement := (b.clauseChange c).toOption.getD id b'.statement },
          (b.clauseChange c).map fun _ => ()) := by
  have hb' : b'.settings.dialect.PagesOnly := h.settings ▸ hb
  have hgate : b'.gate (.clause c) = b.gate (.clause c) := by rw [gate, gate, h.settings]
  rw [perform_eq_settle hb', hgate, ← settle_change, clauseChange]
  -- both the gate and the texts of the clause depend on the settings only
  cases b.gate (.clause c) with
  | error fault => rfl
  | ok _ => rw [builtIn, fillClause, h.settings]; rfl

theorem perform_set_of_alike (hb : b.settings.dialect.PagesOnly) (h : b.Alike b')
    (hupdate : b.inUpdate = true) (pairs : List (String × Value)) :
    b'.perform (.set pairs)
      = ({ b' with statement := (b.assignmentChange pairs).toOption.getD id b'.statement },
          (b.assignmentChange pairs).map fun _ => ()) := by
  have hb' : b'.settings.dialect.PagesOnly := h.settings ▸ hb
  have hupdate' : b'.inUpdate = true := h.inUpdate.trans hupdate
  have hgate : b'.gate (.set pairs) = b.gate (.set pairs) := by
    rw [gate, gate, h.settings, h.inUpdate]
  rw [perform_eq_settle hb', hgate, ← settle_change, assignmentChange]
  cases b.gate (.set pairs) with
  | error fault => rfl
  | ok _ =>
    -- the validators are those of the table of the update, which has the same name
    have hvalues : b'.settings.assignments (some b'.statement.name) pairs
        = b.settings.assignments (some b.statement.name) pairs := by rw [h.settings, h.name]
    rw [builtIn, if_pos hupdate', assignColumns, Settings.assignColumns, hvalues]
    cases b.settings.assignments (some b.statement.name) pairs <;> rfl

/-- A step that goes on with the statement, in terms of what it does. -/
theorem step_eq_change (hb : b.settings.dialect.PagesOnly) (h : b.Alike b')
    (hs : b.continues s = true) :
    b'.step s
      = ({ b' with statement := b.changed s b'.statement }, (b.change s).map fun _ => ()) := by
  -- what is read from JSON is the call that it stands for
  cases s with
  | call c =>
    cases c with
    | clause c => exact perform_clause_of_alike hb h c
    | set pairs => exact perform_set_of_alike hb h hs pairs
    | verb c => cases hs
  | filterByJson filter =>
    rw [step, changed, change]
    cases Filter.ofJson filter with
    | ok f => exact perform_clause_of_alike hb h (.filterBy f)
    | error fault => rfl
  | setJson values =>
    rw [step, changed, change]
    cases rowOfJson values with
    | ok pairs => exact perform_set_of_alike hb h hs pairs
    | error fault => rfl
  | insertJson _ _ | setDialect _ | setTerminator _ | setUseUtc _ | register _ _ => cases hs

/-- **A step that goes on with the statement does the same to every statement
with the same verb and name**, and has the same result. -/
theorem step_of_alike (hb : b.settings.dialect.PagesOnly) (h : b.Alike b')
    (hs : b.continues s = true) :
    b'.step s = ({ b' with statement := b.changed s b'.statement }, (b.step s).2) := by
  rw [step_eq_change hb h hs, step_eq_change hb (.refl b) hs]

/-- What a step does is confined to the slots that it writes. -/
theorem writes_changed (hb : b.settings.dialect.PagesOnly) (hs : b.continues s = true) :
    Statement.Writes (b.written s) (b.changed s) := by
  rw [written, step_eq_change hb (.refl b) hs, changed]
  cases hchange : b.change s with
  | ok change => exact writes_of_change hchange
  | error fault => exact .id

theorem written_subset_slots (b : Builder) (s : Step) : b.written s ⊆ s.slots := by
  unfold written
  split
  · exact List.Subset.refl _
  · exact List.nil_subset _

/-- A step that goes on with the statement leaves its verb and its name. -/
theorem alike_step (hb : b.settings.dialect.PagesOnly) (h : b.Alike b')
    (hs : b.continues s = true) : b.Alike (b'.step s).1 := by
  have hslots : .verb ∉ s.slots ∧ .name ∉ s.slots := ⟨s.verb_notMem_slots, s.name_notMem_slots⟩
  have hwrites := writes_changed hb hs
  rw [step_of_alike hb h hs]
  refine ⟨h.settings, ?_, ?_⟩
  · have hverb := hwrites.others b'.statement .verb fun hmem =>
      hslots.1 (b.written_subset_slots s hmem)
    exact hverb.trans h.verb
  · have hname := hwrites.others b'.statement .name fun hmem =>
      hslots.2 (b.written_subset_slots s hmem)
    exact hname.trans h.name

/-! ## A run of them -/

/-- A run that goes on with the statement is what its steps do, one after the
other. -/
theorem run_eq_foldl (hb : b.settings.dialect.PagesOnly) (h : b.Alike b') {steps : List Step}
    (hsteps : ∀ s ∈ steps, b.continues s = true) :
    b'.run steps
      = { b' with statement := steps.foldl (fun st s => b.changed s st) b'.statement } := by
  -- every builder along the run is alike to `b`, so `b` decides what each step does
  induction steps generalizing b' with
  | nil => rfl
  | cons s steps ih =>
    obtain ⟨hs, hrest⟩ := List.forall_mem_cons.mp hsteps
    rw [run_cons, ih (alike_step hb h hs) hrest, step_of_alike hb h hs, List.foldl_cons]

/-- Each step of such a run has the result that it has alone. -/
theorem results_eq_map (hb : b.settings.dialect.PagesOnly) (h : b.Alike b') {steps : List Step}
    (hsteps : ∀ s ∈ steps, b.continues s = true) :
    (b'.trace steps).map Prod.snd = steps.map fun s => (b.step s).2 := by
  induction steps generalizing b' with
  | nil => rfl
  | cons s steps ih =>
    obtain ⟨hs, hrest⟩ := List.forall_mem_cons.mp hsteps
    have hhead : (b'.step s).2 = (b.step s).2 := by rw [step_of_alike hb h hs]
    rw [trace, List.map_cons, List.map_cons, ih (alike_step hb h hs) hrest, hhead]

/-- What two steps with different slots do can change places, and so can what
one step does with itself. -/
theorem changed_comm (hb : b.settings.dialect.PagesOnly) {steps : List Step}
    (hsteps : ∀ s ∈ steps, b.continues s = true)
    (hslots : steps.Pairwise fun s s' => (b.written s).Disjoint (b.written s')) :
    ∀ s ∈ steps, ∀ s' ∈ steps, ∀ st,
      b.changed s' (b.changed s st) = b.changed s (b.changed s' st) := by
  -- a step that is taken twice stands in no pair, but it commutes with itself anyway
  have hpairwise : steps.Pairwise fun s s' =>
      ∀ st, b.changed s' (b.changed s st) = b.changed s (b.changed s' st) := by
    refine hslots.imp_of_mem fun hs hs' hdisjoint => ?_
    exact (writes_changed hb (hsteps _ hs)).commute (writes_changed hb (hsteps _ hs')) hdisjoint
  have hsymm : Std.Symm fun s s' =>
      ∀ st, b.changed s' (b.changed s st) = b.changed s (b.changed s' st) :=
    ⟨fun _ _ h st => (h st).symm⟩
  intro s hs s' hs'
  exact hpairwise.forall_of_forall (fun _ _ _ => rfl) hs hs'

/-- **Clauses commute.** Steps that go on with the statement, of which no two
write the same slot, are taken in any order, going on after failures, under a
dialect that overrides nothing but paging. Each of them has the result that it
has alone, the builder at the end is the same, and so is the text. -/
theorem clauses_commute (hb : b.settings.dialect.PagesOnly) {steps steps' : List Step}
    (hsteps : ∀ s ∈ steps, b.continues s = true)
    (hslots : steps.Pairwise fun s s' => (b.written s).Disjoint (b.written s'))
    (hperm : steps'.Perm steps) :
    b.run steps' = b.run steps ∧
      (b.trace steps).map Prod.snd = steps.map (fun s => (b.step s).2) ∧
      (b.trace steps').map Prod.snd = steps'.map (fun s => (b.step s).2) ∧
      ∀ terminator, (b.run steps').renderWith terminator = (b.run steps).renderWith terminator := by
  have hsteps' : ∀ s ∈ steps', b.continues s = true := fun s hs => hsteps s (hperm.mem_iff.mp hs)
  have hrun : b.run steps' = b.run steps := by
    have hsame : steps.foldl (fun st s => b.changed s st) b.statement
        = steps'.foldl (fun st s => b.changed s st) b.statement :=
      hperm.symm.foldl_eq' (changed_comm hb hsteps hslots) b.statement
    rw [run_eq_foldl hb (.refl b) hsteps', run_eq_foldl hb (.refl b) hsteps, hsame]
  exact ⟨hrun, results_eq_map hb (.refl b) hsteps, results_eq_map hb (.refl b) hsteps',
    fun terminator => by rw [hrun]⟩

/-- An update under PostgreSQL, whose paging is an override, with two clauses for
the same slot, of which one fails; the other way round, nothing changes. -/
theorem clauses_commute_reversed :
    let b := (Builder.ofDialect .postgresql92 .universal).run [.call (.verb (.update "t"))]
    let steps : List Step :=
      [.call (.clause (.orderBy ["a b"] none)), .call (.set [("a", .int 1)]),
        .call (.clause (.limit 5 (some 10))), .call (.clause (.orderBy ["a"] none)),
        .call (.clause (.filterBy (.field "id" (.value (.int 7)))))]
    (b.step (.call (.clause (.orderBy ["a b"] none)))).2 ≠ .ok () ∧
      (b.run steps).statement.sorting = some ⟨["a"], none⟩ ∧
      b.run steps.reverse = b.run steps := by
  intro b steps
  have hb : b.settings.dialect.PagesOnly := Dialect.pagesOnly_postgresql92
  have hsteps : ∀ s ∈ steps, b.continues s = true := by
    simp only [steps, List.forall_mem_cons]
    exact ⟨rfl, rfl, rfl, rfl, rfl, fun _ h => absurd h List.not_mem_nil⟩
  have hwritten : steps.map b.written
      = [[], [.values], [.limit, .offset], [.sorting], [.condition]] := rfl
  have hslots : steps.Pairwise fun s s' => (b.written s).Disjoint (b.written s') := by
    rw [← List.pairwise_map, hwritten]
    simp
  have hcommutes := clauses_commute hb hsteps hslots (List.reverse_perm steps)
  refine ⟨?_, rfl, hcommutes.1⟩
  intro hok
  cases hok

end Builder

end SqlBuilder
