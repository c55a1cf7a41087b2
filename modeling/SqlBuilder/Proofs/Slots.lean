import SqlBuilder.Proofs.Effects

/-!
# The slots that steps write

A statement is its slots, and a step writes few of them. A step that starts a
statement writes all slots, and reads none: what it does is decided by the
settings and its arguments, so the statement before it is forgotten. Any other
step leaves every slot but its own as it was, the verb among them. A change of
the settings has no slots at all, and no text of the statement depends on it.

* `Slot`, `Statement.get` — the slots of a statement;
* `ClauseCall.slots`, `Step.slots` — the slots that a step writes;
* `Builder.starts` — the steps that start a statement;
* `step_forgets` — such a step on two builders with different statements;
* `get_step` — the frame of all other steps;
* `verbs_forget_clauses_keep` — all of it together.
-/

namespace SqlBuilder

/-- A slot of a statement. -/
inductive Slot where
  | verb
  | unique
  | name
  | target
  | columns
  | definitions
  | values
  | view
  | operands
  | tables
  | join
  | condition
  | grouping
  | sorting
  | limit
  | offset
  | targets
  deriving DecidableEq, Repr

/-- What can be in a slot. -/
abbrev Slot.Content : Slot → Type
  | .verb => Option Verb
  | .unique => Bool
  | .name | .target => String
  | .columns => List Column
  | .definitions => List String
  | .values => List (String × String)
  | .view => Option String
  | .operands => Option (String × String)
  | .join => Option Join
  | .condition => Option String
  | .sorting => Option Sorting
  | .limit | .offset => Option Nat
  | .tables | .grouping | .targets => List String

/-- What is in a slot. -/
def Statement.get (st : Statement) : (slot : Slot) → slot.Content
  | .verb => st.verb
  | .unique => st.unique
  | .name => st.name
  | .target => st.target
  | .columns => st.columns
  | .definitions => st.definitions
  | .values => st.values
  | .view => st.view
  | .operands => st.operands
  | .tables => st.tables
  | .join => st.join
  | .condition => st.condition
  | .grouping => st.grouping
  | .sorting => st.sorting
  | .limit => st.limit
  | .offset => st.offset
  | .targets => st.targets

/-- A statement is what is in its slots. -/
theorem Statement.ext_get {s t : Statement} (h : ∀ slot, s.get slot = t.get slot) : s = t := by
  cases s
  cases t
  simp only [Statement.mk.injEq]
  exact ⟨h .verb, h .unique, h .name, h .target, h .columns, h .definitions, h .values, h .view,
    h .operands, h .tables, h .join, h .condition, h .grouping, h .sorting, h .limit, h .offset,
    h .targets⟩

/-- The slots of a clause. Paging with a count has two. -/
def ClauseCall.slots : ClauseCall → List Slot
  | .fromTables _ => [.tables]
  | .join _ _ => [.join]
  | .filterBy _ => [.condition]
  | .limit _ none => [.limit]
  | .limit _ (some _) => [.limit, .offset]
  | .offset _ => [.offset]
  | .orderBy _ _ => [.sorting]
  | .groupBy _ => [.grouping]
  | .intoTargets _ => [.targets]

/-- The slots that a step writes where it goes on with the statement. -/
def Step.slots : Step → List Slot
  | .call (.clause c) => c.slots
  | .call (.set _) | .setJson _ => [.values]
  | .filterByJson _ => [.condition]
  | _ => []

/-- The slots that clauses and assignments have among them. -/
theorem Step.slots_subset (s : Step) :
    s.slots ⊆ [.values, .tables, .join, .condition, .grouping, .sorting, .limit, .offset,
      .targets] := by
  cases s with
  | call c =>
    cases c with
    | clause c =>
      cases c with
      | limit index count => cases count <;> simp [slots, ClauseCall.slots]
      | _ => simp [slots, ClauseCall.slots]
    | verb c | set pairs => simp [slots]
  | _ => simp [slots]

/-- No clause has the verb for a slot. -/
theorem Step.verb_notMem_slots (s : Step) : .verb ∉ s.slots := by
  intro hmem
  simpa using s.slots_subset hmem

/-- No clause has the name for a slot. -/
theorem Step.name_notMem_slots (s : Step) : .name ∉ s.slots := by
  intro hmem
  simpa using s.slots_subset hmem

/-- A clause leaves every slot but its own. -/
theorem Settings.Fills.get {s : Settings} {c : ClauseCall} {change : Statement → Statement}
    (h : s.Fills c change) {slot : Slot} (hslot : slot ∉ c.slots) (st : Statement) :
    (change st).get slot = st.get slot := by
  cases h <;> cases slot <;> first | rfl | exact absurd (by simp [ClauseCall.slots]) hslot

/-- Outcomes with the same result, and with the same builder if it is a success. -/
structure Outcome.Matches (o o' : Outcome) : Prop where
  result : o'.2 = o.2
  builder : o.2 = .ok () → o'.1 = o.1

namespace Outcome.Matches

variable {o o' o'' : Outcome}

theorem refl (o : Outcome) : Matches o o := ⟨rfl, fun _ => rfl⟩

theorem trans (h : Matches o o') (h' : Matches o' o'') : Matches o o'' := by
  refine ⟨h'.result.trans h.result, fun hok => ?_⟩
  have hok' : o'.2 = .ok () := h.result.trans hok
  exact (h'.builder hok').trans (h.builder hok)

end Outcome.Matches

namespace Builder

variable {b b' : Builder} {c : Call Builder} {s : Step}

/-- Whether a step starts a statement: a verb does, and an assignment outside an
update. -/
def starts (b : Builder) : Step → Bool
  | .call (.verb _) | .insertJson _ _ => true
  | .call (.set _) | .setJson _ => !b.inUpdate
  | _ => false

/-! ## Steps that go on with the statement -/

/-- What holds of the builder before a method and of the builder that it leaves
holds after it is settled. -/
theorem settle_induction {P : Builder → Prop} (hb : P b) {x : Except Fault Builder}
    (hx : ∀ after, x = .ok after → P after) : P (b.settle x).1 := by
  cases x with
  | ok after => exact hx after rfl
  | error fault => exact hb

theorem get_perform_clause {c : ClauseCall} (hc : b.PagesAtMost (.clause c)) {slot : Slot}
    (hslot : slot ∉ c.slots) :
    (b.perform (.clause c)).1.statement.get slot = b.statement.get slot := by
  rw [perform_eq_settle_of_pagesAtMost hc]
  refine settle_induction (P := fun after => after.statement.get slot = b.statement.get slot) rfl
    fun after hafter => ?_
  obtain ⟨-, -, hmethod⟩ := ok_of_bind hafter
  obtain ⟨change, hchange, hafter⟩ := ok_of_bind hmethod
  obtain rfl := Except.ok.inj hafter
  exact (Settings.fills_of_fill hchange).get hslot b.statement

theorem get_perform_set {pairs : List (String × Value)} (hupdate : b.inUpdate = true)
    (hc : b.PagesAtMost (.set pairs)) {slot : Slot} (hslot : slot ≠ .values) :
    (b.perform (.set pairs)).1.statement.get slot = b.statement.get slot := by
  rw [perform_eq_settle_of_pagesAtMost hc]
  refine settle_induction (P := fun after => after.statement.get slot = b.statement.get slot) rfl
    fun after hafter => ?_
  obtain ⟨-, -, hmethod⟩ := ok_of_bind hafter
  rw [builtIn, if_pos hupdate] at hmethod
  obtain ⟨st, hst, hafter⟩ := ok_of_bind hmethod
  obtain rfl := Except.ok.inj hafter
  obtain ⟨values, -, hst⟩ := ok_of_bind hst
  obtain rfl := Except.ok.inj hst
  -- the new assignments are added to the slot of the values
  cases slot with
  | values => exact absurd rfl hslot
  | _ => rfl

/-- **The frame of a step.** A step that does not start a statement leaves every
slot but its own. -/
theorem get_step (hs : b.starts s = false) (hc : ∀ c, s.call? = some c → b.PagesAtMost c)
    {slot : Slot} (hslot : slot ∉ s.slots) :
    (b.step s).1.statement.get slot = b.statement.get slot := by
  cases s with
  | call c =>
    cases c with
    | verb c => cases hs
    | clause c => exact get_perform_clause (hc _ rfl) hslot
    | set pairs =>
      have hupdate : b.inUpdate = true := by simpa [starts] using hs
      exact get_perform_set hupdate (hc _ rfl) (by simpa [Step.slots] using hslot)
  | insertJson table row => cases hs
  | setJson values =>
    have hupdate : b.inUpdate = true := by simpa [starts] using hs
    rcases b.performRead_map (rowOfJson values) .set with ⟨pairs, hrow, h⟩ | ⟨fault, -, h⟩
    · rw [step, h]
      exact get_perform_set hupdate (hc _ (by rw [Step.call?, hrow]; rfl))
        (by simpa [Step.slots] using hslot)
    · rw [step, h]
  | filterByJson filter =>
    rcases b.performRead_map (Filter.ofJson filter) fun f => .clause (.filterBy f) with
      ⟨f, hfilter, h⟩ | ⟨fault, -, h⟩
    · rw [step, h]
      exact get_perform_clause (hc _ (by rw [Step.call?, hfilter]; rfl)) hslot
    · rw [step, h]
  | setDialect d | setTerminator terminator | setUseUtc useUtc | register table columns => rfl

/-! ## Steps that start a statement -/

theorem matches_settle (b b' : Builder) (x : Except Fault Builder) :
    Outcome.Matches (b.settle x) (b'.settle x) := by
  cases x with
  | ok after => exact ⟨rfl, fun _ => rfl⟩
  | error fault => exact ⟨rfl, fun h => by cases h⟩

/-- Neither the door nor the method of a call that starts a statement looks at
the statement before it. -/
theorem matches_perform (hb : b.settings.dialect.PagesOnly) (hsettings : b'.settings = b.settings)
    (hstarts : b.starts (.call c) = true) (hstarts' : b'.starts (.call c) = true) :
    Outcome.Matches (b.perform c) (b'.perform c) := by
  have hb' : b'.settings.dialect.PagesOnly := by
    rw [hsettings]
    exact hb
  have hsame : b'.gate c = b.gate c ∧ b'.builtIn c = b.builtIn c := by
    cases c with
    | verb c =>
      refine ⟨?_, ?_⟩
      · rw [gate, gate, hsettings]
      · rw [builtIn, builtIn, startVerb, startVerb, hsettings]
    | clause c => cases hstarts
    | set pairs =>
      have hupdate : b.inUpdate = false := by simpa [starts] using hstarts
      have hupdate' : b'.inUpdate = false := by simpa [starts] using hstarts'
      refine ⟨?_, ?_⟩
      · rw [gate, gate, hsettings, hupdate, hupdate']
      · rw [builtIn, builtIn, hupdate, hupdate', if_neg Bool.false_ne_true,
          if_neg Bool.false_ne_true, assignVariables, assignVariables, hsettings]
  rw [perform_eq_settle hb, perform_eq_settle hb', hsame.1, hsame.2]
  exact matches_settle b b' _

/-- **A step that starts a statement forgets the one before it.** -/
theorem step_forgets (hb : b.settings.dialect.PagesOnly) (hsettings : b'.settings = b.settings)
    (hstarts : b.starts s = true) (hstarts' : b'.starts s = true) :
    Outcome.Matches (b.step s) (b'.step s) := by
  have hfault : ∀ fault : Fault, Outcome.Matches (b, .error fault) (b', .error fault) :=
    fun fault => ⟨rfl, fun h => by cases h⟩
  cases s with
  | call c => exact matches_perform hb hsettings hstarts hstarts'
  | insertJson table row =>
    rw [step, step]
    cases rowOfJson row with
    | ok r => exact matches_perform hb hsettings (c := .verb (.insert table r)) rfl rfl
    | error fault => exact hfault fault
  | setJson values =>
    rw [step, step]
    cases rowOfJson values with
    | ok r => exact matches_perform hb hsettings (c := .set r) hstarts hstarts'
    | error fault => exact hfault fault
  | filterByJson filter => cases hstarts
  | setDialect d | setTerminator terminator | setUseUtc useUtc | register table columns =>
    cases hstarts

/-- **Verbs forget the statement, clauses keep what is not theirs, and settings
touch nothing.** On two builders with equal settings and any two statements, a
step that starts a statement has the same result, and if it is accepted the
builders are equal afterwards; so whatever follows is equal, too. A clause, or
an assignment in an update, leaves the verb and every slot but its own,
whichever way it is given its arguments and whether it is accepted or not, as
long as no override takes its place. A change of the settings leaves the whole
statement, and its text is what it was. -/
theorem verbs_forget_clauses_keep :
    (∀ (b b' : Builder) (s : Step), b.settings.dialect.PagesOnly → b'.settings = b.settings →
      b.starts s = true → b'.starts s = true →
      (b'.step s).2 = (b.step s).2 ∧ ((b.step s).2 = .ok () → (b'.step s).1 = (b.step s).1)) ∧
    (∀ (b : Builder) (s : Step), b.starts s = false →
      (∀ c, s.call? = some c → b.PagesAtMost c) →
      (b.step s).1.statement.verb = b.statement.verb ∧
      ∀ slot, slot ∉ s.slots → (b.step s).1.statement.get slot = b.statement.get slot) ∧
    ∀ (b : Builder) (d : Dialect) (terminator : String) (useUtc : Bool) (table : String)
      (columns : List (String × Validator)),
      ∀ s ∈ [Step.setDialect d, .setTerminator terminator, .setUseUtc useUtc,
        .register table columns],
      (b.step s).1.statement = b.statement ∧ (b.step s).1.renderWith "" = b.renderWith "" := by
  refine ⟨fun b b' s hb hsettings hstarts hstarts' => ?_, fun b s hstarts hc => ?_,
    fun b d terminator useUtc table columns s hs => ?_⟩
  · have hforgets := step_forgets hb hsettings hstarts hstarts'
    exact ⟨hforgets.result, hforgets.builder⟩
  · exact ⟨get_step hstarts hc s.verb_notMem_slots, fun slot hslot => get_step hstarts hc hslot⟩
  · -- a change of the settings has no slots of its own
    have hsettings : b.starts s = false ∧ s.call? = none ∧ s.slots = [] := by
      simp only [List.mem_cons, List.not_mem_nil, or_false] at hs
      rcases hs with rfl | rfl | rfl | rfl <;> exact ⟨rfl, rfl, rfl⟩
    obtain ⟨hstarts, hcall, hslots⟩ := hsettings
    have hstatement : (b.step s).1.statement = b.statement := by
      refine Statement.ext_get fun slot => get_step hstarts (fun c hc => ?_) ?_
      · rw [hcall] at hc
        cases hc
      · rw [hslots]
        exact List.not_mem_nil
    refine ⟨hstatement, ?_⟩
    rw [renderWith, renderWith, hstatement]

/-- An update on a builder that has deleted before, and a page, which leaves the
table that rows were deleted from. -/
theorem verbs_forget_clauses_keep_paged :
    let fresh := Builder.ofDialect .postgresql92 .universal
    let used := fresh.run [.call (.verb (.deleteFrom "old")), .call (.clause (.offset 1))]
    let update : Step := .call (.verb (.update "t"))
    let page : Step := .call (.clause (.limit 5 (some 10)))
    (used.step update).2 = .ok () ∧ (fresh.step update).1 = (used.step update).1 ∧
      (used.step page).2 = .ok () ∧ (used.step page).1.statement.get .name = "old" := by
  intro fresh used update page
  have hused : used.settings.dialect.PagesOnly := Dialect.pagesOnly_postgresql92
  have haccepted : (used.step update).2 = .ok () := rfl
  have hforgets := verbs_forget_clauses_keep.1 used fresh update hused rfl rfl rfl
  have hkeeps := verbs_forget_clauses_keep.2.1 used page rfl
    fun c _ => pagesAtMost_of_pagesOnly hused c
  exact ⟨haccepted, hforgets.2 haccepted, rfl, hkeeps.2 .name (by decide)⟩

end Builder

end SqlBuilder
