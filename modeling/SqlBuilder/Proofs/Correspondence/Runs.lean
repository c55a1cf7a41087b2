import SqlBuilder.Proofs.Correspondence.Calls
import SqlBuilder.Proofs.Correspondence.Documents
import SqlBuilder.Proofs.Dispatch

/-!
# Corresponding runs

Two builders that start alike and go through corresponding steps stay alike,
whether the steps succeed or not.

* `Step.Corresponds` — steps with corresponding arguments;
* `Builder.Corresponds` — what the steps preserve: equal settings, and
  statements that correspond slot by slot;
* `Builder.Corresponds.step` — one step;
* `Twins` — builders that corresponding runs have brought about, and
  `Twins.corresponds`, the invariant along the runs;
* `Twins.trace` — what callers see of the two runs, step by step.
-/

namespace SqlBuilder

/-- Steps with corresponding arguments; `B` is the relation between the
builders inside them. -/
inductive Step.Corresponds (K : Correspondence) (B : Builder → Builder → Prop) :
    Step → Step → Prop
  | call {c d : Call Builder} (h : Call.Corresponds K B c d) :
    Step.Corresponds K B (.call c) (.call d)
  | insertJson (table : String) {j k : Json} (h : Json.Corresponds K.value j k) :
    Step.Corresponds K B (.insertJson table j) (.insertJson table k)
  | setJson {j k : Json} (h : Json.Corresponds K.assigned j k) :
    Step.Corresponds K B (.setJson j) (.setJson k)
  | filterByJson {j k : Json} (h : Json.Corresponds K.value j k) :
    Step.Corresponds K B (.filterByJson j) (.filterByJson k)
  | setDialect {d : Dialect} (h : d.PagesOnly) :
    Step.Corresponds K B (.setDialect d) (.setDialect d)
  | setTerminator (terminator : String) :
    Step.Corresponds K B (.setTerminator terminator) (.setTerminator terminator)
  | setUseUtc (useUtc : Bool) : Step.Corresponds K B (.setUseUtc useUtc) (.setUseUtc useUtc)
  | register {table : String} {columns : List (String × Validator)}
    (h : K.registrable table columns) :
    Step.Corresponds K B (.register table columns) (.register table columns)

/-- Builders with equal settings and corresponding statements. -/
structure Builder.Corresponds (K : Correspondence) (b c : Builder) : Prop where
  settings : b.settings = c.settings
  pagesOnly : b.settings.dialect.PagesOnly
  schemas : K.schemas b.settings.schemas
  statement : b.statement.Corresponds K.text c.statement

/-- Outcomes with corresponding builders and agreeing results. -/
structure Outcome.Corresponds (K : Correspondence) (o p : Outcome) : Prop where
  builder : o.1.Corresponds K p.1
  result : Agree Eq o.2 p.2

namespace Builder.Corresponds

variable {K : Correspondence} {b c : Builder}

/-- A new builder corresponds to itself. -/
theorem ofDialect (K : Correspondence) {d : Dialect} {clock : LocalClock} (hd : d.PagesOnly) :
    (Builder.ofDialect d clock).Corresponds K (Builder.ofDialect d clock) where
  settings := rfl
  pagesOnly := hd
  schemas := K.schemas_empty
  statement := K.corresponds_empty

theorem inUpdate_eq (h : b.Corresponds K c) : b.inUpdate = c.inUpdate := by
  unfold Builder.inUpdate
  rw [h.statement.verb]

/-- Both texts correspond, or there is none for the same kind of fault. -/
theorem renderWith (h : b.Corresponds K c) :
    Agree K.text (b.renderWith "") (c.renderWith "") :=
  (K.agree_text h.statement).bind fun _ _ htext =>
    .ok (K.text_append htext (K.text_plain rfl))

/-- A method that succeeds on both sides or on neither settles alike. -/
theorem settle (h : b.Corresponds K c) {x y : Except Fault Builder}
    (hxy : Agree (Builder.Corresponds K) x y) :
    Outcome.Corresponds K (b.settle x) (c.settle y) := by
  cases hxy with
  | ok hafter => exact ⟨hafter, .ok rfl⟩
  | error hkind => exact ⟨h, .error hkind⟩

/-- The dialect is asked the same on both sides. -/
theorem gate (h : b.Corresponds K c) {B : Builder → Builder → Prop} {x y : Call Builder}
    (hxy : Call.Corresponds K B x y) : Agree Eq (b.gate x) (c.gate y) := by
  have hsame : b.gate x = c.gate y := by
    cases hxy with
    | verb hverb => rw [Builder.gate, Builder.gate, h.settings, hverb.method_eq]
    | clause hclause => rw [Builder.gate, Builder.gate, h.settings, hclause.method_eq]
    | set hset => rw [Builder.gate, Builder.gate, h.settings, h.inUpdate_eq]
  rw [hsame]
  exact Agree.refl fun _ _ => rfl

/-- The built-in methods preserve the correspondence. -/
theorem builtIn (h : b.Corresponds K c) {B : Builder → Builder → Prop}
    (hB : ∀ v w, B v w → v.Corresponds K w) {x y : Call Builder}
    (hxy : Call.Corresponds K B x y) :
    Agree (Builder.Corresponds K) (b.builtIn x) (c.builtIn y) := by
  have hupdate := h.inUpdate_eq
  obtain ⟨settings, st⟩ := b
  obtain ⟨settings', tt⟩ := c
  obtain rfl : settings = settings' := h.settings
  have hstatement : st.Corresponds K.text tt := h.statement
  have hwith : ∀ s t : Statement, s.Corresponds K.text t →
      Builder.Corresponds K ⟨settings, s⟩ ⟨settings, t⟩ :=
    fun s t hst => { h with statement := hst }
  cases hxy with
  | @verb v w hverb =>
    have hinner := fun v w hvw => (hB v w hvw).statement
    refine (Correspondence.agree_start h.schemas hinner hverb).bind fun s t hst => .ok ?_
    rw [← hverb.afterVerb_eq]
    -- a verb leaves the dialect, and registers a table without columns at most
    refine ⟨rfl, ?_, ?_, hst⟩
    · cases v <;> exact h.pagesOnly
    · cases v <;> first | exact K.schemas_ensure h.schemas | exact h.schemas
  | clause hclause =>
    exact (Correspondence.agree_fill h.schemas hclause).bind fun f g hfg =>
      .ok (hwith _ _ (hfg _ _ hstatement))
  | set hset =>
    rw [Builder.builtIn, Builder.builtIn, hupdate]
    -- a `SET` list goes on in an update and starts a statement elsewhere
    split
    · exact (Correspondence.agree_assignColumns h.schemas hstatement hset).bind fun s t hst =>
        .ok (hwith s t hst)
    · exact (Correspondence.agree_assignVariables h.schemas hset).bind fun s t hst =>
        .ok (hwith s t hst)

/-- **Corresponding calls preserve the correspondence**, whether they succeed
or not. -/
theorem perform (h : b.Corresponds K c) {B : Builder → Builder → Prop}
    (hB : ∀ v w, B v w → v.Corresponds K w) {x y : Call Builder}
    (hxy : Call.Corresponds K B x y) : Outcome.Corresponds K (b.perform x) (c.perform y) := by
  rw [Builder.perform_eq_settle h.pagesOnly,
    Builder.perform_eq_settle (h.settings ▸ h.pagesOnly)]
  exact h.settle ((h.gate hxy).bind fun _ _ _ => h.builtIn hB hxy)

theorem performRead (h : b.Corresponds K c) {B : Builder → Builder → Prop}
    (hB : ∀ v w, B v w → v.Corresponds K w) {x y : Except Fault (Call Builder)}
    (hxy : Agree (Call.Corresponds K B) x y) :
    Outcome.Corresponds K (b.performRead x) (c.performRead y) := by
  cases hxy with
  | ok hcall => exact h.perform hB hcall
  | error hkind => exact ⟨h, .error hkind⟩

/-- A change of the settings that the correspondence allows. -/
theorem configure (h : b.Corresponds K c) {change : Settings → Settings}
    (hdialect : (change b.settings).dialect.PagesOnly)
    (hschemas : K.schemas (change b.settings).schemas) :
    Outcome.Corresponds K (b.configure change) (c.configure change) where
  builder := ⟨congrArg change h.settings, hdialect, hschemas, h.statement⟩
  result := .ok rfl

/-- **Corresponding steps preserve the correspondence.** -/
theorem step (h : b.Corresponds K c) {B : Builder → Builder → Prop}
    (hB : ∀ v w, B v w → v.Corresponds K w) {s t : Step} (hst : Step.Corresponds K B s t) :
    Outcome.Corresponds K (b.step s) (c.step t) := by
  cases hst with
  | call hcall => exact h.perform hB hcall
  | insertJson table hjson =>
    exact h.performRead hB ((agree_rowOfJson K.keepsScalars_value hjson).bind
      fun _ _ hrow => .ok (.verb (.insert table hrow)))
  | setJson hjson =>
    exact h.performRead hB ((agree_rowOfJson K.keepsScalars hjson).bind
      fun _ _ hrow => .ok (.set hrow))
  | filterByJson hjson =>
    exact h.performRead hB ((agree_filterOfJson K.keepsScalars_value hjson).bind
      fun _ _ hfilter => .ok (.clause (.filterBy hfilter)))
  | setDialect hd =>
    rw [Builder.step, Builder.step]
    exact h.configure hd h.schemas
  | setTerminator terminator =>
    rw [Builder.step, Builder.step]
    exact h.configure h.pagesOnly h.schemas
  | setUseUtc useUtc =>
    rw [Builder.step, Builder.step]
    exact h.configure h.pagesOnly h.schemas
  | register hregister =>
    rw [Builder.step, Builder.step]
    exact h.configure h.pagesOnly (K.schemas_register h.schemas hregister)

end Builder.Corresponds

/-! ## Runs -/

/-- Two builders that runs with corresponding steps have brought about. The
builders inside the steps are twins, too. -/
inductive Twins (K : Correspondence) : Builder → Builder → Prop
  | fresh {d : Dialect} {clock : LocalClock} (hd : d.PagesOnly) :
    Twins K (.ofDialect d clock) (.ofDialect d clock)
  | step {b c : Builder} {s t : Step} {B : Builder → Builder → Prop} (h : Twins K b c)
    (hB : ∀ v w, B v w → Twins K v w) (hst : Step.Corresponds K B s t) :
    Twins K (b.step s).1 (c.step t).1

/-- **Twins correspond.** -/
theorem Twins.corresponds {K : Correspondence} {b c : Builder} (h : Twins K b c) :
    b.Corresponds K c := by
  induction h with
  | fresh hd => exact Builder.Corresponds.ofDialect K hd
  | step h hB hst ih ihB => exact (ih.step ihB hst).builder

/-- The outcomes of some steps, one after the other. -/
def Builder.trace (b : Builder) : List Step → List Outcome
  | [] => []
  | s :: steps => b.step s :: (b.step s).1.trace steps

/-- **Corresponding runs look alike to a caller.** After every step the results
agree, and the texts of the statements correspond. -/
theorem Twins.trace {K : Correspondence} {b c : Builder} (h : Twins K b c) {ss ts : List Step}
    (hsteps : List.Forall₂ (Step.Corresponds K (Twins K)) ss ts) :
    List.Forall₂ (fun o p => Agree Eq o.2 p.2 ∧
      Agree K.text (o.1.renderWith "") (p.1.renderWith "")) (b.trace ss) (c.trace ts) := by
  induction hsteps generalizing b c with
  | nil => exact .nil
  | cons hst _ ih =>
    have houtcome := h.corresponds.step (fun _ _ hvw => hvw.corresponds) hst
    have htwins : Twins K _ _ := h.step (fun _ _ hvw => hvw) hst
    exact .cons ⟨houtcome.result, houtcome.builder.renderWith⟩ (ih htwins)

end SqlBuilder
